import Mathlib.Data.List.Find
import SqlLint.Proofs.Lookup
import SqlLint.Proofs.Restriction

/-! # References spelled otherwise

A configuration may name a rule by its code or by its name and in any letter case. Main statement:
`check_respelled`, the spelling makes no difference to the findings, although the keys of a map change
places with it. -/

namespace SqlLint

/-! ## The references of the built-in rules -/

theorem Text.toLower_eq_point_iff {c : Char} : c.toLower = '.' ↔ c = '.' := by
  by_cases h : 65 ≤ c.val ∧ c.val ≤ 90
  · have hlower : c.toLower.val = c.val + 32 := by
      unfold Char.toLower
      simp [h]
    constructor
    · intro heq
      rw [heq] at hlower
      grind
    · rintro rfl
      rfl
  · have hlower : c.toLower = c := dif_neg h
    rw [hlower]

theorem Text.point_mem_lower_iff {s : String} : '.' ∈ (lower s).toList ↔ '.' ∈ s.toList := by
  simp [lower, toLower_eq_point_iff]

namespace Rule

/-- Built-in codes are in capitals and have no point, while every built-in name has one. -/
theorem spelling_builtinRules : ∀ rule ∈ builtinRules,
    Text.upper rule.info.code = rule.info.code ∧ '.' ∉ rule.info.code.toList
      ∧ '.' ∈ rule.info.name.toList := by
  decide +kernel

theorem lower_code_ne_lower_name {a b : Rule} (ha : a ∈ builtinRules) (hb : b ∈ builtinRules) :
    Text.lower a.info.code ≠ Text.lower b.info.name := by
  obtain ⟨-, hcode, -⟩ := spelling_builtinRules a ha
  obtain ⟨-, -, hname⟩ := spelling_builtinRules b hb
  intro heq
  rw [← Text.point_mem_lower_iff, ← heq, Text.point_mem_lower_iff] at hname
  exact hcode hname

theorem unambiguous_builtinRules : Unambiguous builtinRules := by
  refine (unambiguous_iff distinct_builtinRules).2 ?_
  have hnodup : builtinRules.Nodup := List.Nodup.of_map _ distinct_builtinRules.codes
  refine hnodup.pairwise_of_forall_ne fun a ha b hb hne => ⟨fun heq => hne ?_, ?_, ?_⟩
  · -- Codes that differ in letter case only are equal, since all are in capitals.
    have hupper := congrArg Text.upper heq
    rw [Text.upper_lower, Text.upper_lower, (spelling_builtinRules a ha).1,
      (spelling_builtinRules b hb).1] at hupper
    exact eq_of_code_eq ha hb hupper
  · exact lower_code_ne_lower_name ha hb
  · exact (lower_code_ne_lower_name hb ha).symm

end Rule

/-- Whether two references are the same or name the same built-in rule. -/
def Respells (a b : String) : Prop :=
  a = b ∨ ∃ rule ∈ builtinRules, rule.info.isNamedBy a = true ∧ rule.info.isNamedBy b = true

instance (a b : String) : Decidable (Respells a b) :=
  inferInstanceAs (Decidable (a = b ∨ _))

theorem Respells.isNamedBy_eq {a b : String} {rule : Rule} (h : Respells a b)
    (hrule : rule ∈ builtinRules) : rule.info.isNamedBy a = rule.info.isNamedBy b := by
  rcases h with rfl | ⟨named, hnamed, ha, hb⟩
  · rfl
  · rw [Bool.eq_iff_iff]
    constructor
    · intro hrule_a
      rw [Rule.unambiguous_builtinRules a rule hrule named hnamed hrule_a ha]
      exact hb
    · intro hrule_b
      rw [Rule.unambiguous_builtinRules b rule hrule named hnamed hrule_b hb]
      exact ha

/-! ## Maps with other keys -/

namespace KeyMap

variable {α : Type} {map : KeyMap α} {f : String → String}

/-- The map with its keys renamed. Of two keys that become one the later counts. -/
def renamed (map : KeyMap α) (f : String → String) : KeyMap α :=
  .ofList (map.entries.map fun e => (f e.1, e.2))

/-- Whether no built-in rule is named by two of the keys. -/
def NamesOnce (map : KeyMap α) : Prop :=
  ∀ rule ∈ builtinRules, ∀ a ∈ map.keys, ∀ b ∈ map.keys,
    rule.info.isNamedBy a = true → rule.info.isNamedBy b = true → a = b

instance (map : KeyMap α) : Decidable map.NamesOnce :=
  inferInstanceAs (Decidable (∀ rule ∈ builtinRules, _))

/-- Whether the other map is this one with some of its keys spelled otherwise. -/
def Respelled (map other : KeyMap α) : Prop :=
  ∃ f, (∀ key ∈ map.keys, Respells key (f key)) ∧ other = map.renamed f

theorem nodup_keys (map : KeyMap α) : map.keys.Nodup := by
  unfold keys List.Nodup
  rw [List.pairwise_map]
  refine map.ordered.imp fun hlt heq => ?_
  rw [heq] at hlt
  exact String.lt_irrefl _ hlt

theorem injOn_respells (hone : map.NamesOnce) (hf : ∀ key ∈ map.keys, Respells key (f key))
    {a b : String} (ha : a ∈ map.keys) (hb : b ∈ map.keys) (heq : f a = f b) : a = b := by
  by_cases hknown : Rule.Known builtinRules (f a)
  · obtain ⟨rule, hrule, hnamed⟩ := hknown
    have hna : rule.info.isNamedBy a = true := ((hf a ha).isNamedBy_eq hrule).trans hnamed
    have hnb : rule.info.isNamedBy b = true :=
      ((hf b hb).isNamedBy_eq hrule).trans (heq ▸ hnamed)
    exact hone rule hrule a ha b hb hna hnb
  · -- What names no rule stays as it is.
    have hsame : ∀ key ∈ map.keys, f key = f a → key = f key := by
      intro key hkey hfa
      refine (hf key hkey).resolve_right ?_
      rintro ⟨rule, hrule, -, hnamed⟩
      exact hknown ⟨rule, hrule, hfa ▸ hnamed⟩
    rw [hsame a ha rfl, heq]
    exact (hsame b hb heq.symm).symm

theorem perm_renamed (hone : map.NamesOnce) (hf : ∀ key ∈ map.keys, Respells key (f key)) :
    (map.renamed f).entries.Perm (map.entries.map fun e => (f e.1, e.2)) := by
  refine perm_ofList ?_
  have hkeys : (map.entries.map fun e => (f e.1, e.2)).map Prod.fst = map.keys.map f := by
    simp [keys]
  rw [hkeys]
  exact map.nodup_keys.map_on fun a ha b hb => injOn_respells hone hf ha hb

theorem findKey?_respelled {other : KeyMap α} {rule : Rule} (h : map.Respelled other)
    (hone : map.NamesOnce) (hrule : rule ∈ builtinRules) :
    other.findKey? rule.info.isNamedBy = map.findKey? rule.info.isNamedBy := by
  obtain ⟨f, hf, rfl⟩ := h
  have hnamed : ∀ e ∈ map.entries, rule.info.isNamedBy (f e.1) = rule.info.isNamedBy e.1 :=
    fun e he => ((hf e.1 (List.mem_map_of_mem he)).isNamedBy_eq hrule).symm
  have hsub : {e ∈ map.entries.map fun e => (f e.1, e.2) | rule.info.isNamedBy e.1}.Subsingleton := by
    rintro x ⟨hx, hxNamed⟩ y ⟨hy, hyNamed⟩
    obtain ⟨d, hd, rfl⟩ := List.mem_map.1 hx
    obtain ⟨e, he, rfl⟩ := List.mem_map.1 hy
    simp only [hnamed d hd] at hxNamed
    simp only [hnamed e he] at hyNamed
    have hkey : d.1 = e.1 := hone rule hrule d.1 (List.mem_map_of_mem hd) e.1
      (List.mem_map_of_mem he) hxNamed hyNamed
    rw [List.inj_on_of_nodup_map map.nodup_keys hd he hkey]
  have hfind : map.entries.find? ((fun e => rule.info.isNamedBy e.1) ∘ fun e => (f e.1, e.2))
      = map.entries.find? (fun e => rule.info.isNamedBy e.1) := List.find?_congr hnamed
  unfold findKey?
  rw [← List.find?_eq_find?_of_perm (perm_renamed hone hf).symm hsub, List.find?_map, hfind,
    Option.map_map]
  rfl

end KeyMap

/-! ## Configurations with other references -/

namespace Config

/-- Whether the other configuration says the same of the same rules, each named in some way. -/
structure Respelled (config other : Config) : Prop where
  enabled : other.enabled = config.enabled
  disabledRules : List.Forall₂ Respells config.disabledRules other.disabledRules
  enabledRules : List.Forall₂ Respells config.enabledRules other.enabledRules
  disabledGroups : other.disabledGroups = config.disabledGroups
  ruleConfigs : config.ruleConfigs.Respelled other.ruleConfigs
  ruleSeverities : config.ruleSeverities.Respelled other.ruleSeverities

variable {config other : Config} {rule : Rule}

theorem any_isNamedBy_respelled {references others : List String}
    (h : List.Forall₂ Respells references others) (hrule : rule ∈ builtinRules) :
    others.any rule.info.isNamedBy = references.any rule.info.isNamedBy := by
  induction h with
  | nil => rfl
  | cons hspelled _ ih => rw [List.any_cons, List.any_cons, hspelled.isNamedBy_eq hrule, ih]

theorem Respelled.enables (h : config.Respelled other) (hrule : rule ∈ builtinRules) :
    other.enables rule.info = config.enables rule.info := by
  unfold Config.enables
  rw [h.enabled, h.disabledGroups, any_isNamedBy_respelled h.disabledRules hrule,
    any_isNamedBy_respelled h.enabledRules hrule]

theorem Respelled.contextFor (h : config.Respelled other) (hconfigs : config.ruleConfigs.NamesOnce)
    (hseverities : config.ruleSeverities.NamesOnce) (hrule : rule ∈ builtinRules)
    (dialect : Dialect) :
    other.contextFor dialect rule.info = config.contextFor dialect rule.info := by
  unfold Config.contextFor severityFor optionsFor
  rw [KeyMap.findKey?_respelled h.ruleConfigs hconfigs hrule,
    KeyMap.findKey?_respelled h.ruleSeverities hseverities hrule]

end Config

/-- References can be respelled where no two keys of a map name one rule. -/
theorem Linter.check_respelled {config other : Config} (h : config.Respelled other)
    (hconfigs : config.ruleConfigs.NamesOnce) (hseverities : config.ruleSeverities.NamesOnce)
    (s : Statement) (dialect : Dialect) :
    (Linter.builtin other).check s dialect = (Linter.builtin config).check s dialect := by
  unfold check
  rw [enabledRules_builtin, enabledRules_builtin,
    List.filter_congr fun rule hrule => h.enables hrule]
  refine List.flatMap_congr fun rule hrule => ?_
  have hmem : rule ∈ builtinRules := List.mem_of_mem_filter hrule
  unfold runRule
  change ((rule.check s (other.contextFor dialect rule.info)).getD []).map _ = _
  rw [h.contextFor hconfigs hseverities hmem]
  rfl

/-! ## A configuration spelled in two ways -/

/-- The unions come first among the severities, and one reference names no rule. -/
def codedConfig : Config where
  enabled := true
  disabledRules := ["LINT_CV_004", "LINT_XX_001"]
  enabledRules := ["LINT_AM_002"]
  disabledGroups := [.ambiguous]
  ruleConfigs := .ofList [("LINT_AL_004", .object [("min_alias_length", .nat 2)])]
  ruleSeverities := .ofList [("LINT_AM_002", .error), ("aliasing.length", .hint)]

/-- Codes and names change over, and with them the places of the severities. -/
def namedConfig : Config where
  enabled := true
  disabledRules := ["Convention.Left_Join", "LINT_XX_001"]
  enabledRules := ["ambiguous.union"]
  disabledGroups := [.ambiguous]
  ruleConfigs := .ofList [("aliasing.LENGTH", .object [("min_alias_length", .nat 2)])]
  ruleSeverities := .ofList [("LINT_AL_004", .hint), ("ambiguous.UNION", .error)]

/-- The spelling in `namedConfig` of each key in `codedConfig`. -/
def namedKey (key : String) : String :=
  if key = "LINT_AM_002" then "ambiguous.UNION"
  else if key = "LINT_AL_004" then "aliasing.LENGTH"
  else "LINT_AL_004"

theorem codedConfig_respelled : codedConfig.Respelled namedConfig where
  enabled := rfl
  disabledRules := .cons (by decide +kernel) (.cons (.inl rfl) .nil)
  enabledRules := .cons (by decide +kernel) .nil
  disabledGroups := rfl
  ruleConfigs := ⟨namedKey, by decide +kernel, rfl⟩
  ruleSeverities := ⟨namedKey, by decide +kernel, rfl⟩

theorem codedConfig_namesOnce :
    codedConfig.ruleConfigs.NamesOnce ∧ codedConfig.ruleSeverities.NamesOnce := by
  constructor
  · intro rule _ a ha b hb _ _
    have hkeys : codedConfig.ruleConfigs.keys = ["LINT_AL_004"] := rfl
    rw [hkeys, List.mem_singleton] at ha hb
    rw [ha, hb]
  · decide +kernel

theorem Linter.check_codedConfig :
    (codedConfig.Respelled namedConfig ∧ codedConfig.ruleConfigs.NamesOnce
      ∧ codedConfig.ruleSeverities.NamesOnce)
      ∧ codedConfig.ruleSeverities.entries
        = [("LINT_AM_002", Severity.error), ("aliasing.length", .hint)]
      ∧ namedConfig.ruleSeverities.entries
        = [("LINT_AL_004", Severity.hint), ("ambiguous.UNION", .error)]
      ∧ (Linter.builtin namedConfig).check valuesUnion .generic
        = (Linter.builtin codedConfig).check valuesUnion .generic :=
  have ⟨hconfigs, hseverities⟩ := codedConfig_namesOnce
  ⟨⟨codedConfig_respelled, hconfigs, hseverities⟩, rfl, rfl,
    check_respelled codedConfig_respelled hconfigs hseverities valuesUnion .generic⟩

end SqlLint
