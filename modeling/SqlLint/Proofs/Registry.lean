import Mathlib.Data.List.Nodup
import SqlLint.Registry

/-! # When rules can be registered together

Main statement: `isOk_ofRules_iff`, rules form a registry exactly if no two of them share a code or,
up to letter case, a name. -/

namespace SqlLint

namespace Rule

def code (rule : Rule) : String := rule.info.code

/-- The name as far as it has to differ from other names. -/
def nameKey (rule : Rule) : String := Text.lower rule.info.name

/-- Whether no two of the rules share a code or a name. -/
structure Distinct (rules : List Rule) : Prop where
  codes : (rules.map code).Nodup
  names : (rules.map nameKey).Nodup

theorem Distinct.sublist {rules fewer : List Rule} (h : Distinct rules) (hs : fewer.Sublist rules) :
    Distinct fewer :=
  ⟨h.codes.sublist (hs.map code), h.names.sublist (hs.map nameKey)⟩

theorem distinct_concat_iff {rules : List Rule} {rule : Rule} (h : Distinct rules) :
    Distinct (rules ++ [rule])
      ↔ rule.code ∉ rules.map code ∧ rule.nameKey ∉ rules.map nameKey := by
  have hnodup : ∀ {key : Rule → String}, (rules.map key).Nodup →
      (((rules ++ [rule]).map key).Nodup ↔ key rule ∉ rules.map key) := by
    intro key hkeys
    rw [List.map_append, List.map_singleton, ← List.concat_eq_append, List.nodup_concat]
    exact and_iff_left hkeys
  rw [← hnodup h.codes, ← hnodup h.names]
  exact ⟨fun h => ⟨h.codes, h.names⟩, fun ⟨hcodes, hnames⟩ => ⟨hcodes, hnames⟩⟩

end Rule

namespace Registry

variable {r t : Registry} {rule : Rule}

/-! ## One registration -/

/-- The registry with one more rule. -/
def extended (r : Registry) (rule : Rule) : Registry :=
  ⟨r.rules ++ [rule], r.names ++ [(rule.nameKey, rule.code)],
    addToGroup rule.info.group rule.code r.groups⟩

theorem isSome_find?_iff {code : String} :
    (r.find? code).isSome = true ↔ code ∈ r.rules.map Rule.code := by
  rw [find?, List.find?_isSome, List.mem_map]
  simp only [beq_iff_eq, Rule.code]

/-- The three ways in which a registration can go. -/
theorem register_cases (r : Registry) (rule : Rule) :
    (rule.code ∈ r.rules.map Rule.code
        ∧ r.register rule = .error (.duplicateRule rule.code))
      ∨ (rule.code ∉ r.rules.map Rule.code ∧ ∃ existing, (rule.nameKey, existing) ∈ r.names
        ∧ r.register rule = .error (.duplicateName rule.info.name existing))
      ∨ (rule.code ∉ r.rules.map Rule.code ∧ rule.nameKey ∉ r.names.map Prod.fst
        ∧ r.register rule = .ok (r.extended rule)) := by
  unfold register
  by_cases hcode : (r.find? rule.info.code).isSome = true
  · exact .inl ⟨isSome_find?_iff.1 hcode, if_pos hcode⟩
  have hfree : rule.code ∉ r.rules.map Rule.code := mt isSome_find?_iff.2 hcode
  rw [if_neg hcode]
  cases hname : r.names.lookup (Text.lower rule.info.name) with
  | some existing =>
    obtain ⟨before, later, hnames, -⟩ := List.lookup_eq_some_iff.1 hname
    have hmem : (rule.nameKey, existing) ∈ r.names := by
      rw [hnames]
      exact List.mem_append_right _ List.mem_cons_self
    exact .inr (.inl ⟨hfree, existing, hmem, rfl⟩)
  | none =>
    have hnone : rule.nameKey ∉ r.names.map Prod.fst := by
      rw [List.lookup_eq_none_iff] at hname
      intro hmem
      obtain ⟨entry, hentry, hkey⟩ := List.mem_map.1 hmem
      have hne := hname entry hentry
      rw [hkey] at hne
      simp [Rule.nameKey] at hne
    exact .inr (.inr ⟨hfree, hnone, rfl⟩)

/-- Whether the index by name leads from the name of each rule to its code. -/
def IndexesNames (r : Registry) : Prop :=
  r.names = r.rules.map fun rule => (rule.nameKey, rule.code)

theorem IndexesNames.map_fst (h : r.IndexesNames) :
    r.names.map Prod.fst = r.rules.map Rule.nameKey := by
  rw [h, List.map_map]
  rfl

theorem IndexesNames.extended (h : r.IndexesNames) (rule : Rule) :
    (r.extended rule).IndexesNames := by
  unfold IndexesNames at h ⊢
  rw [Registry.extended, h, List.map_append]
  rfl

theorem IndexesNames.register (h : r.IndexesNames) (ht : r.register rule = .ok t) :
    t.IndexesNames := by
  rcases register_cases r rule with ⟨-, hr⟩ | ⟨-, existing, -, hr⟩ | ⟨-, -, hr⟩
  · rw [hr] at ht
    cases ht
  · rw [hr] at ht
    cases ht
  · rw [hr] at ht
    cases ht
    exact h.extended rule

theorem isOk_register_iff (h : r.IndexesNames) :
    (r.register rule).isOk = true
      ↔ rule.code ∉ r.rules.map Rule.code ∧ rule.nameKey ∉ r.rules.map Rule.nameKey := by
  rw [← h.map_fst]
  rcases register_cases r rule with ⟨hcode, hr⟩ | ⟨-, existing, hname, hr⟩ | ⟨hcode, hname, hr⟩
  · rw [hr]
    exact ⟨nofun, fun hfree => absurd hcode hfree.1⟩
  · rw [hr]
    exact ⟨nofun, fun hfree => absurd (List.mem_map_of_mem hname) hfree.2⟩
  · rw [hr]
    exact ⟨fun _ => ⟨hcode, hname⟩, fun _ => rfl⟩

/-! ## Many registrations -/

theorem isOk_foldlM_iff {rules : List Rule} (hindex : r.IndexesNames) (h : Rule.Distinct r.rules) :
    (rules.foldlM register r).isOk = true ↔ Rule.Distinct (r.rules ++ rules) := by
  -- What is registered so far stays distinct and indexed.
  induction rules generalizing r with
  | nil =>
    rw [List.append_nil]
    exact ⟨fun _ => h, fun _ => rfl⟩
  | cons rule rest ih =>
    have hfree : (r.register rule).isOk = true ↔ Rule.Distinct (r.rules ++ [rule]) :=
      (isOk_register_iff hindex).trans (Rule.distinct_concat_iff h).symm
    rw [List.foldlM_cons]
    cases hr : r.register rule with
    | error e =>
      rw [hr] at hfree
      -- The refused rule already clashes with those before it.
      have hsub : (r.rules ++ [rule]).Sublist (r.rules ++ rule :: rest) :=
        (List.Sublist.refl _).append (List.singleton_sublist.2 List.mem_cons_self)
      constructor
      · intro hok
        cases hok
      · intro hall
        cases hfree.2 (hall.sublist hsub)
    | ok t =>
      rw [hr] at hfree
      have hrules := rules_register hr
      have hdistinct : Rule.Distinct t.rules := hrules ▸ hfree.1 rfl
      have hrest := ih (hindex.register hr) hdistinct
      rw [hrules, List.append_assoc] at hrest
      exact hrest

theorem isOk_ofRules_iff {rules : List Rule} :
    (ofRules rules).isOk = true ↔ Rule.Distinct rules :=
  isOk_foldlM_iff rfl ⟨List.nodup_nil, List.nodup_nil⟩

end Registry
end SqlLint
