import Mathlib.Data.List.Pairwise
import SqlLint.Config
import SqlLint.Proofs.Coherence

/-! # References to rules

A reference leads to the first rule with its code or else to the rule with its name, both in any
letter case. Main statements: `found_iff_known`, look-up and validation accept the references that
name a registered rule; `addressable_iff`, every rule is found under its own code and name exactly if
no two rules share a reference. -/

namespace SqlLint

theorem RuleInfo.isNamedBy_iff {info : RuleInfo} {reference : String} :
    info.isNamedBy reference = true
      ↔ Text.lower reference = Text.lower info.code ∨ Text.lower reference = Text.lower info.name := by
  simp [isNamedBy]

namespace Rule

variable {rules : List Rule}

/-- Whether a reference names one of the rules. -/
def Known (rules : List Rule) (reference : String) : Prop :=
  ∃ rule ∈ rules, rule.info.isNamedBy reference = true

/-- Whether no reference names two of the rules. -/
def Unambiguous (rules : List Rule) : Prop :=
  ∀ reference, ∀ a ∈ rules, ∀ b ∈ rules, a.info.isNamedBy reference = true →
    b.info.isNamedBy reference = true → a = b

/-- Whether two rules with different names share no reference. -/
def Apart (a b : Rule) : Prop :=
  Text.lower a.info.code ≠ Text.lower b.info.code
    ∧ Text.lower a.info.code ≠ Text.lower b.info.name
    ∧ Text.lower a.info.name ≠ Text.lower b.info.code

instance : Std.Symm Apart where
  symm _ _ h := ⟨h.1.symm, h.2.2.symm, h.2.1.symm⟩

theorem unambiguous_iff (h : Distinct rules) : Unambiguous rules ↔ rules.Pairwise Apart := by
  constructor
  · intro hone
    refine (List.Nodup.of_map _ h.codes).pairwise_of_forall_ne fun a ha b hb hne => ?_
    refine ⟨fun heq => hne ?_, fun heq => hne ?_, fun heq => hne ?_⟩
    · refine hone a.info.code a ha b hb ?_ ?_ <;> simp [RuleInfo.isNamedBy_iff, heq]
    · refine hone a.info.code a ha b hb ?_ ?_ <;> simp [RuleInfo.isNamedBy_iff, heq]
    · refine hone a.info.name a ha b hb ?_ ?_ <;> simp [RuleInfo.isNamedBy_iff, heq]
  · intro hapart reference a ha b hb hna hnb
    by_contra hne
    obtain ⟨hcodes, hcodeName, hnameCode⟩ := hapart.forall ha hb hne
    rw [RuleInfo.isNamedBy_iff] at hna hnb
    rcases hna with hna | hna <;> rcases hnb with hnb | hnb
    · exact hcodes (hna.symm.trans hnb)
    · exact hcodeName (hna.symm.trans hnb)
    · exact hnameCode (hna.symm.trans hnb)
    · exact hne (List.inj_on_of_nodup_map h.names ha hb (hna.symm.trans hnb))

end Rule

namespace Registry

variable {r : Registry} {rule : Rule} {reference other : String}

/-! ## Look-up -/

theorem lookup_map_pair {α : Type} (key value : α → String) (items : List α) (k : String) :
    (items.map fun x => (key x, value x)).lookup k = (items.find? (key · == k)).map value := by
  induction items with
  | nil => rfl
  | cons x items ih =>
    rw [List.map_cons, List.lookup_cons, List.find?_cons, ih, BEq.comm]
    cases key x == k <;> rfl

theorem bind_find?_code (h : Rule.Distinct r.rules) (p : Rule → Bool) :
    (((r.rules.find? p).map Rule.code) >>= r.find?) = r.rules.find? p := by
  cases hfound : r.rules.find? p with
  | none => rfl
  | some rule => exact find?_code h (List.mem_of_find?_eq_some hfound)

theorem Coherent.get?_eq (h : r.Coherent) (reference : String) :
    r.get? reference = (r.rules.find? (Text.same ·.info.code reference)).or
      (r.rules.find? (Text.same ·.info.name reference)) := by
  have hcode : (r.rules.map (·.info.code)).find? (Text.same · reference)
      = (r.rules.find? (Text.same ·.info.code reference)).map Rule.code := List.find?_map
  have hname : r.names.lookup (Text.lower reference)
      = (r.rules.find? (Text.same ·.info.name reference)).map Rule.code := by
    rw [h.names]
    exact lookup_map_pair Rule.nameKey Rule.code r.rules _
  unfold get? code?
  rw [hcode, hname]
  cases hfound : r.rules.find? (Text.same ·.info.code reference) with
  | none => exact bind_find?_code h.distinct _
  | some rule => exact find?_code h.distinct (List.mem_of_find?_eq_some hfound)

theorem get?_of_same (r : Registry) (h : Text.same reference other = true) :
    r.get? reference = r.get? other := by
  have hlower : Text.lower reference = Text.lower other := (Text.same_iff _ _).1 h
  unfold get? code? Text.same
  rw [hlower]

theorem Coherent.named_of_get? (h : r.Coherent) (hfound : r.get? reference = some rule) :
    rule ∈ r.rules ∧ rule.info.isNamedBy reference = true := by
  rw [h.get?_eq, Option.or_eq_some_iff] at hfound
  rw [RuleInfo.isNamedBy_iff]
  rcases hfound with hcode | ⟨-, hname⟩
  · have hsame := List.find?_some hcode
    exact ⟨List.mem_of_find?_eq_some hcode, .inl ((Text.same_iff _ _).1 hsame).symm⟩
  · have hsame := List.find?_some hname
    exact ⟨List.mem_of_find?_eq_some hname, .inr ((Text.same_iff _ _).1 hsame).symm⟩

theorem Coherent.isSome_get?_iff (h : r.Coherent) (reference : String) :
    (r.get? reference).isSome = true ↔ Rule.Known r.rules reference := by
  constructor
  · intro hsome
    obtain ⟨rule, hfound⟩ := Option.isSome_iff_exists.1 hsome
    exact ⟨rule, h.named_of_get? hfound⟩
  · rintro ⟨rule, hrule, hnamed⟩
    rw [h.get?_eq, Option.isSome_or, Bool.or_eq_true, List.find?_isSome, List.find?_isSome]
    rw [RuleInfo.isNamedBy_iff] at hnamed
    rcases hnamed with hcode | hname
    · exact .inl ⟨rule, hrule, (Text.same_iff _ _).2 hcode.symm⟩
    · exact .inr ⟨rule, hrule, (Text.same_iff _ _).2 hname.symm⟩

/-! ## Rules under their own code and name -/

/-- Whether a rule is found under its own code and under its own name. -/
def Finds (r : Registry) (rule : Rule) : Prop :=
  r.get? rule.info.code = some rule ∧ r.get? rule.info.name = some rule

theorem Finds.get?_eq (h : r.Finds rule) (hnamed : rule.info.isNamedBy reference = true) :
    r.get? reference = some rule := by
  rcases RuleInfo.isNamedBy_iff.1 hnamed with hcode | hname
  · rw [r.get?_of_same ((Text.same_iff _ _).2 hcode)]
    exact h.1
  · rw [r.get?_of_same ((Text.same_iff _ _).2 hname)]
    exact h.2

theorem Coherent.get?_eq_some (h : r.Coherent) (hone : Rule.Unambiguous r.rules)
    (hrule : rule ∈ r.rules) (hnamed : rule.info.isNamedBy reference = true) :
    r.get? reference = some rule := by
  obtain ⟨other, hfound⟩ := Option.isSome_iff_exists.1
    ((h.isSome_get?_iff reference).2 ⟨rule, hrule, hnamed⟩)
  obtain ⟨hother, hotherNamed⟩ := h.named_of_get? hfound
  rw [hfound, hone reference other hother rule hrule hotherNamed hnamed]

theorem Coherent.finds_iff_unambiguous (h : r.Coherent) :
    (∀ rule ∈ r.rules, r.Finds rule) ↔ Rule.Unambiguous r.rules := by
  constructor
  · intro hfinds reference a ha b hb hna hnb
    have hfound : some a = some b :=
      ((hfinds a ha).get?_eq hna).symm.trans ((hfinds b hb).get?_eq hnb)
    exact Option.some.inj hfound
  · intro hone rule hrule
    exact ⟨h.get?_eq_some hone hrule (by simp [RuleInfo.isNamedBy_iff]),
      h.get?_eq_some hone hrule (by simp [RuleInfo.isNamedBy_iff])⟩

/-- Every rule answers to its own references exactly if no two rules share one. -/
theorem addressable_iff (calls : List Rule) :
    (∀ reference other, Text.same reference other = true →
      (after calls).get? reference = (after calls).get? other)
      ∧ (∀ rule ∈ registered calls, ((after calls).get? rule.info.code).isSome = true
        ∧ ((after calls).get? rule.info.name).isSome = true)
      ∧ ((∀ rule ∈ registered calls, (after calls).get? rule.info.code = some rule
          ∧ (after calls).get? rule.info.name = some rule)
        ↔ (registered calls).Pairwise Rule.Apart)
      ∧ (Rule.Unambiguous (registered calls) ↔ (registered calls).Pairwise Rule.Apart) := by
  have hcoherent := coherent_after calls
  have hpairwise := Rule.unambiguous_iff hcoherent.distinct
  rw [← rules_after]
  refine ⟨fun _ _ => get?_of_same _, fun rule hrule => ?_,
    hcoherent.finds_iff_unambiguous.trans hpairwise, hpairwise⟩
  simp only [hcoherent.isSome_get?_iff]
  exact ⟨⟨rule, hrule, by simp [RuleInfo.isNamedBy_iff]⟩,
    ⟨rule, hrule, by simp [RuleInfo.isNamedBy_iff]⟩⟩

end Registry

/-! ## Rules that look alike -/

def Rule.capitals : Rule := .total ⟨"LINT_XX_001", "test.first", .structural, "", .info, []⟩
  fun _ _ => []

/-- The code of `capitals` in small letters. -/
def Rule.smallLetters : Rule := .total ⟨"lint_xx_001", "test.second", .structural, "", .info, []⟩
  fun _ _ => []

/-- The code of `capitals` as a name. -/
def Rule.namedLikeCode : Rule := .total ⟨"LINT_XX_002", "lint_xx_001", .structural, "", .info, []⟩
  fun _ _ => []

/-- All three are registered, and the second and the third are out of reach. -/
theorem Registry.after_lookalikes :
    registered [.capitals, .smallLetters, .namedLikeCode]
        = [.capitals, .smallLetters, .namedLikeCode]
      ∧ (after [.capitals, .smallLetters, .namedLikeCode]).get? Rule.smallLetters.info.code
        = some .capitals
      ∧ (after [.capitals, .smallLetters, .namedLikeCode]).get? Rule.namedLikeCode.info.name
        = some .capitals
      ∧ Rule.capitals.info ≠ Rule.smallLetters.info
      ∧ Rule.capitals.info ≠ Rule.namedLikeCode.info :=
  ⟨rfl, rfl, rfl, by decide, by decide⟩

/-! ## Validation -/

namespace Config

variable {config : Config} {registry : Registry}

theorem validate_eq_ok_iff : config.validate registry = .ok ()
    ↔ ∀ reference ∈ config.references, (registry.get? reference).isSome = true := by
  have hnone : config.validate registry = .ok ()
      ↔ config.references.find? (fun reference => (registry.get? reference).isNone) = none := by
    unfold validate
    split <;> simp [*]
  rw [hnone, List.find?_eq_none]
  simp [Option.isSome_iff_ne_none]

theorem validate_eq_error_iff {e : ConfigError} : config.validate registry = .error e
    ↔ ∃ reference before later, e = .unknownRule reference
      ∧ config.references = before ++ reference :: later
      ∧ (∀ earlier ∈ before, (registry.get? earlier).isSome = true)
      ∧ ¬(registry.get? reference).isSome = true := by
  have hsome : config.validate registry = .error e
      ↔ ∃ reference, e = .unknownRule reference
        ∧ config.references.find? (fun reference => (registry.get? reference).isNone)
          = some reference := by
    unfold validate
    split <;> simp [*, eq_comm]
  simp only [hsome, List.find?_eq_some_iff_append, Option.not_isNone]
  constructor
  · rintro ⟨reference, he, hnone, before, later, hsplit, hbefore⟩
    exact ⟨reference, before, later, he, hsplit, hbefore, by simpa using hnone⟩
  · rintro ⟨reference, before, later, he, hsplit, hbefore, hnone⟩
    exact ⟨reference, he, by simpa using hnone, before, later, hsplit, hbefore⟩

end Config

/-- Look-up and validation accept the references that name a registered rule. -/
theorem Registry.found_iff_known (calls : List Rule) :
    (∀ reference, ((after calls).get? reference).isSome = true
      ↔ ∃ rule ∈ registered calls, rule.info.isNamedBy reference = true)
      ∧ (∀ reference rule, (after calls).get? reference = some rule →
        rule ∈ registered calls ∧ rule.info.isNamedBy reference = true)
      ∧ ∀ config : Config,
        (config.validate (after calls) = .ok ()
          ↔ ∀ reference, reference ∈ config.disabledRules ∨ reference ∈ config.enabledRules
              ∨ reference ∈ config.ruleConfigs.keys ∨ reference ∈ config.ruleSeverities.keys →
            Rule.Known (registered calls) reference)
        ∧ ∀ e, config.validate (after calls) = .error e
          ↔ ∃ reference before later, e = .unknownRule reference
            ∧ config.disabledRules ++ config.enabledRules ++ config.ruleConfigs.keys
              ++ config.ruleSeverities.keys = before ++ reference :: later
            ∧ (∀ earlier ∈ before, Rule.Known (registered calls) earlier)
            ∧ ¬Rule.Known (registered calls) reference := by
  have hcoherent := coherent_after calls
  rw [← rules_after]
  refine ⟨hcoherent.isSome_get?_iff, fun _ _ => hcoherent.named_of_get?, fun config => ⟨?_, ?_⟩⟩
  · rw [Config.validate_eq_ok_iff]
    simp only [hcoherent.isSome_get?_iff, Config.references, List.mem_append, or_assoc]
  · intro e
    rw [Config.validate_eq_error_iff]
    simp only [hcoherent.isSome_get?_iff, Config.references]

end SqlLint
