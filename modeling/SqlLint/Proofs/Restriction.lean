import Mathlib.Data.List.Flatten
import SqlLint.Proofs.Catalog
import SqlLint.Proofs.Stamps

/-! # Narrower configurations

A configuration that switches more off finds a part of what the wider one finds, in the same order.
Main statement: `check_narrowed`. -/

namespace SqlLint

/-- Whether a configuration switches off all that the wide one switches off, forces no other rule to
run, and has the same options and severities. -/
structure Config.Restricts (narrow wide : Config) : Prop where
  enabled : narrow.enabled = true → wide.enabled = true
  disabledRules : wide.disabledRules ⊆ narrow.disabledRules
  enabledRules : narrow.enabledRules ⊆ wide.enabledRules
  disabledGroups : wide.disabledGroups ⊆ narrow.disabledGroups
  ruleConfigs : narrow.ruleConfigs = wide.ruleConfigs
  ruleSeverities : narrow.ruleSeverities = wide.ruleSeverities

namespace Config

variable {narrow wide : Config} {info : RuleInfo}

theorem enables_iff {c : Config} : c.enables info = true
    ↔ c.enabled = true ∧ (∀ reference ∈ c.disabledRules, info.isNamedBy reference = false)
      ∧ ((∃ reference ∈ c.enabledRules, info.isNamedBy reference = true)
        ∨ info.group ∉ c.disabledGroups) := by
  simp [enables, and_assoc]

theorem Restricts.enables (h : narrow.Restricts wide) (hi : narrow.enables info = true) :
    wide.enables info = true := by
  rw [enables_iff] at hi ⊢
  obtain ⟨hon, hallowed, hwanted⟩ := hi
  refine ⟨h.enabled hon, fun reference hmem => hallowed reference (h.disabledRules hmem), ?_⟩
  rcases hwanted with ⟨reference, hmem, hnamed⟩ | hgroup
  · exact .inl ⟨reference, h.enabledRules hmem, hnamed⟩
  · exact .inr fun hoff => hgroup (h.disabledGroups hoff)

theorem Restricts.contextFor (h : narrow.Restricts wide) (dialect : Dialect) (info : RuleInfo) :
    narrow.contextFor dialect info = wide.contextFor dialect info := by
  unfold Config.contextFor severityFor optionsFor
  rw [h.ruleConfigs, h.ruleSeverities]

theorem Restricts.runRule (h : narrow.Restricts wide) (registry : Registry) (s : Statement)
    (dialect : Dialect) :
    (Linter.mk registry narrow).runRule s dialect
      = (Linter.mk registry wide).runRule s dialect := by
  funext rule
  unfold Linter.runRule
  rw [h.contextFor]

end Config

/-! ## The rule of a finding -/

theorem Rule.eq_of_code_eq {a b : Rule} (ha : a ∈ builtinRules) (hb : b ∈ builtinRules)
    (h : a.info.code = b.info.code) : a = b :=
  List.inj_on_of_nodup_map distinct_builtinRules.codes ha hb h

theorem Linter.code_of_mem_runRule {l : Linter} {s : Statement} {dialect : Dialect} {rule : Rule}
    {d : Diagnostic} (hrule : rule ∈ builtinRules) (hd : d ∈ l.runRule s dialect rule) :
    d.code = rule.info.code := by
  obtain ⟨d, hfound, rfl⟩ := List.mem_map.1 hd
  exact (Rules.stampsAll_builtinRules rule hrule s _ d hfound).code

theorem filter_flatMap_eq_flatMap_filter {α β : Type} {xs : List α} {f : α → List β}
    {p : β → Bool} {q : α → Bool} (h : ∀ x ∈ xs, ∀ y ∈ f x, p y = q x) :
    (xs.flatMap f).filter p = (xs.filter q).flatMap f := by
  induction xs with
  | nil => rfl
  | cons x xs ih =>
    have hhead := h x List.mem_cons_self
    have htail := ih fun x hx => h x (List.mem_cons_of_mem _ hx)
    rw [List.flatMap_cons, List.filter_append, htail]
    cases hq : q x with
    | true =>
      have hkept : (f x).filter p = f x :=
        List.filter_eq_self.2 fun y hy => (hhead y hy).trans hq
      rw [hkept, List.filter_cons_of_pos hq, List.flatMap_cons]
    | false =>
      have hdropped : (f x).filter p = [] :=
        List.filter_eq_nil_iff.2 fun y hy => by simp [hhead y hy, hq]
      rw [hdropped, List.filter_cons_of_neg (by simp [hq]), List.nil_append]

namespace Linter

theorem sublist_check {narrow wide : Config} (h : narrow.Restricts wide) (registry : Registry)
    (s : Statement) (dialect : Dialect) :
    ((Linter.mk registry narrow).check s dialect).Sublist
      ((Linter.mk registry wide).check s dialect) := by
  unfold check enabledRules
  rw [h.runRule]
  refine List.Sublist.flatMap ?_ _
  exact List.monotone_filter_right _ fun rule => h.enables

theorem any_enabledRules_builtin {config : Config} {rule : Rule} (hrule : rule ∈ builtinRules) :
    ((Linter.builtin config).enabledRules.any (·.info.code == rule.info.code))
      = config.enables rule.info := by
  rw [enabledRules_builtin, Bool.eq_iff_iff, List.any_eq_true]
  constructor
  · rintro ⟨other, hother, hcode⟩
    obtain ⟨hmem, hruns⟩ := List.mem_filter.1 hother
    rw [← Rule.eq_of_code_eq hmem hrule (beq_iff_eq.1 hcode)]
    exact hruns
  · intro hruns
    exact ⟨rule, List.mem_filter.2 ⟨hrule, hruns⟩, beq_self_eq_true _⟩

theorem check_builtin_eq_filter {narrow wide : Config} (h : narrow.Restricts wide) (s : Statement)
    (dialect : Dialect) :
    (Linter.builtin narrow).check s dialect
      = ((Linter.builtin wide).check s dialect).filter fun d =>
          (Linter.builtin narrow).enabledRules.any (·.info.code == d.code) := by
  have hrules : builtinRules.filter (narrow.enables ·.info)
      = (builtinRules.filter (wide.enables ·.info)).filter (narrow.enables ·.info) := by
    rw [List.filter_filter]
    refine List.filter_congr fun rule _ => ?_
    cases hruns : narrow.enables rule.info with
    | true => rw [h.enables hruns, Bool.and_self]
    | false => rfl
  have hrun : (Linter.builtin narrow).runRule s dialect = (Linter.builtin wide).runRule s dialect :=
    h.runRule .builtin s dialect
  -- Findings are told apart by code, and a code leads back to one rule.
  have hfilter : ∀ rule ∈ builtinRules.filter (wide.enables ·.info),
      ∀ d ∈ (Linter.builtin wide).runRule s dialect rule,
        ((Linter.builtin narrow).enabledRules.any (·.info.code == d.code))
          = narrow.enables rule.info := by
    intro rule hrule d hd
    have hmem : rule ∈ builtinRules := List.mem_of_mem_filter hrule
    rw [code_of_mem_runRule hmem hd, any_enabledRules_builtin hmem]
  unfold check
  rw [enabledRules_builtin wide, filter_flatMap_eq_flatMap_filter hfilter, ← hrules, ← hrun,
    enabledRules_builtin narrow]

theorem check_narrowed {narrow wide : Config} (h : narrow.Restricts wide) (s : Statement)
    (dialect : Dialect) :
    (∀ registry, ((Linter.mk registry narrow).check s dialect).Sublist
      ((Linter.mk registry wide).check s dialect))
      ∧ (Linter.builtin narrow).check s dialect
        = ((Linter.builtin wide).check s dialect).filter fun d =>
            (Linter.builtin narrow).enabledRules.any (·.info.code == d.code) :=
  ⟨fun registry => sublist_check h registry s dialect, check_builtin_eq_filter h s dialect⟩

end Linter

/-! ## A configuration narrowed in three places -/

/-- Ambiguous queries are off, but for bare unions. -/
def wideConfig : Config := ⟨true, [], ["ambiguous.union"], [.ambiguous], .empty, .empty⟩

/-- Bare unions are off as well, and so are the aliases and a rule of another group. -/
def narrowConfig : Config := ⟨true, ["lint_cv_004"], [], [.aliasing, .ambiguous], .empty, .empty⟩

/-- `VALUES (NULL) UNION VALUES (NULL)` -/
def valuesUnion : Statement :=
  let row : Body := .values [[⟨.literal ⟨.null, "NULL"⟩, .empty⟩]] .empty
  .query
    { ctes := []
      recursive := false
      body := .setOperation ⟨.union, .implicit, row, row, .empty⟩
      orderBy := []
      limit := none
      offset := none
      span := .empty }

theorem narrowConfig_restricts : narrowConfig.Restricts wideConfig :=
  ⟨fun _ => rfl, by decide, by decide, by decide, rfl, rfl⟩

theorem Linter.check_valuesUnion :
    (narrowConfig.Restricts wideConfig ∧ wideConfig.enables Rules.BareUnion.info = true
      ∧ narrowConfig.enables Rules.BareUnion.info = false)
      ∧ (∀ registry, ((Linter.mk registry narrowConfig).check valuesUnion .generic).Sublist
        ((Linter.mk registry wideConfig).check valuesUnion .generic))
      ∧ (Linter.builtin narrowConfig).check valuesUnion .generic
        = ((Linter.builtin wideConfig).check valuesUnion .generic).filter fun d =>
            (Linter.builtin narrowConfig).enabledRules.any (·.info.code == d.code) :=
  ⟨⟨narrowConfig_restricts, by decide, by decide⟩,
    check_narrowed narrowConfig_restricts valuesUnion .generic⟩

end SqlLint
