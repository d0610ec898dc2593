import Mathlib.Data.List.Basic
import SqlLint.Linter
import SqlLint.Proofs.Registry

/-! # Rules that fail

A rule that fails takes nothing from the findings of the others, and statements are checked apart
from each other. Main statement: `check_isolated`. -/

namespace SqlLint

namespace Diagnostic

/-- The finding, counted from `offset` statements on. -/
def shifted (d : Diagnostic) (offset : Nat) : Diagnostic :=
  { d with statementIndex := d.statementIndex.map (offset + ·) }

theorem documented_eq (d : Diagnostic) :
    d.documented = if d.docUrl.isSome then d else d.withDocUrl (documentationUrl d.code) := by
  obtain ⟨_, _, _, _, _, docUrl, _, _⟩ := d
  cases docUrl <;> rfl

end Diagnostic

namespace Linter

variable {config : Config} {dialect : Dialect} {s : Statement} {rule : Rule}

/-! ## One statement -/

theorem check_eq_flatten (l : Linter) (s : Statement) (dialect : Dialect) :
    l.check s dialect
      = (l.enabledRules.filterMap fun rule =>
          rule.check s (l.config.contextFor dialect rule.info)).flatten.map
            Diagnostic.documented := by
  unfold check
  induction l.enabledRules with
  | nil => rfl
  | cons rule rest ih =>
    rw [List.flatMap_cons, ih, runRule, List.filterMap_cons]
    cases rule.check s (l.config.contextFor dialect rule.info) with
    | none => rfl
    | some ds => rw [List.flatten_cons, List.map_append]; rfl

theorem runRule_of_silent {l : Linter}
    (h : (rule.check s (l.config.contextFor dialect rule.info)).getD [] = []) :
    l.runRule s dialect rule = [] := by
  unfold runRule
  rw [h, List.map_nil]

theorem check_of_silent {registry fewer : Registry} {before after : List Rule}
    (hrules : registry.rules = before ++ rule :: after) (hfewer : fewer.rules = before ++ after)
    (h : (rule.check s (config.contextFor dialect rule.info)).getD [] = []) :
    (Linter.mk registry config).check s dialect = (Linter.mk fewer config).check s dialect := by
  have hnone : (Linter.mk registry config).runRule s dialect rule = [] := runRule_of_silent h
  have hrun : (Linter.mk registry config).runRule s dialect
      = (Linter.mk fewer config).runRule s dialect := rfl
  unfold check enabledRules
  simp only [hrules, hfewer, List.filter_append, List.flatMap_append, List.filter_cons]
  split
  · rw [List.flatMap_cons, hnone, List.nil_append, hrun]
  · rw [hrun]

/-! ## Several statements -/

theorem checkAll_append (l : Linter) (xs ys : List Statement) (dialect : Dialect) :
    l.checkAll (xs ++ ys) dialect
      = l.checkAll xs dialect ++ (l.checkAll ys dialect).map (·.shifted xs.length) := by
  have hindex : ys.zipIdx (0 + xs.length) = ys.zipIdx.map fun p => (p.1, xs.length + p.2) := by
    rw [Nat.zero_add]
    exact List.zipIdx_eq_map_add
  unfold checkAll
  rw [List.zipIdx_append, List.flatMap_append, hindex, List.flatMap_map, List.map_flatMap]
  simp only [List.map_map]
  rfl

/-! ## Registries without the rule that failed -/

theorem isOk_ofRules_without {before after : List Rule}
    (h : (Registry.ofRules (before ++ rule :: after)).isOk = true) :
    (Registry.ofRules (before ++ after)).isOk = true := by
  rw [Registry.isOk_ofRules_iff] at h ⊢
  exact h.sublist ((List.Sublist.refl before).append (List.sublist_cons_self rule after))

theorem isOk_ofRules_replaced {quiet : Rule} {before after : List Rule}
    (hinfo : quiet.info = rule.info)
    (h : (Registry.ofRules (before ++ rule :: after)).isOk = true) :
    (Registry.ofRules (before ++ quiet :: after)).isOk = true := by
  have hkeys : ∀ key : RuleInfo → String, (before ++ quiet :: after).map (key ·.info)
      = (before ++ rule :: after).map (key ·.info) := by
    intro key
    simp only [List.map_append, List.map_cons, hinfo]
  rw [Registry.isOk_ofRules_iff] at h ⊢
  refine ⟨?_, ?_⟩
  · have hcodes := h.codes
    unfold Rule.code at hcodes ⊢
    rw [hkeys RuleInfo.code]
    exact hcodes
  · have hnames := h.names
    unfold Rule.nameKey at hnames ⊢
    rw [hkeys fun info => Text.lower info.name]
    exact hnames

/-- A rule that fails takes nothing from the findings of other rules or other statements. -/
theorem check_isolated (config : Config) (dialect : Dialect) :
    (∀ (registry : Registry) (s : Statement),
      (Linter.mk registry config).check s dialect
        = ((registry.rules.filter (config.enables ·.info)).filterMap fun rule =>
            rule.check s (config.contextFor dialect rule.info)).flatten.map fun d =>
              if d.docUrl.isSome then d else d.withDocUrl (documentationUrl d.code))
      ∧ (∀ (registry : Registry) (before after : List Rule) (failing : Rule) (s : Statement),
        registry.rules = before ++ failing :: after →
        failing.check s (config.contextFor dialect failing.info) = none →
          (∀ fewer : Registry, fewer.rules = before ++ after →
            (Linter.mk registry config).check s dialect = (Linter.mk fewer config).check s dialect)
          ∧ ∀ (quiet : Rule) (other : Registry), other.rules = before ++ quiet :: after →
            quiet.check s (config.contextFor dialect quiet.info) = some [] →
            (Linter.mk registry config).check s dialect = (Linter.mk other config).check s dialect)
      ∧ (∀ (before after : List Rule) (failing : Rule),
        (Registry.ofRules (before ++ failing :: after)).isOk = true →
          (Registry.ofRules (before ++ after)).isOk = true
          ∧ ∀ quiet : Rule, quiet.info = failing.info →
            (Registry.ofRules (before ++ quiet :: after)).isOk = true)
      ∧ (∀ (registry : Registry) (xs ys : List Statement),
        (Linter.mk registry config).checkAll (xs ++ ys) dialect
          = (Linter.mk registry config).checkAll xs dialect
            ++ ((Linter.mk registry config).checkAll ys dialect).map (·.shifted xs.length))
      ∧ ∀ code, documentationUrl code = "https://querylint.dev/rules/" ++ Text.lower code := by
  refine ⟨?_, ?_, ?_, ?_, fun _ => rfl⟩
  · intro registry s
    rw [check_eq_flatten, ← funext Diagnostic.documented_eq]
    rfl
  · intro registry before after failing s hrules hfails
    have hfewer : ∀ fewer : Registry, fewer.rules = before ++ after →
        (Linter.mk registry config).check s dialect = (Linter.mk fewer config).check s dialect :=
      fun fewer h => check_of_silent hrules h (by rw [hfails]; rfl)
    refine ⟨hfewer, fun quiet other hother hquiet => ?_⟩
    -- Both are the same as having no rule there at all.
    rw [hfewer ⟨before ++ after, [], []⟩ rfl]
    exact (check_of_silent hother rfl (by rw [hquiet]; rfl)).symm
  · intro before after failing h
    exact ⟨isOk_ofRules_without h, fun quiet hinfo => isOk_ofRules_replaced hinfo h⟩
  · intro registry xs ys
    exact checkAll_append _ xs ys dialect

end Linter

/-! ## A rule that always fails -/

def Rule.failing : Rule where
  info := ⟨"LINT_XX_001", "always.failing", .aliasing, "Fails on every statement.", .info, []⟩
  check _ _ := none

def Rule.steady : Rule :=
  .total ⟨"LINT_XX_002", "always.steady", .aliasing, "Reports every statement.", .info, []⟩
    fun _ ctx => [ctx.diagnostic "A statement."]

theorem Linter.check_failing :
    ((Registry.ofRules [.failing, .steady]).isOk = true
      ∧ Rule.failing.check (.other "SET" .empty)
        (Config.standard.contextFor .generic Rule.failing.info) = none)
      ∧ (Registry.ofRules [.steady]).isOk = true
      ∧ (Linter.mk ⟨[.failing, .steady], [], []⟩ .standard).check (.other "SET" .empty) .generic
        = (Linter.mk ⟨[.steady], [], []⟩ .standard).check (.other "SET" .empty) .generic
      ∧ ((Linter.mk ⟨[.steady], [], []⟩ .standard).check (.other "SET" .empty) .generic).map
        Diagnostic.message = ["A statement."] :=
  have ⟨_, hsame, hthere, _⟩ := check_isolated .standard .generic
  ⟨⟨by decide, rfl⟩, (hthere [] [.steady] .failing (by decide)).1,
    (hsame ⟨[.failing, .steady], [], []⟩ [] [.steady] .failing _ rfl rfl).1 _ rfl, rfl⟩

end SqlLint
