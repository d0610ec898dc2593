import SqlLint.Tree.Access

/-! # Expressions in parentheses

Rules look through parentheses with `Expr.unnested`. Main statement: `wraps_iff`, what they find is
the one expression inside that stands in no parentheses itself. -/

namespace SqlLint.Expr

/-- Whether the expression stands in parentheses. -/
def IsNested (e : Expr) : Prop := ∃ inner, e.kind = .nested inner

/-- Whether the second expression is the first in any number of parentheses, none perhaps. -/
inductive Wraps (inner : Expr) : Expr → Prop where
  | refl : Wraps inner inner
  | nested {e : Expr} (span : Span) (h : Wraps inner e) : Wraps inner ⟨.nested e, span⟩

mutual

/-- What parentheses hand on, and what holds without them, holds of every expression. -/
theorem induction_nested {P : Expr → Prop} (plain : ∀ e, ¬ e.IsNested → P e)
    (nested : ∀ inner span, P inner → P ⟨.nested inner, span⟩) : ∀ e : Expr, P e
  | ⟨kind, span⟩ => induction_nestedKind plain nested span kind

theorem induction_nestedKind {P : Expr → Prop} (plain : ∀ e, ¬ e.IsNested → P e)
    (nested : ∀ inner span, P inner → P ⟨.nested inner, span⟩) (span : Span) :
    ∀ kind : ExprKind, P ⟨kind, span⟩
  | .nested inner => nested inner span (induction_nested plain nested inner)
  | .column _ | .literal _ | .unary _ _ | .binary _ _ _ | .function _ | .caseWhen _ | .cast _ _ _
  | .inList _ _ _ | .inSubquery _ _ _ | .between _ _ _ _ | .isNull _ _ | .isBool _ _ _
  | .like _ _ _ _ | .subquery _ | .existsIn _ _ | .index _ _ | .slice _ _ _ | .list _ | .struct _
  | .lambda _ _ | .field _ _ | .star _ | .raw _ =>
    plain _ (by rintro ⟨inner, h⟩; cases h)

end

theorem unnested_of_not_isNested {e : Expr} (h : ¬ e.IsNested) : e.unnested = e := by
  obtain ⟨kind, span⟩ := e
  cases kind with
  | nested inner => exact absurd ⟨inner, rfl⟩ h
  | _ => rfl

theorem not_isNested_unnested (e : Expr) : ¬ e.unnested.IsNested := by
  induction e using induction_nested with
  | plain e h => rwa [unnested_of_not_isNested h]
  | nested inner span ih => exact ih

theorem wraps_unnested (e : Expr) : Wraps e.unnested e := by
  induction e using induction_nested with
  | plain e h =>
    rw [unnested_of_not_isNested h]
    exact .refl
  | nested inner span ih => exact .nested span ih

theorem Wraps.unnested_eq {inner e : Expr} (h : Wraps inner e) : e.unnested = inner.unnested := by
  induction h with
  | refl => rfl
  | nested span _ ih => exact ih

theorem wraps_iff {inner e : Expr} (h : ¬ inner.IsNested) : Wraps inner e ↔ e.unnested = inner := by
  constructor
  · intro hwraps
    rw [hwraps.unnested_eq, unnested_of_not_isNested h]
  · rintro rfl
    exact wraps_unnested e

end SqlLint.Expr
