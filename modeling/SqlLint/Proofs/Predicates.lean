import SqlLint.Proofs.Lists
import SqlLint.Proofs.Parentheses
import SqlLint.Rules.Constant

/-! # Predicates and their conditions

A predicate is made of elementary conditions with parentheses, `AND` and `OR`. Main statement:
`eqvGen_adds_iff`, which predicates are the same up to parentheses around their conditions. -/

namespace SqlLint

open Relation (EqvGen)

namespace Rules.ConstantExpression

/-! ## Elementary conditions -/

def IsConnective (op : BinaryOperator) : Prop := op = .and ∨ op = .or

/-- Whether the predicate is one condition, which is taken apart no further. -/
def IsElementary (e : Expr) : Prop :=
  match e.kind with
  | .nested _ => False
  | .binary _ op _ => ¬ IsConnective op
  | _ => True

mutual

theorem induction_conditions {P : Expr → Prop} (elementary : ∀ e, IsElementary e → P e)
    (nested : ∀ inner span, P inner → P ⟨.nested inner, span⟩)
    (connective : ∀ left op right span, IsConnective op → P left → P right →
      P ⟨.binary left op right, span⟩) : ∀ e : Expr, P e
  | ⟨kind, span⟩ => induction_conditionsKind elementary nested connective span kind

theorem induction_conditionsKind {P : Expr → Prop} (elementary : ∀ e, IsElementary e → P e)
    (nested : ∀ inner span, P inner → P ⟨.nested inner, span⟩)
    (connective : ∀ left op right span, IsConnective op → P left → P right →
      P ⟨.binary left op right, span⟩) (span : Span) : ∀ kind : ExprKind, P ⟨kind, span⟩
  | .nested inner => nested inner span (induction_conditions elementary nested connective inner)
  | .binary left op right => by
    by_cases hop : IsConnective op
    · exact connective left op right span hop
        (induction_conditions elementary nested connective left)
        (induction_conditions elementary nested connective right)
    · exact elementary _ hop
  | .column _ | .literal _ | .unary _ _ | .function _ | .caseWhen _ | .cast _ _ _
  | .inList _ _ _ | .inSubquery _ _ _ | .between _ _ _ _ | .isNull _ _ | .isBool _ _ _
  | .like _ _ _ _ | .subquery _ | .existsIn _ _ | .index _ _ | .slice _ _ _ | .list _ | .struct _
  | .lambda _ _ | .field _ _ | .star _ | .raw _ => elementary _ trivial

end

mutual

/-- The predicate without the parentheses around its conditions, and with each elementary condition
replaced. -/
def reduced (f : Expr → Expr) : Expr → Expr
  | ⟨kind, span⟩ => reducedKind f ⟨kind, span⟩ kind

/-- Leaves out parentheses, goes on inside `AND` and `OR`, and replaces `whole` otherwise. -/
def reducedKind (f : Expr → Expr) (whole : Expr) : ExprKind → Expr
  | .nested inner => reduced f inner
  | .binary left .and right => ⟨.binary (reduced f left) .and (reduced f right), whole.span⟩
  | .binary left .or right => ⟨.binary (reduced f left) .or (reduced f right), whole.span⟩
  | _ => f whole

end

section

variable {e e' c c' left right : Expr} {op : BinaryOperator} {span : Span} {f : Expr → Expr}
  {R : Expr → Expr → Prop}

theorem stop_of_isElementary (h : IsElementary e) :
    conditions e = [e] ∧ ∀ f, reduced f e = f e := by
  obtain ⟨kind, span⟩ := e
  cases kind with
  | nested inner => exact h.elim
  | binary left op right =>
    cases op with
    | and => exact absurd (.inl rfl) h
    | or => exact absurd (.inr rfl) h
    | _ => exact ⟨rfl, fun f => rfl⟩
  | _ => exact ⟨rfl, fun f => rfl⟩

theorem conditions_of_isElementary (h : IsElementary e) : conditions e = [e] :=
  (stop_of_isElementary h).1

theorem conditions_connective (h : IsConnective op) :
    conditions ⟨.binary left op right, span⟩ = conditions left ++ conditions right := by
  rcases h with rfl | rfl <;> rfl

theorem reduced_of_isElementary (h : IsElementary e) : reduced f e = f e :=
  (stop_of_isElementary h).2 f

theorem reduced_connective (h : IsConnective op) :
    reduced f ⟨.binary left op right, span⟩
      = ⟨.binary (reduced f left) op (reduced f right), span⟩ := by
  rcases h with rfl | rfl <;> rfl

theorem conditions_reduced (hf : ∀ c, IsElementary c → IsElementary (f c)) (e : Expr) :
    conditions (reduced f e) = (conditions e).map f := by
  induction e using induction_conditions with
  | elementary e he =>
    rw [reduced_of_isElementary he, conditions_of_isElementary (hf e he),
      conditions_of_isElementary he, List.map_singleton]
  | nested inner span ih => exact ih
  | connective left op right span hop ihl ihr =>
    rw [reduced_connective hop, conditions_connective hop, conditions_connective hop, ihl, ihr,
      List.map_append]

/-! ## Parentheses that are added -/

/-- Whether the second predicate is the first with parentheses added around a part that is reached
through parentheses, `AND` and `OR`, or with an elementary condition changed in a given way. -/
inductive Adds (R : Expr → Expr → Prop) : Expr → Expr → Prop where
  | here (e : Expr) (span : Span) : Adds R e ⟨.nested e, span⟩
  | inside {e e' : Expr} (span : Span) (h : Adds R e e') :
    Adds R ⟨.nested e, span⟩ ⟨.nested e', span⟩
  | left {left left' : Expr} {op : BinaryOperator} (hop : IsConnective op) (right : Expr)
    (span : Span) (h : Adds R left left') :
    Adds R ⟨.binary left op right, span⟩ ⟨.binary left' op right, span⟩
  | right {right right' : Expr} {op : BinaryOperator} (hop : IsConnective op) (left : Expr)
    (span : Span) (h : Adds R right right') :
    Adds R ⟨.binary left op right, span⟩ ⟨.binary left op right', span⟩
  | condition {c c' : Expr} (hc : IsElementary c) (hc' : IsElementary c') (h : R c c') : Adds R c c'

theorem reduced_eq_of_adds (hR : ∀ c c', R c c' → f c = f c') (h : Adds R e e') :
    reduced f e = reduced f e' := by
  induction h with
  | here e span => rfl
  | inside span h ih => exact ih
  | left hop right span h ih => rw [reduced_connective hop, reduced_connective hop, ih]
  | right hop left span h ih => rw [reduced_connective hop, reduced_connective hop, ih]
  | condition hc hc' h =>
    rw [reduced_of_isElementary hc, reduced_of_isElementary hc']
    exact hR _ _ h

theorem eqvGen_reduced (hf : ∀ c, EqvGen (Adds R) c (f c)) (e : Expr) :
    EqvGen (Adds R) e (reduced f e) := by
  induction e using induction_conditions with
  | elementary e he =>
    rw [reduced_of_isElementary he]
    exact hf e
  | nested inner span ih => exact .trans _ _ _ (.symm _ _ (.rel _ _ (.here inner span))) ih
  | connective left op right span hop ihl ihr =>
    rw [reduced_connective hop]
    have hleft := eqvGen_map (g := fun l => ⟨.binary l op right, span⟩)
      (fun _ _ h => .left hop right span h) ihl
    have hright := eqvGen_map (g := fun r => ⟨.binary (reduced f left) op r, span⟩)
      (fun _ _ h => .right hop (reduced f left) span h) ihr
    exact .trans _ _ _ hleft hright

/-- Predicates with the same reduction are those that the changes lead to. -/
theorem eqvGen_adds_iff (hR : ∀ c c', R c c' → f c = f c') (hf : ∀ c, EqvGen (Adds R) c (f c)) :
    EqvGen (Adds R) e e' ↔ reduced f e = reduced f e' := by
  constructor
  · exact eq_of_eqvGen fun _ _ h => reduced_eq_of_adds hR h
  · intro heq
    have h' := eqvGen_reduced hf e'
    rw [← heq] at h'
    exact .trans _ _ _ (eqvGen_reduced hf e) (.symm _ _ h')

end

end Rules.ConstantExpression
end SqlLint
