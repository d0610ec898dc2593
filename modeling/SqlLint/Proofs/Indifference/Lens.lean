import SqlLint.Rule
import SqlLint.Proofs.Recast.Collect

/-! # What is seen of a finding

A lens says how much of a finding is looked at. It hides the difference between two recasts when
rules cannot tell them apart by what they compare, and what is left of the difference in a finding
is not looked at. Main statement: `view_report`, reports with messages and spans that look alike
look alike. -/

namespace SqlLint

/-- What is seen of a finding: its message as far as `text` keeps it, its span only if `spans` says
so, and everything else. -/
structure Lens where
  text : String → String
  spans : Bool

namespace Lens

variable {l : Lens} {r q : Recast}

def view (l : Lens) (d : Diagnostic) : Diagnostic :=
  { d with message := l.text d.message, span := if l.spans then d.span else none }

/-- Whether two recasts give every identifier the same key, the same quotes and the same partners,
and differ only in what is not seen. -/
structure Hides (l : Lens) (r q : Recast) : Prop where
  append : ∀ a b, l.text (a ++ b) = l.text a ++ l.text b
  value : ∀ i, l.text (r.ident i).value = l.text (q.ident i).value
  key : ∀ i, (r.ident i).key = (q.ident i).key
  quoted : ∀ i, (r.ident i).quoted = (q.ident i).quoted
  /-- A quoted identifier is taken literally. -/
  literal : ∀ i, (q.ident i).quoted = true → (r.ident i).value = (q.ident i).value
  equivalent : ∀ i j, (r.ident i).equivalent (r.ident j) = (q.ident i).equivalent (q.ident j)
  span : l.spans = true → ∀ s, r.span s = q.span s
  identSpan : l.spans = true → ∀ i, (r.ident i).span = (q.ident i).span

/-- Whether a check finds the same in both recasts of every statement, as far as is seen. -/
def Indifferent (l : Lens) (r q : Recast) (check : Statement → Context → List Diagnostic) : Prop :=
  ∀ s ctx, (check (r.statement s) ctx).map l.view = (check (q.statement s) ctx).map l.view

/-! ## Reports -/

theorem view_report {ctx : Context} {m m' : String} {a b : Span} (htext : l.text m = l.text m')
    (hspan : l.spans = true → a = b) :
    l.view (ctx.report m a) = l.view (ctx.report m' b) := by
  -- An empty span is not attached, so the test for it has to be seen through first.
  have hview : ∀ (m : String) (a : Span), l.view (ctx.report m a)
      = { l.view (ctx.diagnostic m) with
          span := if l.spans && !a.isEmpty then some a else none } := by
    intro m a
    cases ha : a.isEmpty <;>
      simp [view, Context.report, Context.diagnostic, Diagnostic.withSpan, ha]
  have hdiagnostic : l.view (ctx.diagnostic m) = l.view (ctx.diagnostic m') := by
    simp [view, Context.diagnostic, htext]
  rw [hview, hview, hdiagnostic]
  cases hl : l.spans with
  | true => rw [hspan hl]
  | false => rfl

theorem view_fixable {ctx : Context} {m m' : String} {a b : Span} (htext : l.text m = l.text m')
    (hspan : l.spans = true → a = b) :
    l.view (ctx.report m a).markFixable = l.view (ctx.report m' b).markFixable :=
  congrArg Diagnostic.markFixable (view_report htext hspan)

theorem view_documented (d : Diagnostic) : l.view d.documented = (l.view d).documented :=
  rfl

/-! ## Loops over what was recast

The three forms in which rules go through a collection. -/

section Loops

variable {α β : Type} {a b : α → β} {xs : List α}

theorem flatMap_view {f g : β → List Diagnostic}
    (h : ∀ x, (f (a x)).map l.view = (g (b x)).map l.view) :
    ((xs.map a).flatMap f).map l.view = ((xs.map b).flatMap g).map l.view := by
  simp only [List.flatMap_map, List.map_flatMap, h]

theorem filterMap_view {f g : β → Option Diagnostic}
    (h : ∀ x, (f (a x)).map l.view = (g (b x)).map l.view) :
    ((xs.map a).filterMap f).map l.view = ((xs.map b).filterMap g).map l.view := by
  simp only [List.filterMap_map, List.map_filterMap, Function.comp_def, h]

theorem filter_view {p p' : β → Bool} {f g : β → Diagnostic} (hp : ∀ x, p (a x) = p' (b x))
    (h : ∀ x, l.view (f (a x)) = l.view (g (b x))) :
    (((xs.map a).filter p).map f).map l.view = (((xs.map b).filter p').map g).map l.view := by
  simp only [List.filter_map, List.map_map, Function.comp_def, hp, h]

end Loops

/-! ## What is hidden with the identifiers -/

namespace Hides

variable (h : l.Hides r q)

include h

theorem shown (i : Ident) :
    l.text (toString (r.ident i).value) = l.text (toString (q.ident i).value) :=
  h.value i

theorem length (i : Ident) : (r.ident i).value.length = (q.ident i).value.length := by
  rw [← Text.length_lower, ← Text.length_lower (q.ident i).value]
  exact congrArg String.length (h.key i)

theorem upper (i : Ident) : Text.upper (r.ident i).value = Text.upper (q.ident i).value := by
  rw [← Text.upper_lower, ← Text.upper_lower (q.ident i).value]
  exact congrArg Text.upper (h.key i)

theorem spells (i : Ident) (name : String) :
    (r.ident i).spells name = (q.ident i).spells name := by
  have hkey := h.key i
  rw [Ident.key, Ident.key] at hkey
  rw [Ident.spells, Ident.spells, Text.same, Text.same, hkey]

theorem keys (is : List Ident) :
    (is.map r.ident).map Ident.key = (is.map q.ident).map Ident.key := by
  simp only [List.map_map, Function.comp_def, h.key]

theorem isNamed (f : FunctionCall) (name : String) :
    (r.functionCall f).isNamed name = (q.functionCall f).isNamed name := by
  simp only [FunctionCall.isNamed, Recast.functionCall_fields, Recast.base?_name]
  cases f.name.base? with
  | none => rfl
  | some i => exact h.spells i name

theorem columnText (c : ColumnRef) : l.text (r.column c).text = l.text (q.column c).text := by
  have hqualifier : ∀ is : List Ident,
      l.text (String.join ((is.map r.ident).map (·.value ++ ".")))
        = l.text (String.join ((is.map q.ident).map (·.value ++ "."))) := by
    intro is
    induction is with
    | nil => rfl
    | cons i is ih => simp only [List.map_cons, String.join_cons, h.append, h.value, ih]
  simp only [ColumnRef.text, Recast.column_fields, h.append, hqualifier, h.value]

theorem columnShown (c : ColumnRef) :
    l.text (toString (r.column c).text) = l.text (toString (q.column c).text) :=
  h.columnText c

theorem intercalate (between : String) (is : List Ident) :
    l.text (between.intercalate ((is.map r.ident).map Ident.value))
      = l.text (between.intercalate ((is.map q.ident).map Ident.value)) := by
  induction is with
  | nil => rfl
  | cons i is ih =>
    cases is with
    | nil => simp only [List.map_cons, List.map_nil, String.intercalate_singleton, h.value]
    | cons j is =>
      simp only [List.map_cons, String.intercalate_cons_cons, h.append, h.value] at ih ⊢
      rw [ih]

theorem itemSpan (hl : l.spans = true) (i : SelectItem) : (r.item i).span = (q.item i).span := by
  cases i with
  | expr e label =>
    cases label <;> simp [Recast.item, SelectItem.span, h.span hl, h.identSpan hl]
  | _ => simp [Recast.item, SelectItem.span, h.span hl]

/-! ## Equivalent expressions -/

theorem equivalent_parts (is js : List Ident) :
    ObjectName.equivalent ⟨is.map r.ident⟩ ⟨js.map r.ident⟩
      = ObjectName.equivalent ⟨is.map q.ident⟩ ⟨js.map q.ident⟩ := by
  simp only [ObjectName.equivalent, List.length_map, List.zip_map, List.all_map, Function.comp_def,
    Prod.map, h.equivalent]

theorem equivalent_column (a b : ColumnRef) :
    (r.column a).equivalent (r.column b) = (q.column a).equivalent (q.column b) := by
  simp only [ColumnRef.equivalent, Recast.column_fields, h.equivalent, h.equivalent_parts]

theorem equivalent_star (a b : Option ObjectName) :
    starEquivalent (a.map r.name) (b.map r.name)
      = starEquivalent (a.map q.name) (b.map q.name) := by
  cases a with
  | none => cases b <;> rfl
  | some a =>
    cases b with
    | none => rfl
    | some b => exact h.equivalent_parts _ _

end Hides

theorem equivalent_of_ctorIdx_ne {a b : ExprKind} (h : a.ctorIdx ≠ b.ctorIdx) :
    a.equivalent b = false := by
  cases a <;> cases b <;> first | rfl | exact absurd rfl h

theorem equivalent_of_forms_ne {a b : ExprKind} (h : (a.ctorIdx == b.ctorIdx) = false) :
    (r.exprKind a).equivalent (r.exprKind b) = (q.exprKind a).equivalent (q.exprKind b) := by
  have hform : ∀ (r : Recast) (kind : ExprKind), (r.exprKind kind).ctorIdx = kind.ctorIdx := by
    intro r kind
    cases kind <;> rfl
  have hfalse : ∀ r : Recast, (r.exprKind a).equivalent (r.exprKind b) = false := by
    intro r
    refine equivalent_of_ctorIdx_ne ?_
    rw [hform, hform]
    exact ne_of_beq_false h
  rw [hfalse, hfalse]

mutual

theorem Hides.equivalent_expr (h : l.Hides r q) : ∀ a b : Expr,
    (r.expr a).equivalent (r.expr b) = (q.expr a).equivalent (q.expr b)
  | ⟨a, _⟩, ⟨b, _⟩ => h.equivalent_exprKind a b

theorem Hides.equivalent_exprKind (h : l.Hides r q) : ∀ a b : ExprKind,
    (r.exprKind a).equivalent (r.exprKind b) = (q.exprKind a).equivalent (q.exprKind b)
  | .column a, b => by
    cases b with
    | column b => exact h.equivalent_column a b
    | _ => exact equivalent_of_forms_ne rfl
  | .literal a, b => by
    cases b with
    | literal b => rfl
    | _ => exact equivalent_of_forms_ne rfl
  | .unary _ a, b => by
    cases b with
    | unary _ b => simp only [Recast.exprKind, ExprKind.equivalent, h.equivalent_expr a b]
    | _ => exact equivalent_of_forms_ne rfl
  | .binary a _ b, c => by
    cases c with
    | binary a' _ b' =>
      simp only [Recast.exprKind, ExprKind.equivalent, h.equivalent_expr a a',
        h.equivalent_expr b b']
    | _ => exact equivalent_of_forms_ne rfl
  | .function f, b => by
    cases b with
    | function g => exact h.equivalent_functionCall f g
    | _ => exact equivalent_of_forms_ne rfl
  | .nested a, b => by
    cases b with
    | nested b => exact h.equivalent_expr a b
    | _ => exact equivalent_of_forms_ne rfl
  | .cast a _ _, b => by
    cases b with
    | cast b _ _ => simp only [Recast.exprKind, ExprKind.equivalent, h.equivalent_expr a b]
    | _ => exact equivalent_of_forms_ne rfl
  | .isNull a _, b => by
    cases b with
    | isNull b _ => simp only [Recast.exprKind, ExprKind.equivalent, h.equivalent_expr a b]
    | _ => exact equivalent_of_forms_ne rfl
  | .list as, b => by
    cases b with
    | list bs => exact h.equivalent_exprs as bs
    | _ => exact equivalent_of_forms_ne rfl
  | .star a, b => by
    cases b with
    | star b => exact h.equivalent_star a b
    | _ => exact equivalent_of_forms_ne rfl
  | .field a i, b => by
    cases b with
    | field b j =>
      simp only [Recast.exprKind, ExprKind.equivalent, h.equivalent_expr a b, h.equivalent]
    | _ => exact equivalent_of_forms_ne rfl
  | .raw a, b => by
    cases b with
    | raw b => rfl
    | _ => exact equivalent_of_forms_ne rfl
  -- The other forms are not compared.
  | .caseWhen _, b | .inList _ _ _, b | .inSubquery _ _ _, b | .between _ _ _ _, b
  | .isBool _ _ _, b | .like _ _ _ _, b | .subquery _, b | .existsIn _ _, b | .index _ _, b
  | .slice _ _ _, b | .struct _, b | .lambda _ _, b => rfl

theorem Hides.equivalent_exprs (h : l.Hides r q) : ∀ as bs : List Expr,
    exprsEquivalent (r.exprs as) (r.exprs bs) = exprsEquivalent (q.exprs as) (q.exprs bs)
  | [], [] | [], _ :: _ | _ :: _, [] => rfl
  | a :: as, b :: bs => by
    simp only [Recast.exprs, exprsEquivalent, h.equivalent_expr a b, h.equivalent_exprs as bs]

theorem Hides.equivalent_functionCall (h : l.Hides r q) : ∀ f g : FunctionCall,
    (r.functionCall f).equivalent (r.functionCall g)
      = (q.functionCall f).equivalent (q.functionCall g)
  | ⟨n, as, _, filter, w⟩, ⟨n', bs, _, filter', w'⟩ => by
    have hname : (r.name n).equivalent (r.name n') = (q.name n).equivalent (q.name n') :=
      h.equivalent_parts _ _
    simp only [Recast.functionCall, FunctionCall.equivalent, h.equivalent_exprs as bs, hname,
      Recast.expr?_eq, Recast.window?_eq, Option.isNone_map]

end

end Lens
end SqlLint
