import Mathlib.Data.List.Forall2
import SqlLint.Proofs.Indifference.Findings
import SqlLint.Proofs.Shells

/-! # What equivalent expressions have in common

Expressions are equivalent when they agree node by node in what is compared. Main statements:
`equivalent_laws`, equivalence is symmetric, takes no notice of spans or of how casts are written,
and holds of an expression and itself exactly if all of it is of the forms that are compared;
`equivalent_trans_iff`, where it is transitive. -/

namespace SqlLint

/-! ## Trees that agree -/

theorem forall₂_iff_getElem? {α β : Type} {R : α → β → Prop} {xs : List α} {ys : List β} :
    List.Forall₂ R xs ys ↔ ∀ i : Nat, Option.Rel R xs[i]? ys[i]? := by
  constructor
  · intro h
    induction h with
    | nil => exact fun i => .none
    | cons hxy _ ih =>
      rintro (_ | i)
      · exact .some hxy
      · exact ih i
  · intro h
    induction xs generalizing ys with
    | nil =>
      cases ys with
      | nil => exact .nil
      | cons y ys => cases h 0
    | cons x xs ih =>
      cases ys with
      | nil => cases h 0
      | cons y ys =>
        cases h 0 with
        | some hxy => exact .cons hxy (ih fun i => h (i + 1))

namespace Node

variable {R S T : Node → Node → Prop} {n m k : Node}

/-- Whether two nodes have the same places below them, with related nodes at each. -/
def Agree (R : Node → Node → Prop) (n m : Node) : Prop :=
  ∀ place, Option.Rel R (n.at? place) (m.at? place)

theorem agree_iff : Agree R n m ↔ R n m ∧ List.Forall₂ (Agree R) n.children m.children := by
  rw [forall₂_iff_getElem?]
  constructor
  · intro h
    refine ⟨Option.rel_some_some.mp (h []), fun i => ?_⟩
    have hchild : Option.Rel R (n.at? [i]) (m.at? [i]) := h [i]
    have hbelow : ∀ place, Option.Rel R (n.at? (i :: place)) (m.at? (i :: place)) :=
      fun place => h (i :: place)
    simp only [at?] at hchild hbelow
    cases hn : n.children[i]? <;> cases hm : m.children[i]? <;> simp_all
    exact hbelow
  · rintro ⟨hroot, hchildren⟩ (_ | ⟨i, place⟩)
    · exact .some hroot
    · simp only [at?]
      have hi := hchildren i
      cases hn : n.children[i]? <;> cases hm : m.children[i]? <;> simp_all
      exact hi place

theorem Agree.symm (hR : ∀ x y, R x y → S y x) (h : Agree R n m) : Agree S m n := by
  intro place
  have hplace := h place
  cases hn : n.at? place <;> cases hm : m.at? place <;> simp_all

theorem Agree.trans (hR : ∀ x y z, R x y → S y z → T x z) (hnm : Agree R n m)
    (hmk : Agree S m k) : Agree T n k := by
  intro place
  have hleft := hnm place
  have hright := hmk place
  cases hn : n.at? place <;> cases hm : m.at? place <;> cases hk : k.at? place <;> simp_all
  exact hR _ _ _ hleft hright

theorem Agree.agree_iff (h : Agree S n m) :
    Agree R n m
      ↔ ∀ place x y, n.at? place = some x → m.at? place = some y → R x y := by
  refine forall_congr' fun place => ?_
  have hplace := h place
  cases hn : n.at? place <;> cases hm : m.at? place <;> simp_all

theorem agree_self_iff : Agree R n n ↔ ∀ x ∈ n.preorder, R x x := by
  have hmem : ∀ x, x ∈ n.preorder ↔ ∃ place, n.at? place = some x := by
    intro x
    rw [← map_snd_places]
    simp [mem_places_iff]
  simp only [hmem]
  constructor
  · rintro h x ⟨place, hx⟩
    have hplace := h place
    rwa [hx, Option.rel_some_some] at hplace
  · intro h place
    cases hx : n.at? place with
    | none => exact .none
    | some x => exact .some (h x ⟨place, hx⟩)

end Node

/-! ## What is compared -/

/-- What an expression has of its own, names apart, as far as it is compared. -/
inductive Head where
  | column
  | literal (value : Literal)
  | unary (op : UnaryOperator)
  | binary (op : BinaryOperator)
  | function (distinct : Bool)
  | nested
  | cast (dataType : String)
  | isNull (negated : Bool)
  | list
  | star (qualified : Bool)
  | field
  | raw (sql : String)
  | other
deriving DecidableEq

namespace ExprKind

/-- Types are compared without regard to letter case, and how a cast is written is not compared. -/
@[simp] def head : ExprKind → Head
  | .column _ => .column
  | .literal value => .literal value
  | .unary op _ => .unary op
  | .binary _ op _ => .binary op
  | .function f => .function f.distinct
  | .nested _ => .nested
  | .cast _ dataType _ => .cast (Text.lower dataType)
  | .isNull _ negated => .isNull negated
  | .list _ => .list
  | .star qualifier => .star qualifier.isSome
  | .field _ _ => .field
  | .raw sql => .raw sql
  | _ => .other

/-- The identifiers that an expression has of its own. -/
@[simp] def names : ExprKind → List Ident
  | .column ref => ref.name :: ref.qualifier
  | .function f => f.name.parts
  | .star qualifier => qualifier.elim [] ObjectName.parts
  | .field _ name => [name]
  | _ => []

/-- The forms that are compared. -/
def IsComparable : ExprKind → Prop
  | .column _ | .literal _ | .unary _ _ | .binary _ _ _ | .nested _ | .cast _ _ _ | .isNull _ _
  | .list _ | .star _ | .field _ _ | .raw _ => True
  | .function f => f.filter.isNone ∧ f.window.isNone
  | _ => False

/-- Whether two expressions are equivalent as far as their parts are. -/
structure Alike (a b : ExprKind) : Prop where
  left : a.IsComparable
  right : b.IsComparable
  head : a.head = b.head
  names : List.Forall₂ (fun i j : Ident => i.equivalent j) a.names b.names

theorem Alike.ctorIdx_eq {a b : ExprKind} (h : a.Alike b) : a.ctorIdx = b.ctorIdx := by
  obtain ⟨ha, hb, hhead, -⟩ := h
  cases a <;> cases b <;> first | rfl | exact ha.elim | exact hb.elim | cases hhead

end ExprKind

def Node.IsComparable : Node → Prop
  | .expr e => e.kind.IsComparable
  | _ => False

def Node.Alike (n m : Node) : Prop :=
  ∃ a b : Expr, n = .expr a ∧ m = .expr b ∧ a.kind.Alike b.kind

theorem Node.alike_expr_iff {a b : Expr} : (expr a).Alike (expr b) ↔ a.kind.Alike b.kind := by
  constructor
  · rintro ⟨_, _, heq, heq', h⟩
    cases heq
    cases heq'
    exact h
  · exact fun h => ⟨a, b, rfl, rfl, h⟩

namespace ObjectName

theorem equivalent_iff {n m : ObjectName} :
    n.equivalent m = true ↔ List.Forall₂ (fun i j : Ident => i.equivalent j) n.parts m.parts := by
  rw [List.forall₂_iff_zip]
  simp [equivalent]

end ObjectName

/-! ## Equivalence is agreement -/

abbrev Expr.Agree (a b : Expr) : Prop := (Node.expr a).Agree Node.Alike (.expr b)

theorem Expr.agree_iff {a b : ExprKind} {s t : Span} :
    Expr.Agree ⟨a, s⟩ ⟨b, t⟩
      ↔ a.Alike b ∧ List.Forall₂ (Node.Agree Node.Alike) a.children b.children := by
  rw [Expr.Agree, Node.agree_iff, Node.alike_expr_iff]
  rfl

theorem iff_of_isComparable {a b : ExprKind} {s t : Span} (ha : a.IsComparable)
    (hb : b.IsComparable)
    (h : a.equivalent b = true ↔ a.head = b.head
      ∧ List.Forall₂ (fun i j : Ident => i.equivalent j) a.names b.names
      ∧ List.Forall₂ (Node.Agree Node.Alike) a.children b.children) :
    a.equivalent b = true ↔ Expr.Agree ⟨a, s⟩ ⟨b, t⟩ := by
  rw [h, Expr.agree_iff, ← and_assoc]
  exact and_congr_left fun _ => ⟨fun h => ⟨ha, hb, h.1, h.2⟩, fun h => ⟨h.head, h.names⟩⟩

theorem iff_of_ctorIdx_ne {a b : ExprKind} {s t : Span} (h : (a.ctorIdx == b.ctorIdx) = false) :
    a.equivalent b = true ↔ Expr.Agree ⟨a, s⟩ ⟨b, t⟩ := by
  have hne : a.ctorIdx ≠ b.ctorIdx := ne_of_beq_false h
  rw [Lens.equivalent_of_ctorIdx_ne hne, Expr.agree_iff]
  exact iff_of_false Bool.false_ne_true fun hagree => hne hagree.1.ctorIdx_eq

theorem iff_of_not_isComparable {a b : ExprKind} {s t : Span}
    (hforms : ¬ (a.IsComparable ∧ b.IsComparable)) (h : a.equivalent b = false) :
    a.equivalent b = true ↔ Expr.Agree ⟨a, s⟩ ⟨b, t⟩ := by
  rw [h, Expr.agree_iff]
  exact iff_of_false Bool.false_ne_true fun hagree => hforms ⟨hagree.1.left, hagree.1.right⟩

mutual

theorem Expr.equivalent_iff : ∀ a b : Expr, a.equivalent b = true ↔ a.Agree b
  | ⟨a, s⟩, ⟨b, t⟩ => ExprKind.equivalent_iff s t a b

theorem ExprKind.equivalent_iff (s t : Span) : ∀ a b : ExprKind,
    a.equivalent b = true ↔ Expr.Agree ⟨a, s⟩ ⟨b, t⟩
  | .column a, b => by
    cases b with
    | column b =>
      refine iff_of_isComparable trivial trivial ?_
      simp [ExprKind.equivalent, ExprKind.children, ColumnRef.equivalent, ObjectName.equivalent_iff]
    | _ => exact iff_of_ctorIdx_ne rfl
  | .literal a, b => by
    cases b with
    | literal b =>
      refine iff_of_isComparable trivial trivial ?_
      simp [ExprKind.equivalent, ExprKind.children]
    | _ => exact iff_of_ctorIdx_ne rfl
  | .unary op a, b => by
    cases b with
    | unary op' b =>
      refine iff_of_isComparable trivial trivial ?_
      simp [ExprKind.equivalent, ExprKind.children, Expr.equivalent_iff a b]
    | _ => exact iff_of_ctorIdx_ne rfl
  | .binary a op b, c => by
    cases c with
    | binary a' op' b' =>
      refine iff_of_isComparable trivial trivial ?_
      simp [ExprKind.equivalent, ExprKind.children, Expr.equivalent_iff a a',
        Expr.equivalent_iff b b', and_assoc]
    | _ => exact iff_of_ctorIdx_ne rfl
  | .function f, b => by
    cases b with
    | function g => exact FunctionCall.equivalent_iff s t f g
    | _ => exact iff_of_ctorIdx_ne rfl
  | .nested a, b => by
    cases b with
    | nested b =>
      refine iff_of_isComparable trivial trivial ?_
      simp [ExprKind.equivalent, ExprKind.children, Expr.equivalent_iff a b]
    | _ => exact iff_of_ctorIdx_ne rfl
  | .cast a _ _, b => by
    cases b with
    | cast b _ _ =>
      refine iff_of_isComparable trivial trivial ?_
      simp [ExprKind.equivalent, ExprKind.children, Expr.equivalent_iff a b]
    | _ => exact iff_of_ctorIdx_ne rfl
  | .isNull a _, b => by
    cases b with
    | isNull b _ =>
      refine iff_of_isComparable trivial trivial ?_
      simp [ExprKind.equivalent, ExprKind.children, Expr.equivalent_iff a b]
    | _ => exact iff_of_ctorIdx_ne rfl
  | .list as, b => by
    cases b with
    | list bs =>
      refine iff_of_isComparable trivial trivial ?_
      simp [ExprKind.equivalent, ExprKind.children, exprsEquivalent_iff as bs]
    | _ => exact iff_of_ctorIdx_ne rfl
  | .star q, b => by
    cases b with
    | star q' =>
      refine iff_of_isComparable trivial trivial ?_
      cases q <;> cases q' <;>
        simp [ExprKind.equivalent, ExprKind.children, starEquivalent, ObjectName.equivalent_iff]
    | _ => exact iff_of_ctorIdx_ne rfl
  | .field a i, b => by
    cases b with
    | field b j =>
      refine iff_of_isComparable trivial trivial ?_
      simp [ExprKind.equivalent, ExprKind.children, Expr.equivalent_iff a b]
    | _ => exact iff_of_ctorIdx_ne rfl
  | .raw a, b => by
    cases b with
    | raw b =>
      refine iff_of_isComparable trivial trivial ?_
      simp [ExprKind.equivalent, ExprKind.children]
    | _ => exact iff_of_ctorIdx_ne rfl
  | .caseWhen _, b | .inList _ _ _, b | .inSubquery _ _ _, b | .between _ _ _ _, b
  | .isBool _ _ _, b | .like _ _ _ _, b | .subquery _, b | .existsIn _ _, b | .index _ _, b
  | .slice _ _ _, b | .struct _, b | .lambda _ _, b => iff_of_not_isComparable And.left rfl

theorem exprsEquivalent_iff : ∀ as bs : List Expr, exprsEquivalent as bs = true
    ↔ List.Forall₂ (fun a b => Expr.Agree a b) as bs
  | [], [] => by simp [exprsEquivalent]
  | [], _ :: _ | _ :: _, [] => by simp [exprsEquivalent]
  | a :: as, b :: bs => by
    simp [exprsEquivalent, Expr.equivalent_iff a b, exprsEquivalent_iff as bs]

theorem FunctionCall.equivalent_iff (s t : Span) : ∀ f g : FunctionCall,
    (ExprKind.function f).equivalent (.function g) = true
      ↔ Expr.Agree ⟨.function f, s⟩ ⟨.function g, t⟩
  | ⟨_, as, _, none, none⟩, ⟨_, bs, _, none, none⟩ => by
    refine iff_of_isComparable ⟨rfl, rfl⟩ ⟨rfl, rfl⟩ ?_
    simp [ExprKind.equivalent, ExprKind.children, FunctionCall.equivalent,
      ObjectName.equivalent_iff, exprsEquivalent_iff as bs]
    tauto
  -- A filter or a window on either side.
  | ⟨_, _, _, some _, _⟩, ⟨_, _, _, _, _⟩ | ⟨_, _, _, none, some _⟩, ⟨_, _, _, _, _⟩
  | ⟨_, _, _, none, none⟩, ⟨_, _, _, some _, _⟩
  | ⟨_, _, _, none, none⟩, ⟨_, _, _, none, some _⟩ => by
    refine iff_of_not_isComparable ?_ ?_ <;>
      simp [ExprKind.IsComparable, ExprKind.equivalent, FunctionCall.equivalent]

end

/-! ## Symmetry and reflexivity -/

theorem Ident.equivalent_comm (i j : Ident) : i.equivalent j = j.equivalent i := by
  unfold Ident.equivalent
  rw [Bool.or_comm, Text.same_comm, Bool.beq_comm]

theorem Ident.equivalent_self (i : Ident) : i.equivalent i = true := by
  simp [Ident.equivalent]

theorem ExprKind.Alike.symm {a b : ExprKind} (h : a.Alike b) : b.Alike a where
  left := h.right
  right := h.left
  head := h.head.symm
  names := h.names.flip.imp fun i j hij => by rwa [Ident.equivalent_comm]

theorem Node.Alike.symm {n m : Node} (h : n.Alike m) : m.Alike n := by
  obtain ⟨a, b, rfl, rfl, h⟩ := h
  exact ⟨b, a, rfl, rfl, h.symm⟩

theorem Node.alike_self_iff {n : Node} : n.Alike n ↔ n.IsComparable := by
  constructor
  · rintro ⟨a, b, rfl, -, h⟩
    exact h.left
  · intro h
    cases n with
    | expr e =>
      exact ⟨e, e, rfl, rfl, h, h, rfl, List.forall₂_same.mpr fun i _ => i.equivalent_self⟩
    | _ => exact h.elim

/-! ## Spans and the way casts are written -/

/-- The form without its spans, its children and the way a cast is written. -/
def ExprKind.look (kind : ExprKind) : ExprKind :=
  match Recast.unplaced.exprKind kind.shell with
  | .cast e dataType _ => .cast e dataType .cast
  | bare => bare

/-- The node without its spans, its children and the way a cast is written. -/
def Node.look (n : Node) : Node :=
  match n with
  | .expr e => .expr ⟨e.kind.look, .empty⟩
  | n => Recast.unplaced.node n.shell

/-- Whether the expressions differ in nothing but spans and the way casts are written, at any
depth. -/
def Expr.Restyled (a b : Expr) : Prop :=
  (Node.expr a).Agree (fun n m => n.look = m.look) (.expr b)

theorem Node.ctorIdx_look (n : Node) : n.look.ctorIdx = n.ctorIdx := by
  have hnode : ∀ m : Node, (Recast.unplaced.node m).ctorIdx = m.ctorIdx := by
    intro m
    cases m <;> rfl
  cases n <;> first | rfl | exact (hnode _).trans (ctorIdx_shell _)

namespace ExprKind

theorem head_look (kind : ExprKind) : kind.look.head = kind.head := by
  cases kind with
  | star q => cases q <;> rfl
  | function f => cases f; rfl
  | _ => rfl

theorem names_look (kind : ExprKind) :
    kind.look.names = kind.names.map Recast.unplaced.ident := by
  cases kind with
  | star q => cases q <;> rfl
  | function f => cases f; rfl
  | _ => rfl

theorem isComparable_look (kind : ExprKind) : kind.look.IsComparable ↔ kind.IsComparable := by
  cases kind with
  | function f =>
    obtain ⟨_, _, _, filter, w⟩ := f
    cases filter <;> cases w <;> exact Iff.rfl
  | _ => exact Iff.rfl

end ExprKind

theorem ExprKind.alike_look {a b : ExprKind} : a.look.Alike b.look ↔ a.Alike b := by
  have hnames : List.Forall₂ (fun i j : Ident => i.equivalent j) a.look.names b.look.names
      ↔ List.Forall₂ (fun i j : Ident => i.equivalent j) a.names b.names := by
    rw [names_look, names_look, List.forall₂_map_left_iff, List.forall₂_map_right_iff]
    rfl
  constructor
  · rintro ⟨ha, hb, hhead, h⟩
    rw [head_look, head_look] at hhead
    exact ⟨a.isComparable_look.mp ha, b.isComparable_look.mp hb, hhead, hnames.mp h⟩
  · rintro ⟨ha, hb, hhead, h⟩
    rw [← head_look, ← head_look b] at hhead
    exact ⟨a.isComparable_look.mpr ha, b.isComparable_look.mpr hb, hhead, hnames.mpr h⟩

theorem Node.exists_of_look {e : Expr} {n : Node} (h : (Node.expr e).look = n.look) :
    ∃ e', n = .expr e' ∧ e.kind.look = e'.kind.look := by
  have hidx : (Node.expr e).ctorIdx = n.ctorIdx := by
    rw [← ctorIdx_look, h, ctorIdx_look]
  cases n with
  | expr e' =>
    refine ⟨e', rfl, ?_⟩
    simpa only [look, Node.expr.injEq, Expr.mk.injEq, and_true] using h
  | _ => cases hidx

theorem Node.Alike.of_look {n m n' m' : Node} (h : n.Alike m) (hn : n.look = n'.look)
    (hm : m.look = m'.look) : n'.Alike m' := by
  obtain ⟨a, b, rfl, rfl, h⟩ := h
  obtain ⟨a', rfl, ha⟩ := exists_of_look hn
  obtain ⟨b', rfl, hb⟩ := exists_of_look hm
  rw [← ExprKind.alike_look, ha, hb, ExprKind.alike_look] at h
  exact ⟨a', b', rfl, rfl, h⟩

namespace Expr

variable {a a' b b' : Expr}

theorem Restyled.symm (h : a.Restyled a') : a'.Restyled a :=
  Node.Agree.symm (fun _ _ heq => heq.symm) h

theorem Agree.of_restyled (h : a.Agree b) (ha : a.Restyled a') (hb : b.Restyled b') :
    a'.Agree b' := by
  have hleft : (Node.expr a').Agree (fun n m => ∃ k : Node, k.look = n.look ∧ k.Alike m)
      (.expr b) :=
    Node.Agree.trans (fun _ y _ hlook halike => ⟨y, hlook.symm, halike⟩) ha.symm h
  refine Node.Agree.trans ?_ hleft hb
  rintro x y z ⟨k, hk, halike⟩ hlook
  exact halike.of_look hk hlook

theorem equivalent_of_restyled (ha : a.Restyled a') (hb : b.Restyled b') :
    a'.equivalent b' = a.equivalent b := by
  rw [Bool.eq_iff_iff, equivalent_iff, equivalent_iff]
  exact ⟨fun h => h.of_restyled ha.symm hb.symm, fun h => h.of_restyled ha hb⟩

theorem equivalent_comm (a b : Expr) : a.equivalent b = b.equivalent a := by
  rw [Bool.eq_iff_iff, equivalent_iff, equivalent_iff]
  exact ⟨Node.Agree.symm fun _ _ => Node.Alike.symm, Node.Agree.symm fun _ _ => Node.Alike.symm⟩

theorem equivalent_self_iff (e : Expr) :
    e.equivalent e = true ↔ ∀ n ∈ (Node.expr e).preorder, n.IsComparable := by
  rw [equivalent_iff, Agree, Node.agree_self_iff]
  simp only [Node.alike_self_iff]

/-- Equivalence is symmetric, blind to spans and cast styles, and reflexive where it compares. -/
theorem equivalent_laws :
    (∀ a b : Expr, a.equivalent b = b.equivalent a)
    ∧ (∀ a a' b b' : Expr, a.Restyled a' → b.Restyled b' → a'.equivalent b' = a.equivalent b)
    ∧ ∀ e : Expr, e.equivalent e = true ↔ ∀ n ∈ (Node.expr e).preorder, n.IsComparable :=
  ⟨equivalent_comm, fun _ _ _ _ ha hb => equivalent_of_restyled ha hb, equivalent_self_iff⟩

/-- `CAST(x AS INT)` in another style on a line of its own -/
def castX (style : CastStyle) (line : Nat) : Expr :=
  let span : Span := ⟨⟨line, 1⟩, ⟨line, 15⟩⟩
  ⟨.cast ⟨.column ⟨[], { value := "x", span }⟩, span⟩ "INT" style, span⟩

theorem equivalent_castX :
    (castX .cast 1).Restyled (castX .doubleColon 2) ∧ (castX .cast 1).Restyled (castX .cast 1)
    ∧ (castX .doubleColon 2).equivalent (castX .cast 1) = true := by
  have hself : (castX .cast 1).Restyled (castX .cast 1) :=
    Node.agree_self_iff.mpr fun _ _ => rfl
  have hstyle : (castX .cast 1).Restyled (castX .doubleColon 2) :=
    Node.agree_iff.mpr ⟨rfl, .cons (Node.agree_iff.mpr ⟨rfl, .nil⟩) .nil⟩
  refine ⟨hstyle, hself, ?_⟩
  rw [equivalent_laws.2.1 _ _ _ _ hstyle hself]
  simp [castX, equivalent, ExprKind.equivalent, ColumnRef.equivalent, ObjectName.equivalent,
    Ident.equivalent]

/-! ## Where equivalence is transitive -/

/-- Whether two identifiers stand at one place in two expressions. -/
def Corresponds (a b : Expr) (i j : Ident) : Prop :=
  ∃ place x y, ∃ n : Nat, (Node.expr a).at? place = some (.expr x)
    ∧ (Node.expr b).at? place = some (.expr y)
    ∧ x.kind.names[n]? = some i ∧ y.kind.names[n]? = some j

end Expr

theorem Ident.trans_iff {i j k : Ident} (hij : i.equivalent j = true)
    (hjk : j.equivalent k = true) :
    i.equivalent k = true ↔ (i.quoted ≠ k.quoted → i.value = k.value) := by
  obtain ⟨value, quoted, _⟩ := i
  obtain ⟨value', quoted', _⟩ := j
  obtain ⟨value'', quoted'', _⟩ := k
  cases quoted <;> cases quoted' <;> cases quoted'' <;> simp_all [equivalent]

theorem forall₂_trans_iff {is js ks : List Ident}
    (hij : List.Forall₂ (fun i j : Ident => i.equivalent j) is js)
    (hjk : List.Forall₂ (fun j k : Ident => j.equivalent k) js ks) :
    List.Forall₂ (fun i k : Ident => i.equivalent k) is ks
      ↔ ∀ (n : Nat) (i k : Ident), is[n]? = some i → ks[n]? = some k → i.quoted ≠ k.quoted →
        i.value = k.value := by
  rw [forall₂_iff_getElem?] at hij hjk ⊢
  refine forall_congr' fun n => ?_
  have hleft := hij n
  have hright := hjk n
  cases hi : is[n]? <;> cases hj : js[n]? <;> cases hk : ks[n]? <;> simp_all
  exact Ident.trans_iff hleft hright

theorem ExprKind.Alike.trans_iff {a b c : ExprKind} (hab : a.Alike b) (hbc : b.Alike c) :
    a.Alike c ↔ ∀ (n : Nat) (i k : Ident), a.names[n]? = some i → c.names[n]? = some k →
      i.quoted ≠ k.quoted → i.value = k.value := by
  rw [← forall₂_trans_iff hab.names hbc.names]
  exact ⟨fun h => h.names, fun h => ⟨hab.left, hbc.right, hab.head.trans hbc.head, h⟩⟩

namespace Expr

/-- Equivalence is transitive but for names that are quoted on one side only. -/
theorem equivalent_trans_iff {a b c : Expr} (hab : a.equivalent b = true)
    (hbc : b.equivalent c = true) :
    a.equivalent c = true
      ↔ ∀ i k, a.Corresponds c i k → i.quoted ≠ k.quoted → i.value = k.value := by
  rw [equivalent_iff] at hab hbc ⊢
  have hthrough : (Node.expr a).Agree (fun n m => ∃ x y z : Expr,
      (n = .expr x ∧ m = .expr z) ∧ x.kind.Alike y.kind ∧ y.kind.Alike z.kind) (.expr c) := by
    refine Node.Agree.trans ?_ hab hbc
    rintro _ _ _ ⟨x, y, rfl, rfl, hxy⟩ ⟨_, z, heq, rfl, hyz⟩
    cases heq
    exact ⟨x, y, z, ⟨rfl, rfl⟩, hxy, hyz⟩
  have hplaces : ∀ place n m, (Node.expr a).at? place = some n → (Node.expr c).at? place = some m →
      ∃ x y z : Expr, (n = .expr x ∧ m = .expr z) ∧ x.kind.Alike y.kind ∧ y.kind.Alike z.kind :=
    hthrough.agree_iff.mp hthrough
  rw [Agree, hthrough.agree_iff]
  constructor
  · -- At the place of the two identifiers there is a node of `b` between the two.
    rintro h i k ⟨place, x, z, n, hx, hz, hi, hk⟩
    obtain ⟨_, y, _, ⟨heq, heq'⟩, hxy, hyz⟩ := hplaces place _ _ hx hz
    cases heq
    cases heq'
    have halike := Node.alike_expr_iff.mp (h place _ _ hx hz)
    exact (hxy.trans_iff hyz).mp halike n i k hi hk
  · intro h place n m hn hm
    obtain ⟨x, y, z, ⟨rfl, rfl⟩, hxy, hyz⟩ := hplaces place n m hn hm
    rw [Node.alike_expr_iff, hxy.trans_iff hyz]
    exact fun n i k hi hk => h i k ⟨place, x, z, n, hn, hm, hi, hk⟩

/-- `function(column)` -/
def callOn (function : String) (column : Ident) : Expr :=
  ⟨.function ⟨⟨[{ value := function }]⟩, [⟨.column ⟨[], column⟩, .empty⟩], false, none, none⟩,
    .empty⟩

theorem equivalent_callOn (f g : String) (i j : Ident) :
    (callOn f i).equivalent (callOn g j) = (Text.same f g && i.equivalent j) := by
  simp [callOn, equivalent, ExprKind.equivalent, FunctionCall.equivalent, exprsEquivalent,
    ColumnRef.equivalent, ObjectName.equivalent, Ident.equivalent]

def quotedA : Ident := { value := "A", quoted := true }

theorem equivalent_callOn_quoted :
    (callOn "sum" { value := "a" }).equivalent (callOn "SUM" { value := "A" }) = true
    ∧ (callOn "SUM" { value := "A" }).equivalent (callOn "Sum" quotedA) = true
    ∧ (callOn "sum" { value := "a" }).equivalent (callOn "Sum" quotedA) = false := by
  have hfirst :
      (callOn "sum" { value := "a" }).equivalent (callOn "SUM" { value := "A" }) = true := by
    rw [equivalent_callOn]
    decide
  have hsecond : (callOn "SUM" { value := "A" }).equivalent (callOn "Sum" quotedA) = true := by
    rw [equivalent_callOn]
    decide
  refine ⟨hfirst, hsecond, ?_⟩
  rw [Bool.eq_false_iff, ne_eq, equivalent_trans_iff hfirst hsecond]
  intro h
  have hvalues : "a" = "A" :=
    h { value := "a" } quotedA ⟨[0], _, _, 0, rfl, rfl, rfl, rfl⟩ Bool.false_ne_true
  exact absurd hvalues (by decide)

theorem not_transitive_equivalent :
    ¬ ∀ a b c : Expr, a.equivalent b = true → b.equivalent c = true → a.equivalent c = true := by
  intro h
  have hquoted := h (callOn "f" { value := "a" }) (callOn "f" { value := "A" })
    (callOn "f" quotedA)
  simp only [equivalent_callOn] at hquoted
  revert hquoted
  decide

end Expr
end SqlLint
