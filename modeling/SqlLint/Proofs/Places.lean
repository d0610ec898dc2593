import SqlLint.Tree.Collect
import Mathlib.Data.List.Basic
import Mathlib.Logic.Relation

/-! # Places in a tree

A place is the way from the root to a node, told by child numbers. Equal nodes at different places
are different occurrences. Main statements: `mem_places_iff`, the list of places has every
occurrence, and `pairwise_places`, it has them in pre-order. -/

namespace SqlLint

/-- The child numbers on the way from the root to a node. -/
abbrev Place := List Nat

namespace Rose

variable {α σ : Type}

/-- The label at a place. -/
def get? (t : Rose α) : Place → Option α
  | [] => some t.label
  | i :: place => t.children[i]?.bind fun child => child.get? place

mutual

/-- Every place with its label in pre-order, for a tree that stands at `base`. -/
def placesFrom (base : Place) : Rose α → List (Place × α)
  | .node a ts => (base, a) :: childPlaces base 0 ts

/-- The places of the children from number `i` on. -/
def childPlaces (base : Place) (i : Nat) : List (Rose α) → List (Place × α)
  | [] => []
  | t :: ts => placesFrom (base ++ [i]) t ++ childPlaces base (i + 1) ts

end

def places (t : Rose α) : List (Place × α) := placesFrom [] t

/-! ## Which places there are -/

mutual

theorem map_snd_placesFrom (base : Place) (t : Rose α) :
    (t.placesFrom base).map Prod.snd = t.preorder := by
  cases t with
  | node a ts =>
    rw [placesFrom, preorder, List.map_cons, map_snd_childPlaces base 0 ts]

theorem map_snd_childPlaces (base : Place) (i : Nat) (ts : List (Rose α)) :
    (childPlaces base i ts).map Prod.snd = preorders ts := by
  cases ts with
  | nil => rfl
  | cons t ts =>
    rw [childPlaces, preorders, List.map_append, map_snd_placesFrom (base ++ [i]) t,
      map_snd_childPlaces base (i + 1) ts]

end

mutual

theorem mem_placesFrom_iff (base : Place) (t : Rose α) (x : Place × α) :
    x ∈ t.placesFrom base ↔ ∃ place, x.1 = base ++ place ∧ t.get? place = some x.2 := by
  obtain ⟨p, b⟩ := x
  cases t with
  | node a ts =>
    rw [placesFrom, List.mem_cons, mem_childPlaces_iff base 0 ts (p, b)]
    constructor
    · rintro (h | ⟨j, place, t, ht, hp, hb⟩)
      · obtain ⟨rfl, rfl⟩ := Prod.mk.inj h
        exact ⟨[], by simp, rfl⟩
      · exact ⟨j :: place, by simpa using hp, by simpa [get?, children, ht] using hb⟩
    · rintro ⟨place, hp, hb⟩
      cases place with
      | nil =>
        simp only [get?, label, Option.some.injEq, List.append_nil] at hp hb
        exact .inl (by rw [hp, hb])
      | cons j place =>
        simp only [get?, children, Option.bind_eq_some_iff] at hb
        obtain ⟨t, ht, hb⟩ := hb
        exact .inr ⟨j, place, t, ht, by simpa using hp, hb⟩

theorem mem_childPlaces_iff (base : Place) (i : Nat) (ts : List (Rose α)) (x : Place × α) :
    x ∈ childPlaces base i ts ↔
      ∃ j place t, ts[j]? = some t ∧ x.1 = base ++ (i + j) :: place ∧ t.get? place = some x.2 := by
  cases ts with
  | nil => simp [childPlaces]
  | cons t ts =>
    rw [childPlaces, List.mem_append, mem_placesFrom_iff (base ++ [i]) t x,
      mem_childPlaces_iff base (i + 1) ts x]
    constructor
    · rintro (⟨place, hp, hb⟩ | ⟨j, place, u, hu, hp, hb⟩)
      · exact ⟨0, place, t, rfl, by simpa using hp, hb⟩
      · exact ⟨j + 1, place, u, by simpa using hu, by rw [hp]; simp; omega, hb⟩
    · rintro ⟨j, place, u, hu, hp, hb⟩
      cases j with
      | zero =>
        simp only [List.getElem?_cons_zero, Option.some.injEq] at hu
        exact .inl ⟨place, by simpa using hp, hu ▸ hb⟩
      | succ j =>
        refine .inr ⟨j, place, u, by simpa using hu, ?_, hb⟩
        rw [hp, show i + (j + 1) = i + 1 + j by omega]

end

theorem mem_places_iff (t : Rose α) (place : Place) (a : α) :
    (place, a) ∈ t.places ↔ t.get? place = some a := by
  rw [places, mem_placesFrom_iff]
  simp

/-! ## Their order

Places are compared like words: at the first child number where they differ, and a place comes
before what is below it. -/

mutual

theorem pairwise_placesFrom (base : Place) (t : Rose α) :
    (t.placesFrom base).Pairwise fun x y => x.1 < y.1 := by
  cases t with
  | node a ts =>
    rw [placesFrom, List.pairwise_cons]
    refine ⟨?_, pairwise_childPlaces base 0 ts⟩
    intro x hx
    obtain ⟨j, place, -, -, hp, -⟩ := (mem_childPlaces_iff base 0 ts x).mp hx
    rw [hp]
    simpa using List.append_left_lt (List.nil_lt_cons (0 + j) place)

theorem pairwise_childPlaces (base : Place) (i : Nat) (ts : List (Rose α)) :
    (childPlaces base i ts).Pairwise fun x y => x.1 < y.1 := by
  cases ts with
  | nil => exact .nil
  | cons t ts =>
    rw [childPlaces, List.pairwise_append]
    refine ⟨pairwise_placesFrom (base ++ [i]) t, pairwise_childPlaces base (i + 1) ts, ?_⟩
    intro x hx y hy
    obtain ⟨p, hp, -⟩ := (mem_placesFrom_iff (base ++ [i]) t x).mp hx
    obtain ⟨j, q, -, -, hq, -⟩ := (mem_childPlaces_iff base (i + 1) ts y).mp hy
    rw [hp, hq, List.append_assoc]
    exact List.append_left_lt (List.cons_lt_cons_iff.mpr (.inl (by omega)))

end

theorem pairwise_places (t : Rose α) : t.places.Pairwise fun x y => x.1 < y.1 :=
  pairwise_placesFrom [] t

theorem nodup_fst_placesFrom (base : Place) (t : Rose α) :
    ((t.placesFrom base).map Prod.fst).Nodup := by
  rw [List.Nodup, List.pairwise_map]
  refine (pairwise_placesFrom base t).imp ?_
  intro x y hlt heq
  exact List.lt_irrefl x.1 (heq ▸ hlt)

/-! ## Marks

The mark of a node depends on the way to it alone. -/

/-- The mark that a node at a place gets when marks are handed down. -/
def markAt (step : σ → α → α → σ) (mark : σ) (t : Rose α) : Place → σ
  | [] => mark
  | i :: place =>
    match t.children[i]? with
    | none => mark
    | some child => child.markAt step (step mark t.label child.label) place

theorem markedAll_eq (step : σ → α → α → σ) (mark : σ) (parent : α) (ts : List (Rose α)) :
    markedAll step mark parent ts = ts.map fun t => t.marked step (step mark parent t.label) := by
  induction ts with
  | nil => rfl
  | cons t ts ih => rw [markedAll, ih, List.map_cons]

theorem get?_marked (step : σ → α → α → σ) (mark : σ) (t : Rose α) (place : Place) :
    (t.marked step mark).get? place
      = (t.get? place).map fun a => (t.markAt step mark place, a) := by
  induction place generalizing t mark with
  | nil => cases t; rfl
  | cons i place ih =>
    obtain ⟨a, ts⟩ := t
    simp only [marked, get?, markAt, children, label, markedAll_eq, List.getElem?_map]
    cases ts[i]? with
    | none => rfl
    | some child => exact ih _ child

theorem markAt_concat (step : σ → α → α → σ) (mark : σ) (t : Rose α) {place : Place} {i : Nat}
    {a b : α} (ha : t.get? place = some a) (hb : t.get? (place ++ [i]) = some b) :
    t.markAt step mark (place ++ [i]) = step (t.markAt step mark place) a b := by
  induction place generalizing t mark with
  | nil =>
    simp only [List.nil_append, get?, Option.bind_eq_some_iff, Option.some.injEq] at ha hb
    obtain ⟨child, hchild, rfl⟩ := hb
    simp [markAt, hchild, ha]
  | cons j place ih =>
    simp only [List.cons_append, get?, Option.bind_eq_some_iff] at ha hb
    obtain ⟨child, hchild, ha⟩ := ha
    obtain ⟨child', hchild', hb⟩ := hb
    obtain rfl : child = child' := by simpa [hchild] using hchild'
    simp only [List.cons_append, markAt, hchild]
    exact ih _ child ha hb

mutual

theorem unmark_placesFrom (step : σ → α → α → σ) (mark : σ) (base : Place) (t : Rose α) :
    ((t.marked step mark).placesFrom base).map (fun x => (x.1, x.2.2)) = t.placesFrom base := by
  cases t with
  | node a ts =>
    rw [marked, placesFrom, placesFrom, List.map_cons, unmark_childPlaces step mark a base 0 ts]

theorem unmark_childPlaces (step : σ → α → α → σ) (mark : σ) (parent : α) (base : Place) (i : Nat)
    (ts : List (Rose α)) :
    (childPlaces base i (markedAll step mark parent ts)).map (fun x => (x.1, x.2.2))
      = childPlaces base i ts := by
  cases ts with
  | nil => rfl
  | cons t ts =>
    rw [markedAll, childPlaces, childPlaces, List.map_append,
      unmark_placesFrom step _ (base ++ [i]) t,
      unmark_childPlaces step mark parent base (i + 1) ts]

end

theorem places_marked (step : σ → α → α → σ) (mark : σ) (t : Rose α) :
    (t.marked step mark).places = t.places.map fun x => (x.1, t.markAt step mark x.1, x.2) := by
  have hmark : ∀ x ∈ (t.marked step mark).places, x = (x.1, t.markAt step mark x.1, x.2.2) := by
    rintro ⟨place, m, a⟩ hx
    rw [mem_places_iff, get?_marked, Option.map_eq_some_iff] at hx
    obtain ⟨b, -, hb⟩ := hx
    obtain ⟨rfl, rfl⟩ := Prod.mk.inj hb
    rfl
  have herase : t.places = (t.marked step mark).places.map fun x => (x.1, x.2.2) :=
    (unmark_placesFrom step mark [] t).symm
  rw [herase, List.map_map]
  conv => lhs; rw [← List.map_id (t.marked step mark).places]
  exact List.map_congr_left hmark

theorem preorder_marked (step : σ → α → α → σ) (mark : σ) (t : Rose α) :
    (t.marked step mark).preorder = t.places.map fun x => (t.markAt step mark x.1, x.2) := by
  rw [← map_snd_placesFrom [], ← places, places_marked, List.map_map]
  rfl

end Rose

/-! ## Places of nodes -/

namespace Node

variable {σ : Type}

/-- The node at a place under a node. -/
def at? (n : Node) : Place → Option Node
  | [] => some n
  | i :: place => n.children[i]?.bind fun child => child.at? place

/-- Every occurrence of a node under a node, itself first, in pre-order. -/
def places (root : Node) : List (Place × Node) := root.tree.places

theorem get?_tree (n : Node) (place : Place) : n.tree.get? place = n.at? place := by
  induction place generalizing n with
  | nil => rw [tree_eq]; rfl
  | cons i place ih =>
    rw [tree_eq]
    simp only [Rose.get?, Rose.children, at?, List.getElem?_map]
    cases n.children[i]? with
    | none => rfl
    | some child => exact ih child

theorem mem_places_iff (root : Node) (place : Place) (n : Node) :
    (place, n) ∈ root.places ↔ root.at? place = some n := by
  rw [places, Rose.mem_places_iff, get?_tree]

theorem pairwise_places (root : Node) : root.places.Pairwise fun x y => x.1 < y.1 :=
  root.tree.pairwise_places

theorem map_snd_places (root : Node) : root.places.map Prod.snd = root.preorder :=
  Rose.map_snd_placesFrom [] root.tree

theorem at?_append (n : Node) (p q : Place) : n.at? (p ++ q) = (n.at? p).bind (·.at? q) := by
  induction p generalizing n with
  | nil => rfl
  | cons i p ih =>
    simp only [List.cons_append, at?]
    cases n.children[i]? with
    | none => rfl
    | some child => exact ih child

theorem at?_concat (n : Node) (p : Place) (i : Nat) :
    n.at? (p ++ [i]) = (n.at? p).bind (·.children[i]?) := by
  rw [at?_append]
  simp [at?]

theorem above_of_at? {root n : Node} {place : Place} (h : root.at? place = some n) :
    (place = [] ∧ n = root) ∨ ∃ p i above,
      place = p ++ [i] ∧ root.at? p = some above ∧ above.children[i]? = some n := by
  rcases List.eq_nil_or_concat place with rfl | ⟨p, i, rfl⟩
  · exact .inl ⟨rfl, by simpa [at?] using h.symm⟩
  · rw [List.concat_eq_append, at?_concat, Option.bind_eq_some_iff] at h
    obtain ⟨above, habove, hchild⟩ := h
    exact .inr ⟨p, i, above, List.concat_eq_append, habove, hchild⟩

theorem markAt_child (step : σ → Node → Node → σ) (mark : σ) {root above n : Node} {p : Place}
    {i : Nat} (habove : root.at? p = some above) (hchild : above.children[i]? = some n) :
    root.tree.markAt step mark (p ++ [i]) = step (root.tree.markAt step mark p) above n := by
  apply Rose.markAt_concat
  · rw [get?_tree, habove]
  · rw [get?_tree, at?_concat, habove]
    exact hchild

theorem nodup_fst_places (root : Node) : (root.places.map Prod.fst).Nodup :=
  root.tree.nodup_fst_placesFrom []

/-! ## What is left unmarked -/

section

variable {α : Type} {step : Bool → Node → Node → Bool} {view : Node → Option α}

/-- What a view finds at the places without a mark, when the root has none. -/
def unmarkedAt (step : Bool → Node → Node → Bool) (view : Node → Option α) (root : Node) :
    List (Place × α) :=
  root.places.filterMap fun x =>
    if root.tree.markAt step false x.1 then none else (view x.2).map (x.1, ·)

theorem mem_unmarkedAt_iff {root : Node} {place : Place} {a : α} :
    (place, a) ∈ root.unmarkedAt step view
      ↔ ∃ n, root.at? place = some n ∧ view n = some a
        ∧ root.tree.markAt step false place = false := by
  unfold unmarkedAt
  rw [List.mem_filterMap]
  constructor
  · rintro ⟨⟨p, n⟩, hn, ha⟩
    split at ha
    · cases ha
    · next hmark =>
      obtain ⟨b, hb, heq⟩ := Option.map_eq_some_iff.mp ha
      obtain ⟨rfl, rfl⟩ := Prod.mk.inj heq
      exact ⟨n, (root.mem_places_iff p n).mp hn, hb, by simpa using hmark⟩
  · rintro ⟨n, hn, ha, hmark⟩
    refine ⟨(place, n), (root.mem_places_iff place n).mpr hn, ?_⟩
    simp [hmark, ha]

theorem unmarkedAt_sublist {node : α → Node} (hview : ∀ n a, view n = some a → n = node a)
    (root : Node) :
    ((root.unmarkedAt step view).map fun x => (x.1, node x.2)).Sublist root.places := by
  have hfilter : (root.unmarkedAt step view).map (fun x => (x.1, node x.2))
      = root.places.filter fun x => !root.tree.markAt step false x.1 && (view x.2).isSome := by
    unfold unmarkedAt
    rw [List.map_filterMap, ← List.filterMap_eq_filter]
    refine List.filterMap_congr ?_
    rintro ⟨p, n⟩ -
    cases hmark : root.tree.markAt step false p with
    | true => simp [Option.guard, hmark]
    | false =>
      cases h : view n with
      | none => simp [Option.guard, h]
      | some a =>
        obtain rfl := hview n a h
        simp [Option.guard, hmark, h]
  rw [hfilter]
  exact List.filter_sublist

theorem map_snd_unmarkedAt {pick : Bool × Node → Option α}
    (hpick : ∀ mark n, pick (mark, n) = if mark then none else view n) (root : Node) :
    (root.unmarkedAt step view).map Prod.snd
      = (root.tree.marked step false).preorder.filterMap pick := by
  unfold unmarkedAt
  rw [Rose.preorder_marked, List.filterMap_map, List.map_filterMap]
  refine List.filterMap_congr ?_
  rintro ⟨p, n⟩ -
  rw [Function.comp_apply, hpick]
  cases root.tree.markAt step false p <;> simp [Function.comp_def]

end

end Node

/-- The clauses of a query that stand after its body. -/
def Query.trailing (q : Query) : List Node :=
  q.orderBy.map .orderBy ++ q.limit.toList.map .expr ++ q.offset.toList.map .expr

theorem Node.children_query (q : Query) :
    (Node.query q).children = q.ctes.map .cte ++ .body q.body :: q.trailing := by
  simp [Node.children, Query.trailing]

/-! ## What is stored in a node

Field by field, without an order: which nodes an expression or another node has as parts. -/

namespace ExprKind

def HoldsExpr (e : Expr) : ExprKind → Prop
  | .unary _ x | .nested x | .field x _ | .cast x _ _ | .isNull x _ | .isBool x _ _
  | .lambda _ x | .inSubquery x _ _ => e = x
  | .binary left _ right => e = left ∨ e = right
  | .function f =>
    e ∈ f.args ∨ f.filter = some e ∨ ∃ w, f.window = some w ∧ e ∈ w.partitionBy
  | .caseWhen c =>
    c.operand = some e ∨ (∃ b ∈ c.branches, e = b.condition ∨ e = b.result) ∨ c.otherwise = some e
  | .inList x es _ => e = x ∨ e ∈ es
  | .between x low high _ => e = x ∨ e = low ∨ e = high
  | .like x pattern _ _ => e = x ∨ e = pattern
  | .index x i => e = x ∨ e = i
  | .slice x lower upper => e = x ∨ lower = some e ∨ upper = some e
  | .list items => e ∈ items
  | .struct fields => ∃ f ∈ fields, e = f.value
  | .column _ | .literal _ | .star _ | .raw _ | .subquery _ | .existsIn _ _ => False

def HoldsQuery (q : Query) : ExprKind → Prop
  | .inSubquery _ x _ | .subquery x | .existsIn x _ => q = x
  | _ => False

def HoldsKey (o : OrderBy) : ExprKind → Prop
  | .function f => ∃ w, f.window = some w ∧ o ∈ w.orderBy
  | _ => False

theorem expr_mem_children_iff (kind : ExprKind) (e : Expr) :
    .expr e ∈ kind.children ↔ kind.HoldsExpr e := by
  cases kind <;> simp [children, HoldsExpr, eq_comm]

theorem query_mem_children_iff (kind : ExprKind) (q : Query) :
    .query q ∈ kind.children ↔ kind.HoldsQuery q := by
  cases kind <;> simp [children, HoldsQuery]

theorem key_mem_children_iff (kind : ExprKind) (o : OrderBy) :
    .orderBy o ∈ kind.children ↔ kind.HoldsKey o := by
  cases kind <;> simp [children, HoldsKey]

theorem kinds_of_children (kind : ExprKind) :
    ∀ n ∈ kind.children, (∃ e, n = .expr e) ∨ (∃ q, n = .query q) ∨ ∃ o, n = .orderBy o := by
  cases kind <;> simp [children] <;> grind

end ExprKind

namespace Node

/-- Whether the second node is stored in a field of the first. -/
def Holds : Node → Node → Prop
  | .statement s, .query q => s.query? = some q
  | .query q, .cte c => c ∈ q.ctes
  | .query q, .body b => b = q.body
  | .query q, .orderBy o => o ∈ q.orderBy
  | .query q, .expr e => q.limit = some e ∨ q.offset = some e
  | .cte c, .query q => q = c.query
  | .body (.core x), .core c => c = x
  | .body (.setOperation operation), .body b => b = operation.left ∨ b = operation.right
  | .body (.nested x), .query q => q = x
  | .body (.values rows _), .expr e => ∃ row ∈ rows, e ∈ row
  | .core c, .item i => i ∈ c.columns
  | .core c, .source f => c.source = some f
  | .core c, .orderBy o => o ∈ c.orderBy
  | .core c, .expr e =>
    c.condition = some e ∨ e ∈ c.groupBy ∨ c.having = some e ∨ c.qualify = some e
      ∨ c.limit = some e ∨ c.offset = some e
  | .item i, .expr e => i.expr? = some e
  | .source f, .table t => t = f.first
  | .source f, .join j => j ∈ f.joins
  | .join j, .table t => t = j.table
  | .join j, .expr e => j.condition = some e
  | .table (.derived x _ _), .query q | .table (.lateral x _ _), .query q => q = x
  | .table (.nestedJoin x _ _), .source f => f = x
  | .orderBy o, .expr e => e = o.expr
  | .expr x, .expr e => x.kind.HoldsExpr e
  | .expr x, .query q => x.kind.HoldsQuery q
  | .expr x, .orderBy o => x.kind.HoldsKey o
  | _, _ => False

/-- The children of a node are what is stored in it. -/
theorem mem_children_iff (n m : Node) : m ∈ n.children ↔ n.Holds m := by
  cases n with
  | expr x =>
    cases m with
    | expr e => exact x.kind.expr_mem_children_iff e
    | query q => exact x.kind.query_mem_children_iff q
    | orderBy o => exact x.kind.key_mem_children_iff o
    | _ =>
      simp only [children, Holds, iff_false]
      intro h
      simpa using x.kind.kinds_of_children _ h
  | body b => cases b <;> cases m <;> simp [children, Holds, -List.map_flatten]
  | table t => cases t <;> cases m <;> simp [children, Holds]
  | _ => cases m <;> simp [children, Holds, eq_comm]

theorem exists_at?_iff (root n : Node) :
    (∃ place, root.at? place = some n) ↔ Relation.ReflTransGen Holds root n := by
  constructor
  · rintro ⟨place, h⟩
    induction place generalizing root with
    | nil =>
      obtain rfl : root = n := by simpa [at?] using h
      exact .refl
    | cons i place ih =>
      simp only [at?, Option.bind_eq_some_iff] at h
      obtain ⟨child, hchild, h⟩ := h
      have hstored : root.Holds child := (mem_children_iff ..).mp (List.mem_of_getElem? hchild)
      exact .head hstored (ih child h)
  · intro h
    induction h with
    | refl => exact ⟨[], rfl⟩
    | @tail m n _ hstored ih =>
      obtain ⟨place, hm⟩ := ih
      obtain ⟨i, hi⟩ := List.mem_iff_getElem?.mp ((mem_children_iff ..).mpr hstored)
      exact ⟨place ++ [i], by rw [at?_concat, hm]; exact hi⟩

theorem mem_preorder_iff (root n : Node) :
    n ∈ root.preorder ↔ Relation.ReflTransGen Holds root n := by
  rw [← exists_at?_iff, ← map_snd_places]
  simp [mem_places_iff]

theorem mem_collect_iff_holds {α : Type} {view : Node → Option α} {node : α → Node}
    (hview : ∀ n a, view n = some a ↔ n = node a) {root : Node} {a : α} :
    a ∈ root.collect view ↔ Relation.ReflTransGen Holds root (node a) := by
  rw [← mem_preorder_iff, collect_eq, List.mem_filterMap]
  constructor
  · rintro ⟨n, hn, ha⟩
    exact (hview n a).mp ha ▸ hn
  · intro h
    exact ⟨node a, h, (hview _ a).mpr rfl⟩

theorem mem_queries_iff {root : Node} {q : Query} :
    q ∈ root.queries ↔ Relation.ReflTransGen Holds root (.query q) :=
  mem_collect_iff_holds fun n _ => by cases n <;> simp [query?]

theorem mem_tables_iff {root : Node} {t : TableRef} :
    t ∈ root.tables ↔ Relation.ReflTransGen Holds root (.table t) :=
  mem_collect_iff_holds fun n _ => by cases n <;> simp [table?]

end Node
end SqlLint
