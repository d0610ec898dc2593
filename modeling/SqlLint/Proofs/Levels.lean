import Mathlib.Data.List.Flatten
import Mathlib.Data.List.Perm.Basic
import SqlLint.Proofs.Outside

/-! # One query at a time

Nested queries cut a tree into levels. Main statement: `perm_collect`, a view finds under a node what
it finds outside of the nested queries, and what it finds in each of them by itself. -/

namespace SqlLint

variable {α : Type} {view : Node → Option α}

namespace Node

/-- What a view finds under a node, nested queries left out. -/
def collectPlain (n : Node) (view : Node → Option α) : List α :=
  n.collectOutside (·.query?.isSome) view

@[simp] theorem collectPlain_query (q : Query) : (query q).collectPlain view = [] := by
  unfold collectPlain
  rw [collectOutside_eq _ _ _ [], outsideFrom_eq, if_pos (by rfl), List.filterMap_nil]

theorem collectPlain_eq {n : Node} (h : n.query? = none) :
    n.collectPlain view = (view n).toList ++ n.children.flatMap (·.collectPlain view) := by
  have hchildren : (n.children.zipIdx.flatMap fun x =>
      (x.1.tree.outsideFrom (·.query?.isSome) ([] ++ [x.2])).filterMap fun x => view x.2)
        = n.children.flatMap (·.collectPlain view) := by
    conv => rhs; rw [← List.zipIdx_map_fst 0 n.children, List.flatMap_map]
    exact List.flatMap_congr fun x _ => (collectOutside_eq ..).symm
  unfold collectPlain
  rw [collectOutside_eq _ _ _ [], outsideFrom_eq, if_neg (by simp [h]), List.filterMap_cons,
    List.filterMap_flatMap, hchildren]
  cases view n <;> rfl

theorem filterMap_collectPlain {β : Type} (n : Node) (g : α → Option β) :
    (n.collectPlain view).filterMap g = n.collectPlain fun m => (view m).bind g := by
  unfold collectPlain
  rw [collectOutside_eq _ _ _ [], collectOutside_eq _ _ _ [], List.filterMap_filterMap]

theorem collectPlain_of_closed {P : Node → Prop}
    (hclosed : ∀ n m, P n → m ∈ n.children → P m ∨ m.query?.isSome)
    (hview : ∀ n, P n → view n = none) {n : Node} (h : P n) : n.collectPlain view = [] := by
  induction n using induction_children with
  | h n ih =>
    cases hn : n.query? with
    | some q =>
      obtain rfl := eq_of_query? hn
      exact collectPlain_query q
    | none =>
      have hchildren : n.children.flatMap (·.collectPlain view) = [] := by
        refine List.flatMap_eq_nil_iff.2 fun m hm => ?_
        -- A child is of the kind too, or it is a query, which is left out.
        rcases hclosed n m h hm with hkind | hsome
        · exact ih m hm hkind
        · obtain ⟨q, hq⟩ := Option.isSome_iff_exists.1 hsome
          obtain rfl := eq_of_query? hq
          exact collectPlain_query q
      rw [collectPlain_eq hn, hview n h, hchildren]
      rfl

theorem collect_children (n : Node) :
    n.collect view = (view n).toList ++ n.children.flatMap (·.collect view) := by
  have hchildren : (n.children.flatMap preorder).filterMap view
      = n.children.flatMap (·.collect view) := by
    rw [List.filterMap_flatMap]
    exact List.flatMap_congr fun m _ => (collect_eq m view).symm
  have hpreorder : n.preorder = n :: n.children.flatMap preorder := by
    rw [preorder, tree_eq, Rose.preorder, Rose.preorders_eq_flatMap, List.flatMap_map]
    rfl
  rw [collect_eq, hpreorder, List.filterMap_cons, hchildren]
  cases view n <;> rfl

end Node

/-- What a view finds in a query by itself, the queries nested in it left out. -/
def Query.collectOwn (q : Query) (view : Node → Option α) : List α :=
  (view (.query q)).toList ++ (Node.query q).children.flatMap (·.collectPlain view)

namespace Node

theorem perm_collect (n : Node) (view : Node → Option α) :
    (n.collect view).Perm (n.collectPlain view ++ n.queries.flatMap (·.collectOwn view)) := by
  induction n using induction_children with
  | h n ih =>
    have hbelow : (n.children.flatMap (·.collect view)).Perm
        (n.children.flatMap (·.collectPlain view)
          ++ (n.children.flatMap queries).flatMap (·.collectOwn view)) := by
      rw [List.flatMap_assoc]
      exact (List.Perm.flatMap_left _ ih).trans (List.flatMap_append_perm ..).symm
    have hqueries : n.queries = n.query?.toList ++ n.children.flatMap queries :=
      collect_children n
    rw [collect_children, hqueries]
    cases hn : n.query? with
    | none =>
      rw [collectPlain_eq hn, List.append_assoc]
      exact hbelow.append_left _
    | some q =>
      -- What is at the level of the children is the query's own.
      obtain rfl := eq_of_query? hn
      rw [collectPlain_query, List.nil_append, Option.toList_some, List.singleton_append,
        List.flatMap_cons, Query.collectOwn, List.append_assoc]
      exact hbelow.append_left _

theorem mem_collect_iff {n : Node} {a : α} :
    a ∈ n.collect view ↔ a ∈ n.collectPlain view ∨ ∃ q ∈ n.queries, a ∈ q.collectOwn view := by
  rw [(perm_collect n view).mem_iff, List.mem_append, List.mem_flatMap]

/-! ## The frame of a query

Operands, sort keys and common table expressions lead to tables through nested queries only. -/

/-- Whether a node is on the way from a query to its own tables. -/
def isFrame : Node → Bool
  | .statement _ | .query _ | .body _ | .core _ | .source _ | .join _ | .table _ => true
  | .cte _ | .item _ | .orderBy _ | .expr _ => false

/-- Whether a view shows nothing outside of frames. -/
def OfFrame (view : Node → Option α) : Prop := ∀ n, n.isFrame = false → view n = none

theorem isFrame_of_child {n m : Node} (h : n.isFrame = false) (hm : m ∈ n.children) :
    m.isFrame = false ∨ m.query?.isSome := by
  rw [mem_children_iff] at hm
  cases n <;> simp only [isFrame, reduceCtorEq] at h <;> cases m <;>
    simp_all [Holds, isFrame, query?]

theorem OfFrame.collectPlain_eq_nil (hview : OfFrame view) {n : Node} (h : n.isFrame = false) :
    n.collectPlain view = [] :=
  collectPlain_of_closed (fun _ _ => isFrame_of_child) hview h

theorem OfFrame.flatMap_collectPlain (hview : OfFrame view) {β : Type} (node : β → Node)
    (h : ∀ b, (node b).isFrame = false) (l : List β) :
    l.flatMap (fun b => (node b).collectPlain view) = [] :=
  List.flatMap_eq_nil_iff.2 fun b _ => hview.collectPlain_eq_nil (h b)

theorem collectPlain_statement (s : Statement) :
    (statement s).collectPlain view = (view (.statement s)).toList := by
  have hchildren : (statement s).children.flatMap (·.collectPlain view) = [] := by
    cases hq : s.query? <;> simp [children, hq]
  rw [collectPlain_eq rfl, hchildren, List.append_nil]

theorem OfFrame.collectPlain_core (hview : OfFrame view) (c : Core) :
    (core c).collectPlain view
      = (view (.core c)).toList ++ c.source.toList.flatMap fun f => (source f).collectPlain view := by
  rw [collectPlain_eq rfl]
  simp only [children, List.flatMap_append, List.flatMap_map]
  simp [hview.flatMap_collectPlain expr fun _ => rfl,
    hview.flatMap_collectPlain orderBy fun _ => rfl, hview.flatMap_collectPlain item fun _ => rfl]

theorem collectPlain_source (f : FromClause) :
    (source f).collectPlain view
      = (view (.source f)).toList ++ ((table f.first).collectPlain view
        ++ f.joins.flatMap fun j => (join j).collectPlain view) := by
  rw [collectPlain_eq rfl, children, List.flatMap_cons, List.flatMap_map]

theorem OfFrame.collectPlain_join (hview : OfFrame view) (j : Join) :
    (join j).collectPlain view
      = (view (.join j)).toList ++ (table j.table).collectPlain view := by
  rw [collectPlain_eq rfl, children, List.flatMap_cons, List.flatMap_map,
    hview.flatMap_collectPlain expr fun _ => rfl, List.append_nil]

theorem collectPlain_table (t : TableRef) :
    (table t).collectPlain view
      = (view (.table t)).toList ++ match t with
        | .nestedJoin f _ _ => (source f).collectPlain view
        | _ => [] := by
  rw [collectPlain_eq rfl]
  cases t <;> simp [children]

theorem OfFrame.collectPlain_body (hview : OfFrame view) (b : Body) :
    (body b).collectPlain view
      = (view (.body b)).toList ++ match b with
        | .core c => (core c).collectPlain view
        | .setOperation o => (body o.left).collectPlain view ++ (body o.right).collectPlain view
        | .nested _ | .values _ _ => [] := by
  rw [collectPlain_eq rfl]
  cases b with
  | values rows span =>
    rw [children, List.flatMap_map, hview.flatMap_collectPlain expr fun _ => rfl]
  | _ => simp [children]

theorem OfFrame.collectOwn_eq (hview : OfFrame view) (q : Query) :
    q.collectOwn view = (view (.query q)).toList ++ (body q.body).collectPlain view := by
  unfold Query.collectOwn
  simp only [children, List.flatMap_append, List.flatMap_cons, List.flatMap_map]
  simp [hview.flatMap_collectPlain expr fun _ => rfl,
    hview.flatMap_collectPlain orderBy fun _ => rfl, hview.flatMap_collectPlain cte fun _ => rfl]

end Node
end SqlLint
