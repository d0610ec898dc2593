import Mathlib.Data.List.Nodup
import SqlLint.Proofs.Lists
import SqlLint.Proofs.Places
import SqlLint.Rules.Ambiguous

/-! # Chains of set operations

A chain is a set operation with its operands, the operands of these and so on, where parentheses do
not count. Bodies are told apart by their places. Main statements: `existsUnique_root`, every set
operation is in one chain, and `check_eq_findings`, the rule on column counts compares the operands
of every chain once. -/

namespace SqlLint

abbrev BodyAt := Place × Body

/-! ## Chains -/

/-- Whether the body is no set operation and stands in no parentheses. -/
def Chain.IsOperand : Body → Prop
  | .core _ | .values _ _ => True
  | .setOperation _ | .nested _ => False

mutual

/-- Bodies are made of operands with set operations and parentheses. -/
theorem Body.induction_chain {P : Body → Prop} (operand : ∀ b, Chain.IsOperand b → P b)
    (setOperation : ∀ o : SetOperation, P o.left → P o.right → P (.setOperation o))
    (nested : ∀ q : Query, P q.body → P (.nested q)) : ∀ b, P b
  | .core _ | .values _ _ => operand _ trivial
  | .setOperation o => SetOperation.induction_chain operand setOperation nested o
  | .nested q => Query.induction_chain operand setOperation nested q

theorem SetOperation.induction_chain {P : Body → Prop} (operand : ∀ b, Chain.IsOperand b → P b)
    (setOperation : ∀ o : SetOperation, P o.left → P o.right → P (.setOperation o))
    (nested : ∀ q : Query, P q.body → P (.nested q)) : ∀ o, P (.setOperation o)
  | ⟨_, _, left, right, _⟩ =>
    setOperation _ (Body.induction_chain operand setOperation nested left)
      (Body.induction_chain operand setOperation nested right)

theorem Query.induction_chain {P : Body → Prop} (operand : ∀ b, Chain.IsOperand b → P b)
    (setOperation : ∀ o : SetOperation, P o.left → P o.right → P (.setOperation o))
    (nested : ∀ q : Query, P q.body → P (.nested q)) : ∀ q, P (.nested q)
  | ⟨_, _, body, _, _, _, _⟩ => nested _ (Body.induction_chain operand setOperation nested body)

end

/-! ## Operands by place -/

mutual

/-- The operands of a chain with their places, parentheses dissolved. -/
def Body.branchesAt (p : Place) : Body → List BodyAt
  | .core c => [(p, .core c)]
  | .values rows span => [(p, .values rows span)]
  | .setOperation o => o.branchesAt p
  | .nested q => q.branchesAt (p ++ [0])

def SetOperation.branchesAt (p : Place) : SetOperation → List BodyAt
  | ⟨_, _, left, right, _⟩ => left.branchesAt (p ++ [0]) ++ right.branchesAt (p ++ [1])

def Query.branchesAt (p : Place) : Query → List BodyAt
  | ⟨ctes, _, body, _, _, _, _⟩ => body.branchesAt (p ++ [ctes.length])

end

section

variable {b : Body}

theorem Body.branches_of_isOperand (h : Chain.IsOperand b) : b.branches = [b] := by
  unfold Chain.IsOperand at h
  split at h
  · rfl
  · rfl
  · exact h.elim
  · exact h.elim

theorem Body.branches_setOperation (o : SetOperation) :
    (Body.setOperation o).branches = o.left.branches ++ o.right.branches := by
  cases o
  rfl

theorem Body.branches_nested (q : Query) : (Body.nested q).branches = q.body.branches := by
  cases q
  rfl

theorem Body.branchesAt_of_isOperand (p : Place) (h : Chain.IsOperand b) :
    b.branchesAt p = [(p, b)] := by
  unfold Chain.IsOperand at h
  split at h
  · rfl
  · rfl
  · exact h.elim
  · exact h.elim

theorem Body.branchesAt_setOperation (p : Place) (o : SetOperation) :
    (Body.setOperation o).branchesAt p
      = o.left.branchesAt (p ++ [0]) ++ o.right.branchesAt (p ++ [1]) := by
  cases o
  rfl

theorem Body.branchesAt_nested (p : Place) (q : Query) :
    (Body.nested q).branchesAt p = q.body.branchesAt (p ++ [0] ++ [q.ctes.length]) := by
  cases q
  rfl

theorem Body.map_snd_branchesAt (p : Place) (b : Body) :
    (b.branchesAt p).map Prod.snd = b.branches := by
  induction b using Body.induction_chain generalizing p with
  | operand b h =>
    rw [branchesAt_of_isOperand p h, branches_of_isOperand h]
    rfl
  | setOperation o ihl ihr =>
    rw [branchesAt_setOperation, branches_setOperation, List.map_append, ihl, ihr]
  | nested q ih => rw [branchesAt_nested, branches_nested, ih]

end

/-! ## Steps inside a chain -/

namespace Chain

variable {root : Node} {x y z : BodyAt}

/-- A step to an operand of a set operation, or through parentheses to the body of the query inside
them. That body stands after the common table expressions. -/
inductive Step : BodyAt → BodyAt → Prop where
  | left (p : Place) (o : SetOperation) : Step (p, .setOperation o) (p ++ [0], o.left)
  | right (p : Place) (o : SetOperation) : Step (p, .setOperation o) (p ++ [1], o.right)
  | inside (p : Place) (q : Query) : Step (p, .nested q) (p ++ [0, q.ctes.length], q.body)

abbrev Reaches : BodyAt → BodyAt → Prop := Relation.ReflTransGen Step

/-- Whether the body stands at its place under the root. -/
def Under (root : Node) (x : BodyAt) : Prop := root.at? x.1 = some (.body x.2)

def IsSetOperation (b : Body) : Prop := ∃ o, b = .setOperation o

/-- Whether the body is a set operation that no other set operation reaches. -/
structure IsRoot (root : Node) (x : BodyAt) : Prop where
  under : Under root x
  isSetOperation : IsSetOperation x.2
  unreached : ∀ y, Under root y → IsSetOperation y.2 → ¬ Relation.TransGen Step y x

theorem Under.eq_of_place (hx : Under root x) (hy : Under root y) (h : x.1 = y.1) : x = y := by
  have hbody : x.2 = y.2 := by
    rw [Under, h, hy] at hx
    simpa using hx.symm
  exact Prod.ext h hbody

theorem query_children_at_body (q : Query) :
    (Node.query q).children[q.ctes.length]? = some (.body q.body) := by
  simp [Node.children]

theorem Under.query_inside {p : Place} {q : Query} (h : Under root (p, .nested q)) :
    root.at? (p ++ [0]) = some (.query q) := by
  rw [Node.at?_concat, h]
  rfl

theorem Step.under (h : Step x y) (hx : Under root x) : Under root y := by
  cases h with
  | left p o => rw [Under, Node.at?_concat, hx]; rfl
  | right p o => rw [Under, Node.at?_concat, hx]; rfl
  | inside p q =>
    have happend : p ++ [0, q.ctes.length] = p ++ [0] ++ [q.ctes.length] := by simp
    rw [Under, happend, Node.at?_concat, hx.query_inside]
    exact query_children_at_body q

theorem Reaches.under (h : Reaches x y) (hx : Under root x) : Under root y := by
  induction h with
  | refl => exact hx
  | tail _ hstep ih => exact hstep.under ih

theorem Reaches.above (h : Reaches x y) : x.1 <+: y.1 := by
  induction h with
  | refl => exact List.prefix_refl _
  | tail _ hstep ih =>
    refine ih.trans ?_
    cases hstep <;> exact List.prefix_append _ _

theorem Step.length_lt (h : Step x y) : x.1.length < y.1.length := by
  cases h <;> simp

theorem length_lt_of_transGen (h : Relation.TransGen Step x y) : x.1.length < y.1.length := by
  induction h with
  | single hstep => exact hstep.length_lt
  | tail _ hstep ih => exact Nat.lt_trans ih hstep.length_lt

theorem Step.place_eq (h : Step x y) (hx : Under root x) :
    x.1 = match root.at? y.1.dropLast with
      | some (.query _) => y.1.dropLast.dropLast
      | _ => y.1.dropLast := by
  cases h with
  | left p o => simp only [List.dropLast_concat]; rw [hx]
  | right p o => simp only [List.dropLast_concat]; rw [hx]
  | inside p q =>
    have happend : p ++ [0, q.ctes.length] = p ++ [0] ++ [q.ctes.length] := by simp
    simp only [happend, List.dropLast_concat, hx.query_inside]

theorem Step.left_unique (hx : Under root x) (hy : Under root y) (hxz : Step x z)
    (hyz : Step y z) : x = y :=
  hx.eq_of_place hy ((hxz.place_eq hx).trans (hyz.place_eq hy).symm)

theorem Reaches.total (hx : Under root x) (hy : Under root y) (hxz : Reaches x z)
    (hyz : Reaches y z) : Reaches x y ∨ Reaches y x := by
  induction hxz with
  | refl => exact .inr hyz
  | @tail w z hxw hwz ih =>
    rcases Relation.ReflTransGen.cases_tail hyz with rfl | ⟨v, hyv, hvz⟩
    · exact .inl (hxw.tail hwz)
    · obtain rfl : v = w := hvz.left_unique (Reaches.under hyv hy) (Reaches.under hxw hx) hwz
      exact ih hyv

/-! ## Marks tell the roots -/

open Rules.ColumnCount (chainStep chainRoot? chainRoots columnCount? checkBranch checkChain check
  message)

theorem query_children_eq_body {q : Query} {i : Nat} {b : Body}
    (h : (Node.query q).children[i]? = some (.body b)) : i = q.ctes.length ∧ b = q.body := by
  have hb : (Node.query q).Holds (.body b) :=
    (Node.mem_children_iff ..).mp (List.mem_of_getElem? h)
  refine ⟨?_, hb⟩
  rcases Nat.lt_trichotomy i q.ctes.length with hi | hi | hi
  · -- Before the body stand the common table expressions.
    simp [Node.children, List.getElem?_append, hi] at h
  · exact hi
  · -- After the body stand sort keys and expressions.
    obtain ⟨k, rfl⟩ := Nat.exists_eq_add_of_lt hi
    rw [Node.children_query, List.getElem?_append_right (by simp; omega), List.length_map,
      show q.ctes.length + k + 1 - q.ctes.length = k + 1 by omega, List.getElem?_cons_succ] at h
    have htrailing := List.mem_of_getElem? h
    simp [Query.trailing] at htrailing

theorem above_body {n : Node} {i : Nat} {b : Body} (h : n.children[i]? = some (.body b)) :
    (∃ o, n = .body (.setOperation o) ∧ ∀ p, Step (p, .setOperation o) (p ++ [i], b))
      ∨ ∃ q, n = .query q ∧ i = q.ctes.length ∧ b = q.body := by
  have hmem : n.Holds (.body b) := (Node.mem_children_iff ..).mp (List.mem_of_getElem? h)
  cases n with
  | query q =>
    obtain ⟨hi, hb⟩ := query_children_eq_body h
    exact .inr ⟨q, rfl, hi, hb⟩
  | body body =>
    cases body with
    | setOperation o =>
      refine .inl ⟨o, rfl, fun p => ?_⟩
      match i with
      | 0 =>
        obtain rfl : o.left = b := by simpa [Node.children] using h
        exact .left p o
      | 1 =>
        obtain rfl : o.right = b := by simpa [Node.children] using h
        exact .right p o
      | i + 2 => simp [Node.children] at h
    | _ => simp [Node.Holds] at hmem
  | _ => simp [Node.Holds] at hmem

theorem Step.source_of_query {q : Place} {i : Nat} {b : Body} {query : Query}
    (hq : root.at? q = some (.query query)) (hx : Under root x) (h : Step x (q ++ [i], b)) :
    q = x.1 ++ [0] ∧ x.2 = .nested query := by
  generalize hz : (q ++ [i], b) = z at h
  cases h with
  | left p o | right p o =>
    obtain ⟨rfl, -⟩ := List.append_inj' (Prod.mk.inj hz).1 rfl
    cases hx.symm.trans hq
  | inside p query' =>
    have hplace : q ++ [i] = p ++ [0] ++ [query'.ctes.length] := by simpa using (Prod.mk.inj hz).1
    obtain ⟨rfl, -⟩ := List.append_inj' hplace rfl
    rw [hx.query_inside] at hq
    exact ⟨rfl, by simpa using hq⟩

theorem mark_query_iff {q : Place} {query : Query} (hq : root.at? q = some (.query query)) :
    root.tree.markAt chainStep false q = true
      ↔ ∃ p, q = p ++ [0] ∧ Under root (p, .nested query)
        ∧ root.tree.markAt chainStep false p = true := by
  rcases Node.above_of_at? hq with ⟨rfl, -⟩ | ⟨p, i, n, rfl, hn, hchild⟩
  · simp [Rose.markAt]
  · rw [Node.markAt_child chainStep false hn hchild]
    constructor
    · intro hmark
      cases n with
      | body b =>
        cases b with
        | nested query' =>
          have : i = 0 ∧ query' = query := by
            rcases i with _ | i <;> simp [Node.children] at hchild ⊢
            exact hchild
          obtain ⟨rfl, rfl⟩ := this
          exact ⟨p, rfl, hn, hmark⟩
        | _ => simp [chainStep] at hmark
      | _ => simp [chainStep] at hmark
    · rintro ⟨p', hp, hunder, hmark⟩
      obtain ⟨rfl, -⟩ := List.append_inj' hp rfl
      obtain rfl := Option.some.inj (hn.symm.trans hunder)
      exact hmark

theorem mark_iff (hx : Under root x) :
    root.tree.markAt chainStep false x.1 = true
      ↔ ∃ y, Under root y ∧ IsSetOperation y.2 ∧ Relation.TransGen Step y x := by
  induction hlength : x.1.length using Nat.strongRecOn generalizing x with
  | ind n ih =>
    obtain ⟨p, b⟩ := x
    rcases Node.above_of_at? hx with ⟨rfl, -⟩ | ⟨q, i, n, rfl, hn, hchild⟩
    · refine iff_of_false (by simp [Rose.markAt]) ?_
      rintro ⟨y, -, -, hy⟩
      exact absurd (length_lt_of_transGen hy) (by simp)
    · rw [Node.markAt_child chainStep false hn hchild]
      rcases above_body hchild with ⟨o, rfl, hstep⟩ | ⟨query, rfl, rfl, rfl⟩
      · -- An operand: the set operation above it is there.
        exact iff_of_true rfl ⟨(q, .setOperation o), hn, ⟨o, rfl⟩, .single (hstep q)⟩
      · -- The body of a query has the mark of the query.
        change root.tree.markAt chainStep false q = true ↔ _
        rw [mark_query_iff hn]
        constructor
        · rintro ⟨p, rfl, hp, hmark⟩
          obtain ⟨y, hy, hset, hreach⟩ :=
            (ih p.length (by simp at hlength ⊢; omega) hp rfl).mp hmark
          refine ⟨y, hy, hset, hreach.tail ?_⟩
          simpa using Step.inside p query
        · rintro ⟨y, hy, hset, hreach⟩
          obtain ⟨⟨p, b⟩, hyw, hwx⟩ := Relation.TransGen.tail'_iff.mp hreach
          have hw : Under root (p, b) := Reaches.under hyw hy
          obtain ⟨rfl, rfl⟩ := hwx.source_of_query hn hw
          refine ⟨p, rfl, hw, (ih p.length (by simp at hlength ⊢; omega) hw rfl).mpr ?_⟩
          rcases Relation.reflTransGen_iff_eq_or_transGen.mp hyw with rfl | hyw
          · obtain ⟨o, ho⟩ := hset
            cases ho
          · exact ⟨y, hy, hset, hyw⟩

theorem isRoot_iff :
    IsRoot root x ↔ Under root x ∧ IsSetOperation x.2
      ∧ root.tree.markAt chainStep false x.1 = false := by
  constructor
  · rintro ⟨hx, hset, hfree⟩
    refine ⟨hx, hset, ?_⟩
    rw [← Bool.not_eq_true, mark_iff hx]
    rintro ⟨y, hy, hyset, hreach⟩
    exact hfree y hy hyset hreach
  · rintro ⟨hx, hset, hmark⟩
    refine ⟨hx, hset, fun y hy hyset hreach => ?_⟩
    rw [(mark_iff hx).mpr ⟨y, hy, hyset, hreach⟩] at hmark
    cases hmark

theorem IsRoot.unique {r r' : BodyAt} (hr : IsRoot root r) (hr' : IsRoot root r')
    (hrx : Reaches r x) (hrx' : Reaches r' x) : r = r' := by
  have heq : ∀ {a b}, IsRoot root a → IsRoot root b → Reaches a b → a = b := by
    intro a b ha hb hab
    rcases Relation.reflTransGen_iff_eq_or_transGen.mp hab with rfl | hab
    · rfl
    · exact absurd hab (hb.unreached a ha.under ha.isSetOperation)
  rcases hrx.total hr.under hr'.under hrx' with h | h
  · exact heq hr hr' h
  · exact (heq hr' hr h).symm

theorem existsUnique_root (hx : Under root x) (hset : IsSetOperation x.2) :
    ∃! r, IsRoot root r ∧ Reaches r x := by
  have hexists : ∃ r, IsRoot root r ∧ Reaches r x := by
    induction hlength : x.1.length using Nat.strongRecOn generalizing x with
    | ind n ih =>
      by_cases hmark : root.tree.markAt chainStep false x.1 = true
      · obtain ⟨y, hy, hyset, hreach⟩ := (mark_iff hx).mp hmark
        obtain ⟨r, hr, hry⟩ := ih y.1.length (hlength ▸ length_lt_of_transGen hreach) hy hyset rfl
        exact ⟨r, hr, hry.trans hreach.to_reflTransGen⟩
      · exact ⟨x, isRoot_iff.mpr ⟨hx, hset, by simpa using hmark⟩, .refl⟩
  obtain ⟨r, hr, hrx⟩ := hexists
  exact ⟨r, ⟨hr, hrx⟩, fun r' ⟨hr', hrx'⟩ => hr'.unique hr hrx' hrx⟩

/-- The roots with their places, in walk order. -/
def roots (root : Node) : List BodyAt :=
  root.places.filterMap fun x =>
    (chainRoot? (root.tree.markAt chainStep false x.1, x.2)).map fun b => (x.1, b)

theorem map_snd_roots (root : Node) : (roots root).map Prod.snd = chainRoots root := by
  rw [chainRoots, Rose.preorder_marked, roots, List.filterMap_map, List.map_filterMap]
  simp [Node.places, Function.comp_def]

theorem chainRoot?_eq_some {marked : Bool} {n : Node} {b : Body} :
    chainRoot? (marked, n) = some b ↔ marked = false ∧ n = .body b ∧ IsSetOperation b := by
  constructor
  · intro h
    unfold chainRoot? at h
    split at h
    · rename_i o heq
      obtain ⟨rfl, rfl⟩ := Prod.mk.inj heq
      obtain rfl := Option.some.inj h
      exact ⟨rfl, rfl, o, rfl⟩
    · cases h
  · rintro ⟨rfl, rfl, o, rfl⟩
    rfl

theorem mem_roots_iff {r : BodyAt} : r ∈ roots root ↔ IsRoot root r := by
  obtain ⟨p, b⟩ := r
  rw [isRoot_iff, roots, List.mem_filterMap]
  constructor
  · rintro ⟨⟨q, n⟩, hmem, hroot⟩
    obtain ⟨b', hb', heq⟩ := Option.map_eq_some_iff.mp hroot
    obtain ⟨rfl, rfl⟩ := Prod.mk.inj heq
    obtain ⟨hmark, rfl, hset⟩ := chainRoot?_eq_some.mp hb'
    exact ⟨(root.mem_places_iff ..).mp hmem, hset, hmark⟩
  · rintro ⟨hunder, hset, hmark⟩
    refine ⟨(p, .body b), (root.mem_places_iff ..).mpr hunder, ?_⟩
    rw [chainRoot?_eq_some.mpr ⟨hmark, rfl, hset⟩]
    rfl

theorem roots_sublist (root : Node) :
    ((roots root).map fun r => (r.1, Node.body r.2)).Sublist root.places := by
  have hfilter : (roots root).map (fun r => (r.1, Node.body r.2)) = root.places.filter fun x =>
      (chainRoot? (root.tree.markAt chainStep false x.1, x.2)).isSome := by
    rw [roots, List.map_filterMap, ← List.filterMap_eq_filter]
    apply List.filterMap_congr
    rintro ⟨p, n⟩ -
    cases h : chainRoot? (root.tree.markAt chainStep false p, n) with
    | none => simp [Option.guard, h]
    | some b =>
      obtain ⟨-, rfl, -⟩ := chainRoot?_eq_some.mp h
      simp [Option.guard, h]
  rw [hfilter]
  exact List.filter_sublist

/-! ## The operands of a chain -/

theorem eq_of_reaches_operand (hx : IsOperand x.2) (h : Reaches x y) : y = x := by
  rcases Relation.ReflTransGen.cases_head h with rfl | ⟨z, hstep, -⟩
  · rfl
  · cases hstep <;> exact hx.elim

theorem reaches_setOperation_iff {p : Place} {o : SetOperation} :
    Reaches (p, .setOperation o) x ↔ x = (p, .setOperation o)
      ∨ Reaches (p ++ [0], o.left) x ∨ Reaches (p ++ [1], o.right) x := by
  rw [Reaches, Relation.ReflTransGen.cases_head_iff]
  constructor
  · rintro (rfl | ⟨z, hstep, hz⟩)
    · exact .inl rfl
    · cases hstep with
      | left => exact .inr (.inl hz)
      | right => exact .inr (.inr hz)
  · rintro (rfl | hz | hz)
    · exact .inl rfl
    · exact .inr ⟨_, .left p o, hz⟩
    · exact .inr ⟨_, .right p o, hz⟩

theorem reaches_nested_iff {p : Place} {q : Query} :
    Reaches (p, .nested q) x
      ↔ x = (p, .nested q) ∨ Reaches (p ++ [0] ++ [q.ctes.length], q.body) x := by
  rw [Reaches, Relation.ReflTransGen.cases_head_iff, List.append_assoc]
  constructor
  · rintro (rfl | ⟨z, hstep, hz⟩)
    · exact .inl rfl
    · cases hstep
      exact .inr hz
  · rintro (rfl | hz)
    · exact .inl rfl
    · exact .inr ⟨_, .inside p q, hz⟩

theorem mem_branchesAt_iff (p : Place) (b : Body) :
    x ∈ b.branchesAt p ↔ Reaches (p, b) x ∧ IsOperand x.2 := by
  induction b using Body.induction_chain generalizing p with
  | operand b h =>
    rw [Body.branchesAt_of_isOperand p h, List.mem_singleton]
    constructor
    · rintro rfl
      exact ⟨.refl, h⟩
    · rintro ⟨hreach, -⟩
      exact eq_of_reaches_operand h hreach
  | setOperation o ihl ihr =>
    rw [Body.branchesAt_setOperation, List.mem_append, ihl, ihr, ← or_and_right,
      reaches_setOperation_iff]
    constructor
    · rintro ⟨h, hx⟩
      exact ⟨.inr h, hx⟩
    · rintro ⟨rfl | h, hx⟩
      · exact hx.elim
      · exact ⟨h, hx⟩
  | nested q ih =>
    rw [Body.branchesAt_nested, ih, reaches_nested_iff]
    constructor
    · rintro ⟨h, hx⟩
      exact ⟨.inr h, hx⟩
    · rintro ⟨rfl | h, hx⟩
      · exact hx.elim
      · exact ⟨h, hx⟩

theorem pairwise_branchesAt (p : Place) (b : Body) :
    (b.branchesAt p).Pairwise fun x y => x.1 < y.1 := by
  induction b using Body.induction_chain generalizing p with
  | operand b h =>
    rw [Body.branchesAt_of_isOperand p h]
    exact List.pairwise_singleton _ _
  | setOperation o ihl ihr =>
    rw [Body.branchesAt_setOperation, List.pairwise_append]
    refine ⟨ihl _, ihr _, fun x hx y hy => ?_⟩
    -- The places on the two sides differ in the number after `p`.
    obtain ⟨q, hq⟩ := ((mem_branchesAt_iff _ o.left).mp hx).1.above
    obtain ⟨r, hr⟩ := ((mem_branchesAt_iff _ o.right).mp hy).1.above
    have hlt : 0 :: q < 1 :: r := List.cons_lt_cons_iff.mpr (.inl Nat.zero_lt_one)
    rw [← hq, ← hr, List.append_assoc, List.append_assoc]
    exact List.append_left_lt hlt
  | nested q ih =>
    rw [Body.branchesAt_nested]
    exact ih _

theorem nodup_branchesAt (p : Place) (b : Body) : (b.branchesAt p).Nodup := by
  refine (pairwise_branchesAt p b).imp ?_
  rintro x y hlt rfl
  exact List.lt_irrefl _ hlt

/-! ## What is found in a chain -/

/-- What there is to say on the operand that is number `i`, counted from one: both it and the first
have a known number of columns, and the numbers differ. -/
def finding? (ctx : Context) (operands : List BodyAt) (i : Nat) : Option (Place × Diagnostic) := do
  let first ← operands.head?
  let operand ← operands[i - 1]?
  let expected ← columnCount? first.2
  let actual ← columnCount? operand.2
  if actual = expected then none
  else
    return (operand.1,
      (ctx.report (message i actual expected) operand.2.span).withImpact .critical)

/-- The findings for a chain, each with the place of its operand. -/
def findings (ctx : Context) (chain : BodyAt) : List (Place × Diagnostic) :=
  let operands := chain.2.branchesAt chain.1
  (List.range' 2 (operands.length - 1)).filterMap (finding? ctx operands)

theorem filterMap_range'_eq {α β : Type} (f : Nat → α → Option β) (xs : List α) (m : Nat) :
    (List.range' (m + 2) xs.length).filterMap (fun i => xs[i - (m + 2)]?.bind (f i))
      = (xs.zipIdx m).filterMap fun (x, i) => f (i + 2) x := by
  induction xs generalizing m with
  | nil => rfl
  | cons x xs ih =>
    have htail : (List.range' (m + 1 + 2) xs.length).filterMap
          (fun i => (x :: xs)[i - (m + 2)]?.bind (f i))
        = (List.range' (m + 1 + 2) xs.length).filterMap
          (fun i => xs[i - (m + 1 + 2)]?.bind (f i)) := by
      apply List.filterMap_congr
      intro i hi
      rw [List.mem_range'_1] at hi
      rw [show i - (m + 2) = i - (m + 1 + 2) + 1 by omega, List.getElem?_cons_succ]
    rw [List.length_cons, List.range'_succ, List.zipIdx_cons, List.filterMap_cons,
      List.filterMap_cons, show m + 2 + 1 = m + 1 + 2 by omega, htail, ih (m + 1)]
    simp

theorem findings_eq {ctx : Context} {chain first : BodyAt} {rest : List BodyAt}
    (hoperands : chain.2.branchesAt chain.1 = first :: rest) :
    findings ctx chain = match columnCount? first.2 with
      | none => []
      | some expected => rest.zipIdx.filterMap fun (x, i) =>
        (checkBranch ctx expected i x.2).map fun d => (x.1, d) := by
  simp only [findings, hoperands, List.length_cons, Nat.add_sub_cancel]
  cases hcount : columnCount? first.2 with
  | none =>
    rw [List.filterMap_eq_nil_iff]
    intro i _
    cases hi : (first :: rest)[i - 1]? <;> simp [finding?, hcount, hi]
  | some expected =>
    have hstep := filterMap_range'_eq (fun i (x : BodyAt) =>
      (checkBranch ctx expected (i - 2) x.2).map fun d => (x.1, d)) rest 0
    simp only [Nat.zero_add, Nat.add_sub_cancel] at hstep
    refine Eq.trans (List.filterMap_congr ?_) hstep
    intro i hi
    rw [List.mem_range'_1] at hi
    rw [finding?, show i - 1 = i - 2 + 1 by omega, List.getElem?_cons_succ]
    cases rest[i - 2]? with
    | none => rfl
    | some x =>
      cases hx : columnCount? x.2 with
      | none => simp [checkBranch, hx]
      | some actual =>
        have hi2 : i - 2 + 2 = i := by omega
        by_cases heq : actual = expected <;> simp [checkBranch, hcount, hx, heq, hi2]

theorem map_snd_findings (ctx : Context) (chain : BodyAt) :
    (findings ctx chain).map Prod.snd = checkChain ctx chain.2 := by
  have hbranches := chain.2.map_snd_branchesAt chain.1
  cases hoperands : chain.2.branchesAt chain.1 with
  | nil =>
    rw [hoperands] at hbranches
    simp [findings, hoperands, checkChain, ← hbranches]
  | cons first rest =>
    rw [hoperands] at hbranches
    rw [findings_eq hoperands, checkChain, ← hbranches]
    simp only [List.map_cons]
    cases columnCount? first.2 with
    | none => rfl
    | some expected =>
      simp only [List.map_filterMap, List.zipIdx_map, List.filterMap_map]
      congr 1
      funext x
      simp [Function.comp_def]

theorem findings_sublist (ctx : Context) (chain : BodyAt) :
    ((findings ctx chain).map Prod.fst).Sublist ((chain.2.branchesAt chain.1).map Prod.fst) := by
  cases hoperands : chain.2.branchesAt chain.1 with
  | nil => simp [findings, hoperands]
  | cons first rest =>
    rw [findings_eq hoperands]
    cases columnCount? first.2 with
    | none => simp
    | some expected =>
      have hplaces : rest.zipIdx.map (fun x => x.1.1) = rest.map Prod.fst := by
        rw [← List.zipIdx_map_fst 0 rest, List.map_map]
        simp [Function.comp_def]
      rw [List.map_cons, ← hplaces]
      refine (map_filterMap_sublist ?_ _).cons _
      intro x y hxy
      obtain ⟨d, -, rfl⟩ := Option.map_eq_some_iff.mp hxy
      rfl

/-! ## All chains of a statement -/

theorem nodup_roots (root : Node) : (roots root).Nodup :=
  (root.nodup_fst_places.of_map.sublist (roots_sublist root)).of_map

theorem nodup_operands (root : Node) :
    ((roots root).flatMap fun r => r.2.branchesAt r.1).Nodup := by
  rw [List.nodup_flatMap]
  refine ⟨fun r _ => nodup_branchesAt r.1 r.2, ?_⟩
  refine (nodup_roots root).imp_of_mem ?_
  intro r r' hr hr' hne x hx hx'
  have hreach := ((mem_branchesAt_iff r.1 r.2).mp hx).1
  have hreach' := ((mem_branchesAt_iff r'.1 r'.2).mp hx').1
  exact hne ((mem_roots_iff.mp hr).unique (mem_roots_iff.mp hr') hreach hreach')

theorem nodup_findings (ctx : Context) (root : Node) :
    ((roots root).flatMap fun r => (findings ctx r).map Prod.fst).Nodup := by
  have hunder : ∀ x ∈ (roots root).flatMap (fun r => r.2.branchesAt r.1), Under root x := by
    intro x hx
    obtain ⟨r, hr, hx⟩ := List.mem_flatMap.mp hx
    exact ((mem_branchesAt_iff r.1 r.2).mp hx).1.under (mem_roots_iff.mp hr).under
  have hplaces : (((roots root).flatMap fun r => r.2.branchesAt r.1).map Prod.fst).Nodup :=
    (nodup_operands root).map_on fun x hx y hy h => (hunder x hx).eq_of_place (hunder y hy) h
  rw [List.map_flatMap] at hplaces
  exact hplaces.sublist (List.Sublist.flatMap_right _ fun r _ => findings_sublist ctx r)

theorem pair_sublist {α : Type} {xs : List α} {x y : α} (hx : x ∈ xs) (hy : y ∈ xs)
    (hne : x ≠ y) : [x, y].Sublist xs ∨ [y, x].Sublist xs := by
  induction xs with
  | nil => cases hx
  | cons z xs ih =>
    rcases List.mem_cons.mp hx with rfl | hxs <;> rcases List.mem_cons.mp hy with rfl | hys
    · exact absurd rfl hne
    · exact .inl ((List.singleton_sublist.mpr hys).cons_cons _)
    · exact .inr ((List.singleton_sublist.mpr hxs).cons_cons _)
    · exact (ih hxs hys).imp (·.cons _) (·.cons _)

theorem check_eq_flatMap (s : Statement) (ctx : Context) :
    check s ctx = (roots (.statement s)).flatMap fun r => checkChain ctx r.2 := by
  rw [check, ← map_snd_roots, List.flatMap_map]

/-- The rule on column counts compares the operands of every chain with the first of them. -/
theorem check_eq_findings (s : Statement) (ctx : Context) :
    ∃ chains : List BodyAt,
      (chains.map fun r => (r.1, Node.body r.2)).Sublist (Node.statement s).places
      ∧ (∀ r, r ∈ chains ↔ IsRoot (.statement s) r)
      ∧ check s ctx = (chains.flatMap (findings ctx)).map Prod.snd
      ∧ (∀ r ∈ chains, (r.2.branchesAt r.1).map Prod.snd = r.2.branches)
      ∧ (∀ x, Under (.statement s) x → IsSetOperation x.2 → ∃! r, r ∈ chains ∧ Reaches r x)
      ∧ ((chains.flatMap (findings ctx)).map Prod.fst).Nodup
      ∧ (∀ r ∈ chains, ∀ found ∈ findings ctx r, ∃ b, IsOperand b ∧ Reaches r (found.1, b))
      ∧ (∀ r ∈ chains, ∀ r' ∈ chains, r ≠ r' → r.2 = r'.2 →
        (checkChain ctx r.2 ++ checkChain ctx r'.2).Sublist (check s ctx))
      ∧ (∀ r ∈ chains, ∀ first, r.2.branches.head? = some first →
        (∃ c, first = .core c ∧ c.hasStar = true) ∨ (∃ span, first = .values [] span) →
        findings ctx r = []) := by
  refine ⟨roots (.statement s), roots_sublist _, fun r => mem_roots_iff, ?_,
    fun r _ => r.2.map_snd_branchesAt r.1, ?_, ?_, ?_, ?_, ?_⟩
  · rw [check_eq_flatMap, List.map_flatMap]
    simp only [map_snd_findings]
  · intro x hx hset
    simpa only [mem_roots_iff] using existsUnique_root hx hset
  · rw [List.map_flatMap]
    exact nodup_findings ctx (.statement s)
  · intro r _ found hfound
    have hplace := (findings_sublist ctx r).subset (List.mem_map_of_mem hfound)
    obtain ⟨⟨p, b⟩, hmem, hp⟩ := List.mem_map.mp hplace
    obtain ⟨hreach, hoperand⟩ := (mem_branchesAt_iff r.1 r.2).mp hmem
    exact ⟨b, hoperand, hp ▸ hreach⟩
  · intro r hr r' hr' hne heq
    rw [check_eq_flatMap]
    rcases pair_sublist hr hr' hne with h | h
    · simpa using h.flatMap fun r => checkChain ctx r.2
    · simpa [heq] using h.flatMap fun r => checkChain ctx r.2
  · intro r _ first hfirst hunknown
    have hcount : columnCount? first = none := by
      rcases hunknown with ⟨c, rfl, hstar⟩ | ⟨span, rfl⟩
      · simp [columnCount?, hstar]
      · rfl
    rw [← r.2.map_snd_branchesAt r.1] at hfirst
    cases hoperands : r.2.branchesAt r.1 with
    | nil => simp [hoperands] at hfirst
    | cons x rest =>
      obtain rfl : x.2 = first := by simpa [hoperands] using hfirst
      rw [findings_eq hoperands, hcount]

end Chain
end SqlLint
