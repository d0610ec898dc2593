import Mathlib.Data.List.Sort
import SqlLint.Proofs.Chains
import SqlLint.Proofs.Lists

/-! # The operands of a chain in their order

The recursion that takes a chain apart, the walk over all of it and the way down to its first core
see the same operands. Main statements: `Body.eqvGen_regroups_iff`, bodies have the same operands
exactly when one is the other regrouped; `Chain.branches_are_leaves`, how the three agree. -/

namespace SqlLint

open Relation (EqvGen)
open Chain (IsOperand Reaches)

/-- The set operation with other operands, as a body. -/
def SetOperation.on (o : SetOperation) (left right : Body) : Body :=
  .setOperation { o with left, right }

namespace Body

variable {b b' : Body}

/-! ## Regrouping -/

/-- Whether the second body is the first with a part that is reached through set operations and
parentheses made the body of a query in parentheses, with another set operation between the same
operands, or with two set operations associated the other way. -/
inductive Regroups : Body → Body → Prop where
  | wrap (q : Query) : Regroups q.body (.nested q)
  | replace (o o' : SetOperation) (left right : Body) :
    Regroups (o.on left right) (o'.on left right)
  | associate (o o' : SetOperation) (x y z : Body) :
    Regroups (o'.on (o.on x y) z) (o.on x (o'.on y z))
  | inside (q : Query) {body : Body} (h : Regroups q.body body) :
    Regroups (.nested q) (.nested { q with body })
  | left (o : SetOperation) {left left' : Body} (right : Body) (h : Regroups left left') :
    Regroups (o.on left right) (o.on left' right)
  | right (o : SetOperation) (left : Body) {right right' : Body} (h : Regroups right right') :
    Regroups (o.on left right) (o.on left right')

theorem branches_on (o : SetOperation) (left right : Body) :
    (o.on left right).branches = left.branches ++ right.branches := by
  unfold SetOperation.on
  rw [branches_setOperation]

theorem Regroups.branches_eq (h : Regroups b b') : b.branches = b'.branches := by
  induction h with
  | wrap q => rw [branches_nested]
  | replace o o' left right => rw [branches_on, branches_on]
  | associate o o' x y z => simp only [branches_on, List.append_assoc]
  | inside q h ih => rw [branches_nested, branches_nested, ih]
  | left o right h ih => rw [branches_on, branches_on, ih]
  | right o left h ih => rw [branches_on, branches_on, ih]

/-- The set operation that joins the operands of a row. -/
def plainUnion (left right : Body) : SetOperation := ⟨.union, .implicit, left, right, .empty⟩

/-- The operands joined by one set operation, from the left. -/
def row (first : Body) (rest : List Body) : Body :=
  rest.foldl (fun left right => .setOperation (plainUnion left right)) first

theorem eqvGen_row_cons (o : SetOperation) (left first : Body) (rest : List Body) :
    EqvGen Regroups (o.on left (row first rest)) (row left (first :: rest)) := by
  have hjoin := eqvGen_join_foldl (r := Regroups)
    (fun left right => .setOperation (plainUnion left right))
    (fun x y z => .associate (plainUnion x y) (plainUnion x y) x y z)
    (fun _ left' right h => .left (plainUnion left' right) right h) left first rest
  have hreplace := Regroups.replace o (plainUnion left left) left (row first rest)
  exact .trans _ _ _ (.rel _ _ hreplace) hjoin

theorem exists_row (b : Body) :
    ∃ first rest, b.branches = first :: rest ∧ EqvGen Regroups b (row first rest) := by
  induction b using induction_chain with
  | operand b h => exact ⟨b, [], branches_of_isOperand h, .refl b⟩
  | nested q ih =>
    obtain ⟨first, rest, hbranches, hrow⟩ := ih
    have hwrap := Regroups.wrap q
    exact ⟨first, rest, by rw [branches_nested, hbranches],
      .trans _ _ _ (.symm _ _ (.rel _ _ hwrap)) hrow⟩
  | setOperation o ihl ihr =>
    obtain ⟨first, rest, hleft, hl⟩ := ihl
    obtain ⟨first', rest', hright, hr⟩ := ihr
    refine ⟨first, rest ++ first' :: rest', ?_, ?_⟩
    · rw [branches_setOperation, hleft, hright, List.cons_append]
    · have hself : o.on o.left o.right = .setOperation o := by cases o; rfl
      rw [← hself]
      have hl' := eqvGen_map (g := fun l => o.on l o.right) (fun _ _ h => .left o o.right h) hl
      have hr' := eqvGen_map (g := fun r => o.on (row first rest) r)
        (fun _ _ h => .right o (row first rest) h) hr
      have hrow := eqvGen_row_cons o (row first rest) first' rest'
      have happend : row (row first rest) (first' :: rest') = row first (rest ++ first' :: rest') :=
        (List.foldl_append ..).symm
      rw [happend] at hrow
      exact .trans _ _ _ hl' (.trans _ _ _ hr' hrow)

theorem eqvGen_regroups_iff : EqvGen Regroups b b' ↔ b.branches = b'.branches :=
  eqvGen_iff_of_row (fun _ _ h => h.branches_eq) exists_row

/-! ## Operands in the walk -/

theorem branches_ne_nil (b : Body) : b.branches ≠ [] := by
  obtain ⟨first, rest, hbranches, -⟩ := exists_row b
  rw [hbranches]
  exact List.cons_ne_nil first rest

theorem isOperand_of_mem_branches {x : Body} (h : x ∈ b.branches) : IsOperand x := by
  rw [← b.map_snd_branchesAt []] at h
  obtain ⟨y, hy, rfl⟩ := List.mem_map.mp h
  exact ((Chain.mem_branchesAt_iff [] b).mp hy).2

theorem two_le_length_branches (o : SetOperation) :
    2 ≤ (Body.setOperation o).branches.length := by
  have hleft := List.length_pos_of_ne_nil o.left.branches_ne_nil
  have hright := List.length_pos_of_ne_nil o.right.branches_ne_nil
  rw [branches_setOperation, List.length_append]
  omega

theorem branchesAt_sublist_places (b : Body) :
    ((b.branchesAt []).map fun x => (x.1, Node.body x.2)).Sublist (Node.body b).places := by
  have hwalk : Std.Antisymm fun x y : Place × Node => x.1 < y.1 :=
    ⟨fun x y h h' => absurd (List.lt_trans h h') (List.lt_irrefl x.1)⟩
  have hordered : ((b.branchesAt []).map fun x => (x.1, Node.body x.2)).Pairwise
      fun x y => x.1 < y.1 := by
    rw [List.pairwise_map]
    exact Chain.pairwise_branchesAt [] b
  have hnodup : ((b.branchesAt []).map fun x => (x.1, Node.body x.2)).Nodup := by
    refine hordered.imp ?_
    rintro x y hlt rfl
    exact List.lt_irrefl _ hlt
  have hsubset : (b.branchesAt []).map (fun x => (x.1, Node.body x.2)) ⊆ (Node.body b).places := by
    intro y hy
    obtain ⟨x, hx, rfl⟩ := List.mem_map.mp hy
    have hreach := ((Chain.mem_branchesAt_iff [] b).mp hx).1
    exact (Node.mem_places_iff ..).mpr (hreach.under rfl)
  exact List.sublist_of_subperm_of_pairwise (List.subperm_of_subset hnodup hsubset) hordered
    (Node.body b).pairwise_places

theorem branches_sublist_bodies (b : Body) : b.branches.Sublist (Node.body b).bodies := by
  have hwalk := b.branchesAt_sublist_places.filterMap fun x => x.2.body?
  have hbodies : (Node.body b).bodies = (Node.body b).places.filterMap fun x => x.2.body? := by
    unfold Node.bodies
    rw [Node.collect_eq, ← Node.map_snd_places, List.filterMap_map]
    rfl
  rw [hbodies, ← b.map_snd_branchesAt []]
  simpa [List.filterMap_map, Function.comp_def, Node.body?] using hwalk

/-! ## The first core -/

theorem leftmostCore?_eq (b : Body) : b.leftmostCore? = b.branches.head?.bind core? := by
  induction b using induction_chain with
  | operand b h =>
    rw [branches_of_isOperand h]
    cases b <;> simp_all [leftmostCore?, core?, IsOperand]
  | setOperation o ihl ihr =>
    rw [branches_setOperation, List.head?_append_of_ne_nil _ o.left.branches_ne_nil, ← ihl]
    cases o
    rfl
  | nested q ih =>
    rw [branches_nested, ← ih]
    cases q
    rfl

theorem core?_eq_some_iff {c : Core} : b.core? = some c ↔ b = .core c := by
  cases b <;> simp [core?]

end Body

theorem Statement.primaryCore?_eq_some_iff {s : Statement} {c : Core} :
    s.primaryCore? = some c
      ↔ ∃ q, s.query? = some q ∧ q.body.branches.head? = some (.core c) := by
  change s.query?.bind (fun q => q.body.leftmostCore?) = some c ↔ _
  simp only [Option.bind_eq_some_iff, Body.leftmostCore?_eq, Body.core?_eq_some_iff]
  simp

theorem Statement.primaryCore?_eq_none_iff {s : Statement} :
    s.primaryCore? = none
      ↔ ∀ q, s.query? = some q → ∃ rows span, q.body.branches.head? = some (.values rows span) := by
  constructor
  · intro hnone q hq
    cases hhead : q.body.branches.head? with
    | none => exact absurd (List.head?_eq_none_iff.mp hhead) q.body.branches_ne_nil
    | some first =>
      have hoperand := Body.isOperand_of_mem_branches (List.mem_of_head? hhead)
      cases first with
      | core c =>
        have hcore := Statement.primaryCore?_eq_some_iff.mpr ⟨q, hq, hhead⟩
        rw [hnone] at hcore
        cases hcore
      | values rows span => exact ⟨rows, span, rfl⟩
      | setOperation o => exact hoperand.elim
      | nested q => exact hoperand.elim
  · intro hvalues
    cases hcore : s.primaryCore? with
    | none => rfl
    | some c =>
      obtain ⟨q, hq, hhead⟩ := Statement.primaryCore?_eq_some_iff.mp hcore
      obtain ⟨rows, span, hfirst⟩ := hvalues q hq
      rw [hhead] at hfirst
      cases hfirst

namespace Chain

/-- The operands are the leaves of a chain in walk order, and all that regrouping keeps. -/
theorem branches_are_leaves :
    (∀ b : Body,
      b.branches ≠ [] ∧ (∀ x ∈ b.branches, IsOperand x)
      ∧ (∃ leaves : List BodyAt, leaves.map Prod.snd = b.branches
        ∧ (leaves.map fun x => (x.1, Node.body x.2)).Sublist (Node.body b).places
        ∧ ∀ x, x ∈ leaves ↔ Reaches ([], b) x ∧ IsOperand x.2)
      ∧ b.branches.Sublist (Node.body b).bodies
      ∧ ∀ b', EqvGen Body.Regroups b b' ↔ b.branches = b'.branches)
    ∧ (∀ o : SetOperation, 2 ≤ (Body.setOperation o).branches.length)
    ∧ ∀ s : Statement,
      (∀ c, s.primaryCore? = some c
        ↔ ∃ q, s.query? = some q ∧ q.body.branches.head? = some (.core c))
      ∧ (s.primaryCore? = none ↔ ∀ q, s.query? = some q →
        ∃ rows span, q.body.branches.head? = some (.values rows span)) := by
  refine ⟨fun b => ?_, Body.two_le_length_branches, fun s =>
    ⟨fun c => Statement.primaryCore?_eq_some_iff, Statement.primaryCore?_eq_none_iff⟩⟩
  refine ⟨b.branches_ne_nil, fun x hx => Body.isOperand_of_mem_branches hx, ?_,
    b.branches_sublist_bodies, fun b' => Body.eqvGen_regroups_iff⟩
  exact ⟨b.branchesAt [], b.map_snd_branchesAt [], b.branchesAt_sublist_places,
    fun x => mem_branchesAt_iff [] b⟩

end Chain
end SqlLint
