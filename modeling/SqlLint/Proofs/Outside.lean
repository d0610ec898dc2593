import SqlLint.Tree.Collect
import SqlLint.Proofs.Places

/-! # Places outside of what is left out

A collection may pass over some nodes and all that is below them. Main statements:
`collectOutside_eq`, it finds what its view shows at the places that are left, and
`mem_outsideFrom_iff`, these are the places with nothing to be left out on the way. -/

namespace SqlLint

namespace Rose

variable {α : Type} {leaveOut : α → Bool}

mutual

/-- The places in pre-order that are neither left out nor below a node that is, for a tree that
stands at `base`. -/
def outsideFrom (leaveOut : α → Bool) (base : Place) : Rose α → List (Place × α)
  | .node a ts => if leaveOut a then [] else (base, a) :: outsideChildren leaveOut base 0 ts

/-- Such places of the children from number `i` on. -/
def outsideChildren (leaveOut : α → Bool) (base : Place) (i : Nat) :
    List (Rose α) → List (Place × α)
  | [] => []
  | t :: ts => outsideFrom leaveOut (base ++ [i]) t ++ outsideChildren leaveOut base (i + 1) ts

end

/-! ## Which places these are -/

mutual

theorem outsideFrom_sublist (leaveOut : α → Bool) (base : Place) (t : Rose α) :
    (t.outsideFrom leaveOut base).Sublist (t.placesFrom base) := by
  cases t with
  | node a ts =>
    rw [outsideFrom, placesFrom]
    split
    · exact List.nil_sublist _
    · exact (outsideChildren_sublist leaveOut base 0 ts).cons_cons _

theorem outsideChildren_sublist (leaveOut : α → Bool) (base : Place) (i : Nat)
    (ts : List (Rose α)) :
    (outsideChildren leaveOut base i ts).Sublist (childPlaces base i ts) := by
  cases ts with
  | nil => exact .slnil
  | cons t ts =>
    exact (outsideFrom_sublist leaveOut (base ++ [i]) t).append
      (outsideChildren_sublist leaveOut base (i + 1) ts)

end

/-- Whether no node on the way to a place, the node there included, is to be left out. -/
def Clear (leaveOut : α → Bool) (t : Rose α) (place : Place) : Prop :=
  ∀ q a, q <+: place → t.get? q = some a → leaveOut a = false

theorem clear_nil_iff {t : Rose α} : t.Clear leaveOut [] ↔ leaveOut t.label = false := by
  constructor
  · intro h
    exact h [] t.label List.nil_prefix rfl
  · rintro h q a hq ha
    obtain rfl : q = [] := List.prefix_nil.1 hq
    obtain rfl : t.label = a := by simpa [get?] using ha
    exact h

theorem clear_cons_iff {t child : Rose α} {j : Nat} {place : Place}
    (hchild : t.children[j]? = some child) :
    t.Clear leaveOut (j :: place) ↔ leaveOut t.label = false ∧ child.Clear leaveOut place := by
  constructor
  · intro h
    refine ⟨h [] _ (List.nil_prefix) rfl, fun q a hq ha => ?_⟩
    refine h (j :: q) a (List.cons_prefix_cons.2 ⟨rfl, hq⟩) ?_
    simpa [get?, hchild] using ha
  · rintro ⟨hroot, hbelow⟩ q a hq ha
    cases q with
    | nil =>
      obtain rfl : t.label = a := by simpa [get?] using ha
      exact hroot
    | cons k q =>
      obtain ⟨rfl, hplace⟩ := List.cons_prefix_cons.1 hq
      exact hbelow q a hplace (by simpa [get?, hchild] using ha)

mutual

theorem mem_outsideFrom_iff (leaveOut : α → Bool) (base : Place) (t : Rose α) (x : Place × α) :
    x ∈ t.outsideFrom leaveOut base
      ↔ ∃ place, x.1 = base ++ place ∧ t.get? place = some x.2 ∧ t.Clear leaveOut place := by
  cases t with
  | node a ts =>
    rw [outsideFrom]
    cases ha : leaveOut a with
    | true =>
      simp only [if_true, List.not_mem_nil, false_iff]
      rintro ⟨place, -, -, hclear⟩
      have hroot := hclear [] a List.nil_prefix rfl
      rw [ha] at hroot
      cases hroot
    | false =>
      rw [if_neg Bool.false_ne_true, List.mem_cons, mem_outsideChildren_iff leaveOut base 0 ts x]
      constructor
      · rintro (rfl | ⟨j, place, t, ht, hp, hb, hclear⟩)
        · exact ⟨[], by simp, rfl, clear_nil_iff.2 ha⟩
        · refine ⟨j :: place, by simpa using hp, by simpa [get?, children, ht] using hb, ?_⟩
          exact (clear_cons_iff (show (node a ts).children[j]? = some t from ht)).2 ⟨ha, hclear⟩
      · rintro ⟨place, hp, hb, hclear⟩
        cases place with
        | nil =>
          simp only [get?, label, Option.some.injEq, List.append_nil] at hp hb
          exact .inl (Prod.ext hp hb.symm)
        | cons j place =>
          simp only [get?, children, Option.bind_eq_some_iff] at hb
          obtain ⟨t, ht, hb⟩ := hb
          have hbelow := (clear_cons_iff (show (node a ts).children[j]? = some t from ht)).1 hclear
          exact .inr ⟨j, place, t, ht, by simpa using hp, hb, hbelow.2⟩

theorem mem_outsideChildren_iff (leaveOut : α → Bool) (base : Place) (i : Nat)
    (ts : List (Rose α)) (x : Place × α) :
    x ∈ outsideChildren leaveOut base i ts
      ↔ ∃ j place t, ts[j]? = some t ∧ x.1 = base ++ (i + j) :: place ∧ t.get? place = some x.2
        ∧ t.Clear leaveOut place := by
  cases ts with
  | nil => simp [outsideChildren]
  | cons t ts =>
    rw [outsideChildren, List.mem_append, mem_outsideFrom_iff leaveOut (base ++ [i]) t x,
      mem_outsideChildren_iff leaveOut base (i + 1) ts x]
    constructor
    · rintro (⟨place, hp, hb, hclear⟩ | ⟨j, place, u, hu, hp, hb, hclear⟩)
      · exact ⟨0, place, t, rfl, by simpa using hp, hb, hclear⟩
      · refine ⟨j + 1, place, u, by simpa using hu, ?_, hb, hclear⟩
        rw [hp, show i + 1 + j = i + (j + 1) by omega]
    · rintro ⟨j, place, u, hu, hp, hb, hclear⟩
      cases j with
      | zero =>
        obtain rfl : t = u := by simpa using hu
        exact .inl ⟨place, by simpa using hp, hb, hclear⟩
      | succ j =>
        refine .inr ⟨j, place, u, by simpa using hu, ?_, hb, hclear⟩
        rw [hp, show i + (j + 1) = i + 1 + j by omega]

end

mutual

theorem outsideFrom_of_keep (base : Place) (t : Rose α) :
    t.outsideFrom (fun _ => false) base = t.placesFrom base := by
  cases t with
  | node a ts =>
    rw [outsideFrom, placesFrom, if_neg Bool.false_ne_true, outsideChildren_of_keep base 0 ts]

theorem outsideChildren_of_keep (base : Place) (i : Nat) (ts : List (Rose α)) :
    outsideChildren (fun _ => false) base i ts = childPlaces base i ts := by
  cases ts with
  | nil => rfl
  | cons t ts =>
    rw [outsideChildren, childPlaces, outsideFrom_of_keep (base ++ [i]) t,
      outsideChildren_of_keep base (i + 1) ts]

end

end Rose

/-! ## Nodes -/

namespace Node

variable {α : Type}

theorem induction_children {P : Node → Prop} (h : ∀ n, (∀ m ∈ n.children, P m) → P n) (n : Node) :
    P n := by
  -- A child has fewer nodes under it than its parent.
  induction hsize : n.preorder.length using Nat.strongRecOn generalizing n with
  | _ size ih =>
    subst hsize
    refine h n fun m hm => ih _ ?_ m rfl
    have hpart : m.preorder.Sublist (n.children.flatMap preorder) :=
      List.sublist_flatten_of_mem (List.mem_map_of_mem hm)
    have hlength := hpart.length_le
    have hpreorder : n.preorder = n :: n.children.flatMap preorder := by
      rw [preorder, tree_eq, Rose.preorder, Rose.preorders_eq_flatMap, List.flatMap_map]
      rfl
    rw [hpreorder, List.length_cons]
    omega

theorem outsideChildren_eq (leaveOut : Node → Bool) (base : Place) (i : Nat) (ns : List Node) :
    Rose.outsideChildren leaveOut base i (ns.map tree)
      = (ns.zipIdx i).flatMap fun x => x.1.tree.outsideFrom leaveOut (base ++ [x.2]) := by
  induction ns generalizing i with
  | nil => rfl
  | cons n ns ih =>
    rw [List.map_cons, Rose.outsideChildren, ih, List.zipIdx_cons, List.flatMap_cons]

theorem outsideFrom_eq (leaveOut : Node → Bool) (base : Place) (n : Node) :
    n.tree.outsideFrom leaveOut base
      = if leaveOut n then []
        else (base, n) :: n.children.zipIdx.flatMap fun x =>
          x.1.tree.outsideFrom leaveOut (base ++ [x.2]) := by
  conv => lhs; rw [tree_eq, Rose.outsideFrom, outsideChildren_eq]

theorem placesFrom_eq (base : Place) (n : Node) :
    n.tree.placesFrom base
      = (base, n) :: n.children.zipIdx.flatMap fun x => x.1.tree.placesFrom (base ++ [x.2]) := by
  have h := n.outsideFrom_eq (fun _ => false) base
  simpa only [Rose.outsideFrom_of_keep, Bool.false_eq_true, if_false] using h

mutual

theorem walk_gather (leaveOut : Node → Bool) (view : Node → Option α) (base : Place) :
    ∀ (t : Rose Node) (found : Array α), ∃ result,
      t.walk (fun found n => if leaveOut n then (found, .skip) else (gather view found n, .descend))
        found = (result, false)
      ∧ result.toList
        = found.toList ++ (t.outsideFrom leaveOut base).filterMap fun x => view x.2
  | .node n ts, found => by
    rw [Rose.walk, Rose.outsideFrom]
    cases leaveOut n with
    | true => exact ⟨found, rfl, by simp⟩
    | false =>
      obtain ⟨result, hwalk, hresult⟩ :=
        walkAll_gather leaveOut view base 0 ts (gather view found n)
      refine ⟨result, hwalk, ?_⟩
      rw [hresult, if_neg Bool.false_ne_true, gather]
      cases hn : view n with
      | none => simp [hn]
      | some a => simp [hn]

theorem walkAll_gather (leaveOut : Node → Bool) (view : Node → Option α) (base : Place) (i : Nat) :
    ∀ (ts : List (Rose Node)) (found : Array α), ∃ result,
      Rose.walkAll
        (fun found n => if leaveOut n then (found, .skip) else (gather view found n, .descend))
        found ts = (result, false)
      ∧ result.toList
        = found.toList ++ (Rose.outsideChildren leaveOut base i ts).filterMap fun x => view x.2
  | [], found => ⟨found, rfl, by simp [Rose.outsideChildren]⟩
  | t :: ts, found => by
    obtain ⟨middle, hfirst, hmiddle⟩ := walk_gather leaveOut view (base ++ [i]) t found
    obtain ⟨result, hrest, hresult⟩ := walkAll_gather leaveOut view base (i + 1) ts middle
    refine ⟨result, by rw [Rose.walkAll, hfirst]; exact hrest, ?_⟩
    rw [hresult, hmiddle, Rose.outsideChildren, List.filterMap_append, List.append_assoc]

end

/-- Collecting outside of what is left out is filtering the places outside of it. -/
theorem collectOutside_eq (root : Node) (leaveOut : Node → Bool) (view : Node → Option α)
    (base : Place) :
    root.collectOutside leaveOut view
      = (root.tree.outsideFrom leaveOut base).filterMap fun x => view x.2 := by
  obtain ⟨result, hwalk, hresult⟩ := walk_gather leaveOut view base root.tree #[]
  unfold collectOutside walk
  rw [hwalk]
  simpa using hresult

end Node
end SqlLint
