import Mathlib.Data.List.Flatten
import Mathlib.Data.List.Induction
import Mathlib.Data.List.Nodup
import Mathlib.Data.List.Perm.Subperm
import Mathlib.Logic.Relation

/-! # Lists and closures

When a shorter list is the same as a longer one, where a list of images comes from, what becomes
of a list of pieces when one of them is replaced, where a run ends and a piece can stand, and what
steps in both directions keep and reach. -/

namespace SqlLint

open Relation (EqvGen)

theorem flatMap_eq_iff {α β : Type} {f g : α → List β} {xs : List α}
    (h : ∀ x ∈ xs, (f x).Sublist (g x)) :
    xs.flatMap f = xs.flatMap g ↔ ∀ x ∈ xs, f x = g x := by
  induction xs with
  | nil => simp
  | cons x xs ih =>
    rw [List.forall_mem_cons] at h ⊢
    rw [← ih h.2, List.flatMap_cons, List.flatMap_cons]
    constructor
    · intro heq
      have hlength := congrArg List.length heq
      have hhead := h.1.length_le
      have htail := (List.Sublist.flatMap_right xs h.2).length_le
      rw [List.length_append, List.length_append] at hlength
      exact List.append_inj heq (by omega)
    · rintro ⟨hhead, htail⟩
      rw [hhead, htail]

theorem map_filter_eq_iff {α β : Type} (f : α → β) {p p' : α → Bool} {xs : List α}
    (h : ∀ x, p x = true → p' x = true) :
    (xs.filter p).map f = (xs.filter p').map f ↔ ∀ x ∈ xs, p' x = true → p x = true := by
  constructor
  · intro heq
    have hlength := congrArg List.length heq
    rw [List.length_map, List.length_map] at hlength
    have hfilter := (List.monotone_filter_right xs h).eq_of_length hlength
    intro x hx hp'
    have hmem : x ∈ xs.filter p := hfilter ▸ List.mem_filter.mpr ⟨hx, hp'⟩
    exact (List.mem_filter.mp hmem).2
  · intro hp
    have hsame : ∀ x ∈ xs, p x = p' x := fun x hx => Bool.eq_iff_iff.mpr ⟨h x, hp x hx⟩
    rw [List.filter_congr hsame]

/-- To select more items from some rows makes no difference only if there are no more. -/
theorem flatMap_map_filter_eq_iff {α β γ : Type} {xs : List α} {items : α → List β}
    {p p' : α → β → Bool} (f : β → γ) (h : ∀ x y, p x y = true → p' x y = true) :
    (xs.flatMap fun x => ((items x).filter (p x)).map f)
        = (xs.flatMap fun x => ((items x).filter (p' x)).map f)
      ↔ ∀ x ∈ xs, ∀ y ∈ items x, p' x y = true → p x y = true := by
  have hsublist : ∀ x ∈ xs,
      (((items x).filter (p x)).map f).Sublist (((items x).filter (p' x)).map f) :=
    fun x _ => (List.monotone_filter_right (items x) (h x)).map f
  rw [flatMap_eq_iff hsublist]
  simp only [map_filter_eq_iff f (h _)]

theorem map_some_filterMap {α β : Type} {p : α → Prop} [DecidablePred p] {f : α → Option β}
    (h : ∀ x, p x → (f x).isSome) (xs : List α) :
    (xs.filterMap fun x => if p x then f x else none).map some = (xs.filter p).map f := by
  induction xs with
  | nil => rfl
  | cons x xs ih =>
    by_cases hx : p x
    · obtain ⟨y, hy⟩ := Option.isSome_iff_exists.1 (h x hx)
      simp [hx, hy, ← ih]
    · simp [hx, ← ih]

theorem map_filterMap_sublist {α β γ : Type} {f : α → Option β} {g : β → γ} {h : α → γ}
    (hf : ∀ x y, f x = some y → g y = h x) (xs : List α) :
    ((xs.filterMap f).map g).Sublist (xs.map h) := by
  induction xs with
  | nil => simp
  | cons x xs ih =>
    cases hx : f x with
    | none => simpa [hx] using ih.cons (h x)
    | some y => simpa [hx, hf x y hx] using ih

theorem subperm_map {α β : Type} (f : α → β) {xs ys : List α} (h : xs.Subperm ys) :
    (xs.map f).Subperm (ys.map f) := by
  obtain ⟨l, hperm, hsublist⟩ := h
  exact ⟨l.map f, hperm.map f, hsublist.map f⟩

theorem exists_map_of_perm {α β : Type} {f : α → β} {xs : List α} {ys : List β}
    (h : ys.Perm (xs.map f)) : ∃ zs : List α, zs.Perm xs ∧ zs.map f = ys := by
  have hcomp : Relation.Comp (· = List.map f ·) List.Perm ys xs := by
    rw [List.eq_map_comp_perm]
    exact h
  obtain ⟨zs, rfl, hzs⟩ := hcomp
  exact ⟨zs, hzs, rfl⟩

theorem exists_map_of_subperm {α β : Type} {f : α → β} {xs : List α} {ys : List β}
    (h : ys.Subperm (xs.map f)) : ∃ zs : List α, zs.Subperm xs ∧ zs.map f = ys := by
  obtain ⟨l, hperm, hsublist⟩ := h
  obtain ⟨picked, hpicked, rfl⟩ := List.sublist_map_iff.1 hsublist
  obtain ⟨zs, hzs, rfl⟩ := exists_map_of_perm hperm.symm
  exact ⟨zs, ⟨picked, hzs.symm, hpicked⟩, rfl⟩

theorem nodup_zipIdx {α : Type} (xs : List α) : xs.zipIdx.Nodup := by
  refine List.Nodup.of_map Prod.snd ?_
  rw [List.zipIdx_map_snd]
  exact List.nodup_range'

theorem filter_fst_eq {α β : Type} [DecidableEq α] {xs : List (α × β)} {x : α × β}
    (hnodup : (xs.map Prod.fst).Nodup) (hx : x ∈ xs) : xs.filter (·.1 = x.1) = [x] := by
  induction xs with
  | nil => simp at hx
  | cons y ys ih =>
    rw [List.map_cons, List.nodup_cons] at hnodup
    rcases List.mem_cons.mp hx with rfl | hx
    · have hrest : ys.filter (·.1 = x.1) = [] := by
        rw [List.filter_eq_nil_iff]
        intro z hz hkey
        apply hnodup.1
        rw [← of_decide_eq_true hkey]
        exact List.mem_map_of_mem hz
      simp [hrest]
    · have hne : y.1 ≠ x.1 := by
        intro hkey
        apply hnodup.1
        rw [hkey]
        exact List.mem_map_of_mem hx
      simp [hne, ih hnodup.2 hx]

theorem flatMap_set_related {β γ : Type} {r : List γ → List γ → Prop} {f : β → List γ}
    (hrefl : ∀ l, r l l) (happend : ∀ {a b c d}, r a b → r c d → r (a ++ c) (b ++ d))
    {xs : List β} {i : Nat} {x y : β} (hx : xs[i]? = some x) (h : r (f x) (f y)) :
    r (xs.flatMap f) ((xs.set i y).flatMap f) := by
  induction xs generalizing i with
  | nil => simp at hx
  | cons z zs ih =>
    cases i with
    | zero =>
      obtain rfl : z = x := by simpa using hx
      exact happend h (hrefl _)
    | succ i => exact happend (hrefl (f z)) (ih (by simpa using hx))

theorem flatMap_set {α β : Type} {f : α → List β} {xs : List α} {i : Nat} {x y : α}
    (hx : xs[i]? = some x) (h : f y = f x) : (xs.set i y).flatMap f = xs.flatMap f := by
  refine (flatMap_set_related (r := Eq) (fun _ => rfl) ?_ hx h.symm).symm
  rintro a b c d rfl rfl
  rfl

/-! ## Runs and pieces -/

section

variable {α : Type} {p : α → Bool} {run rest : List α}

theorem takeWhile_append_of_stop (hrun : ∀ x ∈ run, p x = true)
    (hstop : ∀ x ∈ rest.head?, p x = false) : (run ++ rest).takeWhile p = run := by
  rw [List.takeWhile_append_of_pos hrun]
  cases rest with
  | nil => simp
  | cons x rest => simp [hstop x rfl]

theorem dropWhile_append_of_stop (hrun : ∀ x ∈ run, p x = true)
    (hstop : ∀ x ∈ rest.head?, p x = false) : (run ++ rest).dropWhile p = rest := by
  rw [List.dropWhile_append_of_pos hrun]
  cases rest with
  | nil => rfl
  | cons x rest => simp [hstop x rfl]

theorem stop_dropWhile (p : α → Bool) (xs : List α) :
    ∀ x ∈ (xs.dropWhile p).head?, p x = false := by
  intro x hx
  have hnot := List.head?_dropWhile_not p xs
  rw [hx] at hnot
  simpa using hnot

theorem infix_append_cons_iff {piece before after : List α} {x : α} (hx : x ∉ piece) :
    piece <:+: before ++ x :: after ↔ piece <:+: before ∨ piece <:+: after := by
  have hnone : ∀ {start : List α}, (∀ y ∈ start, y ∈ piece) → start <+: x :: after →
      start = [] := by
    intro start hstart h
    rcases List.prefix_cons_iff.mp h with rfl | ⟨t, rfl, -⟩
    · rfl
    · exact absurd (hstart x List.mem_cons_self) hx
  rw [List.infix_append_iff, List.infix_cons_iff]
  constructor
  · rintro (h | (h | h) | ⟨start, stop, rfl, hstart, hstop⟩)
    · exact .inl h
    · obtain rfl := hnone (fun y hy => hy) h
      exact .inl List.nil_infix
    · exact .inr h
    · obtain rfl := hnone (fun y hy => List.mem_append_right _ hy) hstop
      rw [List.append_nil]
      exact .inl hstart.isInfix
  · rintro (h | h)
    · exact .inl h
    · exact .inr (.inl (.inr h))

theorem infix_cons_iff_of_head? {piece cs : List α} {x : α} (h : piece.head? ≠ some x) :
    piece <:+: x :: cs ↔ piece <:+: cs := by
  rw [List.infix_cons_iff]
  constructor
  · rintro (hstart | hlater)
    · cases piece with
      | nil => exact List.nil_infix
      | cons y piece =>
        obtain rfl := (List.cons_prefix_cons.mp hstart).1
        exact absurd rfl h
    · exact hlater
  · exact .inr

theorem infix_concat_iff_of_getLast? {piece cs : List α} {x : α} (h : piece.getLast? ≠ some x) :
    piece <:+: cs ++ [x] ↔ piece <:+: cs := by
  rw [← List.head?_reverse] at h
  rw [← List.reverse_infix, List.reverse_concat, infix_cons_iff_of_head? h, List.reverse_infix]

end

/-! ## Steps in both directions -/

theorem eq_of_eqvGen {α β : Type} {r : α → α → Prop} {g : α → β} (h : ∀ a b, r a b → g a = g b)
    {a b : α} (hab : EqvGen r a b) : g a = g b :=
  congrArg (Quot.lift g h) (Quot.eqvGen_sound hab)

theorem eqvGen_map {α : Type} {r : α → α → Prop} {g : α → α} (h : ∀ a b, r a b → r (g a) (g b))
    {a b : α} (hab : EqvGen r a b) : EqvGen r (g a) (g b) := by
  induction hab with
  | rel a b hab => exact .rel _ _ (h a b hab)
  | refl a => exact .refl _
  | symm a b _ ih => exact .symm _ _ ih
  | trans a b c _ _ ihab ihbc => exact .trans _ _ _ ihab ihbc

/-- A row that is joined from the left is longer by an item that is joined before it. -/
theorem eqvGen_join_foldl {α : Type} {r : α → α → Prop} (join : α → α → α)
    (hassociate : ∀ a b c, r (join (join a b) c) (join a (join b c)))
    (hleft : ∀ a a' b, r a a' → r (join a b) (join a' b)) (a first : α) (rest : List α) :
    EqvGen r (join a (rest.foldl join first)) ((first :: rest).foldl join a) := by
  -- The last item is brought to the top, and the row before it stays behind `a`.
  induction rest using List.reverseRecOn with
  | nil => exact .refl _
  | append_singleton rest last ih =>
    rw [List.foldl_concat, ← List.cons_append, List.foldl_concat]
    have hlast := hassociate a (rest.foldl join first) last
    have hrow := eqvGen_map (g := fun l => join l last) (fun _ _ h => hleft _ _ last h) ih
    exact .trans _ _ _ (.symm _ _ (.rel _ _ hlast)) hrow

/-- Where everything comes down to the row of its items, the items are all that the steps keep. -/
theorem eqvGen_iff_of_row {α β : Type} {r : α → α → Prop} {items : α → List β}
    {row : β → List β → α} (hitems : ∀ a b, r a b → items a = items b)
    (hrow : ∀ a, ∃ first rest, items a = first :: rest ∧ EqvGen r a (row first rest)) {a b : α} :
    EqvGen r a b ↔ items a = items b := by
  constructor
  · exact eq_of_eqvGen hitems
  · intro heq
    obtain ⟨first, rest, ha, hrowa⟩ := hrow a
    obtain ⟨first', rest', hb, hrowb⟩ := hrow b
    rw [heq, hb] at ha
    obtain ⟨rfl, rfl⟩ := List.cons.inj ha
    exact .trans _ _ _ hrowa (.symm _ _ hrowb)

end SqlLint
