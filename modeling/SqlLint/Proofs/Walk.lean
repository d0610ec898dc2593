import SqlLint.Tree.Collect
import SqlLint.Proofs.Places

/-! # What a walk visits

A walk is compared with a run along the list of places: a flat loop that drops the places below a
node that is skipped. Main statement: `walk_calls_places`, the calls, the last state and the end of
a walk are those of the run. -/

namespace SqlLint

variable {α σ τ : Type}

/-! ## Runs along places -/

/-- One call of a visitor: the state it was given, the node, and its answer. -/
structure Call (σ α : Type) where
  state : σ
  node : α
  answer : Visit

/-- What came of a run: the last state, the calls with their places, and whether it was ended. -/
structure Run (σ α : Type) where
  state : σ
  calls : List (Place × Call σ α)
  stopped : Bool

namespace Run

def after (call : Place × Call σ α) (run : Run σ α) : Run σ α :=
  { run with calls := call :: run.calls }

/-- The occurrences that are neither at a place nor below it. -/
def outside (place : Place) (places : List (Place × α)) : List (Place × α) :=
  places.filter fun x => ¬ place <+: x.1

/-- Calls a visitor along a list of places. A node that is skipped takes the places below it out of
the list, and a node that ends the walk takes out all that follow. -/
def along (visit : σ → α → σ × Visit) (state : σ) : List (Place × α) → Run σ α
  | [] => ⟨state, [], false⟩
  | (place, a) :: rest =>
    match visit state a with
    | (next, .descend) => (along visit next rest).after (place, ⟨state, a, .descend⟩)
    | (next, .skip) =>
      (along visit next (outside place rest)).after (place, ⟨state, a, .skip⟩)
    | (next, .stop) => ⟨next, [(place, ⟨state, a, .stop⟩)], true⟩
termination_by places => places.length
decreasing_by
  · simp
  · exact Nat.lt_succ_of_le (List.length_filter_le ..)

theorem stopped_along_iff (visit : σ → α → σ × Visit) (state : σ) (places : List (Place × α)) :
    (along visit state places).stopped = true
      ↔ ∃ call ∈ (along visit state places).calls, call.2.answer = .stop := by
  fun_induction along visit state places with
  | case1 state => simp
  | case2 state place a rest next h ih => simpa [after] using ih
  | case3 state place a rest next h ih => simpa [after] using ih
  | case4 state place a rest next h => simp

theorem calls_along_of_descend {visit : σ → α → σ × Visit}
    (hvisit : ∀ state a, (visit state a).2 = .descend) (state : σ) (places : List (Place × α)) :
    (along visit state places).calls.map (fun call => (call.1, call.2.node)) = places := by
  fun_induction along visit state places with
  | case1 state => rfl
  | case2 state place a rest next h ih => simpa [after] using ih
  | case3 state place a rest next h ih => simpa [h] using hvisit state a
  | case4 state place a rest next h => simpa [h] using hvisit state a

/-- The run without places, as the state of a visitor that writes down its calls after a record. -/
def forget (record : List (Call σ α)) (run : Run σ α) : (σ × List (Call σ α)) × Bool :=
  ((run.state, record ++ run.calls.map Prod.snd), run.stopped)

theorem forget_after (record : List (Call σ α)) (call : Place × Call σ α) (run : Run σ α) :
    (run.after call).forget record = run.forget (record ++ [call.2]) := by
  simp [forget, after]

end Run

/-! ## Walks as runs -/

/-- The visitor that also writes down its calls. -/
def recording (visit : σ → α → σ × Visit) (s : σ × List (Call σ α)) (a : α) :
    (σ × List (Call σ α)) × Visit :=
  (((visit s.1 a).1, s.2 ++ [⟨s.1, a, (visit s.1 a).2⟩]), (visit s.1 a).2)

namespace Rose

/-- Goes on with the run along `rest`, unless the walk was ended before. -/
def andThen (visit : σ → α → σ × Visit) (rest : List (Place × α)) :
    (σ × List (Call σ α)) × Bool → (σ × List (Call σ α)) × Bool
  | ((state, record), true) => ((state, record), true)
  | ((state, record), false) => (Run.along visit state rest).forget record

theorem outside_append {base : Place} {inside rest : List (Place × α)}
    (hinside : ∀ x ∈ inside, base <+: x.1) (hrest : ∀ x ∈ rest, ¬ base <+: x.1) :
    Run.outside base (inside ++ rest) = rest := by
  have hnone : Run.outside base inside = [] := by
    rw [Run.outside, List.filter_eq_nil_iff]
    intro x hx
    simpa using hinside x hx
  have hall : Run.outside base rest = rest := by
    rw [Run.outside, List.filter_eq_self]
    intro x hx
    simpa using hrest x hx
  rw [Run.outside, List.filter_append, ← Run.outside, ← Run.outside, hnone, hall, List.nil_append]

theorem prefix_of_mem_childPlaces {base : Place} {i : Nat} {ts : List (Rose α)} {x : Place × α}
    (hx : x ∈ childPlaces base i ts) : base <+: x.1 := by
  obtain ⟨j, place, -, -, hp, -⟩ := (mem_childPlaces_iff base i ts x).mp hx
  exact ⟨_, hp.symm⟩

theorem not_prefix_of_mem_childPlaces {base : Place} {i : Nat} {ts : List (Rose α)}
    {x : Place × α} (hx : x ∈ childPlaces base (i + 1) ts) : ¬ base ++ [i] <+: x.1 := by
  obtain ⟨j, place, -, -, hp, -⟩ := (mem_childPlaces_iff base (i + 1) ts x).mp hx
  rw [hp, List.prefix_append_right_inj]
  simp only [List.cons_prefix_cons, not_and]
  omega

mutual

/-- The run over a tree and what follows is a walk, and then the run over what follows. -/
theorem along_placesFrom (visit : σ → α → σ × Visit) (base : Place) (state : σ)
    (record : List (Call σ α)) (t : Rose α) (rest : List (Place × α))
    (hrest : ∀ x ∈ rest, ¬ base <+: x.1) :
    (Run.along visit state (t.placesFrom base ++ rest)).forget record
      = andThen visit rest (t.walk (recording visit) (state, record)) := by
  cases t with
  | node a ts =>
    rw [placesFrom, List.cons_append, Run.along, walk]
    rcases hv : visit state a with ⟨next, answer⟩
    cases answer with
    | descend =>
      simp only [recording, hv, Run.forget_after]
      exact along_childPlaces visit base 0 next _ ts rest hrest
    | skip =>
      have houtside : Run.outside base (childPlaces base 0 ts ++ rest) = rest :=
        outside_append (fun x hx => prefix_of_mem_childPlaces hx) hrest
      simp only [recording, hv, Run.forget_after, houtside, andThen]
    | stop => simp [recording, hv, Run.forget, andThen]

theorem along_childPlaces (visit : σ → α → σ × Visit) (base : Place) (i : Nat) (state : σ)
    (record : List (Call σ α)) (ts : List (Rose α)) (rest : List (Place × α))
    (hrest : ∀ x ∈ rest, ¬ base <+: x.1) :
    (Run.along visit state (childPlaces base i ts ++ rest)).forget record
      = andThen visit rest (walkAll (recording visit) (state, record) ts) := by
  cases ts with
  | nil => rfl
  | cons t ts =>
    -- What follows the first child are its siblings and `rest`.
    have hrest' : ∀ x ∈ childPlaces base (i + 1) ts ++ rest, ¬ base ++ [i] <+: x.1 := by
      intro x hx
      rcases List.mem_append.mp hx with hx | hx
      · exact not_prefix_of_mem_childPlaces hx
      · exact fun h => hrest x hx ((List.prefix_append base [i]).trans h)
    rw [childPlaces, List.append_assoc,
      along_placesFrom visit (base ++ [i]) state record t _ hrest', walkAll]
    rcases t.walk (recording visit) (state, record) with ⟨⟨next, record'⟩, stopped⟩
    cases stopped with
    | true => rfl
    | false => exact along_childPlaces visit base (i + 1) next record' ts rest hrest

end

mutual

theorem walk_map (f : τ → σ) (visit : σ → α → σ × Visit) (visit' : τ → α → τ × Visit)
    (h : ∀ s a, visit (f s) a = (f (visit' s a).1, (visit' s a).2)) (s : τ) (t : Rose α) :
    t.walk visit (f s) = (f (t.walk visit' s).1, (t.walk visit' s).2) := by
  cases t with
  | node a ts =>
    rw [walk, walk, h s a]
    rcases visit' s a with ⟨next, answer⟩
    cases answer with
    | descend => exact walkAll_map f visit visit' h next ts
    | skip => rfl
    | stop => rfl

theorem walkAll_map (f : τ → σ) (visit : σ → α → σ × Visit) (visit' : τ → α → τ × Visit)
    (h : ∀ s a, visit (f s) a = (f (visit' s a).1, (visit' s a).2)) (s : τ) (ts : List (Rose α)) :
    walkAll visit (f s) ts = (f (walkAll visit' s ts).1, (walkAll visit' s ts).2) := by
  cases ts with
  | nil => rfl
  | cons t ts =>
    rw [walkAll, walkAll, walk_map f visit visit' h s t]
    rcases t.walk visit' s with ⟨next, stopped⟩
    cases stopped with
    | true => rfl
    | false => exact walkAll_map f visit visit' h next ts

end

theorem walk_eq_recording (visit : σ → α → σ × Visit) (state : σ) (record : List (Call σ α))
    (t : Rose α) :
    t.walk visit state = ((t.walk (recording visit) (state, record)).1.1,
      (t.walk (recording visit) (state, record)).2) :=
  walk_map Prod.fst visit (recording visit) (fun _ _ => rfl) (state, record) t

theorem walk_recording (visit : σ → α → σ × Visit) (state : σ) (t : Rose α) :
    t.walk (recording visit) (state, []) = (Run.along visit state t.places).forget [] := by
  have h := along_placesFrom visit [] state [] t [] (by simp)
  rw [List.append_nil, ← places] at h
  rw [h]
  rcases t.walk (recording visit) (state, []) with ⟨⟨next, record⟩, stopped⟩
  cases stopped <;> simp [andThen, Run.along, Run.forget]

end Rose

/-! ## The nodes of a walk -/

namespace Node

/-- Whether a list has every occurrence of a node under a node, in the order in which each node
stands before its children and these stand in their order. -/
structure IsPreorder (root : Node) (places : List (Place × Node)) : Prop where
  mem_iff : ∀ place n, (place, n) ∈ places ↔ root.at? place = some n
  ordered : places.Pairwise fun x y => x.1 < y.1

theorem isPreorder_places (root : Node) : root.IsPreorder root.places :=
  ⟨root.mem_places_iff, root.pairwise_places⟩

theorem not_prefix_of_lt {p q : Place} (h : p < q) : ¬ q <+: p := by
  rintro ⟨rest, rfl⟩
  cases rest with
  | nil =>
    rw [List.append_nil] at h
    exact List.lt_irrefl q h
  | cons i rest =>
    have habove : q < q ++ i :: rest := by
      simpa using List.append_left_lt (List.nil_lt_cons i rest)
    exact List.lt_asymm habove h

/-- A walk is the run along the places in pre-order, and can meet everything that is stored. -/
theorem walk_calls_places (root : Node) (visit : σ → Node → σ × Visit) (state : σ) :
    let run := Run.along visit state root.places
    root.IsPreorder root.places
      ∧ root.walk (recording visit) (state, [])
        = ((run.state, run.calls.map Prod.snd), run.stopped)
      ∧ root.walk visit state = (run.state, run.stopped)
      ∧ ((root.walk visit state).2 = true
        ↔ ∃ call ∈ (root.walk (recording visit) (state, [])).1.2, call.answer = .stop)
      ∧ (∀ f : σ → Node → σ,
        (root.walk (recording fun s n => (f s n, .descend)) (state, [])).1.2.map Call.node
          = root.places.map Prod.snd)
      ∧ (∀ n, n ∈ root.places.map Prod.snd ↔ Relation.ReflTransGen Holds root n)
      ∧ (root.places.map Prod.fst).Nodup
      ∧ root.places.Pairwise fun x y => ¬ y.1 <+: x.1 := by
  intro run
  have hrecording : ∀ visit : σ → Node → σ × Visit, root.walk (recording visit) (state, [])
      = (Run.along visit state root.places).forget [] :=
    fun visit => root.tree.walk_recording visit state
  have hwalk : root.walk visit state = (run.state, run.stopped) := by
    rw [walk, Rose.walk_eq_recording visit state [], ← walk, hrecording]
    rfl
  refine ⟨root.isPreorder_places, hrecording visit, hwalk, ?_, ?_, ?_, ?_, ?_⟩
  · rw [hwalk, hrecording, Run.stopped_along_iff]
    simp only [Run.forget, List.nil_append, List.mem_map]
    constructor
    · rintro ⟨call, hcall, hstop⟩
      exact ⟨call.2, ⟨call, hcall, rfl⟩, hstop⟩
    · rintro ⟨_, ⟨call, hcall, rfl⟩, hstop⟩
      exact ⟨call, hcall, hstop⟩
  · intro f
    have hcalls := Run.calls_along_of_descend (fun s n => rfl : ∀ s n, (f s n, Visit.descend).2 = _)
      state root.places
    rw [hrecording]
    conv => rhs; rw [← hcalls]
    simp [Run.forget, Function.comp_def]
  · intro n
    rw [map_snd_places, mem_preorder_iff]
  · rw [List.Nodup, List.pairwise_map]
    refine root.pairwise_places.imp ?_
    intro x y hlt heq
    exact List.lt_irrefl x.1 (heq ▸ hlt)
  · exact root.pairwise_places.imp not_prefix_of_lt

end Node
end SqlLint
