import SqlLint.Proofs.Walk

/-! # The first find

A search evaluates a test with a state on what its view finds, and ends with the first find that
passes. Main statement: `search_stops`, the test is evaluated on the finds of a full walk up to the
one that is returned, and the walk meets no node after that one. -/

namespace SqlLint

variable {α σ : Type}

/-! ## A test along a list -/

/-- One evaluation of a test: the state it was given, the item, and the answer. -/
structure Trial (σ α : Type) where
  state : σ
  item : α
  passed : Bool

/-- The state that a test leaves behind. -/
def stateAfter (test : σ → α → σ × Bool) (state : σ) (xs : List α) : σ :=
  xs.foldl (fun s a => (test s a).1) state

/-- Whether no item passes a test that is evaluated on all of them in order. -/
def Fails (test : σ → α → σ × Bool) (state : σ) (xs : List α) : Prop :=
  ∀ before a after, xs = before ++ a :: after → (test (stateAfter test state before) a).2 = false

/-- Whether a test goes along a list up to the first item that passes, or to the end if there is
none: the items it is evaluated on, and the one that passes. -/
inductive Outcome (test : σ → α → σ × Bool) (state : σ) (xs : List α) :
    List α → Option α → Prop where
  | found (before : List α) (a : α) (after : List α) (hxs : xs = before ++ a :: after)
    (hfails : Fails test state before) (hpasses : (test (stateAfter test state before) a).2 = true) :
    Outcome test state xs (before ++ [a]) (some a)
  | missing (hfails : Fails test state xs) : Outcome test state xs xs none

/-- The evaluations of a test on all items of a list. -/
def trials (test : σ → α → σ × Bool) (state : σ) : List α → List (Trial σ α)
  | [] => []
  | a :: rest => ⟨state, a, (test state a).2⟩ :: trials test (test state a).1 rest

/-- The test that also writes down its evaluations. -/
def noting (test : σ → α → σ × Bool) (s : σ × List (Trial σ α)) (a : α) :
    (σ × List (Trial σ α)) × Bool :=
  (((test s.1 a).1, s.2 ++ [⟨s.1, a, (test s.1 a).2⟩]), (test s.1 a).2)

/-- The items that a test is evaluated on, and the one that passes. -/
def scan (test : σ → α → σ × Bool) (state : σ) : List α → List α × Option α
  | [] => ([], none)
  | a :: rest =>
    if (test state a).2 then ([a], some a)
    else (a :: (scan test (test state a).1 rest).1, (scan test (test state a).1 rest).2)

section

variable {test : σ → α → σ × Bool} {state : σ} {a : α} {xs evaluated : List α} {found : Option α}

theorem fails_nil : Fails test state [] := by
  intro before a after h
  simp at h

theorem Fails.cons (hfirst : (test state a).2 = false) (h : Fails test (test state a).1 xs) :
    Fails test state (a :: xs) := by
  intro before b after hxs
  cases before with
  | nil =>
    obtain ⟨rfl, -⟩ := List.cons.inj hxs
    simpa [stateAfter] using hfirst
  | cons c before =>
    rw [List.cons_append, List.cons.injEq] at hxs
    obtain ⟨rfl, hxs⟩ := hxs
    have hlater := h before b after hxs
    simpa [stateAfter] using hlater

theorem Outcome.cons (hfirst : (test state a).2 = false)
    (h : Outcome test (test state a).1 xs evaluated found) :
    Outcome test state (a :: xs) (a :: evaluated) found := by
  cases h with
  | found before b after hxs hfails hpasses =>
    refine .found (a :: before) b after (by simp [hxs]) (hfails.cons hfirst) ?_
    simpa [stateAfter] using hpasses
  | missing hfails => exact .missing (hfails.cons hfirst)

theorem outcome_scan (test : σ → α → σ × Bool) (state : σ) (xs : List α) :
    Outcome test state xs (scan test state xs).1 (scan test state xs).2 := by
  induction xs generalizing state with
  | nil => exact .missing fails_nil
  | cons a rest ih =>
    unfold scan
    split
    · next h => exact .found [] a rest rfl fails_nil (by simpa [stateAfter] using h)
    · next h => exact (ih _).cons (by simpa using h)

end

/-! ## Writing down the evaluations -/

theorem scan_noting (test : σ → α → σ × Bool) (s : σ × List (Trial σ α)) (xs : List α) :
    scan (noting test) s xs = scan test s.1 xs := by
  induction xs generalizing s with
  | nil => rfl
  | cons a rest ih => simp [scan, noting, ih]

theorem stateAfter_noting (test : σ → α → σ × Bool) (s : σ × List (Trial σ α)) (xs : List α) :
    stateAfter (noting test) s xs = (stateAfter test s.1 xs, s.2 ++ trials test s.1 xs) := by
  induction xs generalizing s with
  | nil => simp [stateAfter, trials]
  | cons a rest ih =>
    unfold stateAfter at ih ⊢
    rw [List.foldl_cons, ih]
    simp [noting, trials]

/-! ## Searches as walks -/

/-- A test of what a view finds, as a test of nodes. -/
def onNodes (view : Node → Option α) (test : σ → α → σ × Bool) (state : σ) (n : Node) : σ × Bool :=
  (view n).elim (state, false) (test state)

/-- The visitor of a search. -/
def seeking (view : Node → Option α) (test : σ → α → σ × Bool) (s : σ × Option α) (n : Node) :
    (σ × Option α) × Visit :=
  match view n with
  | none => (s, .descend)
  | some a =>
    match test s.1 a with
    | (next, true) => ((next, some a), .stop)
    | (next, false) => ((next, s.2), .descend)

theorem search_eq (root : Node) (view : Node → Option α) (test : σ → α → σ × Bool) (state : σ) :
    root.search view test state = (root.walk (seeking view test) (state, none)).1 := by
  unfold Node.search seeking
  rfl

theorem state_along_seeking (view : Node → Option α) (test : σ → α → σ × Bool) (state : σ)
    (places : List (Place × Node)) :
    (Run.along (seeking view test) (state, none) places).state
      = (stateAfter test state (scan test state (places.filterMap fun x => view x.2)).1,
        (scan test state (places.filterMap fun x => view x.2)).2) := by
  induction places generalizing state with
  | nil => simp [Run.along, scan, stateAfter]
  | cons x rest ih =>
    obtain ⟨place, n⟩ := x
    rw [Run.along, seeking]
    cases hview : view n with
    | none => simpa [hview, Run.after] using ih state
    | some a =>
      rcases htest : test state a with ⟨next, passed⟩
      cases passed with
      | true => simp [hview, htest, scan, stateAfter]
      | false => simpa [hview, htest, scan, stateAfter, Run.after] using ih next

theorem nodes_along_seeking (view : Node → Option α) (test : σ → α → σ × Bool) (state : σ)
    (places : List (Place × Node)) :
    (Run.along (seeking view test) (state, none) places).calls.map (fun call => call.2.node)
      = (scan (onNodes view test) state (places.map Prod.snd)).1 := by
  induction places generalizing state with
  | nil => simp [Run.along, scan]
  | cons x rest ih =>
    obtain ⟨place, n⟩ := x
    rw [Run.along, seeking]
    cases hview : view n with
    | none => simpa [hview, Run.after, scan, onNodes] using ih state
    | some a =>
      rcases htest : test state a with ⟨next, passed⟩
      cases passed with
      | true => simp [hview, htest, scan, onNodes]
      | false => simpa [hview, htest, scan, onNodes, Run.after] using ih next

theorem scan_onNodes (view : Node → Option α) (test : σ → α → σ × Bool) (state : σ)
    (ns : List Node) :
    scan test state (ns.filterMap view)
      = ((scan (onNodes view test) state ns).1.filterMap view,
        (scan (onNodes view test) state ns).2.bind view) := by
  induction ns generalizing state with
  | nil => rfl
  | cons n rest ih =>
    cases hview : view n with
    | none => simp [hview, scan, onNodes, ih]
    | some a => cases htest : (test state a).2 <;> simp [hview, htest, scan, onNodes, ih]

namespace Node

theorem search_scan (root : Node) (view : Node → Option α) (test : σ → α → σ × Bool) (state : σ) :
    root.search view test state
      = (stateAfter test state (scan test state (root.collect view)).1,
        (scan test state (root.collect view)).2) := by
  have hrun := congrArg Prod.fst
    (Rose.walk_eq_recording (seeking view test) (state, none) [] root.tree)
  rw [Rose.walk_recording] at hrun
  rw [search_eq, walk, hrun, collect_eq, ← map_snd_places, List.filterMap_map]
  exact state_along_seeking view test state root.places

theorem nodes_seeking (root : Node) (view : Node → Option α) (test : σ → α → σ × Bool)
    (state : σ) :
    (root.walk (recording (seeking view test)) ((state, none), [])).1.2.map Call.node
      = (scan (onNodes view test) state root.preorder).1 := by
  rw [walk, Rose.walk_recording, ← map_snd_places, ← nodes_along_seeking]
  simp [Run.forget, places]

theorem findFirst_eq (root : Node) (view : Node → Option α) (p : α → Bool) :
    root.findFirst view p = (root.collect view).find? p := by
  unfold findFirst
  rw [search_scan]
  induction root.collect view with
  | nil => rfl
  | cons a rest ih => cases h : p a <;> simp_all [scan]

/-- A search goes along the finds of the full walk up to the first that passes its test. -/
theorem search_stops (root : Node) (view : Node → Option α) (test : σ → α → σ × Bool) (state : σ) :
    ∃ evaluated found,
      Outcome test state (root.collect view) evaluated found
      ∧ root.search view test state = (stateAfter test state evaluated, found)
      ∧ root.search view (noting test) (state, [])
        = ((stateAfter test state evaluated, trials test state evaluated), found)
      ∧ root.search view test state = (root.walk (seeking view test) (state, none)).1
      ∧ ∃ met last,
        Outcome (onNodes view test) state root.preorder met last
        ∧ (root.walk (recording (seeking view test)) ((state, none), [])).1.2.map Call.node = met
        ∧ met.filterMap view = evaluated ∧ last.bind view = found := by
  have hnodes := scan_onNodes view test state root.preorder
  rw [← collect_eq] at hnodes
  refine ⟨_, _, outcome_scan test state (root.collect view), search_scan root view test state, ?_,
    search_eq root view test state, _, _, outcome_scan (onNodes view test) state root.preorder,
    nodes_seeking root view test state, ?_, ?_⟩
  · rw [search_scan, scan_noting, stateAfter_noting]
    simp
  · rw [hnodes]
  · rw [hnodes]

end Node

end SqlLint
