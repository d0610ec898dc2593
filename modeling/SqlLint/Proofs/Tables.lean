import Mathlib.Data.List.Induction
import SqlLint.Proofs.Levels
import SqlLint.Proofs.Scopes

/-! # The tables of a core

The tables of a core are listed through its `FROM` clause alone, and through a walk that passes over
nested queries. Main statement: `Statement.tables_partition`, both give one list, and the cores of a
statement share its tables. -/

namespace SqlLint

namespace Node

variable {α : Type} {view : Node → Option α}

/-- Whether a node is a part of a `FROM` clause. -/
def isJoined : Node → Bool
  | .source _ | .join _ | .table _ => true
  | _ => false

/-- Whether a view shows nothing outside of `FROM` clauses. -/
def OfJoined (view : Node → Option α) : Prop := ∀ n, n.isJoined = false → view n = none

theorem OfJoined.ofFrame (hview : OfJoined view) : OfFrame view := by
  intro n h
  refine hview n ?_
  cases n <;> first | rfl | cases h

theorem ofJoined_table? : OfJoined table? := by
  intro n h
  cases n <;> first | rfl | cases h

theorem ofFrame_table? : OfFrame table? := ofJoined_table?.ofFrame

theorem ofFrame_core? : OfFrame core? := by
  intro n h
  cases n <;> first | rfl | cases h

/-! ## Two lists of tables -/

mutual

theorem collectPlain_tables : ∀ t : TableRef, (table t).collectPlain table? = t.tables
  | .nestedJoin f label span => by
    rw [collectPlain_table, TableRef.tables, ← collectPlain_sourceTables f]
    rfl
  | .named _ _ _ | .derived _ _ _ | .lateral _ _ _ => by
    rw [collectPlain_table, TableRef.tables]
    rfl

theorem collectPlain_sourceTables : ∀ f : FromClause, (source f).collectPlain table? = f.tables
  | ⟨first, joins⟩ => by
    rw [collectPlain_source, FromClause.tables, ← collectPlain_tables first,
      ← collectPlain_joinedTables joins]
    rfl

theorem collectPlain_joinedTables : ∀ js : List Join,
    js.flatMap (fun j => (join j).collectPlain table?) = joinedTables js
  | [] => rfl
  | ⟨kind, natural, t, condition, usingColumns, span⟩ :: rest => by
    rw [List.flatMap_cons, joinedTables, ← collectPlain_tables t, ← collectPlain_joinedTables rest,
      ofFrame_table?.collectPlain_join]
    rfl

end

theorem collectPlain_coreTables (c : Core) : (core c).collectPlain table? = c.tables := by
  rw [ofFrame_table?.collectPlain_core, Core.tables]
  cases c.source with
  | none => rfl
  | some f =>
    rw [Option.toList_some, List.flatMap_singleton, collectPlain_sourceTables]
    rfl

/-! ## Level by level -/

theorem collectPlain_core? (c : Core) : (core c).collectPlain core? = [c] := by
  have hnone : ∀ n : Node, n.isPart → core? n = none := by
    intro n h
    cases n <;> first | rfl | cases h
  have hchildren : (core c).children.flatMap (·.collectPlain core?) = [] :=
    List.flatMap_eq_nil_iff.2 fun m hm =>
      collectPlain_of_closed (fun _ _ => isPart_or_query_of_part) hnone (isPart_of_core hm)
  rw [collectPlain_eq rfl, hchildren]
  rfl

theorem collectPlain_bodyCores (b : Body) :
    (body b).collectPlain core? = match b with
      | .core c => [c]
      | .setOperation o => (body o.left).collectPlain core? ++ (body o.right).collectPlain core?
      | .nested _ | .values _ _ => [] := by
  rw [ofFrame_core?.collectPlain_body]
  cases b with
  | core c => exact collectPlain_core? c
  | _ => rfl

theorem collectOwn_core? (q : Query) : q.collectOwn core? = (body q.body).collectPlain core? := by
  rw [ofFrame_core?.collectOwn_eq]
  rfl

mutual

theorem OfJoined.collectPlain_body (hview : OfJoined view) : ∀ b : Body,
    (body b).collectPlain view
      = ((body b).collectPlain core?).flatMap fun c => (core c).collectPlain view
  | .core c => by
    rw [hview.ofFrame.collectPlain_body, collectPlain_bodyCores, hview _ rfl,
      List.flatMap_singleton]
    rfl
  | .setOperation o => by
    rw [hview.ofFrame.collectPlain_body, collectPlain_bodyCores, hview _ rfl]
    exact hview.collectPlain_operands o
  | .nested _ | .values _ _ => by
    rw [hview.ofFrame.collectPlain_body, collectPlain_bodyCores, hview _ rfl]
    rfl

theorem OfJoined.collectPlain_operands (hview : OfJoined view) : ∀ o : SetOperation,
    (body o.left).collectPlain view ++ (body o.right).collectPlain view
      = ((body o.left).collectPlain core? ++ (body o.right).collectPlain core?).flatMap
        fun c => (core c).collectPlain view
  | ⟨_, _, left, right, _⟩ => by
    rw [List.flatMap_append, hview.collectPlain_body left, hview.collectPlain_body right]

end

theorem OfJoined.collectOwn_eq (hview : OfJoined view) (q : Query) :
    q.collectOwn view = (q.collectOwn core?).flatMap fun c => (core c).collectPlain view := by
  rw [hview.ofFrame.collectOwn_eq, collectOwn_core?, hview.collectPlain_body, hview _ rfl]
  rfl

theorem OfJoined.perm_cores (hview : OfJoined view) (s : Statement) :
    ((statement s).collect view).Perm
      ((statement s).cores.flatMap fun c => (core c).collectPlain view) := by
  have hfound := perm_collect (statement s) view
  have hcores := perm_collect (statement s) core?
  rw [collectPlain_statement] at hfound hcores
  rw [hview (statement s) rfl, Option.toList_none, List.nil_append] at hfound
  simp only [hview.collectOwn_eq, ← List.flatMap_assoc] at hfound
  exact hfound.trans (hcores.flatMap_right _).symm

theorem perm_coreTables (s : Statement) :
    (statement s).tables.Perm ((statement s).cores.flatMap Core.tables) := by
  have hperm := ofJoined_table?.perm_cores s
  simp only [collectPlain_coreTables] at hperm
  exact hperm

/-! ## The core of a table -/

theorem Within.refl {root n : Node} {place : Place} (hn : root.at? place = some n)
    (hquery : n.query? = none) : root.Within place place := by
  refine ⟨List.prefix_rfl, fun p m hp hp' hm => ?_⟩
  obtain rfl := hp'.eq_of_length_le hp.length_le
  obtain rfl := Option.some.inj (hn.symm.trans hm)
  exact hquery

theorem Within.concat {root n : Node} {above place : Place} {i : Nat}
    (h : root.Within above place) (hn : root.at? (place ++ [i]) = some n)
    (hquery : n.query? = none) : root.Within above (place ++ [i]) := by
  refine ⟨h.1.trans (List.prefix_append place [i]), fun p m hp hp' hm => ?_⟩
  rcases List.prefix_concat_iff.1 hp' with rfl | hp'
  · obtain rfl := Option.some.inj (hn.symm.trans hm)
    exact hquery
  · exact h.2 p m hp hp' hm

theorem Within.above {root : Node} {above p place : Place} (h : root.Within above place)
    (hp : above <+: p) (hp' : p <+: place) : root.Within above p :=
  ⟨hp, fun q n hq hq' => h.2 q n hq (hq'.trans hp')⟩

theorem eq_or_isPart_of_within {root n : Node} {p place : Place} {c : Core}
    (hcore : root.at? p = some (.core c)) (hwithin : root.Within p place)
    (hn : root.at? place = some n) : place = p ∨ n.isPart := by
  -- Along the way down from the core, by its last step: the parts of a core are closed downwards.
  obtain ⟨r, rfl⟩ := hwithin.1
  induction r using List.reverseRecOn generalizing n with
  | nil => exact .inl (List.append_nil p)
  | append_singleton r i ih =>
    rw [← List.append_assoc, at?_concat, Option.bind_eq_some_iff] at hn
    obtain ⟨m, hm, hchild⟩ := hn
    have hmem : n ∈ m.children := List.mem_of_getElem? hchild
    have hquery : n.query? = none := by
      refine hwithin.2 _ n hwithin.1 List.prefix_rfl ?_
      rw [← List.append_assoc, at?_concat, hm]
      exact hchild
    have habove : root.Within p (p ++ r) :=
      hwithin.above (List.prefix_append p r) (by simp)
    right
    rcases ih habove hm with hroot | hpart
    · rw [hroot] at hm
      obtain rfl := Option.some.inj (hcore.symm.trans hm)
      exact isPart_of_core hmem
    · simpa [hquery] using isPart_or_query_of_part hpart hmem

/-- Of two cores around a place, with no query in between, neither is above the other. -/
theorem core_unique {root : Node} {p p' place : Place} {c c' : Core}
    (hcore : root.at? p = some (.core c)) (hcore' : root.at? p' = some (.core c'))
    (hwithin : root.Within p place) (hwithin' : root.Within p' place) : p = p' := by
  have hsame : ∀ {p p' : Place} {c c' : Core}, root.at? p = some (.core c) →
      root.at? p' = some (.core c') → root.Within p place → p <+: p' → p' <+: place → p' = p := by
    intro p p' c c' hcore hcore' hwithin hp hp'
    have hpart := eq_or_isPart_of_within hcore (hwithin.above hp hp') hcore'
    exact hpart.resolve_right Bool.false_ne_true
  rcases List.prefix_or_prefix_of_prefix hwithin.1 hwithin'.1 with hp | hp
  · exact (hsame hcore hcore' hwithin hp hwithin'.1).symm
  · exact hsame hcore' hcore hwithin' hp hwithin.1

theorem joined_or_core_of_child {above n : Node} (hn : n ∈ above.children) (h : n.isJoined) :
    above.isJoined ∨ ∃ c, above = .core c := by
  rw [mem_children_iff] at hn
  cases above with
  | source f => exact .inl rfl
  | join j => exact .inl rfl
  | table t => exact .inl rfl
  | core c => exact .inr ⟨c, rfl⟩
  | body b => cases b <;> cases n <;> first | exact hn.elim | cases h
  | _ => cases n <;> first | exact hn.elim | cases h

theorem exists_core {s : Statement} {place : Place} {n : Node}
    (hn : (statement s).at? place = some n) (h : n.isJoined) :
    ∃ p c, (statement s).at? p = some (.core c) ∧ (statement s).Within p place := by
  induction place using List.reverseRecOn generalizing n with
  | nil =>
    obtain rfl := Option.some.inj hn
    cases h
  | append_singleton place i ih =>
    have hquery : n.query? = none := by cases n <;> first | rfl | cases h
    have hconcat := hn
    rw [at?_concat, Option.bind_eq_some_iff] at hconcat
    obtain ⟨above, habove, hchild⟩ := hconcat
    rcases joined_or_core_of_child (List.mem_of_getElem? hchild) h with hjoined | ⟨c, rfl⟩
    · obtain ⟨p, c, hcore, hwithin⟩ := ih habove hjoined
      exact ⟨p, c, hcore, hwithin.concat hn hquery⟩
    · exact ⟨place, c, habove, (Within.refl habove rfl).concat hn hquery⟩

/-- The tables of a core that stands at a place, each with its own place. -/
def tablesAt (p : Place) (c : Core) : List (Place × TableRef) :=
  ((core c).tree.outsideFrom (·.query?.isSome) p).filterMap fun x => x.2.table?.map (x.1, ·)

theorem map_snd_tablesAt (p : Place) (c : Core) : (tablesAt p c).map Prod.snd = c.tables := by
  rw [← collectPlain_coreTables, collectPlain, collectOutside_eq _ _ _ p, tablesAt,
    List.map_filterMap]
  simp [Function.comp_def]

theorem mem_tablesAt_iff {root : Node} {p place : Place} {c : Core} {t : TableRef}
    (hcore : root.at? p = some (.core c)) :
    (place, t) ∈ tablesAt p c ↔ root.Within p place ∧ root.at? place = some (.table t) := by
  rw [← mem_outside_iff hcore, tablesAt, List.mem_filterMap]
  constructor
  · rintro ⟨⟨q, n⟩, hn, ht⟩
    obtain ⟨t', ht', hx⟩ := Option.map_eq_some_iff.1 ht
    obtain ⟨rfl, rfl⟩ := Prod.mk.inj hx
    cases n <;> cases ht'
    exact hn
  · exact fun hn => ⟨(place, .table t), hn, rfl⟩

end Node

/-- The cores of a statement share its tables, and each table stands in one core. -/
theorem Statement.tables_partition (s : Statement) :
    (∀ c : Core, c.tables = (Node.core c).collectOutside (·.query?.isSome) Node.table?)
    ∧ (Node.statement s).tables.Perm ((Node.statement s).cores.flatMap Core.tables)
    ∧ (∀ p core, (Node.tablesAt p core).map Prod.snd = core.tables)
    ∧ ∀ place t, (Node.statement s).at? place = some (.table t) →
      ∃! p, ∃ core, (Node.statement s).at? p = some (.core core)
        ∧ (place, t) ∈ Node.tablesAt p core := by
  refine ⟨fun c => (Node.collectPlain_coreTables c).symm, Node.perm_coreTables s,
    Node.map_snd_tablesAt, fun place t ht => ?_⟩
  obtain ⟨p, core, hcore, hwithin⟩ := Node.exists_core ht rfl
  refine ⟨p, ⟨core, hcore, (Node.mem_tablesAt_iff hcore).2 ⟨hwithin, ht⟩⟩, ?_⟩
  rintro q ⟨other, hother, hmem⟩
  exact Node.core_unique hother hcore ((Node.mem_tablesAt_iff hother).1 hmem).1 hwithin

/-- `SELECT column FROM source` -/
def selectingFrom (column : String) (source : FromClause) : Core :=
  { selecting (bareColumn column) with source := some source }

/-- The table `name`. -/
def bareTable (name : String) : TableRef := .named ⟨[{ value := name }]⟩ none .empty

/-- `SELECT a FROM (t JOIN (SELECT b FROM u) AS d)` -/
def derivedInParentheses : Statement :=
  let derived : TableRef :=
    .derived (.ofCore (selectingFrom "b" ⟨bareTable "u", []⟩)) (some { value := "d" }) .empty
  let joined : FromClause := ⟨bareTable "t", [⟨.plain, false, derived, none, [], .empty⟩]⟩
  .query (.ofCore (selectingFrom "a" ⟨.nestedJoin joined none .empty, []⟩))

theorem Statement.tables_partition_derived :
    let root := Node.statement derivedInParentheses
    (∃ outer inner, root.at? [0, 0, 0] = some (.core outer)
      ∧ root.at? [0, 0, 0, 1, 0, 0, 1, 0, 0, 0, 0] = some (.core inner))
    ∧ ∃! p, ∃ core, root.at? p = some (.core core)
      ∧ ([0, 0, 0, 1, 0, 0, 1, 0, 0, 0, 0, 1, 0], bareTable "u") ∈ Node.tablesAt p core :=
  ⟨⟨_, _, rfl, rfl⟩, (tables_partition derivedInParentheses).2.2.2 _ _ rfl⟩

end SqlLint
