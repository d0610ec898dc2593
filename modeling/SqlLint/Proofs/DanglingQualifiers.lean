import SqlLint.Proofs.Levels
import SqlLint.Proofs.Lists
import SqlLint.Proofs.Scopes
import SqlLint.Proofs.Shells
import SqlLint.Proofs.Tables
import SqlLint.Rules.References

/-! # Qualifiers that name no table

A qualified reference is reported if no part of its qualifier is a name of any table of the
statement. Main statement: `check_dangling`, which references these are, and that one more table in
a `FROM` clause never leads to one more of them. -/

namespace SqlLint

namespace Node

variable {α : Type} {R : Node → Node → Prop} {view : Node → Option α} {n n' : Node}

/-! ## Collections after an edit -/

/-- Whether what a view shows of a node is written in the node itself. -/
def OfShell (view : Node → Option α) : Prop := ∀ n, view n = view n.shell

theorem ofShell_column? : OfShell column? := by
  intro n
  cases n with
  | expr e =>
    obtain ⟨kind, span⟩ := e
    cases kind <;> rfl
  | statement s => cases s <;> rfl
  | body b => cases b <;> rfl
  | item i => cases i <;> rfl
  | table t => cases t <;> rfl
  | _ => rfl

theorem ofShell_of_table {f : TableRef → Option α}
    (hderived : ∀ q q' label span, f (.derived q label span) = f (.derived q' label span))
    (hlateral : ∀ q q' label span, f (.lateral q label span) = f (.lateral q' label span))
    (hnested : ∀ g g' label span, f (.nestedJoin g label span) = f (.nestedJoin g' label span)) :
    OfShell fun n => n.table?.bind f := by
  intro n
  cases n with
  | table t =>
    cases t with
    | named name label span => rfl
    | derived q label span => exact hderived q Blank.query label span
    | lateral q label span => exact hlateral q Blank.query label span
    | nestedJoin g label span => exact hnested g Blank.source label span
  | statement s => cases s <;> rfl
  | body b => cases b <;> rfl
  | item i => cases i <;> rfl
  | _ => rfl

theorem Edited.collect_related {r : List α → List α → Prop} (hrefl : ∀ l, r l l)
    (happend : ∀ {a b c d}, r a b → r c d → r (a ++ c) (b ++ d)) (hview : OfShell view)
    (hR : ∀ n n', R n n' → r (n.collect view) (n'.collect view)) (h : Edited R n n') :
    r (n.collect view) (n'.collect view) := by
  induction h with
  | here h => exact hR _ _ h
  | @inside n n' m m' i hshell hm hchildren _ ih =>
    have hsame : view n' = view n := by rw [hview n', hshell, ← hview n]
    rw [collect_children n, collect_children n', hsame, hchildren]
    exact happend (hrefl _) (flatMap_set_related hrefl happend hm ih)

end Node

namespace Rules.ReferencesFrom

/-! ## Known names -/

/-- Whether a table goes by a name, up to letter case: by its alias, or by the last part of the name
that it has itself. -/
def GoesBy (t : TableRef) (part : Ident) : Prop :=
  (∃ label, t.alias? = some label ∧ Text.same label.value part.value = true)
  ∨ ∃ name label span base, t = .named name label span ∧ name.base? = some base
    ∧ Text.same base.value part.value = true

/-- Whether some table anywhere under a node goes by the name. -/
def Known (root : Node) (part : Ident) : Prop :=
  ∃ t, Relation.ReflTransGen Node.Holds root (.table t) ∧ GoesBy t part

/-- Whether a reference has a qualifier, and no part of it is the name of a table. -/
def Dangling (root : Node) (c : ColumnRef) : Prop :=
  c.qualifier ≠ [] ∧ ∀ part ∈ c.qualifier, ¬ Known root part

theorem goesBy_iff (t : TableRef) (part : Ident) :
    GoesBy t part ↔ ∃ name, (t.referenceName? = some name
      ∨ (t.name? >>= ObjectName.base?) = some name) ∧ name.key = part.key := by
  unfold GoesBy TableRef.referenceName?
  simp only [Text.same_iff]
  constructor
  · rintro (⟨label, hlabel, hkey⟩ | ⟨name, label, span, base, rfl, hbase, hkey⟩)
    · exact ⟨label, .inl (by simp [hlabel]), hkey⟩
    · exact ⟨base, .inr hbase, hkey⟩
  · -- A table without an alias is referred to by its own name, which is the second way anyhow.
    have hown : ∀ name : Ident, (t.name? >>= ObjectName.base?) = some name →
        name.key = part.key → ∃ n label span base, t = .named n label span
          ∧ n.base? = some base ∧ Text.lower base.value = Text.lower part.value := by
      intro name hname hkey
      obtain ⟨n, hn, hbase⟩ := Option.bind_eq_some_iff.mp hname
      cases t <;> cases hn
      exact ⟨_, _, _, name, rfl, hbase, hkey⟩
    rintro ⟨name, hname | hname, hkey⟩
    · cases hlabel : t.alias? with
      | some label =>
        obtain rfl : label = name := by simpa [hlabel] using hname
        exact .inl ⟨label, rfl, hkey⟩
      | none => exact .inr (hown name (by simpa [hlabel] using hname) hkey)
    · exact .inr (hown name hname hkey)

theorem key_mem_knownNames_iff (root : Node) (part : Ident) :
    part.key ∈ knownNames root ↔ Known root part := by
  unfold knownNames Known Node.referenceNames
  simp only [goesBy_iff, ← Node.mem_tables_iff, List.mem_append, List.mem_map, List.mem_filterMap]
  constructor
  · rintro (⟨name, ⟨t, ht, hname⟩, hkey⟩ | ⟨name, ⟨t, ht, hname⟩, hkey⟩)
    · exact ⟨t, ht, name, .inl hname, hkey⟩
    · exact ⟨t, ht, name, .inr hname, hkey⟩
  · rintro ⟨t, ht, name, hname | hname, hkey⟩
    · exact .inl ⟨name, ⟨t, ht, hname⟩, hkey⟩
    · exact .inr ⟨name, ⟨t, ht, hname⟩, hkey⟩

theorem isDangling_iff (root : Node) (c : ColumnRef) :
    isDangling (knownNames root) c = true ↔ Dangling root c := by
  unfold isDangling Dangling ColumnRef.isQualified
  simp [key_mem_knownNames_iff]

/-! ## What is reported -/

def finding (ctx : Context) (c : Located ColumnRef) : Diagnostic :=
  ctx.report (message c.value) c.span

theorem check_without_tables {s : Statement} (ctx : Context) (h : (Node.statement s).tables = []) :
    check s ctx = [] := by
  simp [check, h]

theorem check_of_tables {s : Statement} (ctx : Context) (h : (Node.statement s).tables ≠ []) :
    check s ctx = ((Node.statement s).columns.filter fun c =>
      isDangling (knownNames (.statement s)) c.value).map (finding ctx) := by
  simp only [check, List.isEmpty_iff, if_neg h]
  rfl

/-- The references that are reported, each with its place. -/
def danglingAt (root : Node) : List Occurrence :=
  if root.tables.isEmpty then []
  else (root.occurrences []).filter fun x => isDangling (knownNames root) x.2.value

theorem check_eq_map_danglingAt (s : Statement) (ctx : Context) :
    check s ctx = (danglingAt (.statement s)).map fun x => finding ctx x.2 := by
  unfold danglingAt
  by_cases h : (Node.statement s).tables = []
  · simp [h, check_without_tables ctx h]
  · rw [check_of_tables ctx h, if_neg (by simpa using h), ← Node.map_snd_occurrences,
      List.filter_map, List.map_map]
    rfl

theorem mem_danglingAt_iff {root : Node} {place : Place} {c : Located ColumnRef} :
    (place, c) ∈ danglingAt root
      ↔ root.at? place = some (.expr ⟨.column c.value, c.span⟩) ∧ Dangling root c.value
        ∧ ∃ t, Relation.ReflTransGen Node.Holds root (.table t) := by
  have hplace : (root.at? place).bind Node.column? = some c
      ↔ root.at? place = some (.expr ⟨.column c.value, c.span⟩) := by
    rw [Option.bind_eq_some_iff]
    constructor
    · rintro ⟨n, hn, hc⟩
      rw [hn, Node.eq_of_column? hc]
    · intro hn
      exact ⟨_, hn, rfl⟩
  simp only [← Node.mem_tables_iff]
  unfold danglingAt
  cases htables : root.tables with
  | nil => simp
  | cons t rest =>
    have hsome : ∃ t', t' ∈ t :: rest := ⟨t, List.mem_cons_self⟩
    simp only [List.isEmpty_cons, Bool.false_eq_true, if_false, List.mem_filter,
      Node.mem_occurrences_iff, isDangling_iff, hplace, hsome, and_true]

theorem danglingAt_sublist (root : Node) :
    ((danglingAt root).map fun x => (x.1, Node.expr ⟨.column x.2.value, x.2.span⟩)).Sublist
      root.places := by
  have hall : ((root.occurrences []).map fun x =>
      (x.1, Node.expr ⟨.column x.2.value, x.2.span⟩)).Sublist root.places := by
    have hsome := map_filterMap_sublist (f := Node.occurrence?)
      (g := fun x => (x.1, Node.expr ⟨.column x.2.value, x.2.span⟩)) (h := id)
      (fun x y hy => ?_) root.places
    · rwa [List.map_id] at hsome
    · obtain ⟨c, hc, rfl⟩ := Option.map_eq_some_iff.mp hy
      simp [← Node.eq_of_column? hc]
  unfold danglingAt
  split
  · exact List.nil_sublist _
  · exact (List.filter_sublist.map _).trans hall

/-! ## One more table -/

/-- Whether the second node is the first, a `FROM` clause, with a named table joined to it without a
condition. -/
def AddsJoin (n n' : Node) : Prop :=
  ∃ first before after join name label span,
    n = .source ⟨first, before ++ after⟩ ∧ n' = .source ⟨first, before ++ join :: after⟩
      ∧ join.table = .named name label span ∧ join.condition = none

section

variable {n n' : Node}

theorem AddsJoin.collect_eq {α : Type} (view : Node → Option α) (h : AddsJoin n n')
    (hsource : ∀ f, view (.source f) = none) (hjoin : ∀ j, view (.join j) = none) :
    ∃ added before after, n.collect view = before ++ after
      ∧ n'.collect view = before ++ added ++ after
      ∧ ∃ name label span, added = (view (.table (.named name label span))).toList := by
  obtain ⟨first, before, after, join, name, label, span, rfl, rfl, htable, hcondition⟩ := h
  have hadded : (Node.join join).collect view = (view (.table (.named name label span))).toList := by
    rw [Node.collect_children, hjoin]
    simp [Node.children, htable, hcondition, Node.collect_children (.table _)]
  refine ⟨_, (Node.table first).collect view
      ++ before.flatMap fun j => (Node.join j).collect view,
    after.flatMap fun j => (Node.join j).collect view, ?_, ?_, name, label, span, rfl⟩
  · rw [Node.collect_children, hsource]
    simp [Node.children, List.flatMap_map]
  · rw [Node.collect_children, hsource, ← hadded]
    simp [Node.children, List.flatMap_map]

theorem columns_of_edited (h : Node.Edited AddsJoin n n') : n'.columns = n.columns := by
  refine (h.collect_related (r := Eq) (fun _ => rfl) ?_ Node.ofShell_column? ?_).symm
  · rintro a b c d rfl rfl
    rfl
  · intro m m' hm
    obtain ⟨added, before, after, hbefore, hafter, name, label, span, rfl⟩ :=
      hm.collect_eq Node.column? (fun _ => rfl) (fun _ => rfl)
    rw [hbefore, hafter]
    simp [Node.column?]

theorem names_of_edited {f : TableRef → Option Ident} (hview : Node.OfShell fun n => n.table?.bind f)
    (h : Node.Edited AddsJoin n n') : (n.tables.filterMap f).Sublist (n'.tables.filterMap f) := by
  have hcollect : ∀ m : Node, m.tables.filterMap f = m.collect fun n => n.table?.bind f := by
    intro m
    rw [Node.tables, Node.collect_eq, Node.collect_eq, List.filterMap_filterMap]
  rw [hcollect, hcollect]
  refine h.collect_related .refl List.Sublist.append hview ?_
  intro m m' hm
  obtain ⟨added, before, after, hbefore, hafter, -⟩ :=
    hm.collect_eq (fun n => n.table?.bind f) (fun _ => rfl) (fun _ => rfl)
  rw [hbefore, hafter]
  exact (List.sublist_append_left before added).append (.refl after)

theorem knownNames_subset_of_edited (h : Node.Edited AddsJoin n n') :
    knownNames n ⊆ knownNames n' := by
  have hreference := names_of_edited (f := TableRef.referenceName?)
    (Node.ofShell_of_table (fun _ _ _ _ => rfl) (fun _ _ _ _ => rfl) fun _ _ _ _ => rfl) h
  have hown := names_of_edited (f := fun t => t.name? >>= ObjectName.base?)
    (Node.ofShell_of_table (fun _ _ _ _ => rfl) (fun _ _ _ _ => rfl) fun _ _ _ _ => rfl) h
  exact ((hreference.map Ident.key).append (hown.map Ident.key)).subset

theorem tables_ne_nil_of_edited (h : Node.Edited AddsJoin n n') : n.tables ≠ [] := by
  induction h with
  | here h =>
    obtain ⟨first, before, after, join, name, label, span, rfl, -⟩ := h
    refine List.ne_nil_of_mem (a := first) (Node.mem_tables_iff.mpr (.single ?_))
    exact rfl
  | @inside n n' m m' i _ hm _ _ ih =>
    obtain ⟨t, ht⟩ := List.exists_mem_of_ne_nil _ ih
    have hheld : n.Holds m := (Node.mem_children_iff ..).mp (List.mem_of_getElem? hm)
    exact List.ne_nil_of_mem (Node.mem_tables_iff.mpr (.head hheld (Node.mem_tables_iff.mp ht)))

end

theorem check_sublist_of_edited {s t : Statement} (ctx : Context)
    (h : Node.Edited AddsJoin (.statement s) (.statement t)) :
    (check t ctx).Sublist (check s ctx) := by
  have htables := tables_ne_nil_of_edited h
  have hknown := knownNames_subset_of_edited h
  have hless : ∀ c : Located ColumnRef,
      isDangling (knownNames (.statement t)) c.value = true →
        isDangling (knownNames (.statement s)) c.value = true := by
    intro c
    simp only [isDangling, Bool.and_eq_true, Bool.not_eq_true', List.any_eq_false,
      List.contains_iff_mem]
    rintro ⟨hqualified, hpart⟩
    exact ⟨hqualified, fun part hmem hkey => hpart part hmem (hknown hkey)⟩
  rw [check_of_tables ctx htables]
  by_cases hnone : (Node.statement t).tables = []
  · rw [check_without_tables ctx hnone]
    exact List.nil_sublist _
  · rw [check_of_tables ctx hnone, columns_of_edited h]
    exact (List.monotone_filter_right _ hless).map _

/-- Dangling references are reported in walk order, and one more table never adds any. -/
theorem check_dangling (s : Statement) (ctx : Context) :
    (∃ found : List Occurrence,
      check s ctx = found.map (fun x => finding ctx x.2)
      ∧ (found.map fun x => (x.1, Node.expr ⟨.column x.2.value, x.2.span⟩)).Sublist
        (Node.statement s).places
      ∧ ∀ place c, (place, c) ∈ found
        ↔ (Node.statement s).at? place = some (.expr ⟨.column c.value, c.span⟩)
          ∧ Dangling (.statement s) c.value
          ∧ ∃ t, Relation.ReflTransGen Node.Holds (.statement s) (.table t))
    ∧ ((∀ t, ¬ Relation.ReflTransGen Node.Holds (.statement s) (.table t)) → check s ctx = [])
    ∧ ∀ t, Node.Edited AddsJoin (.statement s) (.statement t) →
      (check t ctx).Sublist (check s ctx) := by
  refine ⟨⟨danglingAt (.statement s), check_eq_map_danglingAt s ctx, danglingAt_sublist _,
    fun place c => mem_danglingAt_iff⟩, ?_, fun t h => check_sublist_of_edited ctx h⟩
  intro hnone
  refine check_without_tables ctx (List.eq_nil_iff_forall_not_mem.mpr ?_)
  intro t ht
  exact hnone t (Node.mem_tables_iff.mp ht)

/-- `SELECT x.a FROM t WHERE EXISTS (SELECT b FROM u …)` -/
def danglingOutside (joins : List Join) : Statement :=
  let inner := selectingFrom "b" ⟨bareTable "u", joins⟩
  .query (.ofCore
    { selecting ⟨.column ⟨[{ value := "x" }], { value := "a" }⟩, .empty⟩ with
      source := some ⟨bareTable "t", []⟩
      condition := some ⟨.existsIn (.ofCore inner) false, .empty⟩ })

theorem check_dangling_outside :
    let ctx : Context := ⟨info, .generic, .warning, none⟩
    let s := danglingOutside []
    let t := danglingOutside [⟨.cross, false, bareTable "x", none, [], .empty⟩]
    (check s ctx).map Diagnostic.message
      = ["Reference 'x.a' uses qualifier 'x', which matches no table or alias in the statement."]
    ∧ check t ctx = [] ∧ (check t ctx).Sublist (check s ctx)
    ∧ check (.query (.ofCore (selecting (bareColumn "a")))) ctx = [] := by
  intro ctx s t
  have hedit : Node.Edited AddsJoin (.statement s) (.statement t) :=
    .inside 0 rfl rfl rfl <| .inside 0 rfl rfl rfl <| .inside 0 rfl rfl rfl <|
      .inside 2 rfl rfl rfl <| .inside 0 rfl rfl rfl <| .inside 0 rfl rfl rfl <|
      .inside 0 rfl rfl rfl <| .inside 1 rfl rfl rfl <|
      .here ⟨bareTable "u", [], [], _, _, none, .empty, rfl, rfl, rfl, rfl⟩
  refine ⟨by decide +kernel, rfl, (check_dangling s ctx).2.2 t hedit, ?_⟩
  refine (check_dangling _ ctx).2.1 fun table htable => ?_
  have htables := Node.mem_tables_iff.mpr htable
  exact absurd htables List.not_mem_nil

end Rules.ReferencesFrom
end SqlLint
