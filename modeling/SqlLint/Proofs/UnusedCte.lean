import SqlLint.Rules.Structure
import SqlLint.Proofs.Lists
import SqlLint.Proofs.Places

/-! # Unused common table expressions

The rule reads the body of a query and its common table expressions, and passes over the `ORDER BY`,
`LIMIT` and `OFFSET` of the query itself. Main statement: `check_exact`, the rule reports what is
nowhere referenced in its query, and besides that what is referenced in these clauses alone. -/

namespace SqlLint.Rules.UnusedCte

/-! ## References -/

/-- Whether a table anywhere under a node has the name of a common table expression as its last
part, in any letter case. -/
def Referenced (root : Node) (c : Cte) : Prop :=
  ∃ name label span base,
    Relation.ReflTransGen Node.Holds root (.table (.named name label span))
      ∧ name.base? = some base ∧ Text.same base.value c.name.value = true

/-- Whether the body or a common table expression of the query has a reference. -/
def Inside (q : Query) (c : Cte) : Prop :=
  Referenced (.body q.body) c ∨ ∃ d ∈ q.ctes, Referenced (.query d.query) c

/-- Whether the clauses after the body have the only references. -/
def OnlyTrailing (q : Query) (c : Cte) : Prop :=
  (∃ n ∈ q.trailing, Referenced n c) ∧ ¬ Inside q c

theorem key_mem_tableNames_iff (root : Node) (c : Cte) :
    c.name.key ∈ tableNames root ↔ Referenced root c := by
  rw [tableNames, List.mem_map]
  constructor
  · rintro ⟨base, hbase, hkey⟩
    obtain ⟨t, ht, hbase⟩ := List.mem_filterMap.mp hbase
    obtain ⟨name, hname, hbase⟩ := Option.bind_eq_some_iff.mp hbase
    cases t <;> simp only [TableRef.name?, Option.some.injEq, reduceCtorEq] at hname
    subst hname
    exact ⟨_, _, _, base, Node.mem_tables_iff.mp ht, hbase, (Text.same_iff ..).mpr hkey⟩
  · rintro ⟨name, label, span, base, hunder, hbase, hsame⟩
    refine ⟨base, List.mem_filterMap.mpr ⟨.named name label span, ?_, hbase⟩, ?_⟩
    · exact Node.mem_tables_iff.mpr hunder
    · exact (Text.same_iff ..).mp hsame

instance (root : Node) (c : Cte) : Decidable (Referenced root c) :=
  decidable_of_iff _ (key_mem_tableNames_iff root c)

instance (q : Query) (c : Cte) : Decidable (Inside q c) :=
  inferInstanceAs (Decidable (_ ∨ _))

instance (q : Query) (c : Cte) : Decidable (OnlyTrailing q c) :=
  inferInstanceAs (Decidable (_ ∧ _))

theorem referenced_iff (n : Node) (c : Cte) (h : n.table? = none) :
    Referenced n c ↔ ∃ m ∈ n.children, Referenced m c := by
  constructor
  · rintro ⟨name, label, span, base, hunder, hbase, hsame⟩
    rcases Relation.ReflTransGen.cases_head hunder with rfl | ⟨m, hm, hunder⟩
    · cases h
    · exact ⟨m, (Node.mem_children_iff ..).mpr hm, name, label, span, base, hunder, hbase, hsame⟩
  · rintro ⟨m, hm, name, label, span, base, hunder, hbase, hsame⟩
    exact ⟨name, label, span, base, .head ((Node.mem_children_iff ..).mp hm) hunder, hbase, hsame⟩

theorem referenced_query_iff (q : Query) (c : Cte) :
    Referenced (.query q) c ↔ Inside q c ∨ ∃ n ∈ q.trailing, Referenced n c := by
  have hcte : ∀ d : Cte, Referenced (.cte d) c ↔ Referenced (.query d.query) c := by
    intro d
    simp [referenced_iff (.cte d) c rfl, Node.children]
  rw [referenced_iff _ c rfl, Node.children_query]
  constructor
  · rintro ⟨m, hm, href⟩
    rcases List.mem_append.mp hm with hm | hm
    · obtain ⟨d, hd, rfl⟩ := List.mem_map.mp hm
      exact .inl (.inr ⟨d, hd, (hcte d).mp href⟩)
    · rcases List.mem_cons.mp hm with rfl | hm
      · exact .inl (.inl href)
      · exact .inr ⟨m, hm, href⟩
  · rintro ((href | ⟨d, hd, href⟩) | ⟨n, hn, href⟩)
    · exact ⟨.body q.body, by simp, href⟩
    · exact ⟨.cte d, by simp [hd], (hcte d).mpr href⟩
    · exact ⟨n, by simp [hn], href⟩

theorem OnlyTrailing.referenced {q : Query} {c : Cte} (h : OnlyTrailing q c) :
    Referenced (.query q) c :=
  (referenced_query_iff q c).mpr (.inr h.1)

theorem not_inside_iff (q : Query) (c : Cte) :
    ¬ Inside q c ↔ ¬ Referenced (.query q) c ∨ OnlyTrailing q c := by
  constructor
  · intro hinside
    by_cases htrailing : ∃ n ∈ q.trailing, Referenced n c
    · exact .inr ⟨htrailing, hinside⟩
    · rw [referenced_query_iff]
      exact .inl (not_or.mpr ⟨hinside, htrailing⟩)
  · rintro (hfree | honly) hinside
    · exact hfree ((referenced_query_iff q c).mpr (.inl hinside))
    · exact honly.2 hinside

/-! ## What is reported -/

def finding (ctx : Context) (c : Cte) : Diagnostic :=
  ctx.report s!"CTE '{c.name.value}' is defined but never referenced." c.name.span

theorem contains_referencedNames_iff (q : Query) (c : Cte) :
    (referencedNames q).contains c.name.key = true ↔ Inside q c := by
  simp [referencedNames, Inside, key_mem_tableNames_iff]

/-- The findings for the common table expressions with a property, query after query. -/
def reports (s : Statement) (ctx : Context) (p : Query → Cte → Bool) : List Diagnostic :=
  (Node.statement s).queries.flatMap fun q => (q.ctes.filter (p q)).map (finding ctx)

theorem check_eq_reports (s : Statement) (ctx : Context) :
    check s ctx = reports s ctx fun q c => ¬ Inside q c := by
  have hused : ∀ q c, (!(referencedNames q).contains c.name.key) = decide (¬ Inside q c) := by
    intro q c
    rw [Bool.eq_iff_iff, Bool.not_eq_true', ← Bool.not_eq_true, contains_referencedNames_iff,
      decide_eq_true_iff]
  rw [check, reports]
  simp only [hused]
  rfl

theorem reports_eq_iff (s : Statement) (ctx : Context) {p p' : Query → Cte → Bool}
    (h : ∀ q c, p q c = true → p' q c = true) :
    reports s ctx p = reports s ctx p'
      ↔ ∀ q ∈ (Node.statement s).queries, ∀ c ∈ q.ctes, p' q c = true → p q c = true :=
  flatMap_map_filter_eq_iff (finding ctx) h

/-- What only the clauses after the body refer to is reported as if nothing referred to it. -/
theorem check_exact (s : Statement) (ctx : Context) :
    (check s ctx
        = reports s ctx fun q c => ¬ Referenced (.query q) c ∨ OnlyTrailing q c)
      ∧ (check s ctx = (reports s ctx fun q c => ¬ Referenced (.query q) c)
        ↔ ∀ q, Relation.ReflTransGen Node.Holds (.statement s) (.query q) →
          ∀ c ∈ q.ctes, ¬ OnlyTrailing q c) := by
  constructor
  · rw [check_eq_reports]
    simp only [not_inside_iff]
  · have hmore : ∀ q c,
        decide (¬ Referenced (.query q) c) = true → decide (¬ Inside q c) = true := by
      intro q c
      rw [decide_eq_true_iff, decide_eq_true_iff, not_inside_iff]
      exact .inl
    rw [check_eq_reports, eq_comm, reports_eq_iff s ctx hmore]
    simp only [Node.mem_queries_iff, decide_eq_true_iff, not_inside_iff]
    refine forall₂_congr fun q _ => forall₂_congr fun c _ => ?_
    constructor
    · intro h honly
      exact h (.inr honly) honly.referenced
    · rintro h (hfree | honly)
      · exact hfree
      · exact absurd honly h

/-! ## A compound query -/

/-- `SELECT column FROM table` -/
def columnFrom (column table : String) : Core where
  distinct := false
  columns := [.expr ⟨.column ⟨[], { value := column }⟩, .empty⟩ none]
  source := some ⟨.named ⟨[{ value := table }]⟩ none .empty, []⟩
  condition := none
  groupBy := []
  having := none
  qualify := none
  orderBy := []
  limit := none
  offset := none
  span := .empty

/-- `c AS (SELECT n FROM v)` -/
def ranks : Cte := ⟨{ value := "c" }, .ofCore (columnFrom "n" "v"), .empty⟩

/-- `WITH c AS (…) SELECT a FROM t UNION SELECT b FROM u ORDER BY (SELECT n FROM c)` -/
def sortedUnion : Query where
  ctes := [ranks]
  recursive := false
  body := .setOperation
    ⟨.union, .implicit, .core (columnFrom "a" "t"), .core (columnFrom "b" "u"), .empty⟩
  orderBy := [⟨⟨.subquery (.ofCore (columnFrom "n" "c")), .empty⟩, none, none⟩]
  limit := none
  offset := none
  span := .empty

def plainContext : Context := ⟨info, .generic, info.defaultSeverity, none⟩

/-- The sort key reads `c`, and yet `c` is reported. -/
theorem check_sortedUnion :
    Referenced (.query sortedUnion) ranks
      ∧ check (.query sortedUnion) plainContext = [finding plainContext ranks]
      ∧ (reports (.query sortedUnion) plainContext fun q c => ¬ Referenced (.query q) c) = [] := by
  refine ⟨by decide, by rfl, by decide⟩

end SqlLint.Rules.UnusedCte
