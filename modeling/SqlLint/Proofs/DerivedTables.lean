import SqlLint.Proofs.Tables
import SqlLint.Rules.Structure

/-! # Derived tables

The tables of a statement stand directly in a `FROM` clause or in parentheses there. Main statement:
`policies_exact`, which derived tables are reported with each choice of clauses. -/

namespace SqlLint

/-! ## Tables in parentheses -/

/-- The tables inside a join in parentheses. -/
def TableRef.enclosed : TableRef → List TableRef
  | .nestedJoin source _ _ => source.tables
  | .named _ _ _ | .derived _ _ _ | .lateral _ _ _ => []

theorem TableRef.tables_eq (t : TableRef) : t.tables = t :: t.enclosed := by
  cases t <;> rw [tables] <;> rfl

theorem joinedTables_eq (js : List Join) : joinedTables js = js.flatMap (·.table.tables) := by
  induction js with
  | nil => rfl
  | cons join rest ih =>
    obtain ⟨kind, natural, table, condition, usingColumns, span⟩ := join
    rw [joinedTables, List.flatMap_cons, ih]

namespace Rules.Subquery

theorem tables_eq_direct (f : FromClause) :
    f.tables = (placedTables f).flatMap fun x => x.1 :: x.1.enclosed := by
  obtain ⟨first, joins⟩ := f
  rw [FromClause.tables, joinedTables_eq, placedTables, List.flatMap_cons, List.flatMap_map]
  simp only [TableRef.tables_eq]

/-- The tables that stand directly in a `FROM` clause of the statement. -/
def direct (s : Statement) : List (TableRef × Clause) :=
  (Node.statement s).cores.flatMap fun core => core.source.elim [] placedTables

/-- The tables of the statement that stand in parentheses, at any depth. -/
def enclosed (s : Statement) : List TableRef := (direct s).flatMap (·.1.enclosed)

theorem perm_tables (s : Statement) :
    (Node.statement s).tables.Perm ((direct s).map Prod.fst ++ enclosed s) := by
  have hcores : (Node.statement s).cores.flatMap Core.tables
      = (direct s).flatMap fun x => x.1 :: x.1.enclosed := by
    rw [direct, List.flatMap_assoc]
    refine List.flatMap_congr fun core _ => ?_
    rw [Core.tables]
    cases core.source with
    | none => rfl
    | some f => exact tables_eq_direct f
  have hsplit := List.map_append_flatMap_perm (direct s) Prod.fst (·.1.enclosed)
  exact (hcores ▸ Node.perm_coreTables s).trans hsplit.symm

/-! ## The choice of clauses -/

/-- The value of the option, in lower case. -/
def policy? (ctx : Context) : Option String := (ctx.string? "forbid_subquery_in").map Text.lower

theorem forbidden_eq (ctx : Context) :
    forbidden ctx = (policy? ctx >>= fun policy =>
      [("from", [Clause.inFrom]), ("both", [.inFrom, .inJoin])].lookup policy).getD [.inJoin] := by
  rw [forbidden, Context.choice, policy?]
  cases ctx.string? "forbid_subquery_in" <;> rfl

/-- Whether a table is a subquery, lateral or not. -/
def isDerived (x : TableRef × Clause) : Bool := x.1.subquery?.isSome

def finding (ctx : Context) (x : TableRef × Clause) : Diagnostic :=
  ctx.report s!"Subquery in {x.2.keyword} clause; move it into a CTE." x.1.span

theorem check_eq (s : Statement) (ctx : Context) :
    check s ctx = (((direct s).filter isDerived).filter
      fun x => (forbidden ctx).contains x.2).map (finding ctx) := by
  rw [List.filter_filter, List.filter_congr fun x _ => Bool.and_comm _ (isDerived x), direct,
    List.filter_flatMap, List.map_flatMap]
  rfl

theorem keyword_injective : Function.Injective Clause.keyword := by
  intro c c' h
  cases c <;> cases c' <;> first | rfl | exact absurd h (by decide)

theorem clause_eq_of_finding {ctx : Context} {x y : TableRef × Clause}
    (h : finding ctx x = finding ctx y) : x.2 = y.2 := by
  have hmessage := congrArg Diagnostic.message h
  rw [finding, finding, Context.message_report, Context.message_report] at hmessage
  exact keyword_injective (by simpa [toString] using hmessage)

def findingsIn (clause : Clause) (s : Statement) (ctx : Context) : List Diagnostic :=
  (((direct s).filter isDerived).filter (·.2 == clause)).map (finding ctx)

section

variable {s : Statement} {ctx : Context}

theorem check_clause {clause : Clause} (h : forbidden ctx = [clause]) :
    check s ctx = findingsIn clause s ctx := by
  rw [check_eq, h, findingsIn]
  refine congrArg _ (List.filter_congr fun x _ => ?_)
  rw [List.contains_cons, List.contains_nil, Bool.or_false]

theorem check_both (h : forbidden ctx = [.inFrom, .inJoin]) :
    check s ctx = ((direct s).filter isDerived).map (finding ctx) := by
  rw [check_eq, h]
  refine congrArg _ (List.filter_eq_self.2 fun x _ => ?_)
  cases x.2 <;> rfl

end

theorem perm_findingsIn (s : Statement) (ctx : Context) :
    (findingsIn .inFrom s ctx ++ findingsIn .inJoin s ctx).Perm
      (((direct s).filter isDerived).map (finding ctx)) := by
  have hother : ∀ x : TableRef × Clause, (x.2 == Clause.inJoin) = !(x.2 == Clause.inFrom) := by
    intro x
    cases x.2 <;> rfl
  rw [findingsIn, findingsIn, ← List.map_append]
  simp only [hother]
  exact (List.filter_append_perm _ _).map _

theorem disjoint_findingsIn (s : Statement) (ctx : Context) :
    (findingsIn .inFrom s ctx).Disjoint (findingsIn .inJoin s ctx) := by
  intro d hfrom hjoin
  obtain ⟨x, hx, rfl⟩ := List.mem_map.1 hfrom
  obtain ⟨y, hy, hxy⟩ := List.mem_map.1 hjoin
  have hclause := clause_eq_of_finding hxy
  rw [eq_of_beq (List.mem_filter.1 hx).2, eq_of_beq (List.mem_filter.1 hy).2] at hclause
  cases hclause

theorem length_derived (s : Statement) :
    ((Node.statement s).tables.filter (·.subquery?.isSome)).length
      = ((direct s).filter isDerived).length
        + ((enclosed s).filter (·.subquery?.isSome)).length := by
  rw [((perm_tables s).filter _).length_eq, List.filter_append, List.length_append,
    List.filter_map, List.length_map]
  rfl

/-- With `both`, each derived table that stands directly in a clause is reported once. -/
theorem policies_exact (s : Statement) (ctx : Context)
    (fromOptions joinOptions : Option (List (String × Json)))
    (hboth : policy? ctx = some "both")
    (hfrom : policy? { ctx with options := fromOptions } = some "from")
    (hjoin : policy? { ctx with options := joinOptions } = some "join") :
    let found := check s ctx
    let foundFrom := check s { ctx with options := fromOptions }
    let foundJoin := check s { ctx with options := joinOptions }
    let tables := (Node.statement s).tables
    tables.Perm ((direct s).map Prod.fst ++ enclosed s)
    ∧ found = ((direct s).filter isDerived).map (finding ctx)
    ∧ (found.length = (tables.filter (·.subquery?.isSome)).length
      ↔ ∀ t ∈ enclosed s, t.subquery? = none)
    ∧ (foundFrom ++ foundJoin).Perm found
    ∧ foundFrom.Disjoint foundJoin := by
  intro found foundFrom foundJoin tables
  have hfound : found = _ := check_both (by rw [forbidden_eq, hboth]; rfl)
  have hfoundFrom : foundFrom = findingsIn .inFrom s ctx :=
    check_clause (by rw [forbidden_eq, hfrom]; rfl)
  have hfoundJoin : foundJoin = findingsIn .inJoin s ctx :=
    check_clause (by rw [forbidden_eq, hjoin]; rfl)
  refine ⟨perm_tables s, hfound, ?_, ?_, ?_⟩
  · rw [hfound, List.length_map, length_derived, Nat.left_eq_add, List.length_eq_zero_iff,
      List.filter_eq_nil_iff]
    simp only [Option.not_isSome_iff_eq_none]
  · rw [hfound, hfoundFrom, hfoundJoin]
    exact perm_findingsIn s ctx
  · rw [hfoundFrom, hfoundJoin]
    exact disjoint_findingsIn s ctx

/-! ## With and without parentheses -/

/-- The options that choose clauses by a word. -/
def choosing (word : String) : Option (List (String × Json)) :=
  some [("forbid_subquery_in", .string word)]

def bothContext : Context := ⟨info, .generic, info.defaultSeverity, choosing "both"⟩

/-- `(SELECT y FROM source) AS name` -/
def derivedTable (source name : String) : TableRef :=
  .derived (.ofCore (selectingFrom "y" ⟨bareTable source, []⟩)) (some { value := name }) .empty

/-- `CROSS JOIN table` -/
def crossJoin (table : TableRef) : Join := ⟨.cross, false, table, none, [], .empty⟩

/-- `SELECT x FROM (SELECT y FROM a) AS s CROSS JOIN (SELECT y FROM b) AS t` -/
def twoDerived : Statement :=
  .query (.ofCore (selectingFrom "x" ⟨derivedTable "a" "s", [crossJoin (derivedTable "b" "t")]⟩))

theorem policies_exact_twoDerived :
    (policy? bothContext = some "both"
      ∧ policy? { bothContext with options := choosing "FROM" } = some "from"
      ∧ policy? { bothContext with options := choosing "join" } = some "join")
    ∧ (check twoDerived bothContext).length = 2
    ∧ (check twoDerived { bothContext with options := choosing "FROM" }
      ++ check twoDerived { bothContext with options := choosing "join" }).Perm
        (check twoDerived bothContext) := by
  have hpolicies : policy? bothContext = some "both"
      ∧ policy? { bothContext with options := choosing "FROM" } = some "from"
      ∧ policy? { bothContext with options := choosing "join" } = some "join" := by decide
  obtain ⟨-, hfound, -, hperm, -⟩ := policies_exact twoDerived bothContext (choosing "FROM")
    (choosing "join") hpolicies.1 hpolicies.2.1 hpolicies.2.2
  refine ⟨hpolicies, ?_, hperm⟩
  rw [hfound]
  decide

/-- `SELECT x FROM a CROSS JOIN (b CROSS JOIN (SELECT y FROM c) AS s)` -/
def enclosedDerived : Statement :=
  let joined : FromClause := ⟨bareTable "b", [crossJoin (derivedTable "c" "s")]⟩
  .query (.ofCore (selectingFrom "x" ⟨bareTable "a", [crossJoin (.nestedJoin joined none .empty)]⟩))

/-- The derived table in parentheses is a table of the statement and is not reported. -/
theorem check_enclosedDerived :
    policy? bothContext = some "both"
      ∧ (Node.statement enclosedDerived).tables.filter (·.subquery?.isSome)
        = [derivedTable "c" "s"]
      ∧ check enclosedDerived bothContext = [] := by
  exact ⟨by decide, rfl, by decide⟩

end Rules.Subquery
end SqlLint
