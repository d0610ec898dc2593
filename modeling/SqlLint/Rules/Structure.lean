import SqlLint.Rule
import SqlLint.Tree.Collect
import SqlLint.Tree.Equivalence

/-! # Rules on the structure of queries -/

namespace SqlLint.Rules

/-! ## Common table expressions that nothing reads -/

namespace UnusedCte

def info : RuleInfo where
  code := "LINT_ST_001"
  name := "structure.unused_cte"
  group := .structural
  description := "CTE defined in WITH clause but never referenced."
  defaultSeverity := .warning
  configKeys := []

def tableNames (root : Node) : List String :=
  (root.tables.filterMap fun t => t.name? >>= ObjectName.base?).map Ident.key

/-- The tables that the body of a query or one of its common table expressions reads. -/
def referencedNames (q : Query) : List String :=
  tableNames (.body q.body) ++ q.ctes.flatMap fun c => tableNames (.query c.query)

def check (s : Statement) (ctx : Context) : List Diagnostic :=
  (Node.statement s).queries.flatMap fun q =>
    let used := referencedNames q
    (q.ctes.filter (!used.contains ·.name.key)).map fun c =>
      ctx.report s!"CTE '{c.name.value}' is defined but never referenced." c.name.span

end UnusedCte

/-! ## ELSE NULL -/

namespace ElseNull

def info : RuleInfo where
  code := "LINT_ST_002"
  name := "structure.else_null"
  group := .structural
  description := "ELSE NULL is redundant in a CASE expression."
  defaultSeverity := .info
  configKeys := []

def check (s : Statement) (ctx : Context) : List Diagnostic :=
  (Node.statement s).cases.filterMap fun c =>
    (c.value.otherwise.filter Expr.isNull).map fun otherwise =>
      (ctx.report "ELSE NULL is redundant; CASE returns NULL when no branch matches."
        otherwise.span).markFixable

end ElseNull

/-! ## CASE inside CASE -/

namespace NestedCase

def info : RuleInfo where
  code := "LINT_ST_003"
  name := "structure.nested_case"
  group := .structural
  description := "CASE expressions should not be nested too deeply."
  defaultSeverity := .warning
  configKeys := ["max_depth"]

/-- The deepest nesting that is accepted unless a limit is given. -/
def defaultMaxDepth : Nat := 3

/-- Whether a child stands directly in a `CASE`, parentheses aside. -/
def caseStep (inCase : Bool) (parent child : Node) : Bool :=
  match parent, child with
  | .expr ⟨.caseWhen _, _⟩, .expr _ => true
  | .expr ⟨.nested _, _⟩, .expr _ => inCase
  | _, _ => false

/-- The `CASE` of a node that stands in no other. -/
def outermost? : Bool × Node → Option (Located CaseExpr)
  | (false, node) => node.case?
  | (true, _) => none

/-- Every `CASE` that does not stand directly in another, in walk order. -/
def outermostCases (root : Node) : List (Located CaseExpr) :=
  (root.tree.marked caseStep false).preorder.filterMap outermost?

def check (s : Statement) (ctx : Context) : List Diagnostic :=
  let max := (ctx.nat? "max_depth").getD defaultMaxDepth
  ((outermostCases (.statement s)).filter (max < ·.value.depth)).map fun c =>
    ctx.report s!"CASE expression is nested {c.value.depth} levels deep (maximum {max})." c.span

end NestedCase

/-! ## USING -/

namespace JoinUsing

def info : RuleInfo where
  code := "LINT_ST_004"
  name := "structure.using"
  group := .structural
  description := "Prefer explicit ON conditions over JOIN ... USING."
  defaultSeverity := .info
  configKeys := []

def message (columns : List Ident) : String :=
  let names := ", ".intercalate (columns.map Ident.value)
  s!"JOIN uses USING ({names}); write the condition with ON instead."

def check (s : Statement) (ctx : Context) : List Diagnostic :=
  ((Node.statement s).joins.filter (!·.usingColumns.isEmpty)).map fun join =>
    ctx.report (message join.usingColumns) join.span

end JoinUsing

/-! ## Subqueries among the tables -/

namespace Subquery

def info : RuleInfo where
  code := "LINT_ST_005"
  name := "structure.subquery"
  group := .structural
  description := "Join/From clauses should not contain subqueries. Use CTEs instead."
  defaultSeverity := .info
  configKeys := ["forbid_subquery_in"]

/-- Where a table stands. A table after a comma stands in `FROM`. -/
inductive Clause where
  | inFrom
  | inJoin
deriving DecidableEq, Repr

def Clause.keyword : Clause → String
  | .inFrom => "FROM"
  | .inJoin => "JOIN"

/-- The clauses in which subqueries are reported. -/
def forbidden (ctx : Context) : List Clause :=
  ctx.choice "forbid_subquery_in" [.inJoin]
    [("from", [.inFrom]), ("both", [.inFrom, .inJoin])]

/-- The tables of a `FROM` clause, each with the place where it stands. -/
def placedTables (f : FromClause) : List (TableRef × Clause) :=
  (f.first, .inFrom) :: f.joins.map fun join =>
    (join.table, if join.kind == .implicit then .inFrom else .inJoin)

def check (s : Statement) (ctx : Context) : List Diagnostic :=
  let forbidden := forbidden ctx
  (Node.statement s).cores.flatMap fun core =>
    ((core.source.elim [] placedTables).filter fun (t, clause) =>
      t.subquery?.isSome && forbidden.contains clause).map fun (t, clause) =>
        ctx.report s!"Subquery in {clause.keyword} clause; move it into a CTE." t.span

end Subquery

/-! ## Computed columns before plain ones -/

namespace ColumnOrder

def info : RuleInfo where
  code := "LINT_ST_006"
  name := "structure.column_order"
  group := .structural
  description := "Select wildcards and simple columns before complex expressions."
  defaultSeverity := .info
  configKeys := []

/-- Whether an output column is a star or a plain column. -/
def isSimple (item : SelectItem) : Bool := item.expr?.all (·.unnested.column?.isSome)

/-- The first plain column after a computed one. -/
def misplaced? (items : List SelectItem) : Option SelectItem :=
  (items.dropWhile isSimple).find? isSimple

/-- Whether a child is an operand of the set operation that its parent is or belongs to. -/
def operandStep (isOperand : Bool) (parent child : Node) : Bool :=
  match parent, child with
  | .body (.setOperation _), .body _ => true
  | .body (.nested _), .query _ | .query _, .body _ | .body (.core _), .core _ => isOperand
  | _, _ => false

/-- The core of a node that is no operand of a set operation. -/
def standAlone? : Bool × Node → Option Core
  | (false, node) => node.core?
  | (true, _) => none

/-- Every core that is no operand of a set operation, in walk order. -/
def standAloneCores (root : Node) : List Core :=
  (root.tree.marked operandStep false).preorder.filterMap standAlone?

def check (s : Statement) (ctx : Context) : List Diagnostic :=
  (standAloneCores (.statement s)).filterMap fun core =>
    (misplaced? core.columns).map fun item =>
      ctx.report "Select wildcards and simple columns before complex expressions." item.span

end ColumnOrder

/-! ## DISTINCT with parentheses -/

namespace DistinctParentheses

def info : RuleInfo where
  code := "LINT_ST_007"
  name := "structure.distinct"
  group := .structural
  description := "DISTINCT used with parentheses."
  defaultSeverity := .info
  configKeys := []

def message : String :=
  "DISTINCT is not a function; remove the parentheses around the first column."

/-- The first output column of a `SELECT DISTINCT`, if it stands in parentheses. -/
def parenthesized? (core : Core) : Option Expr :=
  if core.distinct then
    match core.columns.head? >>= SelectItem.expr? with
    | some ⟨.nested inner, span⟩ => some ⟨.nested inner, span⟩
    | _ => none
  else none

def check (s : Statement) (ctx : Context) : List Diagnostic :=
  ((Node.statement s).cores.filterMap parenthesized?).map fun e =>
    (ctx.report message e.span).markFixable

end DistinctParentheses

end SqlLint.Rules
