import SqlLint.Rule
import SqlLint.Tree.Collect

/-! # Rules on ambiguous queries -/

namespace SqlLint.Rules

/-! ## DISTINCT in a grouped query -/

namespace DistinctWithGroupBy

def info : RuleInfo where
  code := "LINT_AM_001"
  name := "ambiguous.distinct"
  group := .ambiguous
  description := "DISTINCT is redundant in a query that uses GROUP BY."
  defaultSeverity := .warning
  configKeys := []

def check (s : Statement) (ctx : Context) : List Diagnostic :=
  ((Node.statement s).cores.filter fun core => core.distinct && !core.groupBy.isEmpty).map
    fun core =>
      (ctx.report "DISTINCT is redundant when GROUP BY is present." core.span).markFixable

end DistinctWithGroupBy

/-! ## UNION without a word on duplicates -/

namespace BareUnion

def info : RuleInfo where
  code := "LINT_AM_002"
  name := "ambiguous.union"
  group := .ambiguous
  description := "UNION should specify ALL or DISTINCT."
  defaultSeverity := .warning
  configKeys := []

def message : String :=
  "UNION without ALL or DISTINCT; use UNION ALL to keep duplicates or UNION DISTINCT to make "
    ++ "deduplication explicit."

def check (s : Statement) (ctx : Context) : List Diagnostic :=
  ((Node.statement s).setOperations.filter fun operation =>
    operation.op == .union && operation.quantifier == .implicit).map
    fun operation => ctx.report message operation.span

end BareUnion

/-! ## Sort directions given for some keys only -/

namespace AmbiguousOrderBy

def info : RuleInfo where
  code := "LINT_AM_003"
  name := "ambiguous.order_by"
  group := .ambiguous
  description := "ORDER BY items should either all or none specify a direction."
  defaultSeverity := .warning
  configKeys := []

def message : String :=
  "ORDER BY mixes explicit and implicit sort directions; specify ASC or DESC for every item."

/-- Whether some of the keys have a direction, but not all. -/
def mixesDirections (keys : List OrderBy) : Bool :=
  keys.any (·.ascending.isSome) && keys.any (·.ascending.isNone)

/-- The lists of sort keys: first those of cores, then those of queries. -/
def clauses (root : Node) : List (List OrderBy) :=
  root.cores.map Core.orderBy ++ root.queries.map Query.orderBy

def check (s : Statement) (ctx : Context) : List Diagnostic :=
  ((clauses (.statement s)).filter mixesDirections).map fun keys =>
    ctx.report message (.unions (keys.map (·.expr.span)))

end AmbiguousOrderBy

/-! ## Operands with different numbers of columns -/

namespace ColumnCount

def info : RuleInfo where
  code := "LINT_AM_004"
  name := "ambiguous.column_count"
  group := .ambiguous
  description := "Set operation branches should return the same number of columns."
  defaultSeverity := .error
  configKeys := []

/-- The number of columns of an operand. A star has no known number. -/
def columnCount? : Body → Option Nat
  | .core core => if core.hasStar then none else some core.columns.length
  | .values rows _ => rows.head?.map List.length
  | .setOperation _ | .nested _ => none

/-- Whether a child belongs to the chain of set operations of its parent: an operand does, and so
does the body of a query in parentheses that belongs to it. -/
def chainStep (inChain : Bool) (parent child : Node) : Bool :=
  match parent, child with
  | .body (.setOperation _), .body _ => true
  | .body (.nested _), .query _ | .query _, .body _ => inChain
  | _, _ => false

/-- The set operation of a node that belongs to no larger chain. -/
def chainRoot? : Bool × Node → Option Body
  | (false, .body (.setOperation operation)) => some (.setOperation operation)
  | _ => none

/-- The outermost set operation of every chain, in walk order. -/
def chainRoots (root : Node) : List Body :=
  (root.tree.marked chainStep false).preorder.filterMap chainRoot?

def message (position actual expected : Nat) : String :=
  s!"Set operation branch {position} returns {actual} column(s) but the first branch returns "
    ++ s!"{expected} ({actual} vs {expected})."

/-- The finding for the operand at an index, counted from zero after the first. -/
def checkBranch (ctx : Context) (expected index : Nat) (branch : Body) : Option Diagnostic := do
  let actual ← columnCount? branch
  if actual == expected then none
  else
    return (ctx.report (message (index + 2) actual expected) branch.span).withImpact .critical

/-- Compares every operand of a chain with the first. -/
def checkChain (ctx : Context) (chain : Body) : List Diagnostic :=
  match chain.branches with
  | [] => []
  | first :: rest =>
    match columnCount? first with
    | none => []
    | some expected =>
      rest.zipIdx.filterMap fun (branch, index) => checkBranch ctx expected index branch

def check (s : Statement) (ctx : Context) : List Diagnostic :=
  (chainRoots (.statement s)).flatMap (checkChain ctx)

end ColumnCount

/-! ## JOIN without its kind -/

namespace BareJoin

def info : RuleInfo where
  code := "LINT_AM_005"
  name := "ambiguous.join"
  group := .ambiguous
  description := "Joins should state their type explicitly."
  defaultSeverity := .info
  configKeys := []

def check (s : Statement) (ctx : Context) : List Diagnostic :=
  ((Node.statement s).joins.filter (·.kind == .plain)).map fun join =>
    (ctx.report "Bare JOIN; use INNER JOIN to make the join type explicit." join.span).markFixable

end BareJoin

/-! ## Columns given by position and by name -/

namespace ColumnReferences

def info : RuleInfo where
  code := "LINT_AM_006"
  name := "ambiguous.column_references"
  group := .ambiguous
  description := "GROUP BY and ORDER BY should not mix positional and named references."
  defaultSeverity := .warning
  configKeys := ["group_by_and_order_by_style"]

/-- How columns have to be given in `GROUP BY` and `ORDER BY`. -/
inductive Style where
  /-- As the first of them is given. -/
  | consistent
  /-- By name. -/
  | explicit
  /-- By position. -/
  | implicit
deriving DecidableEq, Repr

def style (ctx : Context) : Style :=
  ctx.choice "group_by_and_order_by_style" .consistent
    [("explicit", .explicit), ("implicit", .implicit)]

/-- A number stands for a position in the select list. -/
def isPositional (e : Expr) : Bool := e.literal?.any (·.kind == .number)

/-- Whether the items have to be positions. -/
def expected (style : Style) (items : List Expr) : Bool :=
  match style with
  | .explicit => false
  | .implicit => true
  | .consistent => items.head?.any isPositional

def message (positional : Bool) : String :=
  if positional then "Positional reference mixed with named references; refer to columns by name."
  else "Named reference mixed with positional references; use one reference style."

def checkItems (ctx : Context) (style : Style) (items : List Expr) : List Diagnostic :=
  (items.filter (isPositional · != expected style items)).map fun item =>
    ctx.report (message (isPositional item)) item.span

def check (s : Statement) (ctx : Context) : List Diagnostic :=
  let root := Node.statement s
  let check := checkItems ctx (style ctx)
  root.cores.flatMap (fun core => check (core.groupBy ++ core.orderBy.map OrderBy.expr))
    ++ root.queries.flatMap fun query => check (query.orderBy.map OrderBy.expr)

end ColumnReferences

/-! ## Joins without a condition -/

namespace JoinCondition

def info : RuleInfo where
  code := "LINT_AM_007"
  name := "ambiguous.join_condition"
  group := .ambiguous
  description := "Joins other than CROSS and NATURAL should have an ON or USING clause."
  defaultSeverity := .warning
  configKeys := []

def needsCondition : JoinKind → Bool
  | .plain | .inner | .left | .right | .full | .semi | .anti => true
  | .cross | .apply | .implicit => false

def lacksCondition (join : Join) : Bool :=
  needsCondition join.kind && !join.natural && join.condition.isNone && join.usingColumns.isEmpty

def check (s : Statement) (ctx : Context) : List Diagnostic :=
  ((Node.statement s).joins.filter lacksCondition).map fun join =>
    ctx.report (join.kind.keyword
      ++ " without ON or USING; add a join condition or write CROSS JOIN.") join.span

end JoinCondition

end SqlLint.Rules
