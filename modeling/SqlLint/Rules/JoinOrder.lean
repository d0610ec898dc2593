import SqlLint.Rule
import SqlLint.Tree.Collect

/-! # The order of the sides of a join condition

An equality between a column of the table being joined and a column of a table joined before should
name the earlier table first, or the later one if that is preferred. -/

namespace SqlLint.Rules.JoinConditionOrder

def info : RuleInfo where
  code := "LINT_ST_008"
  name := "structure.join_condition_order"
  group := .structural
  description := "Join conditions should reference the earlier table first."
  defaultSeverity := .info
  configKeys := ["preferred_first_table_in_join_clause"]

/-- The table that should come first. -/
inductive Preference where
  | earlier
  | later
deriving DecidableEq, Repr

def Preference.word : Preference → String
  | .earlier => "earlier"
  | .later => "later"

def preference (ctx : Context) : Preference :=
  ctx.choice "preferred_first_table_in_join_clause" .earlier [("later", .later)]

/-! ## Lists of joins -/

mutual

/-- Every list of joins in a `FROM` clause. A list in parentheses comes before the list that holds
it. -/
def joinLists : FromClause → List FromClause
  | ⟨first, joins⟩ => tableJoinLists first ++ joinedJoinLists joins ++ [⟨first, joins⟩]

def tableJoinLists : TableRef → List FromClause
  | .nestedJoin source _ _ => joinLists source
  | .named _ _ _ | .derived _ _ _ | .lateral _ _ _ => []

def joinedJoinLists : List Join → List FromClause
  | [] => []
  | ⟨_, _, table, _, _, _⟩ :: rest => tableJoinLists table ++ joinedJoinLists rest

end

/-! ## Conditions -/

mutual

/-- The equalities that a condition demands, looking through `AND` and parentheses. -/
def equalities : Expr → List (Located BinaryExpr)
  | ⟨kind, span⟩ => kindEqualities span kind

def kindEqualities (span : Span) : ExprKind → List (Located BinaryExpr)
  | .nested inner => equalities inner
  | .binary left .and right => equalities left ++ equalities right
  | .binary left .eq right => [⟨⟨left, .eq, right⟩, span⟩]
  | _ => []

end

/-- The side of a join that a column belongs to. -/
inductive Side where
  /-- A table joined before. -/
  | known
  /-- The table being joined. -/
  | joined
deriving DecidableEq, Repr

/-- The side that the qualifier of a column names. -/
def side? (known : List String) (joined : String) (c : ColumnRef) : Option Side := do
  let key := (← c.table?).key
  if key == joined then return .joined
  else if known.contains key then return .known
  else none

/-- The sides of an equality whose order is wrong. -/
def reversed : Preference → Side × Side
  | .earlier => (.joined, .known)
  | .later => (.known, .joined)

def message (preferred : Preference) (left right : ColumnRef) : String :=
  s!"Join condition '{left.text} = {right.text}' should list the {preferred.word} table first: "
    ++ s!"'{right.text} = {left.text}'."

def checkEquality (ctx : Context) (preferred : Preference) (known : List String) (joined : String)
    (equality : Located BinaryExpr) : Option Diagnostic := do
  let left ← equality.value.left.unnested.column?
  let right ← equality.value.right.unnested.column?
  let sides := (← side? known joined left, ← side? known joined right)
  if sides == reversed preferred then
    return ctx.report (message preferred left right) equality.span
  else none

/-- The findings for one join, given the names of the tables before it. A table of a known name is
not checked. -/
def checkJoin (ctx : Context) (preferred : Preference) (known : List String) (join : Join) :
    List Diagnostic :=
  match join.table.referenceName?, join.condition with
  | some name, some condition =>
    if known.contains name.key then []
    else (equalities condition).filterMap (checkEquality ctx preferred known name.key)
  | _, _ => []

/-- The findings for a list of joins, given the names of the tables before it. -/
def checkJoins (ctx : Context) (preferred : Preference) (known : List String) :
    List Join → List Diagnostic
  | [] => []
  | join :: rest =>
    checkJoin ctx preferred known join
      ++ checkJoins ctx preferred (known ++ (join.table.referenceName?.map Ident.key).toList) rest

/-- The findings for a list of joins after its first table. -/
def checkList (ctx : Context) (preferred : Preference) (f : FromClause) : List Diagnostic :=
  checkJoins ctx preferred (f.first.referenceName?.map Ident.key).toList f.joins

def check (s : Statement) (ctx : Context) : List Diagnostic :=
  (Node.statement s).cores.flatMap fun core =>
    (core.source.elim [] joinLists).flatMap (checkList ctx (preference ctx))

end SqlLint.Rules.JoinConditionOrder
