import SqlLint.Rule
import SqlLint.Text.Capital
import SqlLint.Tree.Collect

/-! # Conditions that are constant

A `WHERE` clause is taken apart at `AND`, `OR` and parentheses; each elementary condition is looked
at alone. -/

namespace SqlLint.Rules.ConstantExpression

def info : RuleInfo where
  code := "LINT_ST_009"
  name := "structure.constant_expression"
  group := .structural
  description := "Avoid constant boolean expressions in predicates."
  defaultSeverity := .warning
  configKeys := []

mutual

/-- The elementary conditions of a predicate in source order. -/
def conditions : Expr → List Expr
  | ⟨kind, span⟩ => kindConditions ⟨kind, span⟩ kind

/-- Goes inside parentheses, `AND` and `OR`, and stays at `whole` otherwise. -/
def kindConditions (whole : Expr) : ExprKind → List Expr
  | .nested inner => conditions inner
  | .binary left .and right | .binary left .or right => conditions left ++ conditions right
  | _ => [whole]

end

/-- A literal as messages show it: a string in quotes, anything else in capitals. -/
def render (l : Literal) : String :=
  match l.kind with
  | .string => s!"'{l.value}'"
  | _ => Text.capitals l.value

/-- Whether a literal alone is a constant condition: a truth value, a one or a zero. -/
def isConstant (l : Literal) : Bool :=
  match l.kind with
  | .boolean => true
  | .number => l.value == "1" || l.value == "0"
  | .string | .null | .other => false

/-- The literal that an elementary condition compares with itself, unless it is `NULL`. -/
def selfEquality? : ExprKind → Option Literal
  | .binary ⟨.literal left, _⟩ .eq ⟨.literal right, _⟩ =>
    if left.kind != .null && left == right then some left else none
  | _ => none

/-- What is wrong with an elementary condition. -/
def complaint? (kind : ExprKind) : Option String :=
  match kind with
  | .literal l =>
    if isConstant l then
      some s!"Constant condition in WHERE clause: {render l} used as a predicate."
    else none
  | kind =>
    (selfEquality? kind).map fun l =>
      s!"Constant condition in WHERE clause: {render l} = {render l} is always true."

def checkPredicate (ctx : Context) (predicate : Expr) : List Diagnostic :=
  (conditions predicate).filterMap fun e => (complaint? e.kind).map (ctx.report · e.span)

def check (s : Statement) (ctx : Context) : List Diagnostic :=
  (Node.statement s).cores.flatMap fun core => core.condition.elim [] (checkPredicate ctx)

end SqlLint.Rules.ConstantExpression
