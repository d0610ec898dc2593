import SqlLint.Tree.Access

/-! # Equivalent expressions

Two expressions are equivalent when they have the same form, spans and letter case of unquoted
identifiers aside. Only simple forms are compared; any other form is equivalent to nothing. -/

namespace SqlLint

def ColumnRef.equivalent (a b : ColumnRef) : Bool :=
  a.name.equivalent b.name && ObjectName.equivalent ⟨a.qualifier⟩ ⟨b.qualifier⟩

def starEquivalent : Option ObjectName → Option ObjectName → Bool
  | none, none => true
  | some a, some b => a.equivalent b
  | _, _ => false

mutual

/-- Whether two expressions are the same computation in the same form. -/
def Expr.equivalent : Expr → Expr → Bool
  | ⟨a, _⟩, ⟨b, _⟩ => a.equivalent b
termination_by structural a => a

def ExprKind.equivalent : ExprKind → ExprKind → Bool
  | .column a, .column b => a.equivalent b
  | .literal a, .literal b => a == b
  | .unary op a, .unary op' b => op == op' && a.equivalent b
  | .binary left op right, .binary left' op' right' =>
    op == op' && left.equivalent left' && right.equivalent right'
  | .function f, .function g => f.equivalent g
  | .nested a, .nested b => a.equivalent b
  | .cast a type _, .cast b type' _ => Text.same type type' && a.equivalent b
  | .isNull a negated, .isNull b negated' => negated == negated' && a.equivalent b
  | .list as, .list bs => exprsEquivalent as bs
  | .star q, .star q' => starEquivalent q q'
  | .field a name, .field b name' => name.equivalent name' && a.equivalent b
  | .raw sql, .raw sql' => sql == sql'
  | _, _ => false
termination_by structural a => a

def exprsEquivalent : List Expr → List Expr → Bool
  | [], [] => true
  | a :: as, b :: bs => a.equivalent b && exprsEquivalent as bs
  | _, _ => false
termination_by structural a => a

/-- Calls with a filter or a window are not compared. -/
def FunctionCall.equivalent : FunctionCall → FunctionCall → Bool
  | ⟨name, args, distinct, filter, window⟩, ⟨name', args', distinct', filter', window'⟩ =>
    name.equivalent name' && distinct == distinct' && filter.isNone && filter'.isNone
      && window.isNone && window'.isNone && exprsEquivalent args args'
termination_by structural a => a

end

/-! ## Shapes of CASE -/

/-- For `CASE WHEN x IS NULL THEN y ELSE x END`, the `x` and `y` of `COALESCE(x, y)`. -/
def CaseExpr.coalesce? (c : CaseExpr) : Option (Expr × Expr) :=
  match c.operand, c.branches, c.otherwise with
  | none, [branch], some otherwise =>
    match branch.condition.unnested.kind with
    | .isNull x false => if x.equivalent otherwise then some (x, branch.result) else none
    | _ => none
  | _, _, _ => none

mutual

/-- How many `CASE`s stand directly inside one another, parentheses aside; zero if the expression is
no `CASE`. -/
def Expr.caseDepth : Expr → Nat
  | ⟨kind, _⟩ => kind.caseDepth

def ExprKind.caseDepth : ExprKind → Nat
  | .nested e => e.caseDepth
  | .caseWhen c => c.depth
  | _ => 0

/-- One more than the deepest part. -/
def CaseExpr.depth : CaseExpr → Nat
  | ⟨operand, branches, otherwise⟩ =>
    max (max (optionDepth operand) (branchesDepth branches)) (optionDepth otherwise) + 1

def optionDepth : Option Expr → Nat
  | none => 0
  | some e => e.caseDepth

def branchesDepth : List CaseBranch → Nat
  | [] => 0
  | ⟨condition, result⟩ :: rest =>
    max (max condition.caseDepth result.caseDepth) (branchesDepth rest)

end

end SqlLint
