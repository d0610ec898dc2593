import SqlLint.Tree.Basic

/-! # Parts of the tree

Spans, names, aliases and the other parts that rules ask a node for. -/

namespace SqlLint

/-! ## Statements and queries -/

namespace Statement

def query? : Statement → Option Query
  | .query q => some q
  | .insert source _ => source
  | .createView _ q _ | .createTableAs _ q _ => some q
  | .other _ _ => none

def span : Statement → Span
  | .query q => q.span
  | .insert _ span | .createView _ _ span | .createTableAs _ _ span | .other _ span => span

end Statement

/-- The query that consists of a core alone. -/
def Query.ofCore (core : Core) : Query where
  ctes := []
  recursive := false
  body := .core core
  orderBy := []
  limit := none
  offset := none
  span := core.span

namespace Body

def span : Body → Span
  | .core c => c.span
  | .setOperation operation => operation.span
  | .nested query => query.span
  | .values _ span => span

def core? : Body → Option Core
  | .core c => some c
  | _ => none

def setOperation? : Body → Option SetOperation
  | .setOperation operation => some operation
  | _ => none

end Body

/-! ## Select items -/

namespace SelectItem

def isStar : SelectItem → Bool
  | .expr _ _ => false
  | .wildcard _ | .qualifiedWildcard _ _ => true

def expr? : SelectItem → Option Expr
  | .expr e _ => some e
  | .wildcard _ | .qualifiedWildcard _ _ => none

def alias? : SelectItem → Option Ident
  | .expr _ label => label
  | .wildcard _ | .qualifiedWildcard _ _ => none

/-- The span of the item, its alias included. -/
def span : SelectItem → Span
  | .expr e none => e.span
  | .expr e (some label) => e.span.union label.span
  | .wildcard span | .qualifiedWildcard _ span => span

end SelectItem

/-! ## Tables -/

namespace TableRef

def alias? : TableRef → Option Ident
  | .named _ label _ | .derived _ label _ | .lateral _ label _ | .nestedJoin _ label _ => label

def name? : TableRef → Option ObjectName
  | .named name _ _ => some name
  | _ => none

/-- The name by which other clauses refer to the table: its alias, else its own last part. -/
def referenceName? (t : TableRef) : Option Ident := t.alias? <|> (t.name? >>= ObjectName.base?)

def subquery? : TableRef → Option Query
  | .named _ _ _ | .nestedJoin _ _ _ => none
  | .derived q _ _ | .lateral q _ _ => some q

def span : TableRef → Span
  | .named _ _ span | .derived _ _ span | .lateral _ _ span | .nestedJoin _ _ span => span

end TableRef

/-- The span around the first table and the joins. -/
def FromClause.span (f : FromClause) : Span :=
  f.joins.foldl (fun span join => span.union join.span) f.first.span

mutual

/-- The table, then the tables inside it if it is a join in parentheses. -/
def TableRef.tables : TableRef → List TableRef
  | .nestedJoin source label span => .nestedJoin source label span :: source.tables
  | .named name label span => [.named name label span]
  | .derived query label span => [.derived query label span]
  | .lateral query label span => [.lateral query label span]

/-- The tables of a `FROM` clause in source order. -/
def FromClause.tables : FromClause → List TableRef
  | ⟨first, joins⟩ => first.tables ++ joinedTables joins

def joinedTables : List Join → List TableRef
  | [] => []
  | ⟨_, _, table, _, _, _⟩ :: rest => table.tables ++ joinedTables rest

end

namespace Core

/-- Every table of the core in source order, those in parentheses included. -/
def tables (c : Core) : List TableRef := c.source.elim [] FromClause.tables

/-- The joins of the core, those in parentheses not included. -/
def joins (c : Core) : List Join := c.source.elim [] FromClause.joins

/-- Whether some output column is a star. -/
def hasStar (c : Core) : Bool := c.columns.any SelectItem.isStar

end Core

/-! ## Expressions -/

namespace Expr

mutual

/-- The expression inside any number of parentheses. -/
def unnested : Expr → Expr
  | ⟨kind, span⟩ => unnestedKind ⟨kind, span⟩ kind

/-- Goes inside if the form is a parenthesis, and stays at `outer` otherwise. -/
def unnestedKind (outer : Expr) : ExprKind → Expr
  | .nested inner => unnested inner
  | _ => outer

end

def column? (e : Expr) : Option ColumnRef :=
  match e.kind with
  | .column ref => some ref
  | _ => none

def literal? (e : Expr) : Option Literal :=
  match e.kind with
  | .literal value => some value
  | _ => none

def isNullLiteral (e : Expr) : Bool := e.literal?.any (·.kind == .null)

/-- Whether the expression is the literal `NULL`, perhaps in parentheses. -/
def isNull (e : Expr) : Bool := e.unnested.isNullLiteral

end Expr

/-- Whether the last part of the function's name is the given one, ignoring letter case. -/
def FunctionCall.isNamed (f : FunctionCall) (name : String) : Bool :=
  f.name.base?.any (·.spells name)

end SqlLint
