import SqlLint.Tree.Name

/-! # The tree that rules read

A statement holds at most one query. A query has common table expressions and a body; a body
combines cores, each of them a single `SELECT`. Every expression carries the span of its text.

The `ORDER BY`, `LIMIT` and `OFFSET` of a single `SELECT` belong to its core; a query has its own
only when its body is a compound. -/

namespace SqlLint

/-! ## Operators and keywords -/

inductive LiteralKind where
  | number
  | string
  | boolean
  | null
  | other
deriving DecidableEq, Repr, Inhabited

/-- A literal: its kind and its text without quotes. -/
structure Literal where
  kind : LiteralKind
  value : String
deriving DecidableEq, Repr, Inhabited

def Literal.bool? (l : Literal) : Option Bool :=
  match l.kind with
  | .boolean => some (Text.same l.value "true")
  | _ => none

inductive UnaryOperator where
  | not
  | minus
  | plus
  | other (text : String)
deriving DecidableEq, Repr, Inhabited

inductive BinaryOperator where
  | eq
  | notEq
  | lt
  | ltEq
  | gt
  | gtEq
  | and
  | or
  | plus
  | minus
  | multiply
  | divide
  | modulo
  | concat
  | other (text : String)
deriving DecidableEq, Repr, Inhabited

def BinaryOperator.isComparison : BinaryOperator → Bool
  | .eq | .notEq | .lt | .ltEq | .gt | .gtEq => true
  | _ => false

/-- How a cast is written. -/
inductive CastStyle where
  /-- `CAST(x AS t)` -/
  | cast
  /-- `TRY_CAST(x AS t)` -/
  | tryCast
  /-- `SAFE_CAST(x AS t)` -/
  | safeCast
  /-- `x::t` -/
  | doubleColon
deriving DecidableEq, Repr, Inhabited

inductive SetOperator where
  | union
  | intersect
  | except
deriving DecidableEq, Repr, Inhabited

def SetOperator.keyword : SetOperator → String
  | .union => "UNION"
  | .intersect => "INTERSECT"
  | .except => "EXCEPT"

/-- What a set operation does with duplicates. -/
inductive SetQuantifier where
  /-- Neither `ALL` nor `DISTINCT` is written. -/
  | implicit
  | all
  | distinct
deriving DecidableEq, Repr, Inhabited

inductive JoinKind where
  /-- `JOIN` without a word before it. -/
  | plain
  | inner
  | left
  | right
  | full
  | cross
  | semi
  | anti
  /-- `CROSS APPLY` or `OUTER APPLY`. -/
  | apply
  /-- A comma between two tables. -/
  | implicit
deriving DecidableEq, Repr, Inhabited

def JoinKind.keyword : JoinKind → String
  | .plain => "JOIN"
  | .inner => "INNER JOIN"
  | .left => "LEFT JOIN"
  | .right => "RIGHT JOIN"
  | .full => "FULL JOIN"
  | .cross => "CROSS JOIN"
  | .semi => "SEMI JOIN"
  | .anti => "ANTI JOIN"
  | .apply => "APPLY"
  | .implicit => ","

/-! ## The tree -/

mutual

structure Expr where
  kind : ExprKind
  span : Span

inductive ExprKind where
  | column (ref : ColumnRef)
  | literal (value : Literal)
  | unary (op : UnaryOperator) (expr : Expr)
  | binary (left : Expr) (op : BinaryOperator) (right : Expr)
  | function (call : FunctionCall)
  | caseWhen (case : CaseExpr)
  | cast (expr : Expr) (dataType : String) (style : CastStyle)
  | inList (expr : Expr) (list : List Expr) (negated : Bool)
  | inSubquery (expr : Expr) (subquery : Query) (negated : Bool)
  | between (expr low high : Expr) (negated : Bool)
  | isNull (expr : Expr) (negated : Bool)
  /-- `IS [NOT] TRUE` or `IS [NOT] FALSE`. -/
  | isBool (expr : Expr) (value negated : Bool)
  | like (expr pattern : Expr) (negated ignoresCase : Bool)
  /-- An expression in parentheses. -/
  | nested (expr : Expr)
  | subquery (query : Query)
  | existsIn (subquery : Query) (negated : Bool)
  | index (expr index : Expr)
  | slice (expr : Expr) (lower upper : Option Expr)
  /-- An array or a tuple. -/
  | list (items : List Expr)
  | struct (fields : List StructField)
  | lambda (params : List Ident) (body : Expr)
  /-- A field of a composite value, such as `(rec).name`. -/
  | field (expr : Expr) (name : Ident)
  /-- `*` or `t.*` where an expression stands, such as in `COUNT(*)`. -/
  | star (qualifier : Option ObjectName)
  /-- A form that is kept as text. -/
  | raw (sql : String)

structure FunctionCall where
  name : ObjectName
  args : List Expr
  distinct : Bool
  filter : Option Expr
  window : Option Window

/-- What follows `OVER`: a named window, a window of its own, or both. -/
structure Window where
  name : Option Ident
  partitionBy : List Expr
  orderBy : List OrderBy

structure CaseExpr where
  operand : Option Expr
  branches : List CaseBranch
  otherwise : Option Expr

structure CaseBranch where
  condition : Expr
  result : Expr

structure StructField where
  name : Option Ident
  value : Expr

/-- A sort key. `ascending` and `nullsFirst` are absent when nothing is written. -/
structure OrderBy where
  expr : Expr
  ascending : Option Bool
  nullsFirst : Option Bool

structure Query where
  ctes : List Cte
  recursive : Bool
  body : Body
  orderBy : List OrderBy
  limit : Option Expr
  offset : Option Expr
  span : Span

/-- A common table expression: a query under a name. -/
structure Cte where
  name : Ident
  query : Query
  span : Span

inductive Body where
  | core (core : Core)
  | setOperation (operation : SetOperation)
  /-- A query in parentheses. -/
  | nested (query : Query)
  | values (rows : List (List Expr)) (span : Span)

structure SetOperation where
  op : SetOperator
  quantifier : SetQuantifier
  left : Body
  right : Body
  span : Span

/-- A single `SELECT`. -/
structure Core where
  distinct : Bool
  columns : List SelectItem
  source : Option FromClause
  condition : Option Expr
  groupBy : List Expr
  having : Option Expr
  qualify : Option Expr
  orderBy : List OrderBy
  limit : Option Expr
  offset : Option Expr
  span : Span

/-- An output column of a core. -/
inductive SelectItem where
  | expr (expr : Expr) (label : Option Ident)
  /-- `*` -/
  | wildcard (span : Span)
  /-- `t.*` -/
  | qualifiedWildcard (qualifier : ObjectName) (span : Span)

/-- A table and the tables joined to it. -/
structure FromClause where
  first : TableRef
  joins : List Join

structure Join where
  kind : JoinKind
  natural : Bool
  table : TableRef
  condition : Option Expr
  usingColumns : List Ident
  span : Span

inductive TableRef where
  | named (name : ObjectName) (label : Option Ident) (span : Span)
  | derived (subquery : Query) (label : Option Ident) (span : Span)
  | lateral (subquery : Query) (label : Option Ident) (span : Span)
  /-- A join in parentheses. -/
  | nestedJoin (source : FromClause) (label : Option Ident) (span : Span)

end

inductive Statement where
  | query (query : Query)
  | insert (source : Option Query) (span : Span)
  | createView (name : ObjectName) (query : Query) (span : Span)
  | createTableAs (name : ObjectName) (query : Query) (span : Span)
  /-- A statement without a query to look into. -/
  | other (kind : String) (span : Span)

end SqlLint
