import SqlLint.Tree.Basic

/-! # The tree of the SQL parser

What the parser makes of a text, as far as it is read here. A form that is not taken apart is kept
as its text. Identifiers and cast styles are those of the rules' tree. -/

namespace SqlLint.Parsed

/-! ## Words and leaves -/

/-- A part of a name. -/
inductive NamePart where
  | ident (ident : Ident)
  /-- A part that is no identifier, as text. -/
  | other (text : String)
deriving DecidableEq, Repr

/-- A name with its qualifying parts. -/
abbrev Name := List NamePart

inductive Value where
  | number (digits : String)
  /-- A string in single quotes, without them. -/
  | quoted (text : String)
  | boolean (value : Bool)
  | null
  | other (text : String)
deriving DecidableEq, Repr

inductive UnarySymbol where
  | not
  | minus
  | plus
  | other
deriving DecidableEq, Repr

structure UnaryOp where
  symbol : UnarySymbol
  text : String
deriving DecidableEq, Repr

inductive BinarySymbol where
  | eq
  | notEq
  | lt
  | ltEq
  | gt
  | gtEq
  | and
  | or
  | plus
  | minus
  | multiply
  | divide
  | modulo
  | stringConcat
  | other
deriving DecidableEq, Repr

structure BinaryOp where
  symbol : BinarySymbol
  text : String
deriving DecidableEq, Repr

/-- What `IS` tests for. -/
inductive Test where
  | null
  | true
  | false
  | unknown
deriving DecidableEq, Repr

/-- How a pattern is matched. -/
inductive Match where
  | like
  | ilike
  | similarTo
  | rlike
  | regexp
deriving DecidableEq, Repr

/-- Which elements a comparison with a set asks for. -/
inductive Quantifier where
  | any
  | some
  | all
deriving DecidableEq, Repr

/-- Where a number is rounded to. -/
inductive Rounding where
  | ceil
  | floor
deriving DecidableEq, Repr

inductive Grouping where
  | sets
  | cube
  | rollup
deriving DecidableEq, Repr

inductive DuplicateTreatment where
  | distinct
  | all
deriving DecidableEq, Repr

inductive SetOp where
  | union
  | except
  | intersect
  | minus
deriving DecidableEq, Repr

inductive SetOpQuantifier where
  | none
  | all
  | distinct
  | byName
  | allByName
  | distinctByName
deriving DecidableEq, Repr

inductive JoinOp where
  | join
  | inner
  | straight
  | left
  | leftOuter
  | right
  | rightOuter
  | fullOuter
  | cross
  | semi
  | leftSemi
  | rightSemi
  | anti
  | leftAnti
  | rightAnti
  | asOf
  | crossApply
  | outerApply
deriving DecidableEq, Repr

/-- What follows `SELECT` about duplicates. -/
inductive Distinct where
  | distinct
  | on
deriving DecidableEq, Repr

/-- The kinds of tables that are kept as text. -/
inductive TableForm where
  | tableFunction
  | function
  | unnest
  | jsonTable
  | openJsonTable
  | pivot
  | unpivot
  | matchRecognize
  | xmlTable
  | semanticView
  | other
deriving DecidableEq, Repr

/-! ## The tree -/

mutual

structure Expr where
  form : Form
  span : Span

inductive Form where
  | identifier (ident : Ident)
  | compoundIdentifier (parts : List Ident)
  | value (value : Value)
  | unary (op : UnaryOp) (expr : Expr)
  | binary (left : Expr) (op : BinaryOp) (right : Expr)
  | isDistinctFrom (negated : Bool) (left right : Expr)
  | is (test : Test) (negated : Bool) (expr : Expr)
  | function (call : Function)
  | caseWhen (operand : Option Expr) (conditions : List When) (otherwise : Option Expr)
  | cast (style : CastStyle) (expr : Expr) (dataType : String)
  | inList (expr : Expr) (list : List Expr) (negated : Bool)
  | inSubquery (expr : Expr) (subquery : Query) (negated : Bool)
  | inUnnest (expr array : Expr) (negated : Bool)
  | between (expr low high : Expr) (negated : Bool)
  | matching (kind : Match) (negated : Bool) (expr pattern : Expr)
  | nested (expr : Expr)
  | subquery (query : Query)
  | existsIn (subquery : Query) (negated : Bool)
  /-- Indices, slices and fields taken of a value one after the other. -/
  | access (root : Expr) (chain : List Access)
  | tuple (items : List Expr)
  | array (items : List Expr)
  | struct (values : List Expr)
  /-- A value with a name, as in a struct. -/
  | named (expr : Expr) (name : Ident)
  | lambda (params : List Ident) (body : Expr)
  | quantified (left : Expr) (op : BinaryOp) (quantifier : Quantifier) (right : Expr)
  | atTimeZone (timestamp zone : Expr)
  /-- The mark `(+)` of an outer join. -/
  | outerJoin (expr : Expr)
  | prior (expr : Expr)
  | extract (expr : Expr)
  | collate (expr : Expr)
  | interval (value : Expr)
  | round (rounding : Rounding) (expr : Expr) (scale : Option Value)
  | position (expr within : Expr)
  | substring (expr : Expr) (start length : Option Expr)
  | trim (expr : Expr) (what : Option Expr) (characters : List Expr)
  | overlay (expr what start : Expr) (length : Option Expr)
  | convert (isTry : Bool) (expr : Expr) (styles : List Expr)
  | grouping (grouping : Grouping) (sets : List (List Expr))
  | jsonAccess (value : Expr) (path : String)
  | wildcard
  | qualifiedWildcard (name : Name)
  | other (text : String)

inductive Access where
  | index (index : Expr)
  | slice (lower upper : Option Expr)
  | field (name : Ident)
  /-- A field given by something else than an identifier, as text. -/
  | fieldText (text : String)

structure When where
  condition : Expr
  result : Expr

structure Function where
  name : Name
  args : Arguments
  filter : Option Expr
  window : Option Over

inductive Arguments where
  | none
  | subquery (query : Query)
  | list (duplicates : Option DuplicateTreatment) (args : List Argument)

inductive Argument where
  | expr (expr : Expr)
  | qualifiedWildcard (name : Name)
  | wildcard

inductive Over where
  | window (name : Option Ident) (partitionBy : List Expr) (orderBy : List SortKey)
  | named (name : Ident)

structure SortKey where
  expr : Expr
  ascending : Option Bool
  nullsFirst : Option Bool

structure Query where
  recursive : Bool
  ctes : List Cte
  body : SetExpr
  orderBy : SortClause
  limit : LimitClause
  span : Span

structure Cte where
  name : Ident
  query : Query
  span : Span

inductive SortClause where
  | keys (keys : List SortKey)
  /-- `ORDER BY ALL` -/
  | all

inductive LimitClause where
  | none
  | limitOffset (limit offset : Option Expr)
  /-- `LIMIT offset, limit` -/
  | offsetCommaLimit (offset limit : Expr)

inductive SetExpr where
  | select (select : Select)
  | query (query : Query)
  | setOperation (op : SetOp) (quantifier : SetOpQuantifier) (left right : SetExpr) (span : Span)
  | values (rows : List (List Expr)) (span : Span)
  /-- Anything else that yields rows. -/
  | other (span : Span)

structure Select where
  distinct : Option Distinct
  projection : List Projection
  source : List TableWithJoins
  selection : Option Expr
  groupBy : GroupClause
  having : Option Expr
  qualify : Option Expr
  span : Span

inductive GroupClause where
  | exprs (exprs : List Expr)
  /-- `GROUP BY ALL` -/
  | all

inductive Projection where
  | unnamed (expr : Expr)
  | aliased (expr : Expr) (label : Ident)
  | qualifiedWildcard (name : Name) (span : Span)
  /-- A star on an expression, which is kept as text. -/
  | exprWildcard (text : String) (span : Span)
  | wildcard (span : Span)

structure TableWithJoins where
  relation : Table
  joins : List Join

structure Join where
  op : JoinOp
  relation : Table
  constraint : Constraint
  span : Span

inductive Constraint where
  | on (expr : Expr)
  /-- The columns of `USING`, each with its text. -/
  | columns (columns : List (Name × String))
  | natural
  | none

inductive Table where
  | named (name : Name) (label : Option Ident) (span : Span)
  | derived (lateral : Bool) (subquery : Query) (label : Option Ident) (span : Span)
  | nestedJoin (tables : TableWithJoins) (label : Option Ident) (span : Span)
  /-- A table kept as text, its alias included. -/
  | rendered (form : TableForm) (text : String) (label : Option Ident) (span : Span)

end

def Table.span : Table → Span
  | .named _ _ span | .derived _ _ _ span | .nestedJoin _ _ span | .rendered _ _ _ span => span

inductive Statement where
  | query (query : Query)
  | insert (source : Option Query) (span : Span)
  | createView (name : Name) (query : Query) (span : Span)
  | createTable (name : Name) (query : Option Query) (span : Span)
  /-- A statement kept as text. -/
  | other (text : String) (span : Span)

end SqlLint.Parsed
