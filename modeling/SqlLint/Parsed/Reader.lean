import SqlLint.Json.Member
import SqlLint.Parsed.Basic

/-! # Reading the parser's tree

The parser is a program of its own and writes its tree as JSON: each node is an object whose member
`t` names its form and whose member `s` is its span. A reader of nodes takes the readers of what
stands below it, so that a tree is read to the depth of its JSON and no further. -/

namespace SqlLint

/-- Four numbers: line and column of the start, then those of the end. No span is the empty one. -/
def Span.ofJson? : Json → Option Span
  | .array [a, b, c, d] => do return ⟨⟨← a.nat?, ← b.nat?⟩, ⟨← c.nat?, ← d.nat?⟩⟩
  | .null => some .empty
  | _ => none

def CastStyle.named : List (String × CastStyle) :=
  [("Cast", .cast), ("TryCast", .tryCast), ("SafeCast", .safeCast), ("DoubleColon", .doubleColon)]

namespace Parsed.Reader

/-! ## Words and leaves -/

def tag? (j : Json) : Option String := j.text? "t"

def span? (j : Json) : Option Span := Span.ofJson? (j.member "s")

/-- An identifier is quoted if its quotation mark is given. -/
def ident? (j : Json) : Option Ident := do return ⟨← j.text? "v", j.hasMember "q", ← span? j⟩

def namePart? (j : Json) : Option NamePart :=
  if j.hasMember "text" then (j.text? "text").map .other else (ident? j).map .ident

def name? : Json → Option Name
  | .array parts => parts.mapM namePart?
  | .null => some []
  | j => do return [.other (← j.text? "text")]

def value? (j : Json) : Option Value := do
  let text ← j.text? "text"
  match ← j.text? "variant" with
  | "Number" => return .number text
  | "SingleQuotedString" => return .quoted text
  | "Boolean" => return .boolean (text == "true")
  | "Null" => return .null
  | _ => return .other text

def unarySymbols : List (String × UnarySymbol) :=
  [("Not", .not), ("Minus", .minus), ("Plus", .plus)]

def binarySymbols : List (String × BinarySymbol) :=
  [("Eq", .eq), ("NotEq", .notEq), ("Lt", .lt), ("LtEq", .ltEq), ("Gt", .gt), ("GtEq", .gtEq),
    ("And", .and), ("Or", .or), ("Plus", .plus), ("Minus", .minus), ("Multiply", .multiply),
    ("Divide", .divide), ("Modulo", .modulo), ("StringConcat", .stringConcat)]

def unaryOp? (j : Json) : Option UnaryOp := do
  return ⟨(unarySymbols.lookup (← j.text? "variant")).getD .other, ← j.text? "text"⟩

def binaryOp? (j : Json) : Option BinaryOp := do
  return ⟨(binarySymbols.lookup (← j.text? "variant")).getD .other, ← j.text? "text"⟩

def joinOps : List (String × JoinOp) :=
  [("Join", .join), ("Inner", .inner), ("StraightJoin", .straight), ("Left", .left),
    ("LeftOuter", .leftOuter), ("Right", .right), ("RightOuter", .rightOuter),
    ("FullOuter", .fullOuter), ("CrossJoin", .cross), ("Semi", .semi), ("LeftSemi", .leftSemi),
    ("RightSemi", .rightSemi), ("Anti", .anti), ("LeftAnti", .leftAnti),
    ("RightAnti", .rightAnti), ("AsOf", .asOf), ("CrossApply", .crossApply),
    ("OuterApply", .outerApply)]

def setOps : List (String × SetOp) :=
  [("Union", .union), ("Except", .except), ("Intersect", .intersect), ("Minus", .minus)]

def setOpQuantifiers : List (String × SetOpQuantifier) :=
  [("None", .none), ("All", .all), ("Distinct", .distinct), ("ByName", .byName),
    ("AllByName", .allByName), ("DistinctByName", .distinctByName)]

def tableForms : List (String × TableForm) :=
  [("TableFunction", .tableFunction), ("Function", .function), ("UNNEST", .unnest),
    ("JsonTable", .jsonTable), ("OpenJsonTable", .openJsonTable), ("Pivot", .pivot),
    ("Unpivot", .unpivot), ("MatchRecognize", .matchRecognize), ("XmlTable", .xmlTable),
    ("SemanticView", .semanticView)]

def duplicateTreatments : List (String × DuplicateTreatment) :=
  [("Distinct", .distinct), ("All", .all)]

def distincts : List (String × Distinct) := [("Distinct", .distinct), ("On", .on)]

/-- What `IS` tests for, and whether it is denied. -/
def tests : List (String × Test × Bool) :=
  [("IsNull", .null, false), ("IsNotNull", .null, true), ("IsTrue", .true, false),
    ("IsNotTrue", .true, true), ("IsFalse", .false, false), ("IsNotFalse", .false, true),
    ("IsUnknown", .unknown, false), ("IsNotUnknown", .unknown, true)]

def groupings : List (String × Grouping) :=
  [("GroupingSets", .sets), ("Cube", .cube), ("Rollup", .rollup)]

def patterns : List (String × Match) :=
  [("Like", .like), ("ILike", .ilike), ("SimilarTo", .similarTo)]

/-- The forms that take one expression and nothing else. -/
def wrappers : List (String × (Expr → Form)) :=
  [("Nested", .nested), ("OuterJoin", .outerJoin), ("Prior", .prior), ("Extract", .extract),
    ("Collate", .collate)] ++
  tests.map fun (tag, test, negated) => (tag, .is test negated)

/-! ## Nodes -/

/-- The readers of what stands below a node. -/
structure Below where
  expr : Json → Option Expr
  query : Json → Option Query
  setExpr : Json → Option SetExpr
  tables : Json → Option TableWithJoins

namespace Below

variable (below : Below)

def sub? (j : Json) (key : String) : Option Expr := below.expr (j.member key)

def optionalSub? (j : Json) (key : String) : Option (Option Expr) := j.optional? key below.expr

def subs? (j : Json) (key : String) : Option (List Expr) := j.each? key below.expr

def rows? (j : Json) (key : String) : Option (List (List Expr)) :=
  j.each? key fun row => row.array? >>= (·.mapM below.expr)

def access? (j : Json) : Option Access := do
  match ← tag? j with
  | "Index" => return .index (← below.sub? j "index")
  | "Slice" =>
    return .slice (← below.optionalSub? j "lower_bound") (← below.optionalSub? j "upper_bound")
  | "Dot" =>
    if j.hasMember "ident" then return .field (← ident? (j.member "ident"))
    else return .fieldText (← j.text? "text")
  | _ => none

def when? (j : Json) : Option When := do
  return ⟨← below.sub? j "condition", ← below.sub? j "result"⟩

def argument? (j : Json) : Option Argument := do
  if j.hasMember "expr" then return .expr (← below.sub? j "expr")
  else if j.hasMember "qualified_wildcard" then
    return .qualifiedWildcard (← name? (j.member "qualified_wildcard"))
  else return .wildcard

def arguments? (j : Json) : Option Arguments := do
  match ← tag? j with
  | "Subquery" => return .subquery (← below.query (j.member "query"))
  | "List" =>
    return .list ((j.member "duplicate_treatment").oneOf? duplicateTreatments)
      (← j.each? "args" below.argument?)
  | _ => none

def sortKey? (j : Json) : Option SortKey := do
  return ⟨← below.sub? j "expr", (j.member "asc").bool?, (j.member "nulls_first").bool?⟩

def over? (j : Json) : Option Over := do
  match ← tag? j with
  | "WindowSpec" =>
    return .window (← j.optional? "window_name" ident?) (← below.subs? j "partition_by")
      (← j.each? "order_by" below.sortKey?)
  | "NamedWindow" => return .named (← ident? (j.member "name"))
  | _ => none

def function? (j : Json) : Option Function := do
  return ⟨← name? (j.member "name"), (← j.optional? "args" below.arguments?).getD .none,
    ← below.optionalSub? j "filter", ← j.optional? "over" below.over?⟩

def form? (j : Json) : Option Form := do
  let sub := below.sub? j
  let sub? := below.optionalSub? j
  let subs := below.subs? j
  let negated := j.flag "negated"
  let tag ← tag? j
  if let some wrap := wrappers.lookup tag then return wrap (← sub "expr")
  if let some grouping := groupings.lookup tag then
    return .grouping grouping (← below.rows? j "sets")
  if let some kind := patterns.lookup tag then
    return .matching kind negated (← sub "expr") (← sub "pattern")
  match tag with
  | "Identifier" => return .identifier (← ident? (j.member "ident"))
  | "CompoundIdentifier" => return .compoundIdentifier (← j.each? "parts" ident?)
  | "Value" => return .value (← value? (j.member "value"))
  | "UnaryOp" => return .unary (← unaryOp? (j.member "op")) (← sub "expr")
  | "BinaryOp" => return .binary (← sub "left") (← binaryOp? (j.member "op")) (← sub "right")
  | "IsDistinctFrom" => return .isDistinctFrom false (← sub "left") (← sub "right")
  | "IsNotDistinctFrom" => return .isDistinctFrom true (← sub "left") (← sub "right")
  | "Function" => return .function (← below.function? j)
  | "Case" =>
    return .caseWhen (← sub? "operand") (← j.each? "conditions" below.when?) (← sub? "else_result")
  | "Cast" =>
    return .cast (← (j.member "kind").oneOf? CastStyle.named) (← sub "expr") (← j.text? "data_type")
  | "InList" => return .inList (← sub "expr") (← subs "list") negated
  | "InSubquery" => return .inSubquery (← sub "expr") (← below.query (j.member "subquery")) negated
  | "InUnnest" => return .inUnnest (← sub "expr") (← sub "array_expr") negated
  | "Between" => return .between (← sub "expr") (← sub "low") (← sub "high") negated
  | "RLike" =>
    return .matching (if j.flag "regexp" then .regexp else .rlike) negated (← sub "expr")
      (← sub "pattern")
  | "Subquery" => return .subquery (← below.query (j.member "query"))
  | "Exists" => return .existsIn (← below.query (j.member "subquery")) negated
  | "CompoundFieldAccess" => return .access (← sub "root") (← j.each? "access_chain" below.access?)
  | "Tuple" => return .tuple (← subs "items")
  | "Array" => return .array (← subs "items")
  | "Struct" => return .struct (← subs "values")
  | "Named" => return .named (← sub "expr") (← ident? (j.member "name"))
  | "Lambda" => return .lambda (← j.each? "params" ident?) (← sub "body")
  | "AnyOp" =>
    return .quantified (← sub "left") (← binaryOp? (j.member "compare_op"))
      (if j.flag "is_some" then .some else .any) (← sub "right")
  | "AllOp" =>
    return .quantified (← sub "left") (← binaryOp? (j.member "compare_op")) .all (← sub "right")
  | "AtTimeZone" => return .atTimeZone (← sub "timestamp") (← sub "time_zone")
  | "Interval" => return .interval (← sub "value")
  | "Ceil" => return .round .ceil (← sub "expr") (← j.optional? "scale" value?)
  | "Floor" => return .round .floor (← sub "expr") (← j.optional? "scale" value?)
  | "Position" => return .position (← sub "expr") (← sub "in")
  | "Substring" =>
    return .substring (← sub "expr") (← sub? "substring_from") (← sub? "substring_for")
  | "Trim" => return .trim (← sub "expr") (← sub? "trim_what") (← subs "trim_characters")
  | "Overlay" =>
    return .overlay (← sub "expr") (← sub "overlay_what") (← sub "overlay_from")
      (← sub? "overlay_for")
  | "Convert" => return .convert (j.flag "is_try") (← sub "expr") (← subs "styles")
  | "JsonAccess" => return .jsonAccess (← sub "value") (← j.text? "path_text")
  | "Wildcard" => return .wildcard
  | "QualifiedWildcard" => return .qualifiedWildcard (← name? (j.member "name"))
  | _ => return .other (← j.text? "text")

def expr? (j : Json) : Option Expr := do return ⟨← below.form? j, ← span? j⟩

def cte? (j : Json) : Option Cte := do
  return ⟨← ident? (j.member "name"), ← below.query (j.member "query"), ← span? j⟩

/-- The sort keys, or a word in their place. -/
def sortClause? : Json → Option SortClause
  | .null => some (.keys [])
  | .array keys => (keys.mapM below.sortKey?).map .keys
  | _ => some .all

def limit? (j : Json) : Option LimitClause := do
  match ← tag? j with
  | "LimitOffset" =>
    return .limitOffset (← below.optionalSub? j "limit") (← below.optionalSub? j "offset")
  | "OffsetCommaLimit" =>
    return .offsetCommaLimit (← below.sub? j "offset") (← below.sub? j "limit")
  | _ => none

def query? (j : Json) : Option Query := do
  let clause := j.member "with"
  return {
    recursive := clause.flag "recursive"
    ctes := ← clause.each? "ctes" below.cte?
    body := ← below.setExpr (j.member "body")
    orderBy := ← below.sortClause? (j.member "order_by")
    limit := (← j.optional? "limit_clause" below.limit?).getD .none
    span := ← span? j }

def projection? (j : Json) : Option Projection := do
  match ← tag? j with
  | "UnnamedExpr" => return .unnamed (← below.sub? j "expr")
  | "ExprWithAlias" => return .aliased (← below.sub? j "expr") (← ident? (j.member "alias"))
  | "QualifiedWildcard" =>
    if j.hasMember "expr_text" then return .exprWildcard (← j.text? "expr_text") (← span? j)
    else return .qualifiedWildcard (← name? (j.member "name")) (← span? j)
  | "Wildcard" => return .wildcard (← span? j)
  | _ => none

/-- The grouping expressions, or a word in their place. -/
def groupClause? : Json → Option GroupClause
  | .null => some (.exprs [])
  | .array exprs => (exprs.mapM below.expr).map .exprs
  | _ => some .all

def select? (j : Json) : Option Select := do
  return {
    distinct := (j.member "distinct").oneOf? distincts
    projection := ← j.each? "projection" below.projection?
    source := ← j.each? "from" below.tables
    selection := ← below.optionalSub? j "selection"
    groupBy := ← below.groupClause? (j.member "group_by")
    having := ← below.optionalSub? j "having"
    qualify := ← below.optionalSub? j "qualify"
    span := ← span? j }

def setExpr? (j : Json) : Option SetExpr := do
  match ← tag? j with
  | "Select" => return .select (← below.select? j)
  | "Query" => return .query (← below.query (j.member "query"))
  | "SetOperation" =>
    return .setOperation (← (j.member "op").oneOf? setOps)
      (← (j.member "set_quantifier").oneOf? setOpQuantifiers)
      (← below.setExpr (j.member "left")) (← below.setExpr (j.member "right")) (← span? j)
  | "Values" => return .values (← below.rows? j "rows") (← span? j)
  | _ => return .other (← span? j)

def constraint? (j : Json) : Option Constraint := do
  match ← tag? j with
  | "On" => return .on (← below.sub? j "expr")
  | "Using" =>
    return .columns (← j.each? "columns" fun c =>
      return (← name? (c.member "name"), ← c.text? "text"))
  | "Natural" => return .natural
  | "None" => return .none
  | _ => none

def table? (j : Json) : Option Table := do
  let label ← j.optional? "alias" ident?
  let span ← span? j
  match ← tag? j with
  | "Table" => return .named (← name? (j.member "name")) label span
  | "Derived" => return .derived (j.flag "lateral") (← below.query (j.member "subquery")) label span
  | "NestedJoin" => return .nestedJoin (← below.tables (j.member "table_with_joins")) label span
  | t => return .rendered ((tableForms.lookup t).getD .other) (← j.text? "text") label span

def join? (j : Json) : Option Join := do
  return ⟨← (j.member "op").oneOf? joinOps, ← below.table? (j.member "relation"),
    (← j.optional? "constraint" below.constraint?).getD .none, ← span? j⟩

def tables? (j : Json) : Option TableWithJoins := do
  return ⟨← below.table? (j.member "relation"), ← j.each? "joins" below.join?⟩

end Below

/-- The readers of trees that are at most `depth` nodes deep. -/
def ofDepth : Nat → Below
  | 0 => ⟨fun _ => none, fun _ => none, fun _ => none, fun _ => none⟩
  | depth + 1 =>
    let below := ofDepth depth
    ⟨below.expr?, below.query?, below.setExpr?, below.tables?⟩

end Reader

open Reader in
/-- The statement that the parser wrote as JSON. -/
def Statement.ofJson? (j : Json) : Option Statement := do
  let query? := (ofDepth j.depth).query
  let span ← span? j
  match ← tag? j with
  | "Query" => return .query (← query? (j.member "query"))
  | "Insert" => return .insert (← j.optional? "source" query?) span
  | "CreateView" =>
    return .createView (← name? (j.member "name")) (← query? (j.member "query")) span
  | "CreateTable" =>
    return .createTable (← name? (j.member "name")) (← j.optional? "query" query?) span
  | _ => return .other (← j.text? "text") span

end SqlLint.Parsed
