import SqlLint.Parsed.Basic
import SqlLint.Text.Blank
import SqlLint.Text.Search

/-! # From the parser's tree to the rules' tree

Every statement has a counterpart: a form without one becomes raw text, a table with its text as
name, or a statement of another kind. Forms with keywords between their operands become calls or
binary expressions, so that nothing inside them is lost. -/

namespace SqlLint

/-! ## Leaves -/

/-- A part that is no identifier becomes an unquoted one with its text. -/
def Parsed.NamePart.lower : Parsed.NamePart → Ident
  | .ident i => i
  | .other text => { value := text }

def Parsed.Name.lower (name : Parsed.Name) : ObjectName := ⟨name.map Parsed.NamePart.lower⟩

def Parsed.Value.lower : Parsed.Value → Literal
  | .number digits => ⟨.number, digits⟩
  | .quoted text => ⟨.string, text⟩
  | .boolean value => ⟨.boolean, if value then "true" else "false"⟩
  | .null => ⟨.null, "NULL"⟩
  | .other text => ⟨.other, text⟩

def Parsed.UnaryOp.lower (op : Parsed.UnaryOp) : UnaryOperator :=
  match op.symbol with
  | .not => .not
  | .minus => .minus
  | .plus => .plus
  | .other => .other op.text

def Parsed.BinaryOp.lower (op : Parsed.BinaryOp) : BinaryOperator :=
  match op.symbol with
  | .eq => .eq
  | .notEq => .notEq
  | .lt => .lt
  | .ltEq => .ltEq
  | .gt => .gt
  | .gtEq => .gtEq
  | .and => .and
  | .or => .or
  | .plus => .plus
  | .minus => .minus
  | .multiply => .multiply
  | .divide => .divide
  | .modulo => .modulo
  | .stringConcat => .concat
  | .other => .other op.text

def Parsed.Quantifier.keyword : Parsed.Quantifier → String
  | .any => "ANY"
  | .some => "SOME"
  | .all => "ALL"

def Parsed.Rounding.keyword : Parsed.Rounding → String
  | .ceil => "CEIL"
  | .floor => "FLOOR"

def Parsed.Grouping.keyword : Parsed.Grouping → String
  | .sets => "GROUPING SETS"
  | .cube => "CUBE"
  | .rollup => "ROLLUP"

def Parsed.SetOp.lower : Parsed.SetOp → SetOperator
  | .union => .union
  | .intersect => .intersect
  | .except | .minus => .except

def Parsed.SetOpQuantifier.lower : Parsed.SetOpQuantifier → SetQuantifier
  | .all | .allByName => .all
  | .distinct | .distinctByName => .distinct
  | .none | .byName => .implicit

def Parsed.JoinOp.lower : Parsed.JoinOp → JoinKind
  | .join => .plain
  | .inner | .straight | .asOf => .inner
  | .left | .leftOuter => .left
  | .right | .rightOuter => .right
  | .fullOuter => .full
  | .cross => .cross
  | .semi | .leftSemi | .rightSemi => .semi
  | .anti | .leftAnti | .rightAnti => .anti
  | .crossApply | .outerApply => .apply

/-- Whether the alias of a table that is kept as text is taken over. -/
def Parsed.TableForm.keepsAlias : Parsed.TableForm → Bool
  | .tableFunction | .function | .unnest | .jsonTable | .openJsonTable | .pivot | .unpivot
  | .matchRecognize => true
  | .xmlTable | .semanticView | .other => false

/-- The text before its last ` AS `, or all of it. -/
def withoutAlias (text : String) : String :=
  (Text.beforeLast? " AS ".toList text.toList).elim text String.ofList

/-- The table for one that is kept as text. The text loses the alias that is taken over. -/
def Parsed.TableForm.lower (form : Parsed.TableForm) (text : String) (label : Option Ident)
    (span : Span) : TableRef :=
  let label := if form.keepsAlias then label else none
  let text := if label.isSome then withoutAlias text else text
  .named ⟨[{ value := text, span }]⟩ label span

/-- The column of a `USING` list: the last part of its name, or its text. -/
def Parsed.lowerColumn (name : Parsed.Name) (text : String) : Ident :=
  match name.getLast? with
  | some (.ident i) => i
  | _ => { value := text }

/-! ## Keyword forms -/

/-- A form with keywords as a call of its operands. -/
def keywordCall (name : String) (args : List Expr) : ExprKind :=
  .function ⟨⟨[{ value := name }]⟩, args, false, none, none⟩

/-- An operator that is kept as text. -/
def textOperator (negated : Bool) (text : String) : BinaryOperator :=
  .other (if negated then "NOT " ++ text else text)

/-- What becomes of a test with `IS`. -/
def Parsed.Test.lower (test : Parsed.Test) (negated : Bool) (e : SqlLint.Expr) : ExprKind :=
  match test with
  | .null => .isNull e negated
  | .true => .isBool e Bool.true negated
  | .false => .isBool e Bool.false negated
  | .unknown => .unary (.other (if negated then "IS NOT UNKNOWN" else "IS UNKNOWN")) e

/-- What becomes of matching a pattern. -/
def Parsed.Match.lower (kind : Parsed.Match) (negated : Bool) (e pattern : SqlLint.Expr) :
    ExprKind :=
  match kind with
  | .like => .like e pattern negated false
  | .ilike => .like e pattern negated true
  | .similarTo => .binary e (textOperator negated "SIMILAR TO") pattern
  | .rlike => .binary e (textOperator negated "RLIKE") pattern
  | .regexp => .binary e (textOperator negated "REGEXP") pattern

/-- A column reference of the given parts; without parts, the empty text. -/
def columnOfParts (parts : List Ident) : ExprKind :=
  match parts.getLast? with
  | some name => .column ⟨parts.dropLast, name⟩
  | none => .raw ""

/-- The core that stands for rows of unknown shape: a star alone. -/
def starCore (span : Span) : Core where
  distinct := false
  columns := [.wildcard span]
  source := none
  condition := none
  groupBy := []
  having := none
  qualify := none
  orderBy := []
  limit := none
  offset := none
  span := span

/-- A query with its trailing clauses: they belong to the core if the body is one. -/
def Query.withTrailing (recursive : Bool) (ctes : List Cte) (body : Body) (orderBy : List OrderBy)
    (limit offset : Option Expr) (span : Span) : Query :=
  match body with
  | .core core =>
    ⟨ctes, recursive, .core { core with orderBy, limit, offset }, [], none, none, span⟩
  | body => ⟨ctes, recursive, body, orderBy, limit, offset, span⟩

/-! ## The tree -/

namespace Lower

mutual

def expr : Parsed.Expr → Expr
  | ⟨f, span⟩ => form span f

/-- The expression of a form with the given span. -/
def form (span : Span) : Parsed.Form → Expr
  | .identifier i => ⟨.column ⟨[], i⟩, span⟩
  | .compoundIdentifier parts => ⟨columnOfParts parts, span⟩
  | .value v => ⟨.literal v.lower, span⟩
  | .unary op e => ⟨.unary op.lower (expr e), span⟩
  | .binary l op r => ⟨.binary (expr l) op.lower (expr r), span⟩
  | .isDistinctFrom negated l r =>
    let op := if negated then "IS NOT DISTINCT FROM" else "IS DISTINCT FROM"
    ⟨.binary (expr l) (.other op) (expr r), span⟩
  | .is test negated e => ⟨test.lower negated (expr e), span⟩
  | .function f => ⟨.function (function span f), span⟩
  | .caseWhen operand conditions otherwise =>
    ⟨.caseWhen ⟨expr? operand, branches conditions, expr? otherwise⟩, span⟩
  | .cast style e dataType => ⟨.cast (expr e) dataType style, span⟩
  | .inList e es negated => ⟨.inList (expr e) (exprs es) negated, span⟩
  | .inSubquery e q negated => ⟨.inSubquery (expr e) (query q) negated, span⟩
  | .inUnnest e array negated =>
    ⟨.inList (expr e) [⟨keywordCall "UNNEST" [expr array], array.span⟩] negated, span⟩
  | .between e low high negated => ⟨.between (expr e) (expr low) (expr high) negated, span⟩
  | .matching kind negated e pattern => ⟨kind.lower negated (expr e) (expr pattern), span⟩
  | .nested e => ⟨.nested (expr e), span⟩
  | .subquery q => ⟨.subquery (query q), span⟩
  | .existsIn q negated => ⟨.existsIn (query q) negated, span⟩
  | .access root chain => accesses span (expr root) chain
  | .tuple items | .array items => ⟨.list (exprs items), span⟩
  | .struct values => ⟨.struct (structFields values), span⟩
  | .named e _ => expr e
  | .lambda params body => ⟨.lambda params (expr body), span⟩
  | .quantified l op quantifier r =>
    ⟨.binary (expr l) (.other (op.text ++ " " ++ quantifier.keyword)) (expr r), span⟩
  | .atTimeZone timestamp zone =>
    ⟨.binary (expr timestamp) (.other "AT TIME ZONE") (expr zone), span⟩
  | .outerJoin e => ⟨.unary (.other "(+)") (expr e), span⟩
  | .prior e => ⟨.unary (.other "PRIOR") (expr e), span⟩
  | .extract e => ⟨keywordCall "EXTRACT" [expr e], span⟩
  | .collate e => ⟨keywordCall "COLLATE" [expr e], span⟩
  | .interval e => ⟨keywordCall "INTERVAL" [expr e], span⟩
  | .round rounding e scale =>
    ⟨keywordCall rounding.keyword
      (expr e :: scale.toList.map fun v => ⟨.literal v.lower, .empty⟩), span⟩
  | .position e within => ⟨keywordCall "POSITION" [expr e, expr within], span⟩
  | .substring e start length =>
    ⟨keywordCall "SUBSTRING" (expr e :: ((expr? start).toList ++ (expr? length).toList)), span⟩
  | .trim e what characters =>
    ⟨keywordCall "TRIM" ((expr? what).toList ++ expr e :: exprs characters), span⟩
  | .overlay e what start length =>
    ⟨keywordCall "OVERLAY" (expr e :: expr what :: expr start :: (expr? length).toList), span⟩
  | .convert isTry e styles =>
    ⟨keywordCall (if isTry then "TRY_CONVERT" else "CONVERT") (expr e :: exprs styles), span⟩
  | .grouping kind sets => ⟨keywordCall kind.keyword (groupingSets span sets), span⟩
  | .jsonAccess value path => ⟨.field (expr value) { value := path }, span⟩
  | .wildcard => ⟨.star none, span⟩
  | .qualifiedWildcard name => ⟨.star (some name.lower), span⟩
  | .other text => ⟨.raw text, span⟩

def exprs : List Parsed.Expr → List Expr
  | [] => []
  | e :: es => expr e :: exprs es

def expr? : Option Parsed.Expr → Option Expr
  | none => none
  | some e => some (expr e)

/-- Each grouping set is a list with the span of the whole. -/
def groupingSets (span : Span) : List (List Parsed.Expr) → List Expr
  | [] => []
  | set :: rest => ⟨.list (exprs set), span⟩ :: groupingSets span rest

def rows : List (List Parsed.Expr) → List (List Expr)
  | [] => []
  | row :: rest => exprs row :: rows rest

/-- Applies the steps of an access one after the other. Each has the span of the whole. -/
def accesses (span : Span) (root : Expr) : List Parsed.Access → Expr
  | [] => root
  | a :: rest => accesses span ⟨access root a, span⟩ rest

def access (root : Expr) : Parsed.Access → ExprKind
  | .index i => .index root (expr i)
  | .slice lower upper => .slice root (expr? lower) (expr? upper)
  | .field name => .field root name
  | .fieldText text => .field root { value := text }

def branches : List Parsed.When → List CaseBranch
  | [] => []
  | ⟨condition, result⟩ :: rest => ⟨expr condition, expr result⟩ :: branches rest

def structFields : List Parsed.Expr → List StructField
  | [] => []
  | ⟨.named e name, _⟩ :: rest => ⟨some name, expr e⟩ :: structFields rest
  | e :: rest => ⟨none, expr e⟩ :: structFields rest

def function (span : Span) : Parsed.Function → FunctionCall
  | ⟨name, args, filter, w⟩ =>
    ⟨name.lower, arguments span args, isDistinct args, expr? filter, window? w⟩

def isDistinct : Parsed.Arguments → Bool
  | .list (some .distinct) _ => true
  | _ => false

def arguments (span : Span) : Parsed.Arguments → List Expr
  | .none => []
  | .subquery q => [⟨.subquery (query q), q.span⟩]
  | .list _ args => argumentList span args

def argumentList (span : Span) : List Parsed.Argument → List Expr
  | [] => []
  | a :: rest => argument span a :: argumentList span rest

/-- A star among the arguments has the span of the call. -/
def argument (span : Span) : Parsed.Argument → Expr
  | .expr e => expr e
  | .qualifiedWildcard name => ⟨.star (some name.lower), span⟩
  | .wildcard => ⟨.star none, span⟩

def window? : Option Parsed.Over → Option Window
  | none => none
  | some w => some (window w)

def window : Parsed.Over → Window
  | .window name partitionBy orderBy => ⟨name, exprs partitionBy, sortKeys orderBy⟩
  | .named name => ⟨some name, [], []⟩

def sortKeys : List Parsed.SortKey → List OrderBy
  | [] => []
  | ⟨e, ascending, nullsFirst⟩ :: rest => ⟨expr e, ascending, nullsFirst⟩ :: sortKeys rest

def sortClause : Parsed.SortClause → List OrderBy
  | .keys keys => sortKeys keys
  | .all => []

def limit : Parsed.LimitClause → Option Expr
  | .none => none
  | .limitOffset limit _ => expr? limit
  | .offsetCommaLimit _ limit => some (expr limit)

def offset : Parsed.LimitClause → Option Expr
  | .none => none
  | .limitOffset _ offset => expr? offset
  | .offsetCommaLimit offset _ => some (expr offset)

def query : Parsed.Query → Query
  | ⟨recursive, ctes, body, orderBy, clause, span⟩ =>
    .withTrailing recursive (cteList ctes) (setExpr body) (sortClause orderBy) (limit clause)
      (offset clause) span

def cteList : List Parsed.Cte → List Cte
  | [] => []
  | ⟨name, q, span⟩ :: rest => ⟨name, query q, span⟩ :: cteList rest

def setExpr : Parsed.SetExpr → Body
  | .select s => .core (select s)
  | .query q => .nested (query q)
  | .setOperation op quantifier left right span =>
    .setOperation ⟨op.lower, quantifier.lower, setExpr left, setExpr right, span⟩
  | .values rs span => .values (rows rs) span
  | .other span => .core (starCore span)

def select : Parsed.Select → Core
  | ⟨distinct, projection, from?, selection, groupBy, having, qualify, span⟩ =>
    { distinct := distinct == some .distinct
      columns := projections projection
      source := source from?
      condition := expr? selection
      groupBy := groupClause groupBy
      having := expr? having
      qualify := expr? qualify
      orderBy := []
      limit := none
      offset := none
      span := span }

def groupClause : Parsed.GroupClause → List Expr
  | .exprs es => exprs es
  | .all => []

def projections : List Parsed.Projection → List SelectItem
  | [] => []
  | p :: rest => projection p :: projections rest

def projection : Parsed.Projection → SelectItem
  | .unnamed e => .expr (expr e) none
  | .aliased e label => .expr (expr e) (some label)
  | .qualifiedWildcard name span => .qualifiedWildcard name.lower span
  | .exprWildcard text span => .expr ⟨.raw (text ++ ".*"), span⟩ none
  | .wildcard span => .wildcard span

/-- The `FROM` clause: the first table, and the others after commas. -/
def source : List Parsed.TableWithJoins → Option FromClause
  | [] => none
  | t :: rest =>
    let (first, js) := tableWithJoins t
    some ⟨first, js ++ commaTables rest⟩

/-- Tables after commas, each with the joins that follow it. -/
def commaTables : List Parsed.TableWithJoins → List Join
  | [] => []
  | t :: rest =>
    let (table, js) := tableWithJoins t
    ⟨.implicit, false, table, none, [], t.relation.span⟩ :: (js ++ commaTables rest)

/-- A table and the joins after it. Parentheses without alias around the first tables are
dropped. -/
def tableWithJoins : Parsed.TableWithJoins → TableRef × List Join
  | ⟨.nestedJoin inner none _, js⟩ =>
    let (first, inside) := tableWithJoins inner
    (first, inside ++ joins js)
  | ⟨t, js⟩ => (table t, joins js)

def joins : List Parsed.Join → List Join
  | [] => []
  | j :: rest => join j :: joins rest

def join : Parsed.Join → Join
  | ⟨op, relation, constraint, span⟩ =>
    { kind := op.lower
      natural := isNatural constraint
      table := table relation
      condition := condition constraint
      usingColumns := usingColumns constraint
      span := span }

def isNatural : Parsed.Constraint → Bool
  | .natural => true
  | _ => false

def condition : Parsed.Constraint → Option Expr
  | .on e => some (expr e)
  | _ => none

def usingColumns : Parsed.Constraint → List Ident
  | .columns columns => columns.map fun (name, text) => Parsed.lowerColumn name text
  | _ => []

def table : Parsed.Table → TableRef
  | .named name label span => .named name.lower label span
  | .derived true q label span => .lateral (query q) label span
  | .derived false q label span => .derived (query q) label span
  | .nestedJoin inner label span =>
    let (first, js) := tableWithJoins inner
    .nestedJoin ⟨first, js⟩ label span
  | .rendered form text label span => form.lower text label span

end

/-- The first two words of a statement in capitals. -/
def statementKind (text : String) : String :=
  Text.upper (" ".intercalate ((Text.words text).take 2))

def statement : Parsed.Statement → Statement
  | .query q => .query (query q)
  | .insert source span => .insert (source.map query) span
  | .createView name q span => .createView name.lower (query q) span
  | .createTable name (some q) span => .createTableAs name.lower (query q) span
  | .createTable _ none span => .other "CREATE TABLE" span
  | .other text span => .other (statementKind text) span

end Lower
end SqlLint
