import SqlLint.Parsed.Basic

/-! # The parts of a parser's tree

A statement as the list of its expressions, queries, selects and tables, each before what is inside
it, field by field. The name of a field, an alias or a table is no expression, and what is kept as
text has no parts. -/

namespace SqlLint

namespace Parsed

/-- A part of a parser's tree that lowering takes apart. -/
inductive Part where
  | expr (expr : Expr)
  | query (query : Query)
  | select (select : Select)
  | table (table : Table)

namespace Parts

mutual

@[simp] def expr : Expr → List Part
  | ⟨f, span⟩ => .expr ⟨f, span⟩ :: form f

/-- The parts below an expression, in the order of its fields. -/
@[simp] def form : Form → List Part
  | .identifier _ | .compoundIdentifier _ | .value _ | .wildcard | .qualifiedWildcard _
  | .other _ => []
  | .unary _ e | .is _ _ e | .cast _ e _ | .nested e | .named e _ | .lambda _ e | .outerJoin e
  | .prior e | .extract e | .collate e | .interval e | .round _ e _ | .jsonAccess e _ => expr e
  | .binary l _ r | .isDistinctFrom _ l r | .inUnnest l r _ | .matching _ _ l r
  | .quantified l _ _ r | .atTimeZone l r | .position l r => expr l ++ expr r
  | .function f => function f
  | .caseWhen operand conditions otherwise => expr? operand ++ whens conditions ++ expr? otherwise
  | .inList e es _ | .convert _ e es => expr e ++ exprs es
  | .inSubquery e q _ => expr e ++ query q
  | .between e low high _ => expr e ++ expr low ++ expr high
  | .subquery q | .existsIn q _ => query q
  | .access root chain => expr root ++ accesses chain
  | .tuple es | .array es | .struct es => exprs es
  | .substring e start length => expr e ++ expr? start ++ expr? length
  | .trim e what characters => expr e ++ expr? what ++ exprs characters
  | .overlay e what start length => expr e ++ expr what ++ expr start ++ expr? length
  | .grouping _ sets => rows sets

@[simp] def exprs : List Expr → List Part
  | [] => []
  | e :: es => expr e ++ exprs es

@[simp] def expr? : Option Expr → List Part
  | none => []
  | some e => expr e

@[simp] def rows : List (List Expr) → List Part
  | [] => []
  | row :: rest => exprs row ++ rows rest

@[simp] def accesses : List Access → List Part
  | [] => []
  | a :: rest => access a ++ accesses rest

/-- The name of a field is no expression. -/
@[simp] def access : Access → List Part
  | .index i => expr i
  | .slice lower upper => expr? lower ++ expr? upper
  | .field _ | .fieldText _ => []

@[simp] def whens : List When → List Part
  | [] => []
  | ⟨condition, result⟩ :: rest => expr condition ++ expr result ++ whens rest

@[simp] def function : Function → List Part
  | ⟨_, args, filter, w⟩ => arguments args ++ expr? filter ++ window? w

@[simp] def arguments : Arguments → List Part
  | .none => []
  | .subquery q => query q
  | .list _ args => argumentList args

@[simp] def argumentList : List Argument → List Part
  | [] => []
  | a :: rest => argument a ++ argumentList rest

@[simp] def argument : Argument → List Part
  | .expr e => expr e
  | .qualifiedWildcard _ | .wildcard => []

@[simp] def window? : Option Over → List Part
  | none => []
  | some w => window w

@[simp] def window : Over → List Part
  | .window _ partitionBy orderBy => exprs partitionBy ++ sortKeys orderBy
  | .named _ => []

@[simp] def sortKeys : List SortKey → List Part
  | [] => []
  | ⟨e, _, _⟩ :: rest => expr e ++ sortKeys rest

@[simp] def query : Query → List Part
  | ⟨recursive, ctes, body, orderBy, clause, span⟩ =>
    .query ⟨recursive, ctes, body, orderBy, clause, span⟩
      :: (cteList ctes ++ setExpr body ++ sortClause orderBy ++ limitClause clause)

@[simp] def cteList : List Cte → List Part
  | [] => []
  | ⟨_, q, _⟩ :: rest => query q ++ cteList rest

@[simp] def sortClause : SortClause → List Part
  | .keys keys => sortKeys keys
  | .all => []

@[simp] def limitClause : LimitClause → List Part
  | .none => []
  | .limitOffset limit offset => expr? limit ++ expr? offset
  | .offsetCommaLimit offset limit => expr offset ++ expr limit

@[simp] def setExpr : SetExpr → List Part
  | .select s => select s
  | .query q => query q
  | .setOperation _ _ left right _ => setExpr left ++ setExpr right
  | .values rs _ => rows rs
  | .other _ => []

@[simp] def select : Select → List Part
  | ⟨distinct, projection, source, selection, groupBy, having, qualify, span⟩ =>
    .select ⟨distinct, projection, source, selection, groupBy, having, qualify, span⟩
      :: (projections projection ++ tablesWithJoins source ++ expr? selection
        ++ groupClause groupBy ++ expr? having ++ expr? qualify)

@[simp] def groupClause : GroupClause → List Part
  | .exprs es => exprs es
  | .all => []

@[simp] def projections : List Projection → List Part
  | [] => []
  | p :: rest => projection p ++ projections rest

@[simp] def projection : Projection → List Part
  | .unnamed e | .aliased e _ => expr e
  | .qualifiedWildcard _ _ | .exprWildcard _ _ | .wildcard _ => []

@[simp] def tablesWithJoins : List TableWithJoins → List Part
  | [] => []
  | t :: rest => tableWithJoins t ++ tablesWithJoins rest

@[simp] def tableWithJoins : TableWithJoins → List Part
  | ⟨relation, js⟩ => table relation ++ joins js

@[simp] def joins : List Join → List Part
  | [] => []
  | j :: rest => join j ++ joins rest

@[simp] def join : Join → List Part
  | ⟨_, relation, constraint, _⟩ => table relation ++ condition constraint

@[simp] def condition : Constraint → List Part
  | .on e => expr e
  | .columns _ | .natural | .none => []

@[simp] def table : Table → List Part
  | .named name label span => [.table (.named name label span)]
  | .derived lateral q label span => .table (.derived lateral q label span) :: query q
  | .nestedJoin inner label span => .table (.nestedJoin inner label span) :: tableWithJoins inner
  | .rendered form text label span => [.table (.rendered form text label span)]

end

end Parts

def Statement.parts : Statement → List Part
  | .query q | .createView _ q _ | .createTable _ (some q) _ | .insert (some q) _ => Parts.query q
  | .insert none _ | .createTable _ none _ | .other _ _ => []

/-- The name that an expression consists of. -/
@[simp] def Expr.path? : Expr → Option (List Ident)
  | ⟨.identifier i, _⟩ => some [i]
  | ⟨.compoundIdentifier (i :: is), _⟩ => some (i :: is)
  | _ => none

@[simp] def Part.path? : Part → Option (List Ident)
  | .expr e => e.path?
  | _ => none

@[simp] def Part.query? : Part → Option Query
  | .query q => some q
  | _ => none

def Part.table? : Part → Option Table
  | .table t => some t
  | _ => none

end Parsed
end SqlLint
