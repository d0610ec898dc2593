import SqlLint.Tree.Node

/-! # Trees with other identifiers and spans

A recast replaces every identifier and every span of a tree and leaves the rest as it is: shape,
operators, literals, flags and texts. Main statement: `statement_same`, the recast that replaces
nothing changes nothing. -/

namespace SqlLint

/-- What to put in the place of identifiers and of spans. The span of an identifier is part of
it. -/
structure Recast where
  ident : Ident → Ident
  span : Span → Span

namespace Recast

variable (r : Recast)

def name (n : ObjectName) : ObjectName := ⟨n.parts.map r.ident⟩

def column (c : ColumnRef) : ColumnRef := ⟨c.qualifier.map r.ident, r.ident c.name⟩

mutual

def expr : Expr → Expr
  | ⟨kind, span⟩ => ⟨exprKind kind, r.span span⟩

def exprKind : ExprKind → ExprKind
  | .column ref => .column (r.column ref)
  | .literal value => .literal value
  | .unary op e => .unary op (expr e)
  | .binary left op right => .binary (expr left) op (expr right)
  | .function f => .function (functionCall f)
  | .caseWhen c => .caseWhen (caseExpr c)
  | .cast e dataType style => .cast (expr e) dataType style
  | .inList e es negated => .inList (expr e) (exprs es) negated
  | .inSubquery e q negated => .inSubquery (expr e) (query q) negated
  | .between e low high negated => .between (expr e) (expr low) (expr high) negated
  | .isNull e negated => .isNull (expr e) negated
  | .isBool e value negated => .isBool (expr e) value negated
  | .like e pattern negated ignoresCase => .like (expr e) (expr pattern) negated ignoresCase
  | .nested e => .nested (expr e)
  | .subquery q => .subquery (query q)
  | .existsIn q negated => .existsIn (query q) negated
  | .index e i => .index (expr e) (expr i)
  | .slice e lower upper => .slice (expr e) (expr? lower) (expr? upper)
  | .list items => .list (exprs items)
  | .struct fields => .struct (structFields fields)
  | .lambda params e => .lambda (params.map r.ident) (expr e)
  | .field e i => .field (expr e) (r.ident i)
  | .star qualifier => .star (qualifier.map r.name)
  | .raw sql => .raw sql

def exprs : List Expr → List Expr
  | [] => []
  | e :: es => expr e :: exprs es

def expr? : Option Expr → Option Expr
  | none => none
  | some e => some (expr e)

def rows : List (List Expr) → List (List Expr)
  | [] => []
  | row :: rest => exprs row :: rows rest

def functionCall : FunctionCall → FunctionCall
  | ⟨n, args, distinct, filter, w⟩ => ⟨r.name n, exprs args, distinct, expr? filter, window? w⟩

def window? : Option Window → Option Window
  | none => none
  | some w => some (window w)

def window : Window → Window
  | ⟨n, partitionBy, keys⟩ => ⟨n.map r.ident, exprs partitionBy, orderBys keys⟩

def caseExpr : CaseExpr → CaseExpr
  | ⟨operand, branches, otherwise⟩ => ⟨expr? operand, caseBranches branches, expr? otherwise⟩

def caseBranches : List CaseBranch → List CaseBranch
  | [] => []
  | ⟨condition, result⟩ :: rest => ⟨expr condition, expr result⟩ :: caseBranches rest

def structFields : List StructField → List StructField
  | [] => []
  | ⟨n, value⟩ :: rest => ⟨n.map r.ident, expr value⟩ :: structFields rest

def orderBy : OrderBy → OrderBy
  | ⟨e, ascending, nullsFirst⟩ => ⟨expr e, ascending, nullsFirst⟩

def orderBys : List OrderBy → List OrderBy
  | [] => []
  | o :: os => orderBy o :: orderBys os

def query : Query → Query
  | ⟨ctes, recursive, b, keys, limit, offset, span⟩ =>
    ⟨cteList ctes, recursive, body b, orderBys keys, expr? limit, expr? offset, r.span span⟩

def cte : Cte → Cte
  | ⟨n, q, span⟩ => ⟨r.ident n, query q, r.span span⟩

def cteList : List Cte → List Cte
  | [] => []
  | c :: cs => cte c :: cteList cs

def body : Body → Body
  | .core c => .core (core c)
  | .setOperation operation => .setOperation (setOperation operation)
  | .nested q => .nested (query q)
  | .values rs span => .values (rows rs) (r.span span)

def setOperation : SetOperation → SetOperation
  | ⟨op, quantifier, left, right, span⟩ => ⟨op, quantifier, body left, body right, r.span span⟩

def core : Core → Core
  | ⟨distinct, columns, from?, condition, groupBy, having, qualify, keys, limit, offset, span⟩ =>
    ⟨distinct, items columns, source? from?, expr? condition, exprs groupBy, expr? having,
      expr? qualify, orderBys keys, expr? limit, expr? offset, r.span span⟩

def item : SelectItem → SelectItem
  | .expr e label => .expr (expr e) (label.map r.ident)
  | .wildcard span => .wildcard (r.span span)
  | .qualifiedWildcard qualifier span => .qualifiedWildcard (r.name qualifier) (r.span span)

def items : List SelectItem → List SelectItem
  | [] => []
  | i :: is => item i :: items is

def source : FromClause → FromClause
  | ⟨first, js⟩ => ⟨table first, joins js⟩

def source? : Option FromClause → Option FromClause
  | none => none
  | some f => some (source f)

def join : Join → Join
  | ⟨kind, natural, t, condition, usingColumns, span⟩ =>
    ⟨kind, natural, table t, expr? condition, usingColumns.map r.ident, r.span span⟩

def joins : List Join → List Join
  | [] => []
  | j :: js => join j :: joins js

def table : TableRef → TableRef
  | .named n label span => .named (r.name n) (label.map r.ident) (r.span span)
  | .derived q label span => .derived (query q) (label.map r.ident) (r.span span)
  | .lateral q label span => .lateral (query q) (label.map r.ident) (r.span span)
  | .nestedJoin f label span => .nestedJoin (source f) (label.map r.ident) (r.span span)

end

def statement : Statement → Statement
  | .query q => .query (r.query q)
  | .insert q span => .insert (q.map r.query) (r.span span)
  | .createView n q span => .createView (r.name n) (r.query q) (r.span span)
  | .createTableAs n q span => .createTableAs (r.name n) (r.query q) (r.span span)
  | .other kind span => .other kind (r.span span)

def node : Node → Node
  | .statement s => .statement (r.statement s)
  | .query q => .query (r.query q)
  | .cte c => .cte (r.cte c)
  | .body b => .body (r.body b)
  | .core c => .core (r.core c)
  | .item i => .item (r.item i)
  | .source f => .source (r.source f)
  | .join j => .join (r.join j)
  | .table t => .table (r.table t)
  | .orderBy o => .orderBy (r.orderBy o)
  | .expr e => .expr (r.expr e)

/-! ## Lists and options are recast item by item -/

@[simp] theorem exprs_eq (es : List Expr) : r.exprs es = es.map r.expr := by
  induction es with
  | nil => rfl
  | cons e es ih => rw [exprs, ih, List.map_cons]

@[simp] theorem expr?_eq (e : Option Expr) : r.expr? e = e.map r.expr := by cases e <;> rfl

@[simp] theorem rows_eq (rs : List (List Expr)) : r.rows rs = rs.map (·.map r.expr) := by
  induction rs with
  | nil => rfl
  | cons row rest ih => rw [rows, ih, exprs_eq, List.map_cons]

@[simp] theorem window?_eq (w : Option Window) : r.window? w = w.map r.window := by cases w <;> rfl

@[simp] theorem caseBranches_eq (bs : List CaseBranch) :
    r.caseBranches bs = bs.map fun b => ⟨r.expr b.condition, r.expr b.result⟩ := by
  induction bs with
  | nil => rfl
  | cons b bs ih => cases b; rw [caseBranches, ih, List.map_cons]

@[simp] theorem structFields_eq (fs : List StructField) :
    r.structFields fs = fs.map fun f => ⟨f.name.map r.ident, r.expr f.value⟩ := by
  induction fs with
  | nil => rfl
  | cons f fs ih => cases f; rw [structFields, ih, List.map_cons]

@[simp] theorem orderBys_eq (os : List OrderBy) : r.orderBys os = os.map r.orderBy := by
  induction os with
  | nil => rfl
  | cons o os ih => rw [orderBys, ih, List.map_cons]

@[simp] theorem cteList_eq (cs : List Cte) : r.cteList cs = cs.map r.cte := by
  induction cs with
  | nil => rfl
  | cons c cs ih => rw [cteList, ih, List.map_cons]

@[simp] theorem items_eq (is : List SelectItem) : r.items is = is.map r.item := by
  induction is with
  | nil => rfl
  | cons i is ih => rw [items, ih, List.map_cons]

@[simp] theorem source?_eq (f : Option FromClause) : r.source? f = f.map r.source := by
  cases f <;> rfl

@[simp] theorem joins_eq (js : List Join) : r.joins js = js.map r.join := by
  induction js with
  | nil => rfl
  | cons j js ih => rw [joins, ih, List.map_cons]

/-! ## Fields -/

@[simp] theorem name_parts (n : ObjectName) : (r.name n).parts = n.parts.map r.ident := rfl

@[simp] theorem column_fields (c : ColumnRef) :
    (r.column c).qualifier = c.qualifier.map r.ident ∧ (r.column c).name = r.ident c.name :=
  ⟨rfl, rfl⟩

@[simp] theorem expr_fields (e : Expr) :
    (r.expr e).kind = r.exprKind e.kind ∧ (r.expr e).span = r.span e.span := by
  cases e; simp [expr]

@[simp] theorem functionCall_fields (f : FunctionCall) :
    (r.functionCall f).name = r.name f.name ∧ (r.functionCall f).args = f.args.map r.expr
      ∧ (r.functionCall f).distinct = f.distinct
      ∧ (r.functionCall f).filter = f.filter.map r.expr
      ∧ (r.functionCall f).window = f.window.map r.window := by
  cases f; simp [functionCall]

@[simp] theorem window_fields (w : Window) :
    (r.window w).partitionBy = w.partitionBy.map r.expr
      ∧ (r.window w).orderBy = w.orderBy.map r.orderBy := by
  cases w; simp [window]

@[simp] theorem caseExpr_fields (c : CaseExpr) :
    (r.caseExpr c).operand = c.operand.map r.expr
      ∧ (r.caseExpr c).branches = c.branches.map (fun b => ⟨r.expr b.condition, r.expr b.result⟩)
      ∧ (r.caseExpr c).otherwise = c.otherwise.map r.expr := by
  cases c; simp [caseExpr]

@[simp] theorem orderBy_fields (o : OrderBy) :
    (r.orderBy o).expr = r.expr o.expr ∧ (r.orderBy o).ascending = o.ascending := by
  cases o; simp [orderBy]

@[simp] theorem query_fields (x : Query) :
    (r.query x).ctes = x.ctes.map r.cte ∧ (r.query x).body = r.body x.body
      ∧ (r.query x).orderBy = x.orderBy.map r.orderBy ∧ (r.query x).limit = x.limit.map r.expr
      ∧ (r.query x).offset = x.offset.map r.expr ∧ (r.query x).span = r.span x.span := by
  cases x; simp [query]

@[simp] theorem cte_fields (c : Cte) :
    (r.cte c).name = r.ident c.name ∧ (r.cte c).query = r.query c.query
      ∧ (r.cte c).span = r.span c.span := by
  cases c; simp [cte]

@[simp] theorem setOperation_fields (o : SetOperation) :
    (r.setOperation o).op = o.op ∧ (r.setOperation o).quantifier = o.quantifier
      ∧ (r.setOperation o).left = r.body o.left ∧ (r.setOperation o).right = r.body o.right
      ∧ (r.setOperation o).span = r.span o.span := by
  cases o; simp [setOperation]

@[simp] theorem core_fields (c : Core) :
    (r.core c).distinct = c.distinct ∧ (r.core c).columns = c.columns.map r.item
      ∧ (r.core c).source = c.source.map r.source
      ∧ (r.core c).condition = c.condition.map r.expr
      ∧ (r.core c).groupBy = c.groupBy.map r.expr ∧ (r.core c).having = c.having.map r.expr
      ∧ (r.core c).qualify = c.qualify.map r.expr ∧ (r.core c).orderBy = c.orderBy.map r.orderBy
      ∧ (r.core c).limit = c.limit.map r.expr ∧ (r.core c).offset = c.offset.map r.expr
      ∧ (r.core c).span = r.span c.span := by
  cases c; simp [core]

@[simp] theorem source_fields (f : FromClause) :
    (r.source f).first = r.table f.first ∧ (r.source f).joins = f.joins.map r.join := by
  cases f; simp [source]

@[simp] theorem join_fields (j : Join) :
    (r.join j).kind = j.kind ∧ (r.join j).natural = j.natural ∧ (r.join j).table = r.table j.table
      ∧ (r.join j).condition = j.condition.map r.expr
      ∧ (r.join j).usingColumns = j.usingColumns.map r.ident
      ∧ (r.join j).span = r.span j.span := by
  cases j; simp [join]

/-! ## The recast that changes nothing -/

/-- Leaves everything as it is. -/
def same : Recast := ⟨id, id⟩

theorem name_same (n : ObjectName) : same.name n = n := by simp [name, same]

theorem column_same (c : ColumnRef) : same.column c = c := by simp [column, same]

theorem map_name_same (n : Option ObjectName) : n.map same.name = n := by
  cases n <;> simp [name_same]

theorem map_ident_same (i : Option Ident) : i.map same.ident = i := by cases i <;> rfl

mutual

theorem expr_same : ∀ e : Expr, same.expr e = e
  | ⟨kind, _⟩ => by rw [expr, exprKind_same kind]; rfl

theorem exprKind_same : ∀ kind : ExprKind, same.exprKind kind = kind
  | .column ref => by rw [exprKind, column_same]
  | .star q => by rw [exprKind, map_name_same]
  | .literal _ | .raw _ => by rw [exprKind]
  | .lambda params e => by rw [exprKind, expr_same e]; simp [same]
  | .field e i => by rw [exprKind, expr_same e]; rfl
  | .unary _ e | .cast e _ _ | .isNull e _ | .isBool e _ _ | .nested e => by
    rw [exprKind, expr_same e]
  | .binary a _ b | .like a b _ _ | .index a b => by rw [exprKind, expr_same a, expr_same b]
  | .between e low high _ => by rw [exprKind, expr_same e, expr_same low, expr_same high]
  | .function f => by rw [exprKind, functionCall_same f]
  | .caseWhen c => by rw [exprKind, caseExpr_same c]
  | .inList e es _ => by rw [exprKind, expr_same e, exprs_same es]
  | .inSubquery e q _ => by rw [exprKind, expr_same e, query_same q]
  | .subquery q | .existsIn q _ => by rw [exprKind, query_same q]
  | .slice e lower upper => by rw [exprKind, expr_same e, expr?_same lower, expr?_same upper]
  | .list es => by rw [exprKind, exprs_same es]
  | .struct fs => by rw [exprKind, structFields_same fs]

theorem exprs_same : ∀ es : List Expr, same.exprs es = es
  | [] => rfl
  | e :: es => by rw [exprs, expr_same e, exprs_same es]

theorem expr?_same : ∀ e : Option Expr, same.expr? e = e
  | none => rfl
  | some e => by rw [expr?, expr_same e]

theorem rows_same : ∀ rs : List (List Expr), same.rows rs = rs
  | [] => rfl
  | row :: rest => by rw [rows, exprs_same row, rows_same rest]

theorem functionCall_same : ∀ f : FunctionCall, same.functionCall f = f
  | ⟨n, args, _, filter, w⟩ => by
    rw [functionCall, name_same, exprs_same args, expr?_same filter, window?_same w]

theorem window?_same : ∀ w : Option Window, same.window? w = w
  | none => rfl
  | some w => by rw [window?, window_same w]

theorem window_same : ∀ w : Window, same.window w = w
  | ⟨n, es, keys⟩ => by rw [window, map_ident_same, exprs_same es, orderBys_same keys]

theorem caseExpr_same : ∀ c : CaseExpr, same.caseExpr c = c
  | ⟨operand, bs, otherwise⟩ => by
    rw [caseExpr, expr?_same operand, caseBranches_same bs, expr?_same otherwise]

theorem caseBranches_same : ∀ bs : List CaseBranch, same.caseBranches bs = bs
  | [] => rfl
  | ⟨c, e⟩ :: bs => by rw [caseBranches, expr_same c, expr_same e, caseBranches_same bs]

theorem structFields_same : ∀ fs : List StructField, same.structFields fs = fs
  | [] => rfl
  | ⟨n, e⟩ :: fs => by rw [structFields, map_ident_same, expr_same e, structFields_same fs]

theorem orderBy_same : ∀ o : OrderBy, same.orderBy o = o
  | ⟨e, _, _⟩ => by rw [orderBy, expr_same e]

theorem orderBys_same : ∀ os : List OrderBy, same.orderBys os = os
  | [] => rfl
  | o :: os => by rw [orderBys, orderBy_same o, orderBys_same os]

theorem query_same : ∀ q : Query, same.query q = q
  | ⟨ctes, _, b, keys, limit, offset, _⟩ => by
    rw [query, cteList_same ctes, body_same b, orderBys_same keys, expr?_same limit,
      expr?_same offset]
    rfl

theorem cte_same : ∀ c : Cte, same.cte c = c
  | ⟨_, q, _⟩ => by rw [cte, query_same q]; rfl

theorem cteList_same : ∀ cs : List Cte, same.cteList cs = cs
  | [] => rfl
  | c :: cs => by rw [cteList, cte_same c, cteList_same cs]

theorem body_same : ∀ b : Body, same.body b = b
  | .core c => by rw [body, core_same c]
  | .setOperation o => by rw [body, setOperation_same o]
  | .nested q => by rw [body, query_same q]
  | .values rs _ => by rw [body, rows_same rs]; rfl

theorem setOperation_same : ∀ o : SetOperation, same.setOperation o = o
  | ⟨_, _, left, right, _⟩ => by rw [setOperation, body_same left, body_same right]; rfl

theorem core_same : ∀ c : Core, same.core c = c
  | ⟨_, is, f, condition, groupBy, having, qualify, keys, limit, offset, _⟩ => by
    rw [core, items_same is, source?_same f, expr?_same condition, exprs_same groupBy,
      expr?_same having, expr?_same qualify, orderBys_same keys, expr?_same limit,
      expr?_same offset]
    rfl

theorem item_same : ∀ i : SelectItem, same.item i = i
  | .expr e label => by rw [item, expr_same e, map_ident_same]
  | .wildcard _ => rfl
  | .qualifiedWildcard n _ => by rw [item, name_same]; rfl

theorem items_same : ∀ is : List SelectItem, same.items is = is
  | [] => rfl
  | i :: is => by rw [items, item_same i, items_same is]

theorem source_same : ∀ f : FromClause, same.source f = f
  | ⟨t, js⟩ => by rw [source, table_same t, joins_same js]

theorem source?_same : ∀ f : Option FromClause, same.source? f = f
  | none => rfl
  | some f => by rw [source?, source_same f]

theorem join_same : ∀ j : Join, same.join j = j
  | ⟨_, _, t, condition, columns, _⟩ => by
    rw [join, table_same t, expr?_same condition]
    simp [same]

theorem joins_same : ∀ js : List Join, same.joins js = js
  | [] => rfl
  | j :: js => by rw [joins, join_same j, joins_same js]

theorem table_same : ∀ t : TableRef, same.table t = t
  | .named n label _ => by rw [table, name_same, map_ident_same]; rfl
  | .derived q label _ | .lateral q label _ => by rw [table, query_same q, map_ident_same]; rfl
  | .nestedJoin f label _ => by rw [table, source_same f, map_ident_same]; rfl

end

theorem statement_same : ∀ s : Statement, same.statement s = s
  | .query q => by rw [statement, query_same]
  | .insert none _ => rfl
  | .insert (some q) _ => by rw [statement, Option.map_some, query_same]; rfl
  | .createView n q _ | .createTableAs n q _ => by rw [statement, name_same, query_same]; rfl
  | .other _ _ => rfl

end Recast
end SqlLint
