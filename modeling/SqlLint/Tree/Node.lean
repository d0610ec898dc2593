import SqlLint.Rose
import SqlLint.Tree.Access

/-! # Nodes of the tree

A `Node` is any part of a statement that a walk stops at. `Node.children` gives its parts in source
order, and `Node.tree` unfolds a node completely. Main statement: `Node.tree_eq`, the tree of a node
is the node above the trees of its children. -/

namespace SqlLint

/-- A part of a statement that a walk stops at. -/
inductive Node where
  | statement (statement : Statement)
  | query (query : Query)
  | cte (cte : Cte)
  | body (body : Body)
  | core (core : Core)
  | item (item : SelectItem)
  | source (source : FromClause)
  | join (join : Join)
  | table (table : TableRef)
  | orderBy (key : OrderBy)
  | expr (expr : Expr)

namespace Node

def span : Node → Span
  | .statement s => s.span
  | .query q => q.span
  | .cte c => c.span
  | .body b => b.span
  | .core c => c.span
  | .item i => i.span
  | .source f => f.span
  | .join j => j.span
  | .table t => t.span
  | .orderBy o => o.expr.span
  | .expr e => e.span

end Node

/-! ## Children -/

def ExprKind.children : ExprKind → List Node
  | .column _ | .literal _ | .star _ | .raw _ => []
  | .unary _ e | .nested e | .field e _ | .cast e _ _ | .isNull e _ | .isBool e _ _
  | .lambda _ e => [.expr e]
  | .binary left _ right => [.expr left, .expr right]
  | .function f =>
    f.args.map .expr ++ f.filter.toList.map .expr
      ++ f.window.toList.flatMap fun w => w.partitionBy.map .expr ++ w.orderBy.map .orderBy
  | .caseWhen c =>
    c.operand.toList.map .expr ++ c.branches.flatMap (fun b => [.expr b.condition, .expr b.result])
      ++ c.otherwise.toList.map .expr
  | .inList e es _ => .expr e :: es.map .expr
  | .inSubquery e q _ => [.expr e, .query q]
  | .between e low high _ => [.expr e, .expr low, .expr high]
  | .like e pattern _ _ => [.expr e, .expr pattern]
  | .subquery q | .existsIn q _ => [.query q]
  | .index e i => [.expr e, .expr i]
  | .slice e lower upper => .expr e :: (lower.toList.map .expr ++ upper.toList.map .expr)
  | .list items => items.map .expr
  | .struct fields => fields.map fun f => .expr f.value

/-- The children of a node, in source order. -/
def Node.children : Node → List Node
  | .statement s => s.query?.toList.map .query
  | .query q =>
    q.ctes.map .cte ++ .body q.body :: q.orderBy.map .orderBy ++ q.limit.toList.map .expr
      ++ q.offset.toList.map .expr
  | .cte c => [.query c.query]
  | .body (.core c) => [.core c]
  | .body (.setOperation operation) => [.body operation.left, .body operation.right]
  | .body (.nested q) => [.query q]
  | .body (.values rows _) => rows.flatten.map .expr
  | .core c =>
    c.columns.map .item ++ c.source.toList.map .source ++ c.condition.toList.map .expr
      ++ c.groupBy.map .expr ++ c.having.toList.map .expr ++ c.qualify.toList.map .expr
      ++ c.orderBy.map .orderBy ++ c.limit.toList.map .expr ++ c.offset.toList.map .expr
  | .item i => i.expr?.toList.map .expr
  | .source f => .table f.first :: f.joins.map .join
  | .join j => .table j.table :: j.condition.toList.map .expr
  | .table (.named _ _ _) => []
  | .table (.derived q _ _) | .table (.lateral q _ _) => [.query q]
  | .table (.nestedJoin f _ _) => [.source f]
  | .orderBy o => [.expr o.expr]
  | .expr e => e.kind.children

/-! ## The whole tree

One function for each type of the tree, and one for each list or option of them. -/

namespace Unfold

mutual

def expr : Expr → Rose Node
  | ⟨kind, span⟩ => .node (.expr ⟨kind, span⟩) (exprKind kind)

def exprKind : ExprKind → List (Rose Node)
  | .column _ | .literal _ | .star _ | .raw _ => []
  | .unary _ e | .nested e | .field e _ | .cast e _ _ | .isNull e _ | .isBool e _ _
  | .lambda _ e => [expr e]
  | .binary left _ right => [expr left, expr right]
  | .function f => functionCall f
  | .caseWhen c => caseExpr c
  | .inList e es _ => expr e :: exprs es
  | .inSubquery e q _ => [expr e, query q]
  | .between e low high _ => [expr e, expr low, expr high]
  | .like e pattern _ _ => [expr e, expr pattern]
  | .subquery q | .existsIn q _ => [query q]
  | .index e i => [expr e, expr i]
  | .slice e lower upper => expr e :: (expr? lower ++ expr? upper)
  | .list items => exprs items
  | .struct fields => structFields fields

def exprs : List Expr → List (Rose Node)
  | [] => []
  | e :: es => expr e :: exprs es

def expr? : Option Expr → List (Rose Node)
  | none => []
  | some e => [expr e]

def rows : List (List Expr) → List (Rose Node)
  | [] => []
  | r :: rs => exprs r ++ rows rs

def functionCall : FunctionCall → List (Rose Node)
  | ⟨_, args, _, filter, w⟩ => exprs args ++ expr? filter ++ window? w

def window? : Option Window → List (Rose Node)
  | none => []
  | some w => window w

def window : Window → List (Rose Node)
  | ⟨_, partitionBy, orderBy⟩ => exprs partitionBy ++ orderBys orderBy

def caseExpr : CaseExpr → List (Rose Node)
  | ⟨operand, branches, otherwise⟩ => expr? operand ++ caseBranches branches ++ expr? otherwise

def caseBranches : List CaseBranch → List (Rose Node)
  | [] => []
  | ⟨condition, result⟩ :: bs => expr condition :: expr result :: caseBranches bs

def structFields : List StructField → List (Rose Node)
  | [] => []
  | ⟨_, value⟩ :: fs => expr value :: structFields fs

def orderBy : OrderBy → Rose Node
  | ⟨e, ascending, nullsFirst⟩ => .node (.orderBy ⟨e, ascending, nullsFirst⟩) [expr e]

def orderBys : List OrderBy → List (Rose Node)
  | [] => []
  | o :: os => orderBy o :: orderBys os

def query : Query → Rose Node
  | ⟨ctes, recursive, b, keys, limit, offset, span⟩ =>
    .node (.query ⟨ctes, recursive, b, keys, limit, offset, span⟩)
      (cteList ctes ++ body b :: orderBys keys ++ expr? limit ++ expr? offset)

def cte : Cte → Rose Node
  | ⟨name, q, span⟩ => .node (.cte ⟨name, q, span⟩) [query q]

def cteList : List Cte → List (Rose Node)
  | [] => []
  | c :: cs => cte c :: cteList cs

def body : Body → Rose Node
  | .core c => .node (.body (.core c)) [core c]
  | .setOperation operation => .node (.body (.setOperation operation)) (operands operation)
  | .nested q => .node (.body (.nested q)) [query q]
  | .values rs span => .node (.body (.values rs span)) (rows rs)

def operands : SetOperation → List (Rose Node)
  | ⟨_, _, left, right, _⟩ => [body left, body right]

def core : Core → Rose Node
  | ⟨distinct, columns, from?, condition, groupBy, having, qualify, keys, limit, offset, span⟩ =>
    .node
      (.core ⟨distinct, columns, from?, condition, groupBy, having, qualify, keys, limit, offset,
        span⟩)
      (items columns ++ source? from? ++ expr? condition ++ exprs groupBy ++ expr? having
        ++ expr? qualify ++ orderBys keys ++ expr? limit ++ expr? offset)

def item : SelectItem → Rose Node
  | .expr e label => .node (.item (.expr e label)) [expr e]
  | .wildcard span => .node (.item (.wildcard span)) []
  | .qualifiedWildcard qualifier span => .node (.item (.qualifiedWildcard qualifier span)) []

def items : List SelectItem → List (Rose Node)
  | [] => []
  | i :: is => item i :: items is

def source : FromClause → Rose Node
  | ⟨first, js⟩ => .node (.source ⟨first, js⟩) (table first :: joins js)

def source? : Option FromClause → List (Rose Node)
  | none => []
  | some f => [source f]

def join : Join → Rose Node
  | ⟨kind, natural, t, condition, usingColumns, span⟩ =>
    .node (.join ⟨kind, natural, t, condition, usingColumns, span⟩) (table t :: expr? condition)

def joins : List Join → List (Rose Node)
  | [] => []
  | j :: js => join j :: joins js

def table : TableRef → Rose Node
  | .named name label span => .node (.table (.named name label span)) []
  | .derived q label span => .node (.table (.derived q label span)) [query q]
  | .lateral q label span => .node (.table (.lateral q label span)) [query q]
  | .nestedJoin f label span => .node (.table (.nestedJoin f label span)) [source f]

end

end Unfold

namespace Node

/-- The tree of all nodes under a node, itself at the root. -/
def tree : Node → Rose Node
  | .statement s => .node (.statement s) (s.query?.toList.map Unfold.query)
  | .query q => Unfold.query q
  | .cte c => Unfold.cte c
  | .body b => Unfold.body b
  | .core c => Unfold.core c
  | .item i => Unfold.item i
  | .source f => Unfold.source f
  | .join j => Unfold.join j
  | .table t => Unfold.table t
  | .orderBy o => Unfold.orderBy o
  | .expr e => Unfold.expr e

/-- All nodes under a node in pre-order, itself first. -/
def preorder (n : Node) : List Node := n.tree.preorder

end Node

/-! ## The tree of a node stands over the trees of its children -/

namespace Unfold

theorem exprs_eq (es : List Expr) : exprs es = es.map expr := by
  induction es with
  | nil => rfl
  | cons e es ih => rw [exprs, ih]; rfl

theorem expr?_eq (e : Option Expr) : expr? e = e.toList.map expr := by cases e <;> rfl

theorem rows_eq (rs : List (List Expr)) : rows rs = rs.flatten.map expr := by
  induction rs with
  | nil => rfl
  | cons r rs ih => simp [rows, ih, exprs_eq]

theorem orderBys_eq (os : List OrderBy) : orderBys os = os.map orderBy := by
  induction os with
  | nil => rfl
  | cons o os ih => rw [orderBys, ih]; rfl

theorem cteList_eq (cs : List Cte) : cteList cs = cs.map cte := by
  induction cs with
  | nil => rfl
  | cons c cs ih => rw [cteList, ih]; rfl

theorem items_eq (is : List SelectItem) : items is = is.map item := by
  induction is with
  | nil => rfl
  | cons i is ih => rw [items, ih]; rfl

theorem joins_eq (js : List Join) : joins js = js.map join := by
  induction js with
  | nil => rfl
  | cons j js ih => rw [joins, ih]; rfl

theorem source?_eq (f : Option FromClause) : source? f = f.toList.map source := by cases f <;> rfl

theorem structFields_eq (fs : List StructField) :
    structFields fs = fs.map fun f => expr f.value := by
  induction fs with
  | nil => rfl
  | cons f fs ih => cases f; rw [structFields, ih]; rfl

theorem caseBranches_eq (bs : List CaseBranch) :
    caseBranches bs = bs.flatMap fun b => [expr b.condition, expr b.result] := by
  induction bs with
  | nil => rfl
  | cons b bs ih => cases b; rw [caseBranches, ih]; rfl

theorem window?_eq (w : Option Window) :
    window? w = w.toList.flatMap fun w => w.partitionBy.map expr ++ w.orderBy.map orderBy := by
  cases w with
  | none => rfl
  | some w => cases w; simp [window?, window, exprs_eq, orderBys_eq]

theorem functionCall_eq (f : FunctionCall) :
    functionCall f = f.args.map expr ++ f.filter.toList.map expr
      ++ f.window.toList.flatMap fun w => w.partitionBy.map expr ++ w.orderBy.map orderBy := by
  cases f; simp [functionCall, exprs_eq, expr?_eq, window?_eq]

theorem caseExpr_eq (c : CaseExpr) :
    caseExpr c = c.operand.toList.map expr
      ++ c.branches.flatMap (fun b => [expr b.condition, expr b.result])
      ++ c.otherwise.toList.map expr := by
  cases c; simp [caseExpr, expr?_eq, caseBranches_eq]

theorem exprKind_eq (kind : ExprKind) : exprKind kind = kind.children.map Node.tree := by
  cases kind <;>
    simp [exprKind, ExprKind.children, Node.tree, functionCall_eq, caseExpr_eq, exprs_eq, expr?_eq,
      structFields_eq, List.map_flatMap, Function.comp_def]

end Unfold

namespace Node

open Unfold in
theorem tree_eq (n : Node) : n.tree = .node n (n.children.map tree) := by
  cases n with
  | statement s => simp [tree, children, Function.comp_def]
  | query q =>
    cases q
    simp [tree, children, Unfold.query, cteList_eq, orderBys_eq, expr?_eq, Function.comp_def]
  | cte c => cases c; rfl
  | body b =>
    cases b with
    | core c => rfl
    | setOperation operation => cases operation; rfl
    | nested q => rfl
    | values rs span => simp [tree, children, Unfold.body, rows_eq, Function.comp_def]
  | core c =>
    cases c
    simp [tree, children, Unfold.core, items_eq, source?_eq, orderBys_eq, exprs_eq, expr?_eq,
      Function.comp_def]
  | item i => cases i <;> rfl
  | source f => cases f; simp [tree, children, Unfold.source, joins_eq, Function.comp_def]
  | join j => cases j; simp [tree, children, Unfold.join, expr?_eq, Function.comp_def]
  | table t => cases t <;> rfl
  | orderBy o => cases o; rfl
  | expr e => cases e; simp [tree, children, Unfold.expr, exprKind_eq]

end Node
end SqlLint
