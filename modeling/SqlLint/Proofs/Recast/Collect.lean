import SqlLint.Proofs.Recast.Basic
import SqlLint.Proofs.Walk
import SqlLint.Tree.Equivalence

/-! # What is found in a recast tree

Main statement: `tree_node`, everything under a recast node is what was there before, recast, in the
same order. So collections, marks and the parts of a node are found as before, and then recast. -/

namespace SqlLint

/-! ## Trees with other labels -/

namespace Rose

variable {α β σ τ : Type}

mutual

/-- The tree with another label at every node. -/
def relabel (f : α → β) : Rose α → Rose β
  | .node a ts => .node (f a) (relabels f ts)

def relabels (f : α → β) : List (Rose α) → List (Rose β)
  | [] => []
  | t :: ts => relabel f t :: relabels f ts

end

@[simp] theorem label_relabel (f : α → β) (t : Rose α) : (t.relabel f).label = f t.label := by
  cases t; rfl

mutual

theorem preorder_relabel (f : α → β) : ∀ t : Rose α, (t.relabel f).preorder = t.preorder.map f
  | .node a ts => by rw [relabel, preorder, preorders_relabels f ts, preorder, List.map_cons]

theorem preorders_relabels (f : α → β) : ∀ ts : List (Rose α),
    preorders (relabels f ts) = (preorders ts).map f
  | [] => rfl
  | t :: ts => by
    rw [relabels, preorders, preorder_relabel f t, preorders_relabels f ts, preorders,
      List.map_append]

end

mutual

theorem walk_relabel (f : α → β) (visit : σ → β → σ × Visit) : ∀ (t : Rose α) (state : σ),
    (t.relabel f).walk visit state = t.walk (fun s a => visit s (f a)) state
  | .node a ts, state => by
    rw [relabel, walk, walk]
    rcases visit state (f a) with ⟨next, answer⟩
    cases answer with
    | descend => exact walkAll_relabels f visit ts next
    | skip => rfl
    | stop => rfl

theorem walkAll_relabels (f : α → β) (visit : σ → β → σ × Visit) :
    ∀ (ts : List (Rose α)) (state : σ),
      walkAll visit state (relabels f ts) = walkAll (fun s a => visit s (f a)) state ts
  | [], _ => rfl
  | t :: ts, state => by
    rw [relabels, walkAll, walkAll, walk_relabel f visit t state]
    rcases t.walk (fun s a => visit s (f a)) state with ⟨next, stopped⟩
    cases stopped with
    | true => rfl
    | false => exact walkAll_relabels f visit ts next

end

mutual

theorem marked_relabel (f : α → α) {step : σ → α → α → σ}
    (h : ∀ mark a b, step mark (f a) (f b) = step mark a b) : ∀ (t : Rose α) (mark : σ),
    (t.relabel f).marked step mark = (t.marked step mark).relabel (Prod.map id f)
  | .node a ts, mark => by
    rw [relabel, marked, marked, relabel, markedAll_relabels f h ts mark a]
    rfl

theorem markedAll_relabels (f : α → α) {step : σ → α → α → σ}
    (h : ∀ mark a b, step mark (f a) (f b) = step mark a b) :
    ∀ (ts : List (Rose α)) (mark : σ) (parent : α),
      markedAll step mark (f parent) (relabels f ts)
        = relabels (Prod.map id f) (markedAll step mark parent ts)
  | [], _, _ => rfl
  | t :: ts, mark, parent => by
    rw [relabels, markedAll, markedAll, relabels, label_relabel, h, marked_relabel f h t,
      markedAll_relabels f h ts]

end

end Rose

namespace Node

mutual

theorem tree_eq_relabel {f : Node → Node} (h : ∀ n, (f n).children = n.children.map f) :
    ∀ (t : Rose Node) (n : Node), n.tree = t → (f n).tree = t.relabel f
  | .node a ts, n, hn => by
    rw [tree_eq] at hn
    injection hn with hlabel hchildren
    rw [tree_eq, h, Rose.relabel, trees_eq_relabels h ts n.children hchildren, hlabel]

theorem trees_eq_relabels {f : Node → Node} (h : ∀ n, (f n).children = n.children.map f) :
    ∀ (ts : List (Rose Node)) (ns : List Node), ns.map tree = ts →
      (ns.map f).map tree = Rose.relabels f ts
  | [], ns, hns => by
    rw [List.map_eq_nil_iff.mp hns]
    rfl
  | t :: ts, [], hns => by cases hns
  | t :: ts, n :: ns, hns => by
    injection hns with hfirst hrest
    rw [List.map_cons, List.map_cons, Rose.relabels, tree_eq_relabel h t n hfirst,
      trees_eq_relabels h ts ns hrest]

end

end Node

/-! ## Walks over a recast tree -/

namespace Recast

variable (r : Recast)

theorem node_statement (s : Statement) : r.node (.statement s) = .statement (r.statement s) := rfl

theorem children_exprKind (kind : ExprKind) :
    (r.exprKind kind).children = kind.children.map r.node := by
  cases kind <;>
    simp [exprKind, ExprKind.children, node, List.map_flatMap, List.flatMap_map,
      Function.comp_def, Option.toList_map]

theorem children_node (n : Node) : (r.node n).children = n.children.map r.node := by
  cases n with
  | statement s =>
    cases s <;> simp [node, statement, Node.children, Statement.query?, Option.toList_map]
  | body b => cases b <;> simp [node, body, Node.children, Function.comp_def, ← List.map_flatten]
  | item i => cases i <;> simp [node, item, Node.children, SelectItem.expr?]
  | table t => cases t <;> simp [node, table, Node.children]
  | expr e => simp [node, Node.children, children_exprKind]
  | _ => simp [node, Node.children, Function.comp_def, Option.toList_map]

theorem tree_node (n : Node) : (r.node n).tree = n.tree.relabel r.node :=
  Node.tree_eq_relabel r.children_node n.tree n rfl

/-- A collection finds in a recast tree what it found before, recast. -/
theorem collect_node {α β : Type} {view : Node → Option α} {view' : Node → Option β} {g : β → α}
    (h : ∀ n, view (r.node n) = (view' n).map g) (root : Node) :
    (r.node root).collect view = (root.collect view').map g := by
  have hview : view ∘ r.node = fun n => (view' n).map g := funext h
  rw [Node.collect_eq, Node.collect_eq, Node.preorder, tree_node, Rose.preorder_relabel,
    List.filterMap_map, hview, List.map_filterMap, Node.preorder]

theorem collectOutside_node {α : Type} {leaveOut : Node → Bool} {view : Node → Option α}
    {g : α → α} (hout : ∀ n, leaveOut (r.node n) = leaveOut n)
    (hview : ∀ n, view (r.node n) = (view n).map g) (root : Node) :
    (r.node root).collectOutside leaveOut view = (root.collectOutside leaveOut view).map g := by
  have hgather : ∀ (found : Array α) (n : Node),
      Node.gather view (found.map g) (r.node n) = (Node.gather view found n).map g := by
    intro found n
    rw [Node.gather, hview, Node.gather]
    cases view n <;> simp
  have hwalk := Rose.walk_map (Array.map g)
    (fun found n => if leaveOut (r.node n) then (found, .skip)
      else (Node.gather view found (r.node n), .descend))
    (fun found n => if leaveOut n then (found, .skip) else (Node.gather view found n, .descend))
    (by
      intro found n
      rw [hout, hgather]
      cases leaveOut n <;> rfl) #[] root.tree
  rw [Node.collectOutside, Node.walk, tree_node, Rose.walk_relabel]
  rw [Array.map_empty] at hwalk
  rw [hwalk, Node.collectOutside, Node.walk, Array.toList_map]

theorem preorder_marked_node {σ : Type} {step : σ → Node → Node → σ}
    (h : ∀ mark a b, step mark (r.node a) (r.node b) = step mark a b) (mark : σ) (root : Node) :
    ((r.node root).tree.marked step mark).preorder
      = (root.tree.marked step mark).preorder.map (Prod.map id r.node) := by
  rw [tree_node, Rose.marked_relabel r.node h, Rose.preorder_relabel]

/-! ## Collections -/

variable {α β : Type}

def located (f : α → β) (x : Located α) : Located β := ⟨f x.value, r.span x.span⟩

def binary (b : BinaryExpr) : BinaryExpr := ⟨r.expr b.left, b.op, r.expr b.right⟩

@[simp] theorem located_fields (f : α → β) (x : Located α) :
    (r.located f x).value = f x.value ∧ (r.located f x).span = r.span x.span :=
  ⟨rfl, rfl⟩

theorem query?_node (n : Node) : (r.node n).query? = n.query?.map r.query := by cases n <;> rfl

theorem body?_node (n : Node) : (r.node n).body? = n.body?.map r.body := by cases n <;> rfl

theorem core?_node (n : Node) : (r.node n).core? = n.core?.map r.core := by cases n <;> rfl

theorem view_node {view : Node → Option (Located α)} {f : α → α}
    (hexpr : ∀ kind span, view (.expr ⟨r.exprKind kind, r.span span⟩)
      = (view (.expr ⟨kind, span⟩)).map (r.located f))
    (hother : ∀ n, n.expr? = none → view n = none) (n : Node) :
    view (r.node n) = (view n).map (r.located f) := by
  cases n with
  | expr e => cases e; exact hexpr _ _
  | _ => rw [hother _ rfl, hother _ rfl]; rfl

theorem column?_node (n : Node) : (r.node n).column? = n.column?.map (r.located r.column) :=
  r.view_node (fun kind _ => by cases kind <;> rfl) (fun n h => by cases n <;> trivial) n

theorem case?_node (n : Node) : (r.node n).case? = n.case?.map (r.located r.caseExpr) :=
  r.view_node (fun kind _ => by cases kind <;> rfl) (fun n h => by cases n <;> trivial) n

theorem functions_node (root : Node) :
    (r.node root).functions = root.functions.map (r.located r.functionCall) :=
  r.collect_node (r.view_node (fun kind _ => by cases kind <;> rfl)
    (fun n h => by cases n <;> trivial)) root

theorem columns_node (root : Node) :
    (r.node root).columns = root.columns.map (r.located r.column) :=
  r.collect_node r.column?_node root

theorem cases_node (root : Node) : (r.node root).cases = root.cases.map (r.located r.caseExpr) :=
  r.collect_node r.case?_node root

theorem binaries_node (root : Node) :
    (r.node root).binaries = root.binaries.map (r.located r.binary) :=
  r.collect_node (r.view_node (fun kind _ => by cases kind <;> rfl)
    (fun n h => by cases n <;> trivial)) root

theorem tables_node (root : Node) : (r.node root).tables = root.tables.map r.table :=
  r.collect_node (fun n => by cases n <;> rfl) root

theorem joins_node (root : Node) : (r.node root).joins = root.joins.map r.join :=
  r.collect_node (fun n => by cases n <;> rfl) root

theorem cores_node (root : Node) : (r.node root).cores = root.cores.map r.core :=
  r.collect_node r.core?_node root

theorem queries_node (root : Node) : (r.node root).queries = root.queries.map r.query :=
  r.collect_node r.query?_node root

theorem setOperations_node (root : Node) :
    (r.node root).setOperations = root.setOperations.map r.setOperation := by
  have hview : ∀ b : Body, (r.body b).setOperation? = b.setOperation?.map r.setOperation := by
    intro b
    cases b <;> rfl
  rw [Node.setOperations, Node.bodies, r.collect_node r.body?_node, List.filterMap_map,
    Node.setOperations, Node.bodies, List.map_filterMap]
  simp only [Function.comp_def, hview]

theorem cteNames_node (root : Node) : (r.node root).cteNames = root.cteNames.map r.ident := by
  have hview : ∀ n : Node, (r.node n).cte? = n.cte?.map r.cte := by
    intro n
    cases n <;> rfl
  rw [Node.cteNames, r.collect_node hview, Node.cteNames]
  simp

theorem scopeColumns_core (c : Core) :
    (r.core c).scopeColumns = c.scopeColumns.map (r.located r.column) :=
  r.collectOutside_node (fun n => by rw [query?_node, Option.isSome_map]) r.column?_node (.core c)

/-! ## Parts -/

@[simp] theorem base?_name (n : ObjectName) : (r.name n).base? = n.base?.map r.ident := by
  simp [ObjectName.base?]

@[simp] theorem isQualified_column (c : ColumnRef) : (r.column c).isQualified = c.isQualified := by
  simp [ColumnRef.isQualified]

@[simp] theorem table?_column (c : ColumnRef) : (r.column c).table? = c.table?.map r.ident := by
  simp [ColumnRef.table?]

@[simp] theorem span_body (b : Body) : (r.body b).span = r.span b.span := by
  cases b <;> simp [body, Body.span]

@[simp] theorem isStar_item (i : SelectItem) : (r.item i).isStar = i.isStar := by
  cases i <;> simp [item, SelectItem.isStar]

@[simp] theorem expr?_item (i : SelectItem) : (r.item i).expr? = i.expr?.map r.expr := by
  cases i <;> simp [item, SelectItem.expr?]

@[simp] theorem alias?_item (i : SelectItem) : (r.item i).alias? = i.alias?.map r.ident := by
  cases i <;> simp [item, SelectItem.alias?]

@[simp] theorem span_table (t : TableRef) : (r.table t).span = r.span t.span := by
  cases t <;> simp [table, TableRef.span]

@[simp] theorem alias?_table (t : TableRef) : (r.table t).alias? = t.alias?.map r.ident := by
  cases t <;> simp [table, TableRef.alias?]

@[simp] theorem name?_table (t : TableRef) : (r.table t).name? = t.name?.map r.name := by
  cases t <;> simp [table, TableRef.name?]

@[simp] theorem subquery?_table (t : TableRef) :
    (r.table t).subquery? = t.subquery?.map r.query := by
  cases t <;> simp [table, TableRef.subquery?]

theorem baseName?_table (t : TableRef) :
    ((r.table t).name? >>= ObjectName.base?) = (t.name? >>= ObjectName.base?).map r.ident := by
  rw [name?_table]
  cases t.name? <;> simp

@[simp] theorem referenceName?_table (t : TableRef) :
    (r.table t).referenceName? = t.referenceName?.map r.ident := by
  rw [TableRef.referenceName?, baseName?_table, alias?_table, TableRef.referenceName?]
  cases t.alias? <;> simp

mutual

theorem tables_table : ∀ t : TableRef, (r.table t).tables = t.tables.map r.table
  | .nestedJoin f label span => by
    rw [table, TableRef.tables, tables_source f, TableRef.tables, List.map_cons, table]
  | .named _ _ _ | .derived _ _ _ | .lateral _ _ _ => rfl

theorem tables_source : ∀ f : FromClause, (r.source f).tables = f.tables.map r.table
  | ⟨first, js⟩ => by
    rw [source, FromClause.tables, tables_table first, joinedTables_joins js, FromClause.tables,
      List.map_append]

theorem joinedTables_joins : ∀ js : List Join,
    joinedTables (r.joins js) = (joinedTables js).map r.table
  | [] => rfl
  | ⟨_, _, t, _, _, _⟩ :: rest => by
    rw [joins, join, joinedTables, tables_table t, joinedTables_joins rest, joinedTables,
      List.map_append]

end

@[simp] theorem tables_core (c : Core) : (r.core c).tables = c.tables.map r.table := by
  rw [Core.tables, (r.core_fields c).2.2.1, Core.tables]
  cases c.source with
  | none => rfl
  | some f => exact r.tables_source f

@[simp] theorem hasStar_core (c : Core) : (r.core c).hasStar = c.hasStar := by
  simp [Core.hasStar, List.any_map, Function.comp_def]

mutual

theorem unnested_expr : ∀ e : Expr, (r.expr e).unnested = r.expr e.unnested
  | ⟨kind, span⟩ => by
    rw [expr, Expr.unnested, Expr.unnested]
    exact unnestedKind_exprKind ⟨kind, span⟩ kind

theorem unnestedKind_exprKind (outer : Expr) : ∀ kind : ExprKind,
    Expr.unnestedKind (r.expr outer) (r.exprKind kind) = r.expr (Expr.unnestedKind outer kind)
  | .nested e => by rw [exprKind, Expr.unnestedKind, unnested_expr e, Expr.unnestedKind]
  | .column _ | .literal _ | .unary _ _ | .binary _ _ _ | .function _ | .caseWhen _ | .cast _ _ _
  | .inList _ _ _ | .inSubquery _ _ _ | .between _ _ _ _ | .isNull _ _ | .isBool _ _ _
  | .like _ _ _ _ | .subquery _ | .existsIn _ _ | .index _ _ | .slice _ _ _ | .list _ | .struct _
  | .lambda _ _ | .field _ _ | .star _ | .raw _ => rfl

end

attribute [simp] unnested_expr

@[simp] theorem column?_expr (e : Expr) : (r.expr e).column? = e.column?.map r.column := by
  obtain ⟨kind, span⟩ := e
  cases kind <;> rfl

@[simp] theorem literal?_expr (e : Expr) : (r.expr e).literal? = e.literal? := by
  obtain ⟨kind, span⟩ := e
  cases kind <;> rfl

@[simp] theorem isNull_expr (e : Expr) : (r.expr e).isNull = e.isNull := by
  simp [Expr.isNull, Expr.isNullLiteral]

mutual

theorem branches_body : ∀ b : Body, (r.body b).branches = b.branches.map r.body
  | .core _ | .values _ _ => rfl
  | .setOperation o => by rw [body, Body.branches, branches_setOperation o, Body.branches]
  | .nested q => by rw [body, Body.branches, branches_query q, Body.branches]

theorem branches_setOperation : ∀ o : SetOperation,
    (r.setOperation o).branches = o.branches.map r.body
  | ⟨_, _, left, right, _⟩ => by
    rw [setOperation, SetOperation.branches, branches_body left, branches_body right,
      SetOperation.branches, List.map_append]

theorem branches_query : ∀ q : Query, (r.query q).branches = q.branches.map r.body
  | ⟨_, _, b, _, _, _, _⟩ => by rw [query, Query.branches, branches_body b, Query.branches]

end

mutual

theorem caseDepth_expr : ∀ e : Expr, (r.expr e).caseDepth = e.caseDepth
  | ⟨kind, _⟩ => by rw [expr, Expr.caseDepth, caseDepth_exprKind kind, Expr.caseDepth]

theorem caseDepth_exprKind : ∀ kind : ExprKind, (r.exprKind kind).caseDepth = kind.caseDepth
  | .nested e => by rw [exprKind, ExprKind.caseDepth, caseDepth_expr e, ExprKind.caseDepth]
  | .caseWhen c => by rw [exprKind, ExprKind.caseDepth, depth_caseExpr c, ExprKind.caseDepth]
  | .column _ | .literal _ | .unary _ _ | .binary _ _ _ | .function _ | .cast _ _ _
  | .inList _ _ _ | .inSubquery _ _ _ | .between _ _ _ _ | .isNull _ _ | .isBool _ _ _
  | .like _ _ _ _ | .subquery _ | .existsIn _ _ | .index _ _ | .slice _ _ _ | .list _ | .struct _
  | .lambda _ _ | .field _ _ | .star _ | .raw _ => rfl

theorem depth_caseExpr : ∀ c : CaseExpr, (r.caseExpr c).depth = c.depth
  | ⟨operand, branches, otherwise⟩ => by
    rw [caseExpr, CaseExpr.depth, optionDepth_expr? operand, branchesDepth_caseBranches branches,
      optionDepth_expr? otherwise, CaseExpr.depth]

theorem optionDepth_expr? : ∀ e : Option Expr, optionDepth (r.expr? e) = optionDepth e
  | none => rfl
  | some e => by rw [expr?, optionDepth, caseDepth_expr e, optionDepth]

theorem branchesDepth_caseBranches : ∀ bs : List CaseBranch,
    branchesDepth (r.caseBranches bs) = branchesDepth bs
  | [] => rfl
  | ⟨condition, result⟩ :: rest => by
    rw [caseBranches, branchesDepth, caseDepth_expr condition, caseDepth_expr result,
      branchesDepth_caseBranches rest, branchesDepth]

end

end Recast
end SqlLint
