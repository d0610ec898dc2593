import SqlLint.Parsed.Lower
import SqlLint.Tree.Collect
import SqlLint.Proofs.Parts
import Mathlib.Algebra.BigOperators.Group.List.Basic
import Mathlib.Algebra.Order.Group.Multiset

/-! # Lowering keeps every operand

What is kept under a node is the multiset of its column names, its queries and its tables. For each
function of the lowering, what is kept in its result is what is due for the parts it was given. Main
statement: `perm_statement`. -/

namespace SqlLint

/-! ## What is to be kept -/

/-- A name that stands where an expression stands, or a query or a table of the rules' tree. -/
inductive Trace where
  | path (parts : List Ident)
  | query (query : Query)
  | table (table : TableRef)

namespace Trace

def path? : Trace → Option (List Ident)
  | .path parts => some parts
  | .query _ | .table _ => none

def query? : Trace → Option Query
  | .query q => some q
  | .path _ | .table _ => none

def table? : Trace → Option TableRef
  | .table t => some t
  | .path _ | .query _ => none

end Trace

/-- Whether the table is a join in parentheses without an alias. -/
def TableRef.isBareJoin : TableRef → Bool
  | .nestedJoin _ none _ => true
  | _ => false

/-- Whether the table is a join in parentheses without an alias. Lowering may drop these. -/
def Parsed.Table.isBareJoin : Parsed.Table → Bool
  | .nestedJoin _ none _ => true
  | _ => false

/-- A column reference leaves its name. -/
def ExprKind.trace? : ExprKind → Option Trace
  | .column c => some (.path (c.qualifier ++ [c.name]))
  | _ => none

def Node.trace? : Node → Option Trace
  | .expr e => e.kind.trace?
  | .query q => some (.query q)
  | .table t => if t.isBareJoin then none else some (.table t)
  | _ => none

@[simp] def Parsed.Part.trace? : Parsed.Part → Option Trace
  | .expr e => e.path?.map .path
  | .query q => some (.query (Lower.query q))
  | .table t => if t.isBareJoin then none else some (.table (Lower.table t))
  | .select _ => none

/-- Whether the core has no clauses after its last condition. -/
def Core.NoTrailing (c : Core) : Prop := c.orderBy = [] ∧ c.limit = none ∧ c.offset = none

namespace Lower

def kept (n : Node) : Multiset Trace := ↑(n.preorder.filterMap Node.trace?)

def keptAll (ns : List Node) : Multiset Trace := (ns.map kept).sum

def due (parts : List Parsed.Part) : Multiset Trace := ↑(parts.filterMap Parsed.Part.trace?)

@[simp] theorem keptAll_nil : keptAll [] = 0 := rfl

@[simp] theorem keptAll_cons (n : Node) (ns : List Node) :
    keptAll (n :: ns) = kept n + keptAll ns := by
  simp [keptAll]

@[simp] theorem keptAll_append (ns ms : List Node) :
    keptAll (ns ++ ms) = keptAll ns + keptAll ms := by
  simp [keptAll]

/-- A node keeps its own trace and what is kept in its children. -/
theorem kept_eq (n : Node) : kept n = ↑n.trace?.toList + keptAll n.children := by
  have hchildren : ∀ ns : List Node, keptAll ns
      = ↑((Rose.preorders (ns.map Node.tree)).filterMap Node.trace?) := by
    intro ns
    induction ns with
    | nil => rfl
    | cons m ns ih => simp [ih, kept, Node.preorder, Rose.preorders]
  rw [kept, Node.preorder, Node.tree_eq, Rose.preorder, hchildren, List.filterMap_cons]
  cases n.trace? <;> rfl

theorem kept_inner (n : Node) (h : n.trace? = none) : kept n = keptAll n.children := by
  rw [kept_eq, h]
  exact zero_add _

@[simp] theorem due_nil : due [] = 0 := rfl

@[simp] theorem due_cons (p : Parsed.Part) (ps : List Parsed.Part) :
    due (p :: ps) = ↑p.trace?.toList + due ps := by
  rw [due, List.filterMap_cons]
  cases p.trace? <;> rfl

@[simp] theorem due_append (ps qs : List Parsed.Part) : due (ps ++ qs) = due ps + due qs := by
  simp [due]

/-! ## Single nodes -/

theorem kept_keywordCall (name : String) (args : List Expr) (span : Span) :
    kept (.expr ⟨keywordCall name args, span⟩) = keptAll (args.map .expr) := by
  rw [kept_inner _ rfl]
  simp [Node.children, ExprKind.children, keywordCall]

theorem kept_test (test : Parsed.Test) (negated : Bool) (e : Expr) (span : Span) :
    kept (.expr ⟨test.lower negated e, span⟩) = kept (.expr e) := by
  cases test <;>
  · rw [Parsed.Test.lower, kept_inner _ rfl]
    simp [Node.children, ExprKind.children]

theorem kept_match (kind : Parsed.Match) (negated : Bool) (e pattern : Expr) (span : Span) :
    kept (.expr ⟨kind.lower negated e pattern, span⟩) = kept (.expr e) + kept (.expr pattern) := by
  cases kind <;>
  · rw [Parsed.Match.lower, kept_inner _ rfl]
    simp [Node.children, ExprKind.children]

theorem kept_columnOfParts (parts : List Ident) (span : Span) :
    kept (.expr ⟨columnOfParts parts, span⟩)
      = due [.expr ⟨.compoundIdentifier parts, span⟩] := by
  rcases parts.eq_nil_or_concat' with rfl | ⟨qualifier, name, rfl⟩
  · rw [kept_inner _ rfl]
    rfl
  · have htrace : Parsed.Part.trace? (.expr ⟨.compoundIdentifier (qualifier ++ [name]), span⟩)
        = some (.path (qualifier ++ [name])) := by
      cases qualifier <;> rfl
    rw [kept_eq, due_cons, htrace]
    simp [columnOfParts, Node.trace?, ExprKind.trace?, Node.children, ExprKind.children]

theorem isBareJoin_table (t : Parsed.Table) : (table t).isBareJoin = t.isBareJoin := by
  cases t with
  | named name label span => rfl
  | derived lateral q label span => cases lateral <;> rfl
  | nestedJoin inner label span => cases label <;> rfl
  | rendered form text label span => rfl

theorem trace?_table (t : Parsed.Table) :
    Node.trace? (.table (table t)) = Parsed.Part.trace? (.table t) := by
  rw [Node.trace?, Parsed.Part.trace?, isBareJoin_table]

theorem structFields_map_value (es : List Parsed.Expr) :
    (structFields es).map StructField.value = exprs es := by
  induction es with
  | nil => rfl
  | cons e es ih =>
    obtain ⟨f, span⟩ := e
    cases f <;> simp [structFields, exprs, expr, form, ih]

theorem noTrailing_setExpr (b : Parsed.SetExpr) (c : Core) (h : setExpr b = .core c) :
    c.NoTrailing := by
  cases b with
  | select s =>
    cases s
    rw [setExpr, Body.core.injEq, select] at h
    exact h ▸ ⟨rfl, rfl, rfl⟩
  | other span =>
    rw [setExpr, Body.core.injEq] at h
    exact h ▸ ⟨rfl, rfl, rfl⟩
  | query q => simp [setExpr] at h
  | setOperation op quantifier left right span => simp [setExpr] at h
  | values rs span => simp [setExpr] at h

/-- No trailing clause is lost, wherever it is put, if the core had none before. -/
theorem kept_withTrailing (recursive : Bool) (ctes : List Cte) (body : Body)
    (orderBy : List OrderBy) (limit offset : Option Expr) (span : Span)
    (h : ∀ c, body = .core c → c.NoTrailing) :
    let q := Query.withTrailing recursive ctes body orderBy limit offset span
    kept (.query q) = {.query q} + keptAll (ctes.map .cte) + kept (.body body)
      + keptAll (orderBy.map .orderBy) + keptAll (limit.toList.map .expr)
      + keptAll (offset.toList.map .expr) := by
  intro q
  rw [kept_eq]
  cases body with
  | core c =>
    obtain ⟨horder, hlimit, hoffset⟩ := h c rfl
    have hcore : ∀ c : Core, kept (.body (.core c)) = keptAll (Node.core c).children := by
      intro c
      simp [kept_inner (.body _) rfl, kept_inner (.core c) rfl, Node.children]
    simp only [hcore]
    simp [q, Query.withTrailing, Node.trace?, Node.children, hcore, horder, hlimit, hoffset,
      add_assoc]
  | setOperation operation => simp [q, Query.withTrailing, Node.trace?, Node.children, add_assoc]
  | nested inner => simp [q, Query.withTrailing, Node.trace?, Node.children, add_assoc]
  | values rows at' => simp [q, Query.withTrailing, Node.trace?, Node.children, add_assoc]

/-! ## The whole tree

One statement for each function of the lowering. The induction is on the parser's tree, and a
lowered part is taken apart no further than the function builds it. -/

mutual

theorem kept_expr : ∀ e : Parsed.Expr, kept (.expr (expr e)) = due (Parsed.Parts.expr e)
  | ⟨f, span⟩ => by rw [expr, Parsed.Parts.expr, kept_form span f]

theorem kept_form (span : Span) : ∀ f : Parsed.Form,
    kept (.expr (form span f)) = due (.expr ⟨f, span⟩ :: Parsed.Parts.form f)
  | .identifier i => by
    rw [form, kept_eq]
    simp [Node.trace?, ExprKind.trace?, Node.children, ExprKind.children]
  | .compoundIdentifier parts => by rw [form, Parsed.Parts.form, kept_columnOfParts]
  | .value _ | .wildcard | .qualifiedWildcard _ | .other _ => by
    rw [form, kept_inner _ rfl]
    simp [Node.children, ExprKind.children]
  | .named e _ => by simp [form, kept_expr e]
  | .unary _ e | .cast _ e _ | .nested e | .lambda _ e | .outerJoin e | .prior e
  | .jsonAccess e _ => by
    rw [form, kept_inner _ rfl]
    simp [Node.children, ExprKind.children, kept_expr e]
  | .is test negated e => by
    rw [form, kept_test]
    simp [kept_expr e]
  | .extract e | .collate e | .interval e => by
    rw [form, kept_keywordCall]
    simp [kept_expr e]
  | .round _ e scale => by
    rw [form, kept_keywordCall]
    cases scale <;>
      simp [kept_expr e, kept_inner (.expr ⟨.literal _, _⟩) rfl, Node.children, ExprKind.children]
  | .binary l _ r | .isDistinctFrom _ l r | .quantified l _ _ r | .atTimeZone l r => by
    rw [form, kept_inner _ rfl]
    simp [Node.children, ExprKind.children, kept_expr l, kept_expr r]
  | .matching _ _ l r => by
    rw [form, kept_match]
    simp [kept_expr l, kept_expr r]
  | .position l r => by
    rw [form, kept_keywordCall]
    simp [kept_expr l, kept_expr r]
  | .inUnnest l r _ => by
    rw [form, kept_inner _ rfl]
    simp [Node.children, ExprKind.children, kept_keywordCall, kept_expr l, kept_expr r]
  | .between e low high _ => by
    rw [form, kept_inner _ rfl]
    simp [Node.children, ExprKind.children, kept_expr e, kept_expr low, kept_expr high]
  | .function f => by
    rw [form, kept_inner _ rfl, Node.children, kept_function span f]
    simp
  | .caseWhen operand conditions otherwise => by
    rw [form, kept_inner _ rfl]
    simp [Node.children, ExprKind.children, kept_expr? operand, kept_branches conditions,
      kept_expr? otherwise]
  | .inList e es _ => by
    rw [form, kept_inner _ rfl]
    simp [Node.children, ExprKind.children, kept_expr e, kept_exprs es]
  | .convert _ e es => by
    rw [form, kept_keywordCall]
    simp [kept_expr e, kept_exprs es]
  | .inSubquery e q _ => by
    rw [form, kept_inner _ rfl]
    simp [Node.children, ExprKind.children, kept_expr e, kept_query q]
  | .subquery q | .existsIn q _ => by
    rw [form, kept_inner _ rfl]
    simp [Node.children, ExprKind.children, kept_query q]
  | .access root chain => by
    rw [form, kept_accesses span chain, kept_expr root]
    simp
  | .tuple es | .array es => by
    rw [form, kept_inner _ rfl]
    simp [Node.children, ExprKind.children, kept_exprs es]
  | .struct es => by
    have hfields : (structFields es).map (fun f => Node.expr f.value) = (exprs es).map .expr := by
      simp [← structFields_map_value]
    rw [form, kept_inner _ rfl]
    simp [Node.children, ExprKind.children, hfields, kept_exprs es]
  | .substring e start length => by
    rw [form, kept_keywordCall]
    simp [kept_expr e, kept_expr? start, kept_expr? length]
  | .trim e what characters => by
    -- The call has the characters to be trimmed before the text.
    rw [form, kept_keywordCall]
    simp [kept_expr e, kept_expr? what, kept_exprs characters, add_left_comm]
  | .overlay e what start length => by
    rw [form, kept_keywordCall]
    simp [kept_expr e, kept_expr what, kept_expr start, kept_expr? length]
  | .grouping _ sets => by
    rw [form, kept_keywordCall, kept_groupingSets span sets]
    simp

theorem kept_exprs : ∀ es : List Parsed.Expr,
    keptAll ((exprs es).map .expr) = due (Parsed.Parts.exprs es)
  | [] => by simp [exprs]
  | e :: es => by simp [exprs, kept_expr e, kept_exprs es]

theorem kept_expr? : ∀ e : Option Parsed.Expr,
    keptAll ((expr? e).toList.map .expr) = due (Parsed.Parts.expr? e)
  | none => by simp [expr?]
  | some e => by simp [expr?, kept_expr e]

theorem kept_groupingSets (span : Span) : ∀ sets : List (List Parsed.Expr),
    keptAll ((groupingSets span sets).map .expr) = due (Parsed.Parts.rows sets)
  | [] => by simp [groupingSets]
  | set :: rest => by
    simp [groupingSets, kept_inner (.expr ⟨.list _, _⟩) rfl, Node.children, ExprKind.children,
      kept_exprs set, kept_groupingSets span rest]

theorem kept_rows : ∀ rs : List (List Parsed.Expr),
    keptAll ((rows rs).flatten.map .expr) = due (Parsed.Parts.rows rs)
  | [] => by simp [rows]
  | row :: rest => by
    rw [rows, List.flatten_cons, List.map_append, keptAll_append, kept_exprs row, kept_rows rest,
      Parsed.Parts.rows, due_append]

theorem kept_accesses (span : Span) : ∀ (chain : List Parsed.Access) (root : Expr),
    kept (.expr (accesses span root chain))
      = kept (.expr root) + due (Parsed.Parts.accesses chain)
  | [], root => by simp [accesses]
  | a :: rest, root => by
    rw [accesses, kept_accesses span rest, kept_access span a, Parsed.Parts.accesses, due_append,
      add_assoc]

theorem kept_access (span : Span) : ∀ (a : Parsed.Access) (root : Expr),
    kept (.expr ⟨access root a, span⟩) = kept (.expr root) + due (Parsed.Parts.access a)
  | .index i, root => by
    rw [access, kept_inner _ rfl]
    simp [Node.children, ExprKind.children, kept_expr i]
  | .slice lower upper, root => by
    rw [access, kept_inner _ rfl]
    simp [Node.children, ExprKind.children, kept_expr? lower, kept_expr? upper]
  | .field _, root | .fieldText _, root => by
    rw [access, kept_inner _ rfl]
    simp [Node.children, ExprKind.children]

theorem kept_branches : ∀ whens : List Parsed.When,
    keptAll ((branches whens).flatMap fun b => [.expr b.condition, .expr b.result])
      = due (Parsed.Parts.whens whens)
  | [] => by simp [branches]
  | ⟨condition, result⟩ :: rest => by
    simp [branches, kept_expr condition, kept_expr result, kept_branches rest]

theorem kept_function (span : Span) : ∀ f : Parsed.Function,
    keptAll (ExprKind.function (function span f)).children = due (Parsed.Parts.function f)
  | ⟨name, args, filter, w⟩ => by
    simp [function, ExprKind.children, kept_arguments span args, kept_expr? filter,
      kept_window? w]

theorem kept_arguments (span : Span) : ∀ args : Parsed.Arguments,
    keptAll ((arguments span args).map .expr) = due (Parsed.Parts.arguments args)
  | .none => by simp [arguments]
  | .subquery q => by
    simp [arguments, kept_inner (.expr ⟨.subquery _, _⟩) rfl, Node.children, ExprKind.children,
      kept_query q]
  | .list _ args => by
    rw [arguments, Parsed.Parts.arguments, kept_argumentList span args]

theorem kept_argumentList (span : Span) : ∀ args : List Parsed.Argument,
    keptAll ((argumentList span args).map .expr) = due (Parsed.Parts.argumentList args)
  | [] => by simp [argumentList]
  | a :: rest => by
    simp [argumentList, kept_argument span a, kept_argumentList span rest]

theorem kept_argument (span : Span) : ∀ a : Parsed.Argument,
    kept (.expr (argument span a)) = due (Parsed.Parts.argument a)
  | .expr e => by rw [argument, Parsed.Parts.argument, kept_expr e]
  | .qualifiedWildcard _ | .wildcard => by
    rw [argument, kept_inner _ rfl]
    simp [Node.children, ExprKind.children]

theorem kept_window? : ∀ w : Option Parsed.Over,
    keptAll ((window? w).toList.flatMap
      fun w => w.partitionBy.map .expr ++ w.orderBy.map .orderBy) = due (Parsed.Parts.window? w)
  | none => by simp [window?]
  | some w => by simp [window?, kept_window w]

theorem kept_window : ∀ w : Parsed.Over,
    keptAll ((window w).partitionBy.map .expr) + keptAll ((window w).orderBy.map .orderBy)
      = due (Parsed.Parts.window w)
  | .window _ partitionBy orderBy => by
    simp [window, kept_exprs partitionBy, kept_sortKeys orderBy]
  | .named _ => by simp [window]

theorem kept_sortKeys : ∀ keys : List Parsed.SortKey,
    keptAll ((sortKeys keys).map .orderBy) = due (Parsed.Parts.sortKeys keys)
  | [] => by simp [sortKeys]
  | ⟨e, _, _⟩ :: rest => by
    simp [sortKeys, kept_inner (.orderBy _) rfl, Node.children, kept_expr e, kept_sortKeys rest]

theorem kept_sortClause : ∀ clause : Parsed.SortClause,
    keptAll ((sortClause clause).map .orderBy) = due (Parsed.Parts.sortClause clause)
  | .keys keys => by rw [sortClause, Parsed.Parts.sortClause, kept_sortKeys keys]
  | .all => by simp [sortClause]

theorem kept_limitClause : ∀ clause : Parsed.LimitClause,
    keptAll ((limit clause).toList.map .expr) + keptAll ((offset clause).toList.map .expr)
      = due (Parsed.Parts.limitClause clause)
  | .none => by simp [limit, offset]
  | .limitOffset l o => by simp [limit, offset, kept_expr? l, kept_expr? o]
  | .offsetCommaLimit o l => by
    -- Here the offset is written first.
    simp [limit, offset, kept_expr l, kept_expr o, add_comm]

theorem kept_query : ∀ q : Parsed.Query, kept (.query (query q)) = due (Parsed.Parts.query q)
  | ⟨recursive, ctes, body, orderBy, clause, span⟩ => by
    rw [query, kept_withTrailing _ _ _ _ _ _ _ (noTrailing_setExpr body), kept_cteList ctes,
      kept_setExpr body, kept_sortClause orderBy, add_assoc _ _ (keptAll _),
      kept_limitClause clause]
    simp [query, add_assoc]

theorem kept_cteList : ∀ ctes : List Parsed.Cte,
    keptAll ((cteList ctes).map .cte) = due (Parsed.Parts.cteList ctes)
  | [] => by simp [cteList]
  | ⟨_, q, _⟩ :: rest => by
    simp [cteList, kept_inner (.cte _) rfl, Node.children, kept_query q, kept_cteList rest]

theorem kept_setExpr : ∀ b : Parsed.SetExpr,
    kept (.body (setExpr b)) = due (Parsed.Parts.setExpr b)
  | .select s => by
    simp [setExpr, kept_inner (.body _) rfl, Node.children, kept_select s]
  | .query q => by
    simp [setExpr, kept_inner (.body _) rfl, Node.children, kept_query q]
  | .setOperation _ _ left right _ => by
    rw [setExpr, kept_inner _ rfl]
    simp [Node.children, kept_setExpr left, kept_setExpr right]
  | .values rs _ => by
    rw [setExpr, kept_inner _ rfl]
    simp only [Node.children, kept_rows rs]
    simp [Parsed.Parts.setExpr]
  | .other _ => by
    simp [setExpr, kept_inner (.body _) rfl, kept_inner (.core _) rfl, kept_inner (.item _) rfl,
      Node.children, starCore, SelectItem.expr?]

theorem kept_select : ∀ s : Parsed.Select,
    kept (.core (select s)) = due (Parsed.Parts.select s)
  | ⟨_, projection, from?, selection, groupBy, having, qualify, _⟩ => by
    rw [select, kept_inner _ rfl]
    simp [Node.children, kept_projections projection, kept_source from?, kept_expr? selection,
      kept_groupClause groupBy, kept_expr? having, kept_expr? qualify]

theorem kept_groupClause : ∀ clause : Parsed.GroupClause,
    keptAll ((groupClause clause).map .expr) = due (Parsed.Parts.groupClause clause)
  | .exprs es => by rw [groupClause, Parsed.Parts.groupClause, kept_exprs es]
  | .all => by simp [groupClause]

theorem kept_projections : ∀ ps : List Parsed.Projection,
    keptAll ((projections ps).map .item) = due (Parsed.Parts.projections ps)
  | [] => by simp [projections]
  | p :: rest => by
    simp [projections, kept_projection p, kept_projections rest]

theorem kept_projection : ∀ p : Parsed.Projection,
    kept (.item (projection p)) = due (Parsed.Parts.projection p)
  | .unnamed e | .aliased e _ => by
    simp [projection, kept_inner (.item _) rfl, Node.children, SelectItem.expr?, kept_expr e]
  | .exprWildcard _ _ => by
    simp [projection, kept_inner (.item _) rfl, kept_inner (.expr ⟨.raw _, _⟩) rfl, Node.children,
      SelectItem.expr?, ExprKind.children]
  | .qualifiedWildcard _ _ | .wildcard _ => by
    simp [projection, kept_inner (.item _) rfl, Node.children, SelectItem.expr?]

theorem kept_source : ∀ ts : List Parsed.TableWithJoins,
    keptAll ((source ts).toList.map .source) = due (Parsed.Parts.tablesWithJoins ts)
  | [] => by simp [source]
  | t :: rest => by
    simp [source, kept_inner (.source _) rfl, Node.children, ← kept_tableWithJoins t,
      kept_commaTables rest, add_assoc]

theorem kept_commaTables : ∀ ts : List Parsed.TableWithJoins,
    keptAll ((commaTables ts).map .join) = due (Parsed.Parts.tablesWithJoins ts)
  | [] => by simp [commaTables]
  | t :: rest => by
    simp [commaTables, kept_inner (.join _) rfl, Node.children, ← kept_tableWithJoins t,
      kept_commaTables rest, add_assoc]

/-- Dropping parentheses moves the tables inside and keeps them all. -/
theorem kept_tableWithJoins : ∀ t : Parsed.TableWithJoins,
    kept (.table (tableWithJoins t).1) + keptAll ((tableWithJoins t).2.map .join)
      = due (Parsed.Parts.tableWithJoins t)
  | ⟨.nestedJoin inner none _, js⟩ => by
    simp [tableWithJoins, ← kept_tableWithJoins inner, kept_joins js, Parsed.Table.isBareJoin,
      add_assoc]
  | ⟨.nestedJoin inner (some label) span, js⟩ => by
    -- With an alias the parentheses stay.
    rw [tableWithJoins, Parsed.Parts.tableWithJoins, due_append,
      kept_table (.nestedJoin inner (some label) span), kept_joins js]
    nofun
  | ⟨.named name label span, js⟩ => by
    simp [tableWithJoins, kept_table (.named name label span), kept_joins js]
  | ⟨.derived lateral q label span, js⟩ => by
    simp [tableWithJoins, kept_table (.derived lateral q label span), kept_joins js, add_assoc]
  | ⟨.rendered form text label span, js⟩ => by
    simp [tableWithJoins, kept_table (.rendered form text label span), kept_joins js]

theorem kept_joins : ∀ js : List Parsed.Join,
    keptAll ((joins js).map .join) = due (Parsed.Parts.joins js)
  | [] => by simp [joins]
  | j :: rest => by simp [joins, kept_join j, kept_joins rest]

theorem kept_join : ∀ j : Parsed.Join, kept (.join (join j)) = due (Parsed.Parts.join j)
  | ⟨_, relation, constraint, _⟩ => by
    rw [join, kept_inner _ rfl]
    simp [Node.children, kept_table relation, kept_condition constraint]

theorem kept_condition : ∀ c : Parsed.Constraint,
    keptAll ((condition c).toList.map .expr) = due (Parsed.Parts.condition c)
  | .on e => by simp [condition, kept_expr e]
  | .columns _ | .natural | .none => by simp [condition]

theorem kept_table : ∀ t : Parsed.Table, kept (.table (table t)) = due (Parsed.Parts.table t)
  | .named _ _ _ | .rendered _ _ _ _ => by
    rw [kept_eq, trace?_table]
    simp [table, Parsed.TableForm.lower, Node.children]
  | .derived lateral q _ _ => by
    rw [kept_eq, trace?_table]
    cases lateral <;> simp [table, Node.children, kept_query q]
  | .nestedJoin inner _ _ => by
    rw [kept_eq, trace?_table]
    simp [table, Node.children, kept_inner (.source _) rfl, ← kept_tableWithJoins inner]

end

theorem kept_statement (s : Parsed.Statement) :
    kept (.statement (statement s)) = due s.parts := by
  rw [kept_inner _ rfl, Node.children]
  cases s with
  | query q => simp [statement, Statement.query?, Parsed.Statement.parts, kept_query q]
  | insert source span =>
    cases source <;> simp [statement, Statement.query?, Parsed.Statement.parts, kept_query]
  | createView name q span =>
    simp [statement, Statement.query?, Parsed.Statement.parts, kept_query q]
  | createTable name q span =>
    cases q <;> simp [statement, Statement.query?, Parsed.Statement.parts, kept_query]
  | other text span => simp [statement, Statement.query?, Parsed.Statement.parts]

/-! ## Views of what is kept -/

section

variable {α : Type} {n : Node} {parts : List Parsed.Part}

theorem perm_traces (h : kept n = due parts) (view : Trace → Option α) :
    (n.preorder.filterMap fun m => m.trace?.bind view).Perm
      (parts.filterMap fun p => p.trace?.bind view) := by
  have htraces : (n.preorder.filterMap Node.trace?).Perm
      (parts.filterMap Parsed.Part.trace?) := Multiset.coe_eq_coe.mp h
  have hview := htraces.filterMap view
  rwa [List.filterMap_filterMap, List.filterMap_filterMap] at hview

theorem trace?_bind (n : Node) (view : Trace → Option α) :
    n.trace?.bind view
      = ((n.column?.bind fun c => view (.path (c.value.qualifier ++ [c.value.name]))).or
          (n.query?.bind fun q => view (.query q))).or
        ((n.table?.bind (Option.guard (!·.isBareJoin))).bind fun t => view (.table t)) := by
  cases n with
  | expr e =>
    obtain ⟨kind, span⟩ := e
    cases kind with
    | column c =>
      simp only [Node.query?, Node.table?, Option.bind_none, Option.or_none]
      rfl
    | _ => rfl
  | query q => exact (Option.or_none ..).symm
  | table t =>
    cases h : t.isBareJoin <;>
      simp [Node.trace?, Node.column?, Node.query?, Node.table?, Option.guard, h]
  | _ => rfl

theorem part_trace?_bind (p : Parsed.Part) (view : Trace → Option α) :
    p.trace?.bind view
      = ((p.path?.bind fun parts => view (.path parts)).or
          (p.query?.bind fun q => view (.query (query q)))).or
        ((p.table?.bind (Option.guard (!·.isBareJoin))).bind fun t => view (.table (table t))) := by
  cases p with
  | expr e =>
    simp only [Parsed.Part.trace?, Parsed.Part.path?, Parsed.Part.query?, Parsed.Part.table?,
      Option.bind_none, Option.or_none, Option.bind_map]
    rfl
  | query q => exact (Option.or_none ..).symm
  | table t => cases h : t.isBareJoin <;> simp [Parsed.Part.table?, Option.guard, h]
  | select s => rfl

theorem perm_columns (h : kept n = due parts) :
    (n.columns.map fun c => c.value.qualifier ++ [c.value.name]).Perm
      (parts.filterMap Parsed.Part.path?) := by
  have hpaths := perm_traces h Trace.path?
  simp only [trace?_bind, part_trace?_bind, Trace.path?, Option.bind_fun_none, Option.or_none,
    Option.bind_fun_some] at hpaths
  rw [Node.columns, Node.collect_eq, List.map_filterMap]
  simp only [Option.map_eq_bind, Function.comp_def]
  exact hpaths

theorem perm_queries (h : kept n = due parts) :
    n.queries.Perm ((parts.filterMap Parsed.Part.query?).map query) := by
  have hqueries := perm_traces h Trace.query?
  simp only [trace?_bind, part_trace?_bind, Trace.query?, Option.bind_fun_none, Option.or_none,
    Option.none_or, Option.bind_fun_some] at hqueries
  rw [Node.queries, Node.collect_eq, List.map_filterMap]
  simp only [Option.map_eq_bind, Function.comp_def]
  exact hqueries

end

/-- Lowering loses and duplicates no column name and no query. -/
theorem perm_statement (s : Parsed.Statement) :
    let lowered := Node.statement (statement s)
    (lowered.columns.map fun c => c.value.qualifier ++ [c.value.name]).Perm
        (s.parts.filterMap Parsed.Part.path?)
      ∧ lowered.queries.Perm ((s.parts.filterMap Parsed.Part.query?).map query) :=
  ⟨perm_columns (kept_statement s), perm_queries (kept_statement s)⟩

end Lower
end SqlLint
