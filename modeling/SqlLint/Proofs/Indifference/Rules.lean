import SqlLint.Catalog
import SqlLint.Proofs.Indifference.Lens

/-! # No rule sees what a lens hides

For each rule: what it compares is the same in both recasts, and its reports look alike. Main
statement: `indifferent_builtinRules`. -/

namespace SqlLint.Rules

open Lens

variable {l : Lens} {r q : Recast}

/-! ## Aliases -/

theorem map_repeats {β : Type} (h : l.Hides r q) {f g : Ident → β}
    (hfg : ∀ i, f (r.ident i) = g (q.ident i)) (is : List Ident) (seen : List String) :
    (repeats seen (is.map r.ident)).map f = (repeats seen (is.map q.ident)).map g := by
  -- The keys seen so far grow alike on both sides.
  induction is generalizing seen with
  | nil => rfl
  | cons i is ih =>
    rw [List.map_cons, List.map_cons, repeats, repeats, h.key i]
    split
    · rw [List.map_cons, List.map_cons, hfg i, ih]
    · exact ih _

theorem columnAliases_core (r : Recast) (c : Core) :
    columnAliases (r.core c) = (columnAliases c).map r.ident := by
  simp only [columnAliases, Recast.core_fields, List.filterMap_map, List.map_filterMap,
    Function.comp_def, Recast.alias?_item]

theorem tableAliases_map (r : Recast) (ts : List TableRef) :
    (ts.map r.table).filterMap TableRef.alias? = (ts.filterMap TableRef.alias?).map r.ident := by
  simp only [List.filterMap_map, List.map_filterMap, Function.comp_def, Recast.alias?_table]

theorem ExpressionAlias.needsAlias_expr (r : Recast) (allowScalar : Bool) (e : Expr) :
    needsAlias allowScalar (r.expr e) = needsAlias allowScalar e := by
  simp only [needsAlias, Recast.unnested_expr, Recast.expr_fields]
  cases e.unnested.kind with
  | unary op inner => cases op <;> simp [Recast.exprKind]
  | _ => rfl

theorem ExpressionAlias.indifferent (h : l.Hides r q) : l.Indifferent r q check := by
  intro s ctx
  simp only [check, ← Recast.node_statement, Recast.cores_node]
  refine flatMap_view fun c => ?_
  simp only [Recast.core_fields, List.zipIdx_map]
  refine filterMap_view ?_
  rintro ⟨item, index⟩
  cases item with
  | expr e label =>
    cases label with
    | none =>
      simp only [Prod.map, checkItem, Recast.item, Option.map_none, needsAlias_expr]
      split
      · exact congrArg some (view_report rfl fun hl => by simp [h.span hl])
      · rfl
    | some label => rfl
  | _ => rfl

theorem UniqueTableAlias.indifferent (h : l.Hides r q) : l.Indifferent r q check := by
  intro s ctx
  simp only [check, ← Recast.node_statement, Recast.cores_node]
  refine flatMap_view fun c => ?_
  simp only [Recast.tables_core, List.filterMap_map, Function.comp_def,
    Recast.referenceName?_table, ← List.map_filterMap, List.map_map]
  refine map_repeats h (fun i => view_report ?_ fun hl => h.identSpan hl i) _ _
  simp only [h.append, h.shown]

theorem UniqueColumnAlias.indifferent (h : l.Hides r q) : l.Indifferent r q check := by
  intro s ctx
  simp only [check, ← Recast.node_statement, Recast.cores_node]
  refine flatMap_view fun c => ?_
  simp only [columnAliases_core, List.map_map]
  refine map_repeats h (fun i => view_report ?_ fun hl => h.identSpan hl i) _ _
  simp only [h.append, h.shown]

theorem AliasLength.indifferent (h : l.Hides r q) : l.Indifferent r q check := by
  intro s ctx
  simp only [check, ← Recast.node_statement, Recast.tables_node, tableAliases_map]
  refine filterMap_view fun i => ?_
  simp only [complaint?, h.length]
  split
  · exact congrArg some (view_report (by simp only [h.append, h.shown]) fun hl => h.identSpan hl i)
  · split
    · exact congrArg some
        (view_report (by simp only [h.append, h.shown]) fun hl => h.identSpan hl i)
    · rfl

theorem SelfAlias.indifferent (h : l.Hides r q) : l.Indifferent r q check := by
  intro s ctx
  simp only [check, ← Recast.node_statement, Recast.cores_node]
  refine flatMap_view fun c => ?_
  simp only [Recast.core_fields]
  refine filterMap_view fun item => ?_
  simp only [checkItem, Recast.expr?_item, Recast.alias?_item]
  cases item.expr? with
  | none => rfl
  | some e =>
    simp only [Option.map_some, Option.bind_eq_bind, Option.bind_some, Recast.unnested_expr,
      Recast.column?_expr]
    cases e.unnested.column? with
    | none => rfl
    | some c =>
      cases item.alias? with
      | none => rfl
      | some label =>
        simp only [Option.map_some, Option.bind_some, Recast.column_fields, h.equivalent]
        split
        · refine congrArg some (view_fixable ?_ ?_)
          · simp only [h.append, h.shown, h.columnShown]
          · exact fun hl => h.itemSpan hl item
        · rfl

theorem UnusedAlias.qualifier?_node (r : Recast) (n : Node) :
    qualifier? (r.node n) = (qualifier? n).map r.ident := by
  cases n with
  | item i => cases i <;> simp [Recast.node, Recast.item, qualifier?]
  | expr e =>
    obtain ⟨kind, span⟩ := e
    cases kind with
    | column c => exact r.table?_column c
    | star n => cases n <;> simp [Recast.node, Recast.expr, Recast.exprKind, qualifier?]
    | _ => rfl
  | _ => rfl

theorem UnusedAlias.usedQualifiers_core (h : l.Hides r q) (c : Core) :
    usedQualifiers (r.core c) = usedQualifiers (q.core c) := by
  have hcollect : ∀ r : Recast, (Node.core (r.core c)).collect qualifier?
      = ((Node.core c).collect qualifier?).map r.ident :=
    fun r => r.collect_node (qualifier?_node r) (.core c)
  rw [usedQualifiers, usedQualifiers, hcollect, hcollect, h.keys]

theorem UnusedAlias.indifferent (h : l.Hides r q) : l.Indifferent r q check := by
  have hnamed : ∀ (r : Recast) (t : TableRef),
      namedAlias? (r.table t) = (namedAlias? t).map r.ident := by
    intro r t
    cases t <;> simp [Recast.table, namedAlias?]
  intro s ctx
  simp only [check, ← Recast.node_statement, Recast.cores_node]
  refine flatMap_view fun c => ?_
  simp only [Recast.tables_core, List.filterMap_map, Function.comp_def, hnamed,
    ← List.map_filterMap, usedQualifiers_core h]
  refine filter_view (fun i => by rw [h.key]) fun i => view_report ?_ fun hl => h.identSpan hl i
  simp only [h.append, h.shown]

/-! ## Ambiguous queries -/

theorem DistinctWithGroupBy.indifferent (h : l.Hides r q) : l.Indifferent r q check := by
  intro s ctx
  simp only [check, ← Recast.node_statement, Recast.cores_node]
  refine filter_view (fun c => by simp) fun c => ?_
  exact view_fixable rfl fun hl => by simp [h.span hl]

theorem BareUnion.indifferent (h : l.Hides r q) : l.Indifferent r q check := by
  intro s ctx
  simp only [check, ← Recast.node_statement, Recast.setOperations_node]
  exact filter_view (fun o => by simp) fun o => view_report rfl fun hl => by simp [h.span hl]

theorem AmbiguousOrderBy.clauses_node (r : Recast) (root : Node) :
    clauses (r.node root) = (clauses root).map (·.map r.orderBy) := by
  simp only [clauses, Recast.cores_node, Recast.queries_node, List.map_append, List.map_map,
    Function.comp_def, Recast.core_fields, Recast.query_fields]

theorem AmbiguousOrderBy.indifferent (h : l.Hides r q) : l.Indifferent r q check := by
  intro s ctx
  simp only [check, ← Recast.node_statement, clauses_node]
  refine filter_view (fun keys => ?_) fun keys => view_report rfl fun hl => ?_
  · simp only [mixesDirections, List.any_map, Function.comp_def, Recast.orderBy_fields]
  · simp only [List.map_map, Function.comp_def, Recast.orderBy_fields, Recast.expr_fields,
      h.span hl]

theorem ColumnCount.chainRoots_node (r : Recast) (root : Node) :
    chainRoots (r.node root) = (chainRoots root).map r.body := by
  -- Operands of a chain are marked by the form of the node above, never by what they hold.
  have hstep : ∀ mark a b, chainStep mark (r.node a) (r.node b) = chainStep mark a b := by
    intro mark a b
    cases a with
    | body x => cases x <;> cases b <;> rfl
    | _ => cases b <;> rfl
  have hroot : ∀ x : Bool × Node,
      chainRoot? (Prod.map id r.node x) = (chainRoot? x).map r.body := by
    rintro ⟨mark, n⟩
    cases mark with
    | true => rfl
    | false =>
      cases n with
      | body x => cases x <;> rfl
      | _ => rfl
  rw [chainRoots, r.preorder_marked_node hstep, List.filterMap_map, chainRoots, List.map_filterMap]
  exact congrArg (List.filterMap · _) (funext hroot)

theorem ColumnCount.columnCount?_body (r : Recast) (b : Body) :
    columnCount? (r.body b) = columnCount? b := by
  cases b with
  | core c => simp [Recast.body, columnCount?]
  | values rows span => simp [Recast.body, columnCount?, Function.comp_def]
  | _ => rfl

theorem ColumnCount.indifferent (h : l.Hides r q) : l.Indifferent r q check := by
  intro s ctx
  simp only [check, ← Recast.node_statement, chainRoots_node]
  refine flatMap_view fun chain => ?_
  simp only [checkChain, Recast.branches_body]
  cases chain.branches with
  | nil => rfl
  | cons first rest =>
    simp only [List.map_cons, columnCount?_body]
    cases columnCount? first with
    | none => rfl
    | some expected =>
      simp only [List.zipIdx_map]
      refine filterMap_view fun (branch, index) => ?_
      simp only [Prod.map, id, checkBranch, columnCount?_body]
      cases columnCount? branch with
      | none => rfl
      | some actual =>
        simp only [Option.bind_eq_bind, Option.bind_some]
        split
        · rfl
        · refine congrArg some (congrArg (Diagnostic.withImpact · .critical) (view_report rfl ?_))
          exact fun hl => by simp [h.span hl]

theorem BareJoin.indifferent (h : l.Hides r q) : l.Indifferent r q check := by
  intro s ctx
  simp only [check, ← Recast.node_statement, Recast.joins_node]
  refine filter_view (fun j => by simp) fun j => ?_
  exact view_fixable rfl fun hl => by simp [h.span hl]

theorem ColumnReferences.checkItems_map (h : l.Hides r q) (ctx : Context) (style : Style)
    (es : List Expr) :
    (checkItems ctx style (es.map r.expr)).map l.view
      = (checkItems ctx style (es.map q.expr)).map l.view := by
  have hpositional : ∀ (r : Recast) (e : Expr), isPositional (r.expr e) = isPositional e := by
    intro r e
    simp [isPositional]
  have hexpected : ∀ r : Recast, expected style (es.map r.expr) = expected style es := by
    intro r
    cases style with
    | consistent => cases es <;> simp [expected, hpositional]
    | _ => rfl
  simp only [checkItems, hexpected]
  refine filter_view (fun e => by rw [hpositional, hpositional]) fun e => ?_
  simp only [hpositional]
  exact view_report rfl fun hl => by simp [h.span hl]

theorem ColumnReferences.indifferent (h : l.Hides r q) : l.Indifferent r q check := by
  have hkeys : ∀ (r : Recast) (os : List OrderBy),
      (os.map r.orderBy).map OrderBy.expr = (os.map OrderBy.expr).map r.expr := by
    intro r os
    simp only [List.map_map, Function.comp_def, Recast.orderBy_fields]
  intro s ctx
  simp only [check, ← Recast.node_statement, Recast.cores_node, Recast.queries_node,
    List.map_append]
  refine congr (congrArg _ (flatMap_view fun c => ?_)) (flatMap_view fun x => ?_)
  · simp only [Recast.core_fields, hkeys, ← List.map_append]
    exact checkItems_map h ctx _ _
  · simp only [Recast.query_fields, hkeys]
    exact checkItems_map h ctx _ _

theorem JoinCondition.indifferent (h : l.Hides r q) : l.Indifferent r q check := by
  intro s ctx
  simp only [check, ← Recast.node_statement, Recast.joins_node]
  refine filter_view (fun j => by simp [lacksCondition]) fun j => ?_
  simp only [Recast.join_fields]
  exact view_report rfl fun hl => h.span hl _

/-! ## Conventions -/

theorem PreferCoalesce.indifferent (h : l.Hides r q) : l.Indifferent r q check := by
  intro s ctx
  simp only [check, ← Recast.node_statement, Recast.functions_node]
  refine filterMap_view fun f => ?_
  have hnamed : (r.functionCall f.value).isNamed = (q.functionCall f.value).isNamed :=
    funext (h.isNamed f.value)
  simp only [Recast.located_fields, hnamed]
  cases nonPortable.find? (q.functionCall f.value).isNamed with
  | none => rfl
  | some name =>
    exact congrArg some (view_fixable rfl fun hl => h.span hl _)

theorem CountRows.form?_functionCall (h : l.Hides r q) (f : FunctionCall) :
    form? (r.functionCall f) = form? (q.functionCall f) := by
  simp only [form?, h.isNamed, Recast.functionCall_fields]
  rcases f.args with _ | ⟨⟨kind, span⟩, rest⟩
  · rfl
  · cases kind with
    | star n => cases n <;> cases rest <;> rfl
    | literal value =>
      obtain ⟨kind, text⟩ := value
      cases kind <;> cases rest <;> rfl
    | _ => rfl

theorem CountRows.indifferent (h : l.Hides r q) : l.Indifferent r q check := by
  intro s ctx
  simp only [check, ← Recast.node_statement, Recast.functions_node]
  refine filterMap_view fun f => ?_
  simp only [Recast.located_fields, form?_functionCall h]
  cases (form? (q.functionCall f.value)).filter (· != preferred ctx) with
  | none => rfl
  | some form =>
    exact congrArg some (view_fixable rfl fun hl => h.span hl _)

theorem IsNullComparison.indifferent (h : l.Hides r q) : l.Indifferent r q check := by
  have hreplacement : ∀ (r : Recast) (b : BinaryExpr),
      replacement? (r.binary b) = replacement? b := by
    intro r b
    simp [replacement?, Recast.binary]
  intro s ctx
  simp only [check, ← Recast.node_statement, Recast.binaries_node]
  refine filterMap_view fun b => ?_
  simp only [Recast.located_fields, hreplacement]
  cases replacement? b.value with
  | none => rfl
  | some replacement =>
    exact congrArg some (view_fixable rfl fun hl => h.span hl _)

theorem PreferLeftJoin.indifferent (h : l.Hides r q) : l.Indifferent r q check := by
  intro s ctx
  simp only [check, ← Recast.node_statement, Recast.joins_node]
  exact filter_view (fun j => by simp) fun j => view_report rfl fun hl => by simp [h.span hl]

theorem CastingStyle.collect_node (r : Recast) (root : Node) :
    (r.node root).collect cast? = (root.collect cast?).map (r.located id) := by
  refine r.collect_node (fun n => ?_) root
  cases n with
  | expr e =>
    obtain ⟨kind, span⟩ := e
    cases kind with
    | cast e type style => cases style <;> rfl
    | _ => rfl
  | _ => rfl

theorem CastingStyle.indifferent (h : l.Hides r q) : l.Indifferent r q check := by
  intro s ctx
  simp only [check, ← Recast.node_statement, collect_node]
  generalize (Node.statement s).collect cast? = casts
  have hexpected : ∀ r : Recast,
      expected? (preference ctx) (casts.map (r.located id)) = expected? (preference ctx) casts := by
    intro r
    cases preference ctx with
    | consistent => cases casts <;> rfl
    | fixed style => rfl
  rw [hexpected, hexpected]
  cases expected? (preference ctx) casts with
  | none => rfl
  | some expected =>
    exact filter_view (fun c => rfl) fun c => view_report rfl fun hl => h.span hl _

theorem CaseCoalesce.isSome_coalesce? (h : l.Hides r q) (c : CaseExpr) :
    (r.caseExpr c).coalesce?.isSome = (q.caseExpr c).coalesce?.isSome := by
  obtain ⟨operand, branches, otherwise⟩ := c
  simp only [CaseExpr.coalesce?, Recast.caseExpr_fields]
  rcases operand with _ | operand
  · rcases branches with _ | ⟨branch, _ | ⟨second, rest⟩⟩
    · rfl
    · cases otherwise with
      | none => rfl
      | some otherwise =>
        simp only [Option.map_none, Option.map_some, List.map_cons, List.map_nil,
          Recast.unnested_expr, Recast.expr_fields]
        cases branch.condition.unnested.kind with
        | isNull x negated =>
          cases negated with
          | true => rfl
          | false =>
            simp only [Recast.exprKind, h.equivalent_expr]
            split <;> rfl
        | _ => rfl
    · rfl
  · rfl

theorem CaseCoalesce.indifferent (h : l.Hides r q) : l.Indifferent r q check := by
  intro s ctx
  simp only [check, ← Recast.node_statement, Recast.cases_node]
  refine filter_view (fun c => isSome_coalesce? h c.value) fun c => ?_
  exact view_fixable rfl fun hl => h.span hl _

/-! ## The structure of queries -/

theorem UnusedCte.tableNames_node (h : l.Hides r q) (root : Node) :
    tableNames (r.node root) = tableNames (q.node root) := by
  have hnames : ∀ r : Recast,
      (r.node root).tables.filterMap (fun t => t.name? >>= ObjectName.base?)
        = (root.tables.filterMap fun t => t.name? >>= ObjectName.base?).map r.ident := by
    intro r
    simp only [Recast.tables_node, List.filterMap_map, Function.comp_def, Recast.baseName?_table,
      List.map_filterMap]
  rw [tableNames, tableNames, hnames, hnames, h.keys]

theorem UnusedCte.referencedNames_query (h : l.Hides r q) (x : Query) :
    referencedNames (r.query x) = referencedNames (q.query x) := by
  have hbody : tableNames (.body (r.body x.body)) = tableNames (.body (q.body x.body)) :=
    tableNames_node h (.body x.body)
  have hcte : ∀ c : Cte,
      tableNames (.query (r.query c.query)) = tableNames (.query (q.query c.query)) :=
    fun c => tableNames_node h (.query c.query)
  simp only [referencedNames, Recast.query_fields, Recast.cte_fields, List.flatMap_map, hbody, hcte]

theorem UnusedCte.indifferent (h : l.Hides r q) : l.Indifferent r q check := by
  intro s ctx
  simp only [check, ← Recast.node_statement, Recast.queries_node]
  refine flatMap_view fun x => ?_
  simp only [referencedNames_query h, Recast.query_fields]
  refine filter_view (fun c => by simp only [Recast.cte_fields, h.key]) fun c => ?_
  simp only [Recast.cte_fields]
  exact view_report (by simp only [h.append, h.shown]) fun hl => h.identSpan hl c.name

theorem ElseNull.indifferent (h : l.Hides r q) : l.Indifferent r q check := by
  intro s ctx
  simp only [check, ← Recast.node_statement, Recast.cases_node]
  refine filterMap_view fun c => ?_
  simp only [Recast.located_fields, Recast.caseExpr_fields, Option.filter_map, Function.comp_def,
    Recast.isNull_expr]
  cases c.value.otherwise.filter (·.isNull) with
  | none => rfl
  | some e =>
    refine congrArg some (view_fixable rfl ?_)
    exact fun hl => by simp [h.span hl]

theorem NestedCase.outermostCases_node (r : Recast) (root : Node) :
    outermostCases (r.node root) = (outermostCases root).map (r.located r.caseExpr) := by
  have hstep : ∀ mark a b, caseStep mark (r.node a) (r.node b) = caseStep mark a b := by
    intro mark a b
    cases a with
    | expr e =>
      obtain ⟨kind, span⟩ := e
      cases kind <;> cases b <;> rfl
    | _ => rfl
  have hcase : ∀ x : Bool × Node,
      outermost? (Prod.map id r.node x) = (outermost? x).map (r.located r.caseExpr) := by
    rintro ⟨mark, n⟩
    cases mark with
    | true => rfl
    | false => exact r.case?_node n
  rw [outermostCases, r.preorder_marked_node hstep, List.filterMap_map, outermostCases,
    List.map_filterMap]
  exact congrArg (List.filterMap · _) (funext hcase)

theorem NestedCase.indifferent (h : l.Hides r q) : l.Indifferent r q check := by
  intro s ctx
  simp only [check, ← Recast.node_statement, outermostCases_node]
  refine filter_view (fun c => ?_) fun c => ?_
  · simp only [Recast.located_fields, Recast.depth_caseExpr]
  · simp only [Recast.located_fields, Recast.depth_caseExpr]
    exact view_report rfl fun hl => h.span hl _

theorem JoinUsing.text_message (h : l.Hides r q) (is : List Ident) :
    l.text (message (is.map r.ident)) = l.text (message (is.map q.ident)) := by
  have hnames : l.text (toString (", ".intercalate ((is.map r.ident).map Ident.value)))
      = l.text (toString (", ".intercalate ((is.map q.ident).map Ident.value))) :=
    h.intercalate ", " is
  unfold message
  simp only [h.append, hnames]

theorem JoinUsing.indifferent (h : l.Hides r q) : l.Indifferent r q check := by
  intro s ctx
  simp only [check, ← Recast.node_statement, Recast.joins_node]
  refine filter_view (fun j => by simp) fun j => ?_
  simp only [Recast.join_fields]
  exact view_report (text_message h j.usingColumns) fun hl => h.span hl j.span

theorem Subquery.placedTables_source (r : Recast) (f : FromClause) :
    placedTables (r.source f) = (placedTables f).map (Prod.map r.table id) := by
  simp only [placedTables, Recast.source_fields, List.map_cons, List.map_map, Function.comp_def,
    Recast.join_fields, Prod.map, id]

theorem Subquery.indifferent (h : l.Hides r q) : l.Indifferent r q check := by
  intro s ctx
  simp only [check, ← Recast.node_statement, Recast.cores_node]
  refine flatMap_view fun c => ?_
  have hplaced : ∀ r : Recast, (r.core c).source.elim [] placedTables
      = (c.source.elim [] placedTables).map (Prod.map r.table id) := by
    intro r
    simp only [Recast.core_fields]
    cases c.source with
    | none => rfl
    | some f => exact placedTables_source r f
  rw [hplaced, hplaced]
  refine filter_view ?_ ?_
  · rintro ⟨t, clause⟩
    simp only [Prod.map, Recast.subquery?_table, Option.isSome_map]
  · rintro ⟨t, clause⟩
    exact view_report rfl fun hl => by simp [h.span hl]

theorem ColumnOrder.misplaced?_map (r : Recast) (items : List SelectItem) :
    misplaced? (items.map r.item) = (misplaced? items).map r.item := by
  have hsimple : ∀ i : SelectItem, isSimple (r.item i) = isSimple i := by
    intro i
    simp only [isSimple, Recast.expr?_item]
    cases i.expr? <;> simp
  simp only [misplaced?, List.dropWhile_map, List.find?_map, Function.comp_def, hsimple]

theorem ColumnOrder.standAloneCores_node (r : Recast) (root : Node) :
    standAloneCores (r.node root) = (standAloneCores root).map r.core := by
  have hstep : ∀ mark a b, operandStep mark (r.node a) (r.node b) = operandStep mark a b := by
    intro mark a b
    cases a with
    | body x => cases x <;> cases b <;> rfl
    | _ => cases b <;> rfl
  have hcore : ∀ x : Bool × Node,
      standAlone? (Prod.map id r.node x) = (standAlone? x).map r.core := by
    rintro ⟨mark, n⟩
    cases mark with
    | true => rfl
    | false => exact r.core?_node n
  rw [standAloneCores, r.preorder_marked_node hstep, List.filterMap_map, standAloneCores,
    List.map_filterMap]
  exact congrArg (List.filterMap · _) (funext hcore)

theorem ColumnOrder.indifferent (h : l.Hides r q) : l.Indifferent r q check := by
  intro s ctx
  simp only [check, ← Recast.node_statement, standAloneCores_node]
  refine filterMap_view fun c => ?_
  simp only [Recast.core_fields, misplaced?_map]
  cases misplaced? c.columns with
  | none => rfl
  | some item => exact congrArg some (view_report rfl fun hl => h.itemSpan hl item)

theorem DistinctParentheses.parenthesized?_core (r : Recast) (c : Core) :
    parenthesized? (r.core c) = (parenthesized? c).map r.expr := by
  simp only [parenthesized?, Recast.core_fields, List.head?_map]
  cases c.distinct with
  | false => rfl
  | true =>
    cases c.columns.head? with
    | none => rfl
    | some item =>
      simp only [Option.map_some, Option.bind_eq_bind, Option.bind_some, Recast.expr?_item]
      cases item.expr? with
      | none => rfl
      | some e =>
        obtain ⟨kind, span⟩ := e
        cases kind <;> rfl

theorem DistinctParentheses.indifferent (h : l.Hides r q) : l.Indifferent r q check := by
  intro s ctx
  simp only [check, ← Recast.node_statement, Recast.cores_node, List.filterMap_map,
    Function.comp_def, parenthesized?_core, ← List.map_filterMap, List.map_map]
  refine List.map_congr_left fun e _ => ?_
  exact view_fixable rfl fun hl => by simp [h.span hl]

/-! ## The order of the sides of a join condition -/

namespace JoinConditionOrder

mutual

theorem joinLists_source (r : Recast) : ∀ f : FromClause,
    joinLists (r.source f) = (joinLists f).map r.source
  | ⟨first, joins⟩ => by
    rw [Recast.source, joinLists, tableJoinLists_table r first, joinedJoinLists_joins r joins,
      joinLists, List.map_append, List.map_append, List.map_singleton, Recast.source]

theorem tableJoinLists_table (r : Recast) : ∀ t : TableRef,
    tableJoinLists (r.table t) = (tableJoinLists t).map r.source
  | .nestedJoin f _ _ => by
    rw [Recast.table, tableJoinLists, joinLists_source r f, tableJoinLists]
  | .named _ _ _ | .derived _ _ _ | .lateral _ _ _ => rfl

theorem joinedJoinLists_joins (r : Recast) : ∀ js : List Join,
    joinedJoinLists (r.joins js) = (joinedJoinLists js).map r.source
  | [] => rfl
  | ⟨_, _, t, _, _, _⟩ :: rest => by
    rw [Recast.joins, Recast.join, joinedJoinLists, tableJoinLists_table r t,
      joinedJoinLists_joins r rest, joinedJoinLists, List.map_append]

end

mutual

theorem equalities_expr (r : Recast) : ∀ e : Expr,
    equalities (r.expr e) = (equalities e).map (r.located r.binary)
  | ⟨kind, span⟩ => by
    rw [Recast.expr, equalities, kindEqualities_exprKind r span kind, equalities]

theorem kindEqualities_exprKind (r : Recast) (span : Span) : ∀ kind : ExprKind,
    kindEqualities (r.span span) (r.exprKind kind)
      = (kindEqualities span kind).map (r.located r.binary)
  | .nested e => by rw [Recast.exprKind, kindEqualities, equalities_expr r e, kindEqualities]
  | .binary left op right => by
    cases op with
    | and =>
      rw [Recast.exprKind, kindEqualities, equalities_expr r left, equalities_expr r right,
        kindEqualities, List.map_append]
    | _ => rfl
  | .column _ | .literal _ | .unary _ _ | .function _ | .caseWhen _ | .cast _ _ _ | .inList _ _ _
  | .inSubquery _ _ _ | .between _ _ _ _ | .isNull _ _ | .isBool _ _ _ | .like _ _ _ _
  | .subquery _ | .existsIn _ _ | .index _ _ | .slice _ _ _ | .list _ | .struct _ | .lambda _ _
  | .field _ _ | .star _ | .raw _ => rfl

end

theorem side?_column (h : l.Hides r q) (known : List String) (joined : String) (c : ColumnRef) :
    side? known joined (r.column c) = side? known joined (q.column c) := by
  simp only [side?, Recast.table?_column]
  cases c.table? with
  | none => rfl
  | some i => simp only [Option.map_some, Option.bind_eq_bind, Option.bind_some, h.key]

theorem text_message (h : l.Hides r q) (preferred : Preference) (left right : ColumnRef) :
    l.text (message preferred (r.column left) (r.column right))
      = l.text (message preferred (q.column left) (q.column right)) := by
  unfold message
  simp only [h.append, h.columnShown]

theorem checkEquality_located (h : l.Hides r q) (ctx : Context) (preferred : Preference)
    (known : List String) (joined : String) (b : Located BinaryExpr) :
    (checkEquality ctx preferred known joined (r.located r.binary b)).map l.view
      = (checkEquality ctx preferred known joined (q.located q.binary b)).map l.view := by
  simp only [checkEquality, Recast.located_fields, Recast.binary, Recast.unnested_expr,
    Recast.column?_expr]
  cases b.value.left.unnested.column? with
  | none => rfl
  | some left =>
    cases b.value.right.unnested.column? with
    | none => rfl
    | some right =>
      simp only [Option.map_some, Option.bind_eq_bind, Option.bind_some, side?_column h]
      cases side? known joined (q.column left) with
      | none => rfl
      | some a =>
        cases side? known joined (q.column right) with
        | none => rfl
        | some b =>
          simp only [Option.bind_some]
          split
          · exact congrArg some (view_report (text_message h preferred left right)
              fun hl => h.span hl _)
          · rfl

theorem checkJoin_join (h : l.Hides r q) (ctx : Context) (preferred : Preference)
    (known : List String) (j : Join) :
    (checkJoin ctx preferred known (r.join j)).map l.view
      = (checkJoin ctx preferred known (q.join j)).map l.view := by
  simp only [checkJoin, Recast.join_fields, Recast.referenceName?_table]
  cases j.table.referenceName? with
  | none => rfl
  | some name =>
    cases j.condition with
    | none => rfl
    | some condition =>
      simp only [Option.map_some, h.key, equalities_expr]
      split
      · rfl
      · exact filterMap_view fun b => checkEquality_located h ctx preferred known _ b

theorem referenceKey_table (h : l.Hides r q) (t : TableRef) :
    (r.table t).referenceName?.map Ident.key = (q.table t).referenceName?.map Ident.key := by
  simp only [Recast.referenceName?_table, Option.map_map, Function.comp_def, h.key]

theorem checkJoins_map (h : l.Hides r q) (ctx : Context) (preferred : Preference)
    (js : List Join) (known : List String) :
    (checkJoins ctx preferred known (js.map r.join)).map l.view
      = (checkJoins ctx preferred known (js.map q.join)).map l.view := by
  induction js generalizing known with
  | nil => rfl
  | cons j js ih =>
    simp only [List.map_cons, checkJoins, List.map_append, checkJoin_join h, Recast.join_fields,
      referenceKey_table h, ih]

theorem indifferent (h : l.Hides r q) : l.Indifferent r q check := by
  intro s ctx
  simp only [check, ← Recast.node_statement, Recast.cores_node]
  refine flatMap_view fun c => ?_
  have hlists : ∀ r : Recast, (r.core c).source.elim [] joinLists
      = (c.source.elim [] joinLists).map r.source := by
    intro r
    simp only [Recast.core_fields]
    cases c.source with
    | none => rfl
    | some f => exact joinLists_source r f
  rw [hlists, hlists]
  refine flatMap_view fun f => ?_
  simp only [checkList, Recast.source_fields, referenceKey_table h]
  exact checkJoins_map h ctx _ f.joins _

end JoinConditionOrder

/-! ## Constant conditions -/

namespace ConstantExpression

mutual

theorem conditions_expr (r : Recast) : ∀ e : Expr,
    conditions (r.expr e) = (conditions e).map r.expr
  | ⟨kind, span⟩ => by
    rw [conditions, ← kindConditions_exprKind r ⟨kind, span⟩ kind]
    rfl

theorem kindConditions_exprKind (r : Recast) (whole : Expr) : ∀ kind : ExprKind,
    kindConditions (r.expr whole) (r.exprKind kind) = (kindConditions whole kind).map r.expr
  | .nested e => by rw [Recast.exprKind, kindConditions, conditions_expr r e, kindConditions]
  | .binary left op right => by
    cases op with
    | and | or =>
      rw [Recast.exprKind, kindConditions, conditions_expr r left, conditions_expr r right,
        kindConditions, List.map_append]
    | _ => rfl
  | .column _ | .literal _ | .unary _ _ | .function _ | .caseWhen _ | .cast _ _ _ | .inList _ _ _
  | .inSubquery _ _ _ | .between _ _ _ _ | .isNull _ _ | .isBool _ _ _ | .like _ _ _ _
  | .subquery _ | .existsIn _ _ | .index _ _ | .slice _ _ _ | .list _ | .struct _ | .lambda _ _
  | .field _ _ | .star _ | .raw _ => rfl

end

theorem selfEquality?_exprKind (r : Recast) (kind : ExprKind) :
    selfEquality? (r.exprKind kind) = selfEquality? kind := by
  cases kind with
  | binary left op right =>
    obtain ⟨a, _⟩ := left
    obtain ⟨b, _⟩ := right
    cases op with
    | eq =>
      cases a with
      | literal _ => cases b <;> rfl
      | _ => rfl
    | _ => cases a <;> rfl
  | _ => rfl

theorem complaint?_exprKind (r : Recast) (kind : ExprKind) :
    complaint? (r.exprKind kind) = complaint? kind := by
  cases kind with
  | binary left op right =>
    exact congrArg (Option.map _) (selfEquality?_exprKind r (.binary left op right))
  | _ => rfl

theorem indifferent (h : l.Hides r q) : l.Indifferent r q check := by
  intro s ctx
  simp only [check, ← Recast.node_statement, Recast.cores_node]
  refine flatMap_view fun c => ?_
  simp only [Recast.core_fields]
  cases c.condition with
  | none => rfl
  | some predicate =>
    simp only [Option.map_some, Option.elim_some, checkPredicate, conditions_expr]
    refine filterMap_view fun e => ?_
    simp only [Recast.expr_fields, complaint?_exprKind]
    cases complaint? e.kind with
    | none => rfl
    | some message => exact congrArg some (view_report rfl fun hl => h.span hl _)

end ConstantExpression

/-! ## References and identifiers -/

theorem ReferencesFrom.knownNames_node (h : l.Hides r q) (root : Node) :
    knownNames (r.node root) = knownNames (q.node root) := by
  have hreference : ∀ r : Recast,
      (r.node root).referenceNames = root.referenceNames.map r.ident := by
    intro r
    simp only [Node.referenceNames, Recast.tables_node, List.filterMap_map, Function.comp_def,
      Recast.referenceName?_table, List.map_filterMap]
  have hnames := UnusedCte.tableNames_node h root
  rw [UnusedCte.tableNames, UnusedCte.tableNames] at hnames
  rw [knownNames, knownNames, hnames, hreference, hreference, h.keys]

theorem ReferencesFrom.text_message (h : l.Hides r q) (c : ColumnRef) :
    l.text (message (r.column c)) = l.text (message (q.column c)) := by
  have hqualifier : l.text (toString ((r.column c).table?.elim "" Ident.value))
      = l.text (toString ((q.column c).table?.elim "" Ident.value)) := by
    simp only [Recast.table?_column]
    cases c.table? with
    | none => rfl
    | some i => exact h.value i
  unfold message
  simp only [h.append, h.columnShown, hqualifier]

theorem ReferencesFrom.indifferent (h : l.Hides r q) : l.Indifferent r q check := by
  intro s ctx
  simp only [check, ← Recast.node_statement, Recast.columns_node, knownNames_node h,
    Recast.tables_node, List.isEmpty_map]
  split
  · rfl
  · refine filter_view (fun c => ?_) fun c => ?_
    · simp only [isDangling, Recast.located_fields, Recast.isQualified_column,
        Recast.column_fields, List.any_map, Function.comp_def, h.key]
    · exact view_report (text_message h c.value) fun hl => h.span hl c.span

theorem exists_tableColumns (h : l.Hides r q) (c : Core) :
    ∃ columns : List (Located ColumnRef), tableColumns (r.core c) = columns.map (r.located r.column)
      ∧ tableColumns (q.core c) = columns.map (q.located q.column) := by
  have hcolumns : ∀ p : Recast, tableColumns (p.core c)
      = (c.scopeColumns.filter fun x => x.value.isQualified
          || !(((columnAliases c).map p.ident).map Ident.key).contains
            (p.ident x.value.name).key).map (p.located p.column) := by
    intro p
    simp only [tableColumns, Recast.scopeColumns_core, columnAliases_core, List.filter_map,
      Function.comp_def, Recast.located_fields, Recast.isQualified_column, Recast.column_fields]
  -- The two filters differ in keys only, and keys are the same.
  refine ⟨_, hcolumns r, ?_⟩
  simp only [hcolumns q, h.keys, h.key]

theorem Qualification.text_message (h : l.Hides r q) (c : ColumnRef) :
    l.text (message (r.column c)) = l.text (message (q.column c)) := by
  unfold message
  simp only [Recast.column_fields, h.append, h.shown]

theorem Qualification.indifferent (h : l.Hides r q) : l.Indifferent r q check := by
  intro s ctx
  simp only [check, ← Recast.node_statement, Recast.cores_node, List.filter_map, Function.comp_def,
    Recast.tables_core, List.length_map]
  refine flatMap_view fun c => ?_
  obtain ⟨columns, hr, hq⟩ := exists_tableColumns h c
  rw [hr, hq]
  refine filter_view (fun x => ?_) fun x => ?_
  · simp only [Recast.located_fields, Recast.isQualified_column]
  · exact view_report (text_message h x.value) fun hl => h.span hl x.span

theorem Consistency.checkColumns_map (h : l.Hides r q) (ctx : Context) (style : Style)
    (columns : List (Located ColumnRef)) :
    (checkColumns ctx style (columns.map (r.located r.column))).map l.view
      = (checkColumns ctx style (columns.map (q.located q.column))).map l.view := by
  cases style with
  | consistent =>
    cases columns with
    | nil => rfl
    | cons first rest =>
      simp only [List.map_cons, checkColumns]
      rw [← List.map_cons, ← List.map_cons, List.find?_map, List.find?_map]
      simp only [Function.comp_def, Recast.located_fields, Recast.isQualified_column]
      cases (first :: rest).find? (·.value.isQualified != first.value.isQualified) with
      | none => rfl
      | some c => exact congrArg ([·]) (view_report rfl fun hl => h.span hl c.span)
  | qualified =>
    refine filter_view (fun x => ?_) fun x => view_report ?_ fun hl => h.span hl _
    · simp only [Recast.located_fields, Recast.isQualified_column]
    · simp only [Recast.located_fields, Recast.column_fields, h.append, h.shown]
  | unqualified =>
    refine filter_view (fun x => ?_) fun x => view_report ?_ fun hl => h.span hl _
    · simp only [Recast.located_fields, Recast.isQualified_column]
    · simp only [Recast.located_fields, h.append, h.columnShown]

theorem Consistency.indifferent (h : l.Hides r q) : l.Indifferent r q check := by
  intro s ctx
  simp only [check, ← Recast.node_statement, Recast.cores_node, List.filter_map, Function.comp_def,
    Recast.tables_core, List.length_map]
  refine flatMap_view fun c => ?_
  obtain ⟨columns, hr, hq⟩ := exists_tableColumns h c
  rw [hr, hq]
  exact checkColumns_map h ctx _ columns

theorem columnAliases_node (r : Recast) (root : Node) :
    (r.node root).cores.flatMap columnAliases = (root.cores.flatMap columnAliases).map r.ident := by
  simp only [Recast.cores_node, List.flatMap_map, columnAliases_core, List.map_flatMap]

theorem Keywords.candidates_node (r : Recast) (root : Node) :
    candidates (r.node root) = (candidates root).map (Prod.map r.ident id) := by
  simp only [candidates, columnAliases_node, Recast.cteNames_node, Recast.tables_node,
    tableAliases_map, List.map_append, List.map_map, Function.comp_def, Prod.map, id]

theorem Keywords.indifferent (h : l.Hides r q) : l.Indifferent r q check := by
  intro s ctx
  simp only [check, ← Recast.node_statement, candidates_node]
  refine filter_view (fun (i, kind) => ?_) fun (i, kind) => ?_
  · simp only [Prod.map, h.quoted, isReserved, h.upper]
  · refine view_report ?_ fun hl => h.identSpan hl i
    simp only [Prod.map, id, h.append, h.shown]

theorem SpecialChars.identifiers_node (r : Recast) (root : Node) :
    identifiers (r.node root) = (identifiers root).map r.ident := by
  have htable : ∀ t : TableRef, (r.table t).name?.elim [] ObjectName.parts
      ++ (r.table t).alias?.toList
        = (t.name?.elim [] ObjectName.parts ++ t.alias?.toList).map r.ident := by
    intro t
    rw [Recast.name?_table, Recast.alias?_table]
    cases t.name? <;> cases t.alias? <;> simp
  simp only [identifiers, columnAliases_node, Recast.cteNames_node, Recast.tables_node,
    Recast.columns_node, List.map_append, List.flatMap_map, List.map_flatMap, htable,
    Recast.located_fields, Recast.column_fields, List.map_cons, List.map_nil]

theorem SpecialChars.indifferent (h : l.Hides r q) : l.Indifferent r q check := by
  intro s ctx
  simp only [check, ← Recast.node_statement, identifiers_node]
  refine filter_view (fun i => ?_) fun i => view_report ?_ fun hl => h.identSpan hl i
  · rw [h.quoted]
    -- The characters count only inside quotes, and there the values are the same.
    cases hquoted : (q.ident i).quoted with
    | true => rw [h.literal i hquoted]
    | false => rfl
  · simp only [h.append, h.shown]

/-! ## All rules -/

theorem indifferent_builtinRules (h : l.Hides r q) : ∀ rule ∈ builtinRules, ∀ s ctx,
    (rule.check (r.statement s) ctx).map (·.map l.view)
      = (rule.check (q.statement s) ctx).map (·.map l.view) := by
  have htotal : ∀ {info : RuleInfo} {check : Statement → Context → List Diagnostic},
      l.Indifferent r q check → ∀ s ctx,
        ((Rule.total info check).check (r.statement s) ctx).map (·.map l.view)
          = ((Rule.total info check).check (q.statement s) ctx).map (·.map l.view) :=
    fun hcheck s ctx => congrArg some (hcheck s ctx)
  simp only [builtinRules, List.forall_mem_cons]
  exact ⟨htotal (ExpressionAlias.indifferent h), htotal (UniqueTableAlias.indifferent h),
    htotal (UniqueColumnAlias.indifferent h), htotal (AliasLength.indifferent h),
    htotal (SelfAlias.indifferent h), htotal (UnusedAlias.indifferent h),
    htotal (DistinctWithGroupBy.indifferent h), htotal (BareUnion.indifferent h),
    htotal (AmbiguousOrderBy.indifferent h), htotal (ColumnCount.indifferent h),
    htotal (BareJoin.indifferent h), htotal (ColumnReferences.indifferent h),
    htotal (JoinCondition.indifferent h), htotal (PreferCoalesce.indifferent h),
    htotal (CountRows.indifferent h), htotal (IsNullComparison.indifferent h),
    htotal (PreferLeftJoin.indifferent h), htotal (CastingStyle.indifferent h),
    htotal (CaseCoalesce.indifferent h), htotal (UnusedCte.indifferent h),
    htotal (ElseNull.indifferent h), htotal (NestedCase.indifferent h),
    htotal (JoinUsing.indifferent h), htotal (Subquery.indifferent h),
    htotal (ColumnOrder.indifferent h), htotal (DistinctParentheses.indifferent h),
    htotal (JoinConditionOrder.indifferent h), htotal (ConstantExpression.indifferent h),
    htotal (ReferencesFrom.indifferent h), htotal (Qualification.indifferent h),
    htotal (Consistency.indifferent h), htotal (Keywords.indifferent h),
    htotal (SpecialChars.indifferent h), List.forall_mem_nil _⟩

end SqlLint.Rules
