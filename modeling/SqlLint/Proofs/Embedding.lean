import SqlLint.Proofs.Catalog

/-! # Only the query of a statement is read

A query may stand alone, feed an `INSERT` or define a view or a table. Main statement:
`check_of_query?_eq`, the findings are those of the query, whatever stands around it. -/

namespace SqlLint

/-- Whether what is found depends on the statement's query alone, and is nothing without one. -/
structure Statement.Inner {α : Type} (found : Statement → List α) : Prop where
  same : ∀ {s t : Statement}, s.query? = t.query? → found s = found t
  nothing : ∀ {s : Statement}, s.query? = none → found s = []

namespace Statement

variable {α β σ : Type} {found others : Statement → List α}

/-! ## What is made of a collection -/

theorem Inner.comp (h : Inner found) (f : List α → List β) (hf : f [] = []) :
    Inner fun s => f (found s) where
  same heq := congrArg f (h.same heq)
  nothing hnone := (congrArg f (h.nothing hnone)).trans hf

theorem Inner.flatMap (h : Inner found) (f : α → List β) : Inner fun s => (found s).flatMap f :=
  h.comp (List.flatMap f) rfl

theorem Inner.map (h : Inner found) (f : α → β) : Inner fun s => (found s).map f :=
  h.comp (List.map f) rfl

theorem Inner.filterMap (h : Inner found) (f : α → Option β) :
    Inner fun s => (found s).filterMap f :=
  h.comp (List.filterMap f) rfl

theorem Inner.filter (h : Inner found) (p : α → Bool) : Inner fun s => (found s).filter p :=
  h.comp (List.filter p) rfl

theorem Inner.append (h : Inner found) (h' : Inner others) :
    Inner fun s => found s ++ others s where
  same heq := congrArg₂ (· ++ ·) (h.same heq) (h'.same heq)
  nothing hnone := congrArg₂ (· ++ ·) (h.nothing hnone) (h'.nothing hnone)

/-! ## Collections -/

theorem preorder_eq (s : Statement) :
    (Node.statement s).preorder
      = .statement s :: s.query?.toList.flatMap fun q => (Node.query q).preorder := by
  simp only [Node.preorder, Node.tree, Rose.preorder, Rose.preorders_eq_flatMap, List.flatMap_map]

theorem inner_collect {view : Node → Option α} (hview : ∀ s, view (.statement s) = none) :
    Inner fun s => (Node.statement s).collect view := by
  have hquery : ∀ s : Statement, (Node.statement s).collect view
      = s.query?.toList.flatMap fun q => (Node.query q).preorder.filterMap view := by
    intro s
    rw [Node.collect_eq, preorder_eq, List.filterMap_cons_none (hview s), List.filterMap_flatMap]
  constructor
  · intro s t heq
    rw [hquery s, hquery t, heq]
  · intro s hnone
    rw [hquery s, hnone]
    rfl

theorem inner_marked {step : σ → Node → Node → σ} {mark inside : σ} {view : σ × Node → Option α}
    (hstep : ∀ s q, step mark (.statement s) (.query q) = inside)
    (hview : ∀ s, view (mark, .statement s) = none) :
    Inner fun s => ((Node.statement s).tree.marked step mark).preorder.filterMap view := by
  have hlabel : ∀ q : Query, (Unfold.query q).label = .query q := fun q => by cases q; rfl
  have hquery : ∀ s : Statement,
      ((Node.statement s).tree.marked step mark).preorder.filterMap view
        = s.query?.toList.flatMap fun q =>
            ((Unfold.query q).marked step inside).preorder.filterMap view := by
    intro s
    rw [Node.tree, Rose.marked, Rose.preorder, List.filterMap_cons_none (hview s)]
    cases s.query? with
    | none => rfl
    | some q =>
      simp [Rose.markedAll, Rose.preorders, hlabel, hstep]
  constructor
  · intro s t heq
    rw [hquery s, hquery t, heq]
  · intro s hnone
    rw [hquery s, hnone]
    rfl

theorem inner_cores : Inner fun s => (Node.statement s).cores := inner_collect fun _ => rfl

theorem inner_tables : Inner fun s => (Node.statement s).tables := inner_collect fun _ => rfl

theorem inner_columns : Inner fun s => (Node.statement s).columns := inner_collect fun _ => rfl

theorem inner_functions : Inner fun s => (Node.statement s).functions := inner_collect fun _ => rfl

theorem inner_cases : Inner fun s => (Node.statement s).cases := inner_collect fun _ => rfl

theorem inner_binaries : Inner fun s => (Node.statement s).binaries := inner_collect fun _ => rfl

theorem inner_joins : Inner fun s => (Node.statement s).joins := inner_collect fun _ => rfl

theorem inner_queries : Inner fun s => (Node.statement s).queries := inner_collect fun _ => rfl

theorem inner_bodies : Inner fun s => (Node.statement s).bodies := inner_collect fun _ => rfl

theorem inner_cteNames : Inner fun s => (Node.statement s).cteNames :=
  (inner_collect fun _ => rfl).map Cte.name

end Statement

/-! ## The rules -/

namespace Rules

open Statement

variable (ctx : Context)

theorem ExpressionAlias.inner : Inner (check · ctx) := inner_cores.flatMap _

theorem UniqueTableAlias.inner : Inner (check · ctx) := inner_cores.flatMap _

theorem UniqueColumnAlias.inner : Inner (check · ctx) := inner_cores.flatMap _

theorem AliasLength.inner : Inner (check · ctx) := (inner_tables.filterMap _).filterMap _

theorem SelfAlias.inner : Inner (check · ctx) := inner_cores.flatMap _

theorem UnusedAlias.inner : Inner (check · ctx) := inner_cores.flatMap _

theorem DistinctWithGroupBy.inner : Inner (check · ctx) := (inner_cores.filter _).map _

theorem BareUnion.inner : Inner (check · ctx) :=
  ((inner_bodies.filterMap Body.setOperation?).filter _).map _

theorem AmbiguousOrderBy.inner : Inner (check · ctx) :=
  (((inner_cores.map Core.orderBy).append (inner_queries.map Query.orderBy)).filter _).map _

theorem ColumnCount.inner : Inner (check · ctx) :=
  (inner_marked (fun _ _ => rfl) fun _ => rfl).flatMap _

theorem BareJoin.inner : Inner (check · ctx) := (inner_joins.filter _).map _

theorem ColumnReferences.inner : Inner (check · ctx) :=
  (inner_cores.flatMap _).append (inner_queries.flatMap _)

theorem JoinCondition.inner : Inner (check · ctx) := (inner_joins.filter _).map _

theorem PreferCoalesce.inner : Inner (check · ctx) := inner_functions.filterMap _

theorem CountRows.inner : Inner (check · ctx) := inner_functions.filterMap _

theorem IsNullComparison.inner : Inner (check · ctx) := inner_binaries.filterMap _

theorem PreferLeftJoin.inner : Inner (check · ctx) := (inner_joins.filter _).map _

theorem CastingStyle.inner : Inner (check · ctx) := by
  have hcasts : Inner fun s => (Node.statement s).collect cast? := inner_collect fun _ => rfl
  constructor
  · intro s t heq
    simp only [check, hcasts.same heq]
  · intro s hnone
    simp only [check, hcasts.nothing hnone]
    split <;> rfl

theorem CaseCoalesce.inner : Inner (check · ctx) := (inner_cases.filter _).map _

theorem UnusedCte.inner : Inner (check · ctx) := inner_queries.flatMap _

theorem ElseNull.inner : Inner (check · ctx) := inner_cases.filterMap _

theorem NestedCase.inner : Inner (check · ctx) :=
  ((inner_marked (fun _ _ => rfl) fun _ => rfl).filter _).map _

theorem JoinUsing.inner : Inner (check · ctx) := (inner_joins.filter _).map _

theorem Subquery.inner : Inner (check · ctx) := inner_cores.flatMap _

theorem ColumnOrder.inner : Inner (check · ctx) :=
  (inner_marked (fun _ _ => rfl) fun _ => rfl).filterMap _

theorem DistinctParentheses.inner : Inner (check · ctx) :=
  (inner_cores.filterMap parenthesized?).map _

theorem JoinConditionOrder.inner : Inner (check · ctx) := inner_cores.flatMap _

theorem ConstantExpression.inner : Inner (check · ctx) := inner_cores.flatMap _

theorem ReferencesFrom.inner : Inner (check · ctx) := by
  constructor
  · intro s t heq
    simp only [check, knownNames, Node.referenceNames, inner_tables.same heq,
      inner_columns.same heq]
  · intro s hnone
    simp only [check, inner_tables.nothing hnone, List.isEmpty_nil, if_true]

theorem Qualification.inner : Inner (check · ctx) := (inner_cores.filter _).flatMap _

theorem Consistency.inner : Inner (check · ctx) := (inner_cores.filter _).flatMap _

theorem Keywords.inner : Inner (check · ctx) := by
  have hcandidates : Inner fun s => candidates (.statement s) :=
    ((inner_cteNames.map _).append ((inner_tables.filterMap _).map _)).append
      ((inner_cores.flatMap _).map _)
  exact (hcandidates.filter _).map _

theorem SpecialChars.inner : Inner (check · ctx) := by
  have hidentifiers : Inner fun s => identifiers (.statement s) :=
    ((inner_cteNames.append (inner_tables.flatMap _)).append (inner_columns.flatMap _)).append
      (inner_cores.flatMap _)
  exact (hidentifiers.filter _).map _

theorem inner_builtinRules : ∀ rule ∈ builtinRules, ∀ ctx : Context,
    Inner fun s => (rule.check s ctx).getD [] := by
  simp only [builtinRules, List.forall_mem_cons]
  exact ⟨ExpressionAlias.inner, UniqueTableAlias.inner, UniqueColumnAlias.inner,
    AliasLength.inner, SelfAlias.inner, UnusedAlias.inner, DistinctWithGroupBy.inner,
    BareUnion.inner, AmbiguousOrderBy.inner, ColumnCount.inner, BareJoin.inner,
    ColumnReferences.inner, JoinCondition.inner, PreferCoalesce.inner, CountRows.inner,
    IsNullComparison.inner, PreferLeftJoin.inner, CastingStyle.inner, CaseCoalesce.inner,
    UnusedCte.inner, ElseNull.inner, NestedCase.inner, JoinUsing.inner, Subquery.inner,
    ColumnOrder.inner, DistinctParentheses.inner, JoinConditionOrder.inner,
    ConstantExpression.inner, ReferencesFrom.inner, Qualification.inner, Consistency.inner,
    Keywords.inner, SpecialChars.inner, List.forall_mem_nil _⟩

end Rules

/-! ## The linter -/

namespace Linter

variable (config : Config) (dialect : Dialect)

theorem inner_check : Statement.Inner fun s => (Linter.builtin config).check s dialect := by
  have hrun : ∀ rule ∈ (Linter.builtin config).enabledRules,
      Statement.Inner fun s => (Linter.builtin config).runRule s dialect rule := by
    intro rule hrule
    rw [enabledRules_builtin] at hrule
    exact (Rules.inner_builtinRules rule (List.mem_of_mem_filter hrule) _).map _
  constructor
  · intro s t heq
    exact List.flatMap_congr fun rule hrule => (hrun rule hrule).same heq
  · intro s hnone
    exact List.flatMap_eq_nil_iff.2 fun rule hrule => (hrun rule hrule).nothing hnone

/-- Statements around one query have the same findings, and a statement without a query has none. -/
theorem check_of_query?_eq :
    (∀ s t : Statement, s.query? = t.query? →
      (Linter.builtin config).check s dialect = (Linter.builtin config).check t dialect)
      ∧ ∀ s : Statement, s.query? = none → (Linter.builtin config).check s dialect = [] :=
  ⟨fun _ _ => (inner_check config dialect).same, fun _ => (inner_check config dialect).nothing⟩

end Linter

/-- `SELECT DISTINCT a GROUP BY a` -/
def groupedDistinct : Query :=
  let a : Expr := ⟨.column ⟨[], { value := "a" }⟩, ⟨⟨1, 17⟩, ⟨1, 18⟩⟩⟩
  .ofCore
    { distinct := true
      columns := [.expr a none]
      source := none
      condition := none
      groupBy := [a]
      having := none
      qualify := none
      orderBy := []
      limit := none
      offset := none
      span := ⟨⟨1, 1⟩, ⟨1, 29⟩⟩ }

theorem Linter.check_wrapped :
    (Linter.builtin .standard).check (.createView ⟨[{ value := "v" }]⟩ groupedDistinct .empty)
          .generic
        = (Linter.builtin .standard).check (.insert groupedDistinct ⟨⟨1, 1⟩, ⟨1, 40⟩⟩) .generic
      ∧ ((Linter.builtin .standard).check (.query groupedDistinct) .generic).map Diagnostic.code
        = ["LINT_AM_001"]
      ∧ (Linter.builtin .standard).check (.insert none .empty) .generic = [] := by
  obtain ⟨hsame, hnothing⟩ := check_of_query?_eq .standard .generic
  refine ⟨hsame _ _ rfl, ?_, hnothing _ rfl⟩
  rw [check, enabledRules_builtin]
  decide +kernel

end SqlLint
