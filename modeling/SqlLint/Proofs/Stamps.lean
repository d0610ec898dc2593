import SqlLint.Catalog

/-! # Findings carry the stamp of their rule

Every finding of a built-in rule has the code and the severity of the rule, and neither an index nor
a page yet. Main statement: `stampsAll_builtinRules`. -/

namespace SqlLint

/-- Whether a finding is as the rule of the context makes them. -/
structure Context.Stamps (ctx : Context) (d : Diagnostic) : Prop where
  code : d.code = ctx.info.code
  severity : d.severity = ctx.severity
  statementIndex : d.statementIndex = none
  docUrl : d.docUrl = none

def Context.StampsAll (ctx : Context) (ds : List Diagnostic) : Prop := ∀ d ∈ ds, ctx.Stamps d

namespace Context

variable {ctx : Context} {d : Diagnostic}

theorem stamps_report (message : String) (span : Span) : ctx.Stamps (ctx.report message span) := by
  unfold report Diagnostic.withSpan
  split
  · exact ⟨rfl, rfl, rfl, rfl⟩
  · exact ⟨rfl, rfl, rfl, rfl⟩

theorem Stamps.markFixable (h : ctx.Stamps d) : ctx.Stamps d.markFixable :=
  ⟨h.code, h.severity, h.statementIndex, h.docUrl⟩

theorem Stamps.withImpact (h : ctx.Stamps d) (impact : Impact) : ctx.Stamps (d.withImpact impact) :=
  ⟨h.code, h.severity, h.statementIndex, h.docUrl⟩

theorem stamps_fixable (message : String) (span : Span) :
    ctx.Stamps (ctx.report message span).markFixable :=
  (stamps_report message span).markFixable

/-! ## Loops

As in the loops of rules: findings of findings, one finding for each item, at most one for each. -/

section Loops

variable {α β : Type} {xs : List α}

theorem stampsAll_nil : ctx.StampsAll [] := List.forall_mem_nil _

theorem StampsAll.append {as bs : List Diagnostic} (ha : ctx.StampsAll as)
    (hb : ctx.StampsAll bs) : ctx.StampsAll (as ++ bs) :=
  List.forall_mem_append.2 ⟨ha, hb⟩

theorem stampsAll_flatMap {f : α → List Diagnostic} (h : ∀ x, ctx.StampsAll (f x)) :
    ctx.StampsAll (xs.flatMap f) := by
  intro d hd
  obtain ⟨x, -, hx⟩ := List.mem_flatMap.1 hd
  exact h x d hx

theorem stampsAll_map {f : α → Diagnostic} (h : ∀ x, ctx.Stamps (f x)) :
    ctx.StampsAll (xs.map f) := by
  intro d hd
  obtain ⟨x, -, rfl⟩ := List.mem_map.1 hd
  exact h x

theorem stampsAll_filterMap {f : α → Option Diagnostic}
    (h : ∀ x d, f x = some d → ctx.Stamps d) : ctx.StampsAll (xs.filterMap f) := by
  intro d hd
  obtain ⟨x, -, hx⟩ := List.mem_filterMap.1 hd
  exact h x d hx

theorem stampsAll_filterMap_map {f : α → Option β} {g : α → β → Diagnostic}
    (h : ∀ x y, ctx.Stamps (g x y)) : ctx.StampsAll (xs.filterMap fun x => (f x).map (g x)) := by
  apply stampsAll_filterMap
  intro x d hd
  obtain ⟨y, -, rfl⟩ := Option.map_eq_some_iff.1 hd
  exact h x y

theorem stampsAll_elim {o : Option α} {f : α → List Diagnostic} (h : ∀ x, ctx.StampsAll (f x)) :
    ctx.StampsAll (o.elim [] f) := by
  cases o with
  | none => exact stampsAll_nil
  | some x => exact h x

end Loops
end Context

namespace Rules

open Context

variable (s : Statement) (ctx : Context)

/-! ## Aliases -/

theorem ExpressionAlias.stampsAll : ctx.StampsAll (check s ctx) := by
  refine stampsAll_flatMap fun core => stampsAll_filterMap ?_
  rintro ⟨item, index⟩ d hd
  simp only [checkItem] at hd
  split at hd
  · obtain ⟨-, hd⟩ := Option.ite_none_right_eq_some.1 hd
    cases hd
    exact stamps_report _ _
  · cases hd

theorem UniqueTableAlias.stampsAll : ctx.StampsAll (check s ctx) :=
  stampsAll_flatMap fun _ => stampsAll_map fun _ => stamps_report _ _

theorem UniqueColumnAlias.stampsAll : ctx.StampsAll (check s ctx) :=
  stampsAll_flatMap fun _ => stampsAll_map fun _ => stamps_report _ _

theorem AliasLength.stampsAll : ctx.StampsAll (check s ctx) :=
  stampsAll_filterMap_map fun _ _ => stamps_report _ _

theorem SelfAlias.stampsAll : ctx.StampsAll (check s ctx) := by
  refine stampsAll_flatMap fun core => stampsAll_filterMap fun item d hd => ?_
  simp only [checkItem, Option.bind_eq_bind, Option.bind_eq_some_iff] at hd
  obtain ⟨_, -, _, -, _, -, hd⟩ := hd
  obtain ⟨-, hd⟩ := Option.ite_none_right_eq_some.1 hd
  cases hd
  exact stamps_fixable _ _

theorem UnusedAlias.stampsAll : ctx.StampsAll (check s ctx) :=
  stampsAll_flatMap fun _ => stampsAll_map fun _ => stamps_report _ _

/-! ## Ambiguous queries -/

theorem DistinctWithGroupBy.stampsAll : ctx.StampsAll (check s ctx) :=
  stampsAll_map fun _ => stamps_fixable _ _

theorem BareUnion.stampsAll : ctx.StampsAll (check s ctx) :=
  stampsAll_map fun _ => stamps_report _ _

theorem AmbiguousOrderBy.stampsAll : ctx.StampsAll (check s ctx) :=
  stampsAll_map fun _ => stamps_report _ _

theorem ColumnCount.stampsAll : ctx.StampsAll (check s ctx) := by
  refine stampsAll_flatMap fun chain => ?_
  unfold checkChain
  split
  · exact stampsAll_nil
  · split
    · exact stampsAll_nil
    · refine stampsAll_filterMap fun (branch, index) d hd => ?_
      simp only [checkBranch, Option.bind_eq_bind, Option.bind_eq_some_iff] at hd
      obtain ⟨_, -, hd⟩ := hd
      obtain ⟨-, hd⟩ := Option.ite_none_left_eq_some.1 hd
      cases hd
      exact (stamps_report _ _).withImpact _

theorem BareJoin.stampsAll : ctx.StampsAll (check s ctx) :=
  stampsAll_map fun _ => stamps_fixable _ _

theorem ColumnReferences.stampsAll : ctx.StampsAll (check s ctx) := by
  have hitems : ∀ style items, ctx.StampsAll (checkItems ctx style items) :=
    fun _ _ => stampsAll_map fun _ => stamps_report _ _
  exact (stampsAll_flatMap fun _ => hitems _ _).append (stampsAll_flatMap fun _ => hitems _ _)

theorem JoinCondition.stampsAll : ctx.StampsAll (check s ctx) :=
  stampsAll_map fun _ => stamps_report _ _

/-! ## Conventions -/

theorem PreferCoalesce.stampsAll : ctx.StampsAll (check s ctx) :=
  stampsAll_filterMap_map fun _ _ => stamps_fixable _ _

theorem CountRows.stampsAll : ctx.StampsAll (check s ctx) :=
  stampsAll_filterMap_map fun _ _ => stamps_fixable _ _

theorem IsNullComparison.stampsAll : ctx.StampsAll (check s ctx) :=
  stampsAll_filterMap_map fun _ _ => stamps_fixable _ _

theorem PreferLeftJoin.stampsAll : ctx.StampsAll (check s ctx) :=
  stampsAll_map fun _ => stamps_report _ _

theorem CastingStyle.stampsAll : ctx.StampsAll (check s ctx) := by
  simp only [check]
  split
  · exact stampsAll_nil
  · exact stampsAll_map fun _ => stamps_report _ _

theorem CaseCoalesce.stampsAll : ctx.StampsAll (check s ctx) :=
  stampsAll_map fun _ => stamps_fixable _ _

/-! ## The structure of queries -/

theorem UnusedCte.stampsAll : ctx.StampsAll (check s ctx) :=
  stampsAll_flatMap fun _ => stampsAll_map fun _ => stamps_report _ _

theorem ElseNull.stampsAll : ctx.StampsAll (check s ctx) :=
  stampsAll_filterMap_map fun _ _ => stamps_fixable _ _

theorem NestedCase.stampsAll : ctx.StampsAll (check s ctx) :=
  stampsAll_map fun _ => stamps_report _ _

theorem JoinUsing.stampsAll : ctx.StampsAll (check s ctx) :=
  stampsAll_map fun _ => stamps_report _ _

theorem Subquery.stampsAll : ctx.StampsAll (check s ctx) :=
  stampsAll_flatMap fun _ => stampsAll_map fun _ => stamps_report _ _

theorem ColumnOrder.stampsAll : ctx.StampsAll (check s ctx) :=
  stampsAll_filterMap_map fun _ _ => stamps_report _ _

theorem DistinctParentheses.stampsAll : ctx.StampsAll (check s ctx) :=
  stampsAll_map fun _ => stamps_fixable _ _

theorem JoinConditionOrder.stampsAll_checkJoin (preferred : Preference) (known : List String)
    (join : Join) : ctx.StampsAll (checkJoin ctx preferred known join) := by
  unfold checkJoin
  split
  · split
    · exact stampsAll_nil
    · refine stampsAll_filterMap fun equality d hd => ?_
      simp only [checkEquality, Option.bind_eq_bind, Option.bind_eq_some_iff] at hd
      obtain ⟨_, -, _, -, _, -, _, -, hd⟩ := hd
      obtain ⟨-, hd⟩ := Option.ite_none_right_eq_some.1 hd
      cases hd
      exact stamps_report _ _
  · exact stampsAll_nil

theorem JoinConditionOrder.stampsAll_checkJoins (preferred : Preference) (known : List String)
    (joins : List Join) : ctx.StampsAll (checkJoins ctx preferred known joins) := by
  induction joins generalizing known with
  | nil => exact stampsAll_nil
  | cons join rest ih => exact (stampsAll_checkJoin ctx preferred known join).append (ih _)

theorem JoinConditionOrder.stampsAll : ctx.StampsAll (check s ctx) :=
  stampsAll_flatMap fun _ => stampsAll_flatMap fun _ => stampsAll_checkJoins ctx _ _ _

theorem ConstantExpression.stampsAll : ctx.StampsAll (check s ctx) :=
  stampsAll_flatMap fun _ => stampsAll_elim fun _ =>
    stampsAll_filterMap_map fun _ _ => stamps_report _ _

/-! ## References and identifiers -/

theorem ReferencesFrom.stampsAll : ctx.StampsAll (check s ctx) := by
  simp only [check]
  split
  · exact stampsAll_nil
  · exact stampsAll_map fun _ => stamps_report _ _

theorem Qualification.stampsAll : ctx.StampsAll (check s ctx) :=
  stampsAll_flatMap fun _ => stampsAll_map fun _ => stamps_report _ _

theorem Consistency.stampsAll : ctx.StampsAll (check s ctx) := by
  refine stampsAll_flatMap fun core => ?_
  unfold checkColumns
  split
  · split
    · exact stampsAll_nil
    · exact stampsAll_map fun _ => stamps_report _ _
  · exact stampsAll_map fun _ => stamps_report _ _
  · exact stampsAll_map fun _ => stamps_report _ _

theorem Keywords.stampsAll : ctx.StampsAll (check s ctx) :=
  stampsAll_map fun _ => stamps_report _ _

theorem SpecialChars.stampsAll : ctx.StampsAll (check s ctx) :=
  stampsAll_map fun _ => stamps_report _ _

/-! ## All rules -/

theorem stampsAll_builtinRules : ∀ rule ∈ builtinRules, ∀ (s : Statement) (ctx : Context),
    ctx.StampsAll ((rule.check s ctx).getD []) := by
  simp only [builtinRules, List.forall_mem_cons]
  exact ⟨ExpressionAlias.stampsAll, UniqueTableAlias.stampsAll, UniqueColumnAlias.stampsAll,
    AliasLength.stampsAll, SelfAlias.stampsAll, UnusedAlias.stampsAll,
    DistinctWithGroupBy.stampsAll, BareUnion.stampsAll, AmbiguousOrderBy.stampsAll,
    ColumnCount.stampsAll, BareJoin.stampsAll, ColumnReferences.stampsAll,
    JoinCondition.stampsAll, PreferCoalesce.stampsAll, CountRows.stampsAll,
    IsNullComparison.stampsAll, PreferLeftJoin.stampsAll, CastingStyle.stampsAll,
    CaseCoalesce.stampsAll, UnusedCte.stampsAll, ElseNull.stampsAll, NestedCase.stampsAll,
    JoinUsing.stampsAll, Subquery.stampsAll, ColumnOrder.stampsAll,
    DistinctParentheses.stampsAll, JoinConditionOrder.stampsAll, ConstantExpression.stampsAll,
    ReferencesFrom.stampsAll, Qualification.stampsAll, Consistency.stampsAll,
    Keywords.stampsAll, SpecialChars.stampsAll, List.forall_mem_nil _⟩

end Rules
end SqlLint
