import SqlLint.Catalog

/-! # What a rule reads of its context

A rule uses its context to stamp its findings, to ask for features of the dialect, and to read the
options that it declares. Main statement: `heeds_builtinRules`, contexts that agree on these lead to
the same findings. -/

namespace SqlLint

/-- Whether two contexts differ at most in options that their rule does not declare. -/
structure Context.Agrees (a b : Context) : Prop where
  info : a.info = b.info
  dialect : a.dialect = b.dialect
  severity : a.severity = b.severity
  option? : a.option? = b.option?

namespace Context.Agrees

variable {a b : Context} (h : a.Agrees b)

include h

theorem report : a.report = b.report := by
  funext message span
  unfold Context.report diagnostic
  rw [h.info, h.severity]

theorem supports : a.supports = b.supports := by
  funext feature
  unfold Context.supports
  rw [h.dialect]

theorem bool? : a.bool? = b.bool? := by
  funext key
  unfold Context.bool?
  rw [h.option?]

theorem nat? : a.nat? = b.nat? := by
  funext key
  unfold Context.nat?
  rw [h.option?]

theorem choice {α : Type} (key : String) (default : α) (choices : List (String × α)) :
    a.choice key default choices = b.choice key default choices := by
  unfold Context.choice string?
  rw [h.option?]

end Context.Agrees

namespace Rules

/-- Whether a check finds the same in contexts that agree. -/
def Heeds (check : Statement → Context → List Diagnostic) : Prop :=
  ∀ s a b, Context.Agrees a b → check s a = check s b

theorem heeds_of_optionless {check : Statement → Context → List Diagnostic}
    (hcheck : ∀ s ctx, check s ctx = check s { ctx with options := none }) : Heeds check := by
  rintro s ⟨info, dialect, severity, options⟩ ⟨info', dialect', severity', options'⟩ h
  obtain ⟨rfl, rfl, rfl, -⟩ := h
  rw [hcheck s ⟨_, _, _, options⟩, hcheck s ⟨_, _, _, options'⟩]

/-! ## Aliases -/

theorem ExpressionAlias.heeds : Heeds check := by
  intro s a b h
  have hitem : checkItem a = checkItem b := by
    funext allowScalar index item
    unfold checkItem
    rw [h.report]
  unfold check
  rw [h.bool?, hitem]

theorem UniqueTableAlias.heeds : Heeds check := heeds_of_optionless fun _ _ => rfl

theorem UniqueColumnAlias.heeds : Heeds check := heeds_of_optionless fun _ _ => rfl

theorem AliasLength.heeds : Heeds check := by
  intro s a b h
  unfold check
  rw [h.nat?, h.report]

theorem SelfAlias.heeds : Heeds check := heeds_of_optionless fun _ _ => rfl

theorem UnusedAlias.heeds : Heeds check := heeds_of_optionless fun _ _ => rfl

/-! ## Ambiguous queries -/

theorem DistinctWithGroupBy.heeds : Heeds check := heeds_of_optionless fun _ _ => rfl

theorem BareUnion.heeds : Heeds check := heeds_of_optionless fun _ _ => rfl

theorem AmbiguousOrderBy.heeds : Heeds check := heeds_of_optionless fun _ _ => rfl

theorem ColumnCount.heeds : Heeds check := heeds_of_optionless fun _ _ => rfl

theorem BareJoin.heeds : Heeds check := heeds_of_optionless fun _ _ => rfl

theorem ColumnReferences.heeds : Heeds check := by
  intro s a b h
  have hitems : checkItems a = checkItems b := by
    funext style items
    unfold checkItems
    rw [h.report]
  have hstyle : style a = style b := h.choice ..
  unfold check
  rw [hitems, hstyle]

theorem JoinCondition.heeds : Heeds check := heeds_of_optionless fun _ _ => rfl

/-! ## Conventions -/

theorem PreferCoalesce.heeds : Heeds check := heeds_of_optionless fun _ _ => rfl

theorem CountRows.heeds : Heeds check := by
  intro s a b h
  have hpreferred : preferred a = preferred b := by
    unfold preferred
    rw [h.bool?]
  unfold check
  rw [hpreferred, h.report]

theorem IsNullComparison.heeds : Heeds check := heeds_of_optionless fun _ _ => rfl

theorem PreferLeftJoin.heeds : Heeds check := heeds_of_optionless fun _ _ => rfl

theorem CastingStyle.heeds : Heeds check := by
  intro s a b h
  have hpreference : preference a = preference b := by
    unfold preference
    rw [h.choice, h.supports]
  unfold check
  rw [hpreference, h.report]

theorem CaseCoalesce.heeds : Heeds check := heeds_of_optionless fun _ _ => rfl

/-! ## The structure of queries -/

theorem UnusedCte.heeds : Heeds check := heeds_of_optionless fun _ _ => rfl

theorem ElseNull.heeds : Heeds check := heeds_of_optionless fun _ _ => rfl

theorem NestedCase.heeds : Heeds check := by
  intro s a b h
  unfold check
  rw [h.nat?, h.report]

theorem JoinUsing.heeds : Heeds check := heeds_of_optionless fun _ _ => rfl

theorem Subquery.heeds : Heeds check := by
  intro s a b h
  have hforbidden : forbidden a = forbidden b := h.choice ..
  unfold check
  rw [hforbidden, h.report]

theorem ColumnOrder.heeds : Heeds check := heeds_of_optionless fun _ _ => rfl

theorem DistinctParentheses.heeds : Heeds check := heeds_of_optionless fun _ _ => rfl

theorem JoinConditionOrder.checkJoins_congr {a b : Context} (h : a.Agrees b)
    (preferred : Preference) (known : List String) (joins : List Join) :
    checkJoins a preferred known joins = checkJoins b preferred known joins := by
  induction joins generalizing known with
  | nil => rfl
  | cons join rest ih =>
    unfold checkJoins checkJoin checkEquality
    rw [ih, h.report]

theorem JoinConditionOrder.heeds : Heeds check := by
  intro s a b h
  have hlist : checkList a = checkList b := by
    funext preferred f
    exact checkJoins_congr h ..
  have hpreference : preference a = preference b := h.choice ..
  unfold check
  rw [hlist, hpreference]

theorem ConstantExpression.heeds : Heeds check := heeds_of_optionless fun _ _ => rfl

/-! ## References and identifiers -/

theorem ReferencesFrom.heeds : Heeds check := heeds_of_optionless fun _ _ => rfl

theorem Qualification.heeds : Heeds check := heeds_of_optionless fun _ _ => rfl

theorem Consistency.heeds : Heeds check := by
  intro s a b h
  have hcolumns : checkColumns a = checkColumns b := by
    funext style columns
    unfold checkColumns
    rw [h.report]
  have hstyle : style a = style b := h.choice ..
  unfold check
  rw [hcolumns, hstyle]

theorem Keywords.heeds : Heeds check := heeds_of_optionless fun _ _ => rfl

theorem SpecialChars.heeds : Heeds check := by
  intro s a b h
  have hallowed : allowed a = allowed b := by
    unfold allowed
    rw [h.option?]
  unfold check
  rw [hallowed, h.report]

/-! ## All rules -/

theorem heeds_builtinRules : ∀ rule ∈ builtinRules,
    Heeds fun s ctx => (rule.check s ctx).getD [] := by
  simp only [builtinRules, List.forall_mem_cons]
  exact ⟨ExpressionAlias.heeds, UniqueTableAlias.heeds, UniqueColumnAlias.heeds,
    AliasLength.heeds, SelfAlias.heeds, UnusedAlias.heeds, DistinctWithGroupBy.heeds,
    BareUnion.heeds, AmbiguousOrderBy.heeds, ColumnCount.heeds, BareJoin.heeds,
    ColumnReferences.heeds, JoinCondition.heeds, PreferCoalesce.heeds, CountRows.heeds,
    IsNullComparison.heeds, PreferLeftJoin.heeds, CastingStyle.heeds, CaseCoalesce.heeds,
    UnusedCte.heeds, ElseNull.heeds, NestedCase.heeds, JoinUsing.heeds, Subquery.heeds,
    ColumnOrder.heeds, DistinctParentheses.heeds, JoinConditionOrder.heeds,
    ConstantExpression.heeds, ReferencesFrom.heeds, Qualification.heeds, Consistency.heeds,
    Keywords.heeds, SpecialChars.heeds, List.forall_mem_nil _⟩

end Rules
end SqlLint
