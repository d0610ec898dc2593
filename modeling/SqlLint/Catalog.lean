import SqlLint.Linter
import SqlLint.Rules.Ambiguous
import SqlLint.Rules.Constant
import SqlLint.Rules.Convention
import SqlLint.Rules.JoinOrder
import SqlLint.Rules.References
import SqlLint.Rules.Structure

/-! # The built-in rules

All built-in rules in the order in which their findings are reported. -/

namespace SqlLint

open Rules in
def builtinRules : List Rule :=
  [.total ExpressionAlias.info ExpressionAlias.check,
    .total UniqueTableAlias.info UniqueTableAlias.check,
    .total UniqueColumnAlias.info UniqueColumnAlias.check,
    .total AliasLength.info AliasLength.check,
    .total SelfAlias.info SelfAlias.check,
    .total UnusedAlias.info UnusedAlias.check,
    .total DistinctWithGroupBy.info DistinctWithGroupBy.check,
    .total BareUnion.info BareUnion.check,
    .total AmbiguousOrderBy.info AmbiguousOrderBy.check,
    .total ColumnCount.info ColumnCount.check,
    .total BareJoin.info BareJoin.check,
    .total ColumnReferences.info ColumnReferences.check,
    .total JoinCondition.info JoinCondition.check,
    .total PreferCoalesce.info PreferCoalesce.check,
    .total CountRows.info CountRows.check,
    .total IsNullComparison.info IsNullComparison.check,
    .total PreferLeftJoin.info PreferLeftJoin.check,
    .total CastingStyle.info CastingStyle.check,
    .total CaseCoalesce.info CaseCoalesce.check,
    .total UnusedCte.info UnusedCte.check,
    .total ElseNull.info ElseNull.check,
    .total NestedCase.info NestedCase.check,
    .total JoinUsing.info JoinUsing.check,
    .total Subquery.info Subquery.check,
    .total ColumnOrder.info ColumnOrder.check,
    .total DistinctParentheses.info DistinctParentheses.check,
    .total JoinConditionOrder.info JoinConditionOrder.check,
    .total ConstantExpression.info ConstantExpression.check,
    .total ReferencesFrom.info ReferencesFrom.check,
    .total Qualification.info Qualification.check,
    .total Consistency.info Consistency.check,
    .total Keywords.info Keywords.check,
    .total SpecialChars.info SpecialChars.check]

def Registry.builtin : Registry :=
  match Registry.ofRules builtinRules with
  | .ok r => r
  | .error _ => .empty

def Linter.builtin (config : Config) : Linter := ⟨.builtin, config⟩

def analyze (statement : Statement) (dialect : Dialect) (config : Config) : List Diagnostic :=
  (Linter.builtin config).check statement dialect

end SqlLint
