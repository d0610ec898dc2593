import SqlLint.Rule
import SqlLint.Tree.Collect

/-! # Rules on aliases -/

namespace SqlLint.Rules

/-- The identifiers that repeat an earlier one, or one already seen, in any letter case. -/
def repeats (seen : List String) : List Ident → List Ident
  | [] => []
  | i :: rest =>
    if seen.contains i.key then i :: repeats seen rest else repeats (i.key :: seen) rest

def columnAliases (core : Core) : List Ident := core.columns.filterMap SelectItem.alias?

/-! ## Computed columns without a name -/

namespace ExpressionAlias

def info : RuleInfo where
  code := "LINT_AL_001"
  name := "aliasing.expression"
  group := .aliasing
  description := "Computed select expressions should have an explicit alias."
  defaultSeverity := .info
  configKeys := ["allow_scalar"]

/-- Whether an expression has no name of its own. A literal, perhaps with a sign, counts as computed
only if scalars are not allowed. -/
def needsAlias (allowScalar : Bool) (e : Expr) : Bool :=
  match e.unnested.kind with
  | .column _ | .star _ => false
  | .literal _ => !allowScalar
  | .unary .minus inner | .unary .plus inner => inner.literal?.isNone || !allowScalar
  | _ => true

def message (position : Nat) : String :=
  s!"Select expression {position} has no alias; name computed columns explicitly."

/-- The finding for the output column at an index, counted from zero. -/
def checkItem (ctx : Context) (allowScalar : Bool) (index : Nat) : SelectItem → Option Diagnostic
  | .expr e none =>
    if needsAlias allowScalar e then
      some (ctx.report (message (index + 1)) e.span)
    else none
  | _ => none

def check (s : Statement) (ctx : Context) : List Diagnostic :=
  let allowScalar := (ctx.bool? "allow_scalar").getD true
  (Node.statement s).cores.flatMap fun core =>
    core.columns.zipIdx.filterMap fun (item, index) => checkItem ctx allowScalar index item

end ExpressionAlias

/-! ## Tables of one name -/

namespace UniqueTableAlias

def info : RuleInfo where
  code := "LINT_AL_002"
  name := "aliasing.unique.table"
  group := .aliasing
  description := "Table aliases should be unique within a FROM clause."
  defaultSeverity := .warning
  configKeys := []

def check (s : Statement) (ctx : Context) : List Diagnostic :=
  (Node.statement s).cores.flatMap fun core =>
    (repeats [] (core.tables.filterMap TableRef.referenceName?)).map fun name =>
      ctx.report s!"Table alias '{name.value}' is used more than once in the same FROM clause."
        name.span

end UniqueTableAlias

/-! ## Output columns of one name -/

namespace UniqueColumnAlias

def info : RuleInfo where
  code := "LINT_AL_003"
  name := "aliasing.unique.column"
  group := .aliasing
  description := "Column aliases should be unique within a select list."
  defaultSeverity := .warning
  configKeys := []

def check (s : Statement) (ctx : Context) : List Diagnostic :=
  (Node.statement s).cores.flatMap fun core =>
    (repeats [] (columnAliases core)).map fun label =>
      ctx.report s!"Column alias '{label.value}' is used more than once in the select list."
        label.span

end UniqueColumnAlias

/-! ## Aliases that are too short or too long -/

namespace AliasLength

def info : RuleInfo where
  code := "LINT_AL_004"
  name := "aliasing.length"
  group := .aliasing
  description := "Table aliases should be neither too short nor too long."
  defaultSeverity := .info
  configKeys := ["min_alias_length", "max_alias_length"]

/-- The longest alias that is accepted unless a limit is given. -/
def defaultMax : Nat := 30

/-- What is wrong with the length of an alias. -/
def complaint? (min max : Nat) (label : String) : Option String :=
  if label.length < min then some s!"Table alias '{label}' is shorter than {min} characters."
  else if max < label.length then some s!"Table alias '{label}' is longer than {max} characters."
  else none

def check (s : Statement) (ctx : Context) : List Diagnostic :=
  let min := (ctx.nat? "min_alias_length").getD 0
  let max := (ctx.nat? "max_alias_length").getD defaultMax
  ((Node.statement s).tables.filterMap TableRef.alias?).filterMap fun label =>
    (complaint? min max label.value).map (ctx.report · label.span)

end AliasLength

/-! ## Columns named as they are -/

namespace SelfAlias

def info : RuleInfo where
  code := "LINT_AL_005"
  name := "aliasing.self_alias.column"
  group := .aliasing
  description := "Column aliases should not alias to itself."
  defaultSeverity := .info
  configKeys := []

def checkItem (ctx : Context) (item : SelectItem) : Option Diagnostic := do
  let column ← (← item.expr?).unnested.column?
  let label ← item.alias?
  if column.name.equivalent label then
    return (ctx.report s!"Column '{column.text}' is aliased to its own name '{label.value}'."
      item.span).markFixable
  else none

def check (s : Statement) (ctx : Context) : List Diagnostic :=
  (Node.statement s).cores.flatMap fun core => core.columns.filterMap (checkItem ctx)

end SelfAlias

/-! ## Aliases that nothing refers to -/

namespace UnusedAlias

def info : RuleInfo where
  code := "LINT_AL_006"
  name := "aliasing.unused"
  group := .aliasing
  description := "Table aliases should be referenced."
  defaultSeverity := .warning
  configKeys := []

/-- The table that a node refers to by a qualifier. -/
def qualifier? : Node → Option Ident
  | .item (.qualifiedWildcard qualifier _) => qualifier.base?
  | .expr ⟨.column ref, _⟩ => ref.table?
  | .expr ⟨.star (some qualifier), _⟩ => qualifier.base?
  | _ => none

/-- The tables that a core refers to, nested queries included. -/
def usedQualifiers (core : Core) : List String :=
  ((Node.core core).collect qualifier?).map Ident.key

/-- The alias of a table with a name of its own. -/
def namedAlias? : TableRef → Option Ident
  | .named _ label _ => label
  | _ => none

def check (s : Statement) (ctx : Context) : List Diagnostic :=
  (Node.statement s).cores.flatMap fun core =>
    let used := usedQualifiers core
    ((core.tables.filterMap namedAlias?).filter (!used.contains ·.key)).map fun label =>
      ctx.report s!"Table alias '{label.value}' is defined but never referenced." label.span

end UnusedAlias

end SqlLint.Rules
