import SqlLint.Rule
import SqlLint.Tree.Collect
import SqlLint.Tree.Equivalence

/-! # Rules on conventions -/

namespace SqlLint.Rules

/-! ## Functions that COALESCE replaces -/

namespace PreferCoalesce

def info : RuleInfo where
  code := "LINT_CV_001"
  name := "convention.coalesce"
  group := .convention
  description := "Use COALESCE instead of IFNULL or NVL."
  defaultSeverity := .info
  configKeys := []

/-- The functions that only some dialects have. -/
def nonPortable : List String := ["IFNULL", "NVL"]

def check (s : Statement) (ctx : Context) : List Diagnostic :=
  (Node.statement s).functions.filterMap fun f =>
    (nonPortable.find? f.value.isNamed).map fun name =>
      (ctx.report s!"Use COALESCE instead of {name}." f.span).markFixable

end PreferCoalesce

/-! ## Counting rows -/

namespace CountRows

def info : RuleInfo where
  code := "LINT_CV_002"
  name := "convention.count_rows"
  group := .convention
  description := "Use a consistent form to count rows."
  defaultSeverity := .info
  configKeys := ["prefer_count_1", "prefer_count_0"]

/-- A way of counting rows. -/
inductive Form where
  | star
  | one
  | zero
deriving DecidableEq, Repr

def Form.sql : Form → String
  | .star => "COUNT(*)"
  | .one => "COUNT(1)"
  | .zero => "COUNT(0)"

/-- The way in which a call counts rows, if it does. -/
def form? (f : FunctionCall) : Option Form :=
  if f.isNamed "COUNT" && !f.distinct then
    match f.args with
    | [⟨.star none, _⟩] => some .star
    | [⟨.literal ⟨.number, value⟩, _⟩] =>
      if value == "1" then some .one else if value == "0" then some .zero else none
    | _ => none
  else none

/-- The form to use: the star, unless an option asks for a number; the one goes before the zero. -/
def preferred (ctx : Context) : Form :=
  if (ctx.bool? "prefer_count_1").getD false then .one
  else if (ctx.bool? "prefer_count_0").getD false then .zero
  else .star

def check (s : Statement) (ctx : Context) : List Diagnostic :=
  let preferred := preferred ctx
  (Node.statement s).functions.filterMap fun f =>
    ((form? f.value).filter (· != preferred)).map fun form =>
      (ctx.report s!"Use {preferred.sql} instead of {form.sql} to count rows." f.span).markFixable

end CountRows

/-! ## Comparisons with NULL -/

namespace IsNullComparison

def info : RuleInfo where
  code := "LINT_CV_003"
  name := "convention.is_null"
  group := .convention
  description := "Compare with NULL using IS NULL or IS NOT NULL."
  defaultSeverity := .warning
  configKeys := []

/-- What to write in place of a comparison with `NULL`. -/
def replacement? (b : BinaryExpr) : Option String :=
  if b.left.isNull || b.right.isNull then
    match b.op with
    | .eq => some "IS NULL"
    | .notEq => some "IS NOT NULL"
    | _ => none
  else none

def check (s : Statement) (ctx : Context) : List Diagnostic :=
  (Node.statement s).binaries.filterMap fun b =>
    (replacement? b.value).map fun replacement =>
      (ctx.report s!"Comparison with NULL is never true; use {replacement}." b.span).markFixable

end IsNullComparison

/-! ## RIGHT JOIN -/

namespace PreferLeftJoin

def info : RuleInfo where
  code := "LINT_CV_004"
  name := "convention.left_join"
  group := .convention
  description := "Use LEFT JOIN instead of RIGHT JOIN."
  defaultSeverity := .info
  configKeys := []

def check (s : Statement) (ctx : Context) : List Diagnostic :=
  ((Node.statement s).joins.filter (·.kind == .right)).map fun join =>
    ctx.report "RIGHT JOIN; rewrite as LEFT JOIN with the tables swapped." join.span

end PreferLeftJoin

/-! ## The two ways of writing a cast -/

namespace CastingStyle

def info : RuleInfo where
  code := "LINT_CV_005"
  name := "convention.casting_style"
  group := .convention
  description := "Use a consistent type casting style."
  defaultSeverity := .info
  configKeys := ["preferred_type_casting_style"]

/-- How casts have to be written. -/
inductive Preference where
  /-- As the first of them is written. -/
  | consistent
  /-- In one style. -/
  | fixed (style : CastStyle)
deriving DecidableEq, Repr

/-- The style asked for. The shorthand counts only where the dialect has it. -/
def preference (ctx : Context) : Preference :=
  let asked := ctx.choice "preferred_type_casting_style" .consistent
    [("cast", .fixed .cast), ("shorthand", .fixed .doubleColon)]
  if asked == .fixed .doubleColon && !ctx.supports .doubleColonCast then .consistent else asked

/-- The style of a cast that can be written in two ways. -/
def cast? : Node → Option (Located CastStyle)
  | .expr ⟨.cast _ _ .cast, span⟩ => some ⟨.cast, span⟩
  | .expr ⟨.cast _ _ .doubleColon, span⟩ => some ⟨.doubleColon, span⟩
  | _ => none

/-- The style that every cast should have, if there are casts. -/
def expected? (preference : Preference) (casts : List (Located CastStyle)) : Option CastStyle :=
  match preference with
  | .fixed style => some style
  | .consistent => casts.head?.map Located.value

def describe : CastStyle → String
  | .cast => "CAST(... AS ...)"
  | .doubleColon => "'::'"
  | .tryCast => "TRY_CAST"
  | .safeCast => "SAFE_CAST"

def check (s : Statement) (ctx : Context) : List Diagnostic :=
  let casts := (Node.statement s).collect cast?
  match expected? (preference ctx) casts with
  | none => []
  | some expected =>
    (casts.filter (·.value != expected)).map fun c =>
      ctx.report s!"Use {describe expected} instead of {describe c.value} for type casts." c.span

end CastingStyle

/-! ## CASE in place of COALESCE -/

namespace CaseCoalesce

def info : RuleInfo where
  code := "LINT_CV_006"
  name := "convention.case_coalesce"
  group := .convention
  description := "Use COALESCE instead of a CASE that tests one value for NULL."
  defaultSeverity := .info
  configKeys := []

def check (s : Statement) (ctx : Context) : List Diagnostic :=
  ((Node.statement s).cases.filter (·.value.coalesce?.isSome)).map fun c =>
    (ctx.report "CASE expression can be simplified to COALESCE." c.span).markFixable

end CaseCoalesce

end SqlLint.Rules
