import SqlLint.Diagnostic
import SqlLint.Dialect
import SqlLint.Tree.Access

/-! # Rules

A rule has a description and a check. The check reads a statement in a context, which holds the
dialect, the severity to report with, and the options given to the rule. -/

namespace SqlLint

/-- The subject of a rule. Rules are switched off by group. -/
inductive RuleGroup where
  | aliasing
  | ambiguous
  | convention
  | structural
  | references
deriving DecidableEq, Repr, Inhabited

namespace RuleGroup

def all : List RuleGroup := [.aliasing, .ambiguous, .convention, .structural, .references]

def name : RuleGroup → String
  | .aliasing => "aliasing"
  | .ambiguous => "ambiguous"
  | .convention => "convention"
  | .structural => "structure"
  | .references => "references"

/-- The two letters that stand for the group in a rule's code. -/
def letters : RuleGroup → String
  | .aliasing => "AL"
  | .ambiguous => "AM"
  | .convention => "CV"
  | .structural => "ST"
  | .references => "RF"

def ofName? (name : String) : Option RuleGroup := all.find? (·.name == name)

end RuleGroup

/-- What is known of a rule before it runs. -/
structure RuleInfo where
  code : String
  name : String
  group : RuleGroup
  description : String
  defaultSeverity : Severity
  configKeys : List String
deriving DecidableEq, Repr, Inhabited

/-- Whether a reference names the rule, by its code or by its name and in any letter case. -/
def RuleInfo.isNamedBy (info : RuleInfo) (reference : String) : Bool :=
  Text.same reference info.code || Text.same reference info.name

/-- What a rule knows when it checks a statement. -/
structure Context where
  info : RuleInfo
  dialect : Dialect
  severity : Severity
  options : Option (List (String × Json))

namespace Context

/-- A finding of the rule, with its code and its severity. -/
def diagnostic (ctx : Context) (message : String) : Diagnostic :=
  { code := ctx.info.code, severity := ctx.severity, message }

/-- A finding of the rule at a span. -/
def report (ctx : Context) (message : String) (span : Span) : Diagnostic :=
  (ctx.diagnostic message).withSpan span

theorem message_report (ctx : Context) (message : String) (span : Span) :
    (ctx.report message span).message = message := by
  unfold report diagnostic Diagnostic.withSpan
  split <;> rfl

def supports (ctx : Context) (feature : Feature) : Bool := ctx.dialect.supports feature

/-- The value of an option. An option that the rule does not declare has none. -/
def option? (ctx : Context) (key : String) : Option Json :=
  if ctx.info.configKeys.contains key then ctx.options >>= (List.lookup key ·) else none

def bool? (ctx : Context) (key : String) : Option Bool := ctx.option? key >>= Json.bool?

def nat? (ctx : Context) (key : String) : Option Nat := ctx.option? key >>= Json.nat?

def string? (ctx : Context) (key : String) : Option String := ctx.option? key >>= Json.string?

/-- The choice that an option names, in any letter case. Without the option, or with a word that is
not among the choices, the first argument counts. -/
def choice (ctx : Context) (key : String) (default : α) (choices : List (String × α)) : α :=
  ((ctx.string? key >>= fun word => choices.lookup (Text.lower word))).getD default

end Context

/-- A rule. Its check gives the findings, or nothing at all when the rule fails. -/
structure Rule where
  info : RuleInfo
  check : Statement → Context → Option (List Diagnostic)

def Rule.total (info : RuleInfo) (check : Statement → Context → List Diagnostic) : Rule where
  info := info
  check statement ctx := some (check statement ctx)

end SqlLint
