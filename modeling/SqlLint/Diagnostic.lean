import SqlLint.Json.Decode
import SqlLint.Json.Printer
import SqlLint.Span
import SqlLint.Text.Letters

/-! # Diagnostics

A finding of a rule, and its JSON form. -/

namespace SqlLint

/-! ## Severity and impact -/

/-- How serious a finding is, in increasing order. -/
inductive Severity where
  | hint
  | info
  | warning
  | error
deriving DecidableEq, Repr, Inhabited

namespace Severity

/-- The position in the order of seriousness. -/
def rank : Severity → Nat
  | .hint => 0
  | .info => 1
  | .warning => 2
  | .error => 3

def name : Severity → String
  | .hint => "hint"
  | .info => "info"
  | .warning => "warning"
  | .error => "error"

def all : List Severity := [.hint, .info, .warning, .error]

end Severity

/-- How much a finding weighs when reports are sorted, in increasing order. -/
inductive Impact where
  | low
  | medium
  | high
  | critical
deriving DecidableEq, Repr, Inhabited

namespace Impact

/-- The weight, from one to four. -/
def score : Impact → Nat
  | .low => 1
  | .medium => 2
  | .high => 3
  | .critical => 4

def name : Impact → String
  | .low => "low"
  | .medium => "medium"
  | .high => "high"
  | .critical => "critical"

def all : List Impact := [.low, .medium, .high, .critical]

end Impact

/-! ## Findings -/

structure Diagnostic where
  code : String
  severity : Severity
  message : String
  span : Option Span := none
  statementIndex : Option Nat := none
  docUrl : Option String := none
  impact : Option Impact := none
  fixable : Bool := false
deriving DecidableEq, Repr, Inhabited

/-- The page that documents a rule, found from its code alone. -/
def documentationUrl (code : String) : String := "https://querylint.dev/rules/" ++ Text.lower code

namespace Diagnostic

/-- The finding at a span; an empty span is not attached. -/
def withSpan (d : Diagnostic) (span : Span) : Diagnostic :=
  if span.isEmpty then d else { d with span := some span }

def withStatement (d : Diagnostic) (index : Nat) : Diagnostic :=
  { d with statementIndex := some index }

def withDocUrl (d : Diagnostic) (url : String) : Diagnostic := { d with docUrl := some url }

def withImpact (d : Diagnostic) (impact : Impact) : Diagnostic := { d with impact := some impact }

/-- The finding, marked as one that could be mended automatically. -/
def markFixable (d : Diagnostic) : Diagnostic := { d with fixable := true }

/-- The finding with the page of its code, unless it names a page already. -/
def documented (d : Diagnostic) : Diagnostic :=
  { d with docUrl := some (d.docUrl.getD (documentationUrl d.code)) }

end Diagnostic

/-! ## JSON form -/

def Location.toJson (l : Location) : Json :=
  .object [("line", .nat l.line), ("column", .nat l.column)]

def Span.toJson (s : Span) : Json :=
  .object [("start", s.start.toJson), ("end", s.stop.toJson)]

def Json.member? (key : String) (f : α → Json) : Option α → List (String × Json)
  | none => []
  | some a => [(key, f a)]

/-- The JSON form of a finding. A field that is absent has no member. -/
def Diagnostic.toJson (d : Diagnostic) : Json :=
  .object <|
    [("code", .string d.code), ("severity", .string d.severity.name),
      ("message", .string d.message)]
    ++ Json.member? "span" Span.toJson d.span
    ++ Json.member? "statementIndex" Json.nat d.statementIndex
    ++ Json.member? "docUrl" Json.string d.docUrl
    ++ Json.member? "impact" (fun i : Impact => .string i.name) d.impact
    ++ [("fixable", .bool d.fixable)]

def Location.decode (d : Document) : Option Location := do
  let fields ← d.record? ["line", "column"]
  return ⟨← fields.required? "line" Document.nat?, ← fields.required? "column" Document.nat?⟩

def Span.decode (d : Document) : Option Span := do
  let fields ← d.record? ["start", "end"]
  return ⟨← fields.required? "start" Location.decode, ← fields.required? "end" Location.decode⟩

def Severity.decode : Document → Option Severity :=
  Document.oneOf? (Severity.all.map fun s => (s.name, s))

def Impact.decode : Document → Option Impact :=
  Document.oneOf? (Impact.all.map fun i => (i.name, i))

/-- The finding that a document describes. The first three fields are required. -/
def Diagnostic.decode (d : Document) : Option Diagnostic := do
  let fields ← d.record? ["code", "severity", "message", "span", "statementIndex", "docUrl",
    "impact", "fixable"]
  return {
    code := ← fields.required? "code" Document.text?
    severity := ← fields.required? "severity" Severity.decode
    message := ← fields.required? "message" Document.text?
    span := ← fields.default? "span" none (Document.nullable? Span.decode)
    statementIndex := ← fields.default? "statementIndex" none (Document.nullable? Document.nat?)
    docUrl := ← fields.default? "docUrl" none (Document.nullable? Document.text?)
    impact := ← fields.default? "impact" none (Document.nullable? Impact.decode)
    fixable := ← fields.default? "fixable" false Document.bool? }

def Diagnostic.encode (d : Diagnostic) : String := d.toJson.compress

def Diagnostic.parse? (text : String) : Option Diagnostic := do
  Diagnostic.decode (← Document.parse? text)

end SqlLint
