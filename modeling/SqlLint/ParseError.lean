import SqlLint.Dialect
import SqlLint.Json.Basic
import SqlLint.Span
import SqlLint.Text.Blank
import SqlLint.Text.Digit
import SqlLint.Text.Letters
import SqlLint.Text.Search

/-! # Parse errors

What is reported when a text could not be parsed: the message, the category read off its wording,
and the position that the message names. -/

namespace SqlLint

/-- What the SQL parser says when it gives up. -/
inductive Failure where
  /-- The text does not follow the grammar. -/
  | grammar (message : String)
  /-- The text cannot be cut into tokens. -/
  | lexical (message : String)
  /-- The text is nested too deeply. -/
  | recursionLimit
deriving DecidableEq, Repr

/-- The full text of a failure. -/
def Failure.text : Failure → String
  | .grammar message | .lexical message => "sql parser error: " ++ message
  | .recursionLimit => "sql parser error: recursion limit exceeded"

/-- The category of a parse error. -/
inductive ParseError.Kind where
  /-- An unexpected token or character. -/
  | syntaxError
  /-- A clause or keyword is missing. -/
  | missingClause
  /-- The input ends too early. -/
  | unexpectedEof
  /-- The dialect does not have the construct. -/
  | unsupportedFeature
  /-- The input cannot be cut into tokens. -/
  | lexerError
  /-- The input is nested too deeply. -/
  | recursionLimit
deriving DecidableEq, Repr, Inhabited

/-- Why a text could not be parsed. -/
structure ParseError where
  message : String
  position : Option Location := none
  dialect : Option Dialect := none
  kind : ParseError.Kind := .syntaxError
deriving DecidableEq, Repr

namespace ParseError

/-! ## The category -/

/-- The small form of a letter. Two letters beyond ASCII have ASCII letters in theirs: the Kelvin
sign and the dotted capital I. All others stay outside ASCII and are left as they are. -/
def smallForm (c : Char) : List Char :=
  if c.toNat = 0x212A then ['k']
  else if c.toNat = 0x130 then ['i', Char.ofNat 0x307]
  else [c.toLower]

/-- Whether a message contains some of the phrases, in any letter case. -/
def mentions (message : String) (phrases : List String) : Bool :=
  phrases.any fun phrase => Text.occurs phrase.toList (message.toList.flatMap smallForm)

/-- The category that the wording of a message points at. -/
def Kind.ofMessage (message : String) : Kind :=
  if mentions message ["unexpected end", "eof"] then .unexpectedEof
  else if mentions message ["expected"] then .missingClause
  else if mentions message ["not supported", "unsupported"] then .unsupportedFeature
  else if mentions message ["lexer", "token"] then .lexerError
  else .syntaxError

/-! ## The position -/

/-- The text after a given start, without the blanks that follow it. -/
def after? (start : String) (cs : List Char) : Option (List Char) :=
  if start.toList.isPrefixOf cs then some ((cs.drop start.length).dropWhile Text.isBlank) else none

/-- A run of digits, as long as possible, and the text after it. -/
def digitRun? (cs : List Char) : Option (List Char × List Char) :=
  match cs.takeWhile Text.isDigit with
  | [] => none
  | ds => some (ds, cs.dropWhile Text.isDigit)

/-- The digits of line and column, if a position stands at the start of the text. -/
def positionHere? (cs : List Char) : Option (List Char × List Char) := do
  let cs ← after? "Line:" cs
  let (line, cs) ← digitRun? cs
  let cs ← after? "," (cs.dropWhile Text.isBlank)
  let cs ← after? "Column:" cs
  let (column, _) ← digitRun? cs
  return (line, column)

/-- The digits of line and column at the first place where a position stands. -/
def findPosition? : List Char → Option (List Char × List Char)
  | [] => none
  | c :: cs =>
    match positionHere? (c :: cs) with
    | some found => some found
    | none => findPosition? cs

/-- The number that digits write, if they are ASCII digits and it fits in 64 bits. -/
def word? (ds : List Char) : Option Nat := (Text.asciiNumber? ds).filter (· < wordLimit)

/-- The first position that a message names, written `Line: 1, Column: 2`. -/
def position? (message : String) : Option Location := do
  let (line, column) ← findPosition? message.toList
  return ⟨← word? line, ← word? column⟩

/-! ## Building and showing errors -/

/-- The error for a failure of the parser. -/
def ofFailure (failure : Failure) : ParseError where
  message := failure.text
  position := position? failure.text
  kind :=
    match failure with
    | .recursionLimit => .recursionLimit
    | .lexical _ => .lexerError
    | .grammar message => Kind.ofMessage message

def withDialect (e : ParseError) (dialect : Dialect) : ParseError :=
  { e with dialect := some dialect }

def withKind (e : ParseError) (kind : Kind) : ParseError := { e with kind }

/-- The text shown to the user. -/
def display (e : ParseError) : String :=
  let dialect := e.dialect.elim "" fun d => " (" ++ d.title ++ ")"
  let position := e.position.elim "" fun p =>
    " at line " ++ toString p.line ++ ", column " ++ toString p.column
  "Parse error" ++ dialect ++ position ++ ": " ++ e.message

end ParseError
end SqlLint
