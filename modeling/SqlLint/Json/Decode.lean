import SqlLint.Json.Document

/-! # Decoding documents

What a document is asked for: a value, a word of a fixed list, or a record. A record is given by its
fields' names, or by an array of its fields in their order; a field given twice is refused and an
unknown one is not looked at. -/

namespace SqlLint

/-- The largest number of arrays and objects that may stand inside one another. -/
def depthLimit : Nat := 127

namespace Document

/-! ## Single values -/

def text? : Document → Option String
  | .string text => text
  | _ => none

def bool? : Document → Option Bool
  | .bool b => some b
  | _ => none

/-- A whole number of 64 bits, written without sign, fraction and exponent. -/
def nat? : Document → Option Nat
  | .number n => n.nat?
  | _ => none

/-- One of the named values: its name, or an object with that name bound to `null`. -/
def oneOf? (choices : List (String × α)) : Document → Option α
  | .string (some name) => choices.lookup name
  | .object [(some name, .null)] => choices.lookup name
  | _ => none

def listOf? (decode : Document → Option α) : Document → Option (List α)
  | .array items => items.mapM decode
  | _ => none

/-- The members of an object, in order and with repetitions. -/
def membersOf? (decode : Document → Option α) : Document → Option (List (String × α))
  | .object members => members.mapM fun (key, value) => return (← key, ← decode value)
  | _ => none

/-- An optional value, for which `null` stands when it is absent. -/
def nullable? (decode : Document → Option α) : Document → Option (Option α)
  | .null => some none
  | d => (decode d).map some

/-! ## Values of any kind -/

mutual

/-- The JSON value that a document writes, if at most `depth` arrays and objects stand inside one
another. The last of several members with one key counts. -/
def value (depth : Nat) : Document → Option Json
  | .null => some .null
  | .bool b => some (.bool b)
  | .number n => n.number?.map .number
  | .string text => text.map .string
  | .array items =>
    match depth with
    | 0 => none
    | depth + 1 => (values depth items).map .array
  | .object members =>
    match depth with
    | 0 => none
    | depth + 1 => (memberValues depth [] members).map .object

def values (depth : Nat) : List Document → Option (List Json)
  | [] => some []
  | d :: rest => do return (← value depth d) :: (← values depth rest)

/-- The members of an object, added to those already read. -/
def memberValues (depth : Nat) (read : List (String × Json)) :
    List (Option String × Document) → Option (List (String × Json))
  | [] => some read
  | (key, d) :: rest => do memberValues depth (Json.put (← key) (← value depth d) read) rest

end

/-! ## Records -/

/-- The fields found in a document, by name. -/
abbrev Fields := List (String × Document)

/-- The members whose names are among `names`. A name that is no text or a second member of one
known name is refused. -/
def knownMembers? (names : List String) : List (Option String × Document) → Option Fields
  | [] => some []
  | (key, d) :: rest => do
    let key ← key
    let found ← knownMembers? names rest
    if names.contains key then
      if found.any (·.1 == key) then none else return (key, d) :: found
    else return found

/-- The fields of a record with the given names in their order. -/
def record? (names : List String) : Document → Option Fields
  | .object members => knownMembers? names members
  | .array items => if items.length ≤ names.length then some (names.zip items) else none
  | _ => none

/-- A field that has to be there. -/
def Fields.required? (fields : Fields) (name : String) (decode : Document → Option α) : Option α :=
  fields.lookup name >>= decode

/-- A field with a value for the case that it is not there. -/
def Fields.default? (fields : Fields) (name : String) (absent : α) (decode : Document → Option α) :
    Option α :=
  match fields.lookup name with
  | none => some absent
  | some d => decode d

end Document

def Json.parse? (text : String) : Option Json := do (← Document.parse? text).value depthLimit

end SqlLint
