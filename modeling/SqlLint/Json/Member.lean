import SqlLint.Json.Basic

/-! # Members of a JSON object

How a record is read from an object that leaves out whatever is absent: a missing member is `null`,
`false` or an empty list, whichever is asked for. -/

namespace SqlLint.Json

/-- The member with the given key, `null` if there is none. -/
def member (j : Json) (key : String) : Json :=
  match j with
  | .object members => (members.lookup key).getD .null
  | _ => .null

def hasMember (j : Json) (key : String) : Bool :=
  match j with
  | .object members => (members.lookup key).isSome
  | _ => false

def text? (j : Json) (key : String) : Option String := (j.member key).string?

/-- A truth value that is false if it is missing. -/
def flag (j : Json) (key : String) : Bool := (j.member key).bool?.getD false

def items (j : Json) (key : String) : List Json := (j.member key).array?.getD []

def optional? (j : Json) (key : String) (read : Json → Option α) : Option (Option α) :=
  match j.member key with
  | .null => some none
  | v => (read v).map some

def each? (j : Json) (key : String) (read : Json → Option α) : Option (List α) :=
  (j.items key).mapM read

def oneOf? (choices : List (String × α)) (j : Json) : Option α := do
  choices.lookup (← j.string?)

/-! ## Depth -/

mutual

/-- How many arrays and objects stand inside one another. -/
def depth : Json → Nat
  | .array items => itemsDepth items + 1
  | .object members => membersDepth members + 1
  | _ => 0

def itemsDepth : List Json → Nat
  | [] => 0
  | j :: rest => max (depth j) (itemsDepth rest)

def membersDepth : List (String × Json) → Nat
  | [] => 0
  | (_, j) :: rest => max (depth j) (membersDepth rest)

end

end SqlLint.Json
