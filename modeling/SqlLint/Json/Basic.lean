import SqlLint.Binary64.Basic

/-! # JSON values

A JSON value as configurations hold it. A number written without fraction and exponent that fits in
64 bits is an integer; every other number is a floating-point number. The members of an object stand
in the order in which their keys were first met, and no key occurs twice. -/

namespace SqlLint

inductive Json.Number where
  /-- An integer between -2^63 and 2^64 - 1. -/
  | int (value : Int)
  /-- A floating-point number, given by its sign and its size. -/
  | decimal (negative : Bool) (size : Binary64)
deriving DecidableEq, Repr, Inhabited

inductive Json where
  | null
  | bool (value : Bool)
  | number (value : Json.Number)
  | string (value : String)
  | array (items : List Json)
  | object (members : List (String × Json))
deriving Inhabited

/-- The first number that 64 bits cannot hold, which is `2 ^ 64`. -/
def wordLimit : Nat := 18446744073709551616

namespace Json

def nat (n : Nat) : Json := .number (.int n)

/-- An optional value, `null` when absent. -/
def ofOption (f : α → Json) : Option α → Json
  | none => .null
  | some a => f a

def bool? : Json → Option Bool
  | .bool b => some b
  | _ => none

def string? : Json → Option String
  | .string s => some s
  | _ => none

/-- A whole number of at most 64 bits. -/
def nat? : Json → Option Nat
  | .number (.int (.ofNat n)) => if n < wordLimit then some n else none
  | _ => none

def array? : Json → Option (List Json)
  | .array items => some items
  | _ => none

def object? : Json → Option (List (String × Json))
  | .object members => some members
  | _ => none

/-- The members with `key` bound to `value`: a key that is there keeps its place. -/
def put (key : String) (value : Json) : List (String × Json) → List (String × Json)
  | [] => [(key, value)]
  | (k, v) :: rest => if k = key then (key, value) :: rest else (k, v) :: put key value rest

theorem lookup_put_of_ne {key other : String} (h : other ≠ key) (value : Json)
    (members : List (String × Json)) :
    (put key value members).lookup other = members.lookup other := by
  induction members with
  | nil => simp [put, List.lookup_cons, show (other == key) = false by simpa using h]
  | cons m rest ih =>
    obtain ⟨k, v⟩ := m
    by_cases hk : k = key
    · subst hk; simp [put, List.lookup_cons, show (other == k) = false by simpa using h]
    · simp [put, hk, List.lookup_cons, ih]

end Json
end SqlLint
