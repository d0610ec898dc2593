import SqlLint.Json.Basic

/-! # Numerals

A number as a JSON text writes it, and the value that it stands for. A plain numeral that fits in 64
bits is an integer. Every other one is a floating-point number, computed from a significand of 64
bits: digits that do not fit are dropped, and the power of ten that remains is applied in rounded
steps. The value may thus miss the number nearest to the numeral by a last digit. -/

namespace SqlLint

/-- A number as written: its sign, its digits before and after the point, and its exponent. -/
structure Numeral where
  negative : Bool
  whole : List Char
  fraction : Option (List Char)
  exponent : Option Int
deriving DecidableEq, Repr, Inhabited

namespace Numeral

def digit (c : Char) : Nat := c.toNat - '0'.toNat

/-- A number with one more digit behind it. -/
def push (n : Nat) (c : Char) : Nat := 10 * n + digit c

def ofDigits (ds : List Char) : Nat := ds.foldl push 0

/-- Whether a numeral has neither fraction nor exponent. -/
def plain (n : Numeral) : Bool := n.fraction.isNone && n.exponent.isNone

/-- The whole number of 64 bits that a plain numeral without a sign writes. -/
def nat? (n : Numeral) : Option Nat :=
  let value := ofDigits n.whole
  if n.plain && !n.negative && value < wordLimit then some value else none

/-- The negative integer of 64 bits that a plain numeral with a sign writes. -/
def negative? (n : Numeral) : Option Int :=
  let value := ofDigits n.whole
  if n.plain && n.negative && 0 < value && 2 * value ≤ wordLimit then some (-value) else none

/-- A significand with digits put behind it as long as it fits in 64 bits, and the digits that are
left from the first one that does not. -/
def extend (significand : Nat) : List Char → Nat × List Char
  | [] => (significand, [])
  | c :: rest =>
    if push significand c < wordLimit then extend (push significand c) rest
    else (significand, c :: rest)

/-- The significand of a numeral and its power of ten. Digits before the point that do not fit
raise the power, and digits after the point that fit lower it. -/
def scientific (n : Numeral) : Nat × Int :=
  let after := n.fraction.getD []
  let (high, skipped) := extend 0 n.whole
  let (significand, dropped) := extend high after
  (significand, n.exponent.getD 0 + skipped.length - (after.length - dropped.length : Nat))

/-- The floating-point number of a numeral without its sign, unless it is too large. -/
def size? (n : Numeral) : Option Binary64 := do
  let (significand, exponent) := n.scientific
  (← Binary64.ofNat? significand).scale? exponent

/-- The number that a numeral writes. A negative zero is no integer. -/
def number? (n : Numeral) : Option Json.Number :=
  match n.nat?, n.negative? with
  | some value, _ => some (.int value)
  | none, some value => some (.int value)
  | none, none => n.size?.map (.decimal n.negative)

end Numeral
end SqlLint
