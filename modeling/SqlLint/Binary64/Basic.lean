/-! # Floating-point numbers of 64 bits

A finite number of this format, without its sign, is a multiple of the smallest one, `2 ^ -1074`,
that has at most 53 binary digits before its final zeros. It is kept as that multiple, so that every
number has one representation. An operation gives the number nearest to the exact result; of two
that are equally near, the one whose last digit is even. A result beyond the largest number is
`none`. -/

namespace SqlLint

/-- A finite number without its sign, as a multiple of `2 ^ -1074`. -/
structure Binary64 where
  units : Nat
deriving DecidableEq, Repr, Inhabited

namespace Binary64

/-! ## Nearest quotients -/

/-- The whole number nearest to `num / den`, the even one of two. -/
def nearest (num den : Nat) : Nat :=
  let low := num / den
  let twice := 2 * (num % den)
  if twice < den || (twice == den && low % 2 == 0) then low else low + 1

theorem nearest_mul_self (n : Nat) {den : Nat} (h : 0 < den) : nearest (n * den) den = n := by
  simp [nearest, Nat.mul_div_cancel n h, h]

/-! ## Numbers -/

def twoPower (n : Nat) : Nat := Nat.pow 2 n

theorem twoPower_pos (n : Nat) : 0 < twoPower n := Nat.pow_pos (by decide)

/-- How many units make one. -/
def unitsPerOne : Nat := twoPower 1074

/-- The units of `2 ^ 1024`, the first power of two that is no number. -/
def unitsLimit : Nat := twoPower 2098

/-- The distance from a number with so many units to the next one: 53 binary digits are kept. -/
def gap (units : Nat) : Nat := twoPower (units.log2 - 52)

theorem gap_pos (units : Nat) : 0 < gap units := twoPower_pos _

/-- The number nearest to `num / den`. -/
def ofRatio? (num den : Nat) : Option Binary64 :=
  let num := num * unitsPerOne
  let gap := gap (num / den)
  let units := nearest num (den * gap) * gap
  if units < unitsLimit then some ⟨units⟩ else none

def ofNat? (n : Nat) : Option Binary64 := ofRatio? n 1

/-- The number nearest to `coefficient * 10 ^ exponent`. -/
def ofDecimal? (coefficient : Nat) : Int → Option Binary64
  | .ofNat n => ofRatio? (coefficient * Nat.pow 10 n) 1
  | .negSucc n => ofRatio? coefficient (Nat.pow 10 (n + 1))

def mul? (x y : Binary64) : Option Binary64 :=
  ofRatio? (x.units * y.units) (unitsPerOne * unitsPerOne)

def div? (x y : Binary64) : Option Binary64 := ofRatio? x.units y.units

/-- The greatest exponent of a power of ten that is a finite number. -/
def maxTenPower : Nat := 308

def tenPower? (n : Nat) : Option Binary64 := ofNat? (Nat.pow 10 n)

/-- A number times a power of ten, in steps that are each rounded. It is multiplied once, or divided
at most twice; below that every number vanishes. -/
def scale? (x : Binary64) : Int → Option Binary64
  | .ofNat n =>
    if x.units = 0 then some x
    else if n ≤ maxTenPower then do x.mul? (← tenPower? n)
    else none
  | .negSucc n =>
    if n < maxTenPower then do x.div? (← tenPower? (n + 1))
    else if n < 2 * maxTenPower then do
      (← x.div? (← tenPower? maxTenPower)).div? (← tenPower? (n + 1 - maxTenPower))
    else some ⟨0⟩

end Binary64
end SqlLint
