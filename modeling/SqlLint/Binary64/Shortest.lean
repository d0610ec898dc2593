import SqlLint.Binary64.Basic

/-! # The shortest decimal of a number

A number is written with the fewest decimal digits that still name it: the grids of multiples of a
power of ten are tried from the coarsest on, and the first grid with a point that is rounded to the
number gives the digits. Of several such points the nearest is taken, of two equally near the even
one. -/

namespace SqlLint.Binary64

/-- The value of a number over `10 ^ exponent`, as a fraction. -/
def onGrid (x : Binary64) : Int → Nat × Nat
  | .ofNat n => (x.units, unitsPerOne * Nat.pow 10 n)
  | .negSucc n => (x.units * Nat.pow 10 (n + 1), unitsPerOne)

/-- The nearest point of the grid of multiples of `10 ^ exponent` that is rounded to the number, if
there is one. -/
def point? (x : Binary64) (exponent : Int) : Option Nat :=
  let (num, den) := x.onGrid exponent
  [nearest num den, num / den, num / den + 1].find? fun c => ofDecimal? c exponent == some x

def decimalLength (n : Nat) : Nat := (Nat.toDigits 10 n).length

/-- The exponent of a grid on which the number stands above zero and at most at one. -/
def coarsest (x : Binary64) : Int :=
  if unitsPerOne ≤ x.units then decimalLength (x.units / unitsPerOne)
  else 1 - decimalLength (unitsPerOne / x.units)

/-- The most digits that a number needs, and one for the coarsest grid. -/
def gridCount : Nat := 18

/-- The shortest decimal that names a number: its digits and its exponent. -/
def shortest? (x : Binary64) : Option (Nat × Int) :=
  (List.range gridCount).findSome? fun i =>
    let exponent := x.coarsest - (i : Nat)
    (x.point? exponent).map (·, exponent)

theorem ofDecimal?_of_point? {x : Binary64} {c : Nat} {e : Int} (h : x.point? e = some c) :
    ofDecimal? c e = some x := by
  simpa using List.find?_some h

/-- The shortest decimal names its number. -/
theorem ofDecimal?_of_shortest? {x : Binary64} {c : Nat} {e : Int}
    (h : x.shortest? = some (c, e)) : ofDecimal? c e = some x := by
  obtain ⟨i, -, hi⟩ := List.exists_of_findSome?_eq_some h
  obtain ⟨d, hd, he⟩ := Option.map_eq_some_iff.1 hi
  obtain ⟨rfl, rfl⟩ := Prod.mk.inj he
  exact ofDecimal?_of_point? hd

end SqlLint.Binary64
