/-! # Source positions

Locations are a line and a column, both counted from one and ordered by line first. A span reaches
from one location to another; the span whose lines are zero says that the position is unknown. -/

namespace SqlLint

structure Location where
  line : Nat
  column : Nat
deriving DecidableEq, Repr, Inhabited

namespace Location

/-- Whether `a` is not after `b`: lines come first, columns decide within a line. -/
def le (a b : Location) : Bool := a.line < b.line || (a.line == b.line && a.column ≤ b.column)

instance : LE Location := ⟨fun a b => a.le b = true⟩

instance (a b : Location) : Decidable (a ≤ b) := inferInstanceAs (Decidable (a.le b = true))

instance : Min Location := ⟨fun a b => if a ≤ b then a else b⟩

instance : Max Location := ⟨fun a b => if a ≤ b then b else a⟩

theorem le_iff {a b : Location} :
    a ≤ b ↔ a.line < b.line ∨ (a.line = b.line ∧ a.column ≤ b.column) := by
  change a.le b = true ↔ _
  simp [le]

end Location

/-- A range of the source text. The end itself is outside. -/
structure Span where
  start : Location
  stop : Location
deriving DecidableEq, Repr, Inhabited

namespace Span

/-- The unknown position. -/
def empty : Span := ⟨⟨0, 0⟩, ⟨0, 0⟩⟩

/-- A span is empty when neither of its ends has a line. -/
def isEmpty (s : Span) : Bool := s.start.line == 0 && s.stop.line == 0

/-- The smallest span around both, where empty spans do not count. -/
def union (a b : Span) : Span :=
  if a.isEmpty then b
  else if b.isEmpty then a
  else ⟨min a.start b.start, max a.stop b.stop⟩

/-- The smallest span around all of a list. -/
def unions (spans : List Span) : Span := spans.foldl union empty

@[simp] theorem isEmpty_empty : empty.isEmpty = true := rfl

@[simp] theorem empty_union (s : Span) : empty.union s = s := rfl

@[simp] theorem unions_nil : unions [] = empty := rfl

end Span
end SqlLint
