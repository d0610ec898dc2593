/-! # Looking for a text inside another -/

namespace SqlLint.Text

/-- Whether `needle` stands somewhere in the characters. -/
def occurs (needle : List Char) : List Char → Bool
  | [] => needle.isEmpty
  | c :: cs => needle.isPrefixOf (c :: cs) || occurs needle cs

def contains (s needle : String) : Bool := occurs needle.toList s.toList

/-- The characters before the last place where `needle` stands. -/
def beforeLast? (needle : List Char) : List Char → Option (List Char)
  | [] => if needle.isEmpty then some [] else none
  | c :: cs =>
    match beforeLast? needle cs with
    | some kept => some (c :: kept)
    | none => if needle.isPrefixOf (c :: cs) then some [] else none

theorem occurs_iff {needle cs : List Char} : occurs needle cs = true ↔ needle <:+: cs := by
  induction cs with
  | nil => simp [occurs]
  | cons c cs ih => simp [occurs, ih, List.infix_cons_iff]

end SqlLint.Text
