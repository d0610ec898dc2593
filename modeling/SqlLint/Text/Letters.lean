/-! # Letter case of names

Names are compared without regard to the case of the ASCII letters. Every other character stands
for itself. -/

namespace SqlLint.Text

/-- The text with its ASCII capitals in lower case. -/
def lower (s : String) : String := String.ofList (s.toList.map Char.toLower)

/-- The text with its ASCII small letters in upper case. -/
def upper (s : String) : String := String.ofList (s.toList.map Char.toUpper)

/-- Equality up to the case of the ASCII letters. -/
def same (a b : String) : Bool := lower a == lower b

@[simp] theorem same_iff (a b : String) : same a b = true ↔ lower a = lower b := by
  simp [same]

@[simp] theorem same_self (a : String) : same a a = true := by simp

theorem same_comm (a b : String) : same a b = same b a := by
  simp [same, eq_comm, Bool.beq_eq_decide_eq]

/-! ## Folding case twice -/

theorem toLower_toLower (c : Char) : c.toLower.toLower = c.toLower := by
  apply Char.ext
  unfold Char.toLower
  grind

theorem toUpper_toLower (c : Char) : c.toLower.toUpper = c.toUpper := by
  by_cases h : 65 ≤ c.val ∧ c.val ≤ 90
  · have hlower : c.toLower.val = c.val + 32 := by
      unfold Char.toLower
      simp [h]
    have hupper : c.toUpper = c := by
      unfold Char.toUpper
      rw [dif_neg]
      simp only [Char.reduceVal]
      grind
    apply Char.ext
    rw [hupper]
    unfold Char.toUpper
    rw [dif_pos (by simp only [Char.reduceVal, hlower]; grind)]
    simp only [hlower]
    grind
  · have hlower : c.toLower = c := dif_neg h
    rw [hlower]

theorem lower_append (a b : String) : lower (a ++ b) = lower a ++ lower b := by simp [lower]

theorem length_lower (s : String) : (lower s).length = s.length := by
  rw [lower, String.length_ofList, List.length_map, String.length_toList]

theorem lower_lower (s : String) : lower (lower s) = lower s := by
  simp only [lower, String.toList_ofList, List.map_map, Function.comp_def, toLower_toLower]

theorem upper_lower (s : String) : upper (lower s) = upper s := by
  simp only [lower, upper, String.toList_ofList, List.map_map, Function.comp_def, toUpper_toLower]

end SqlLint.Text
