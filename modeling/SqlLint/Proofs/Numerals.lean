import SqlLint.Json.Document
import SqlLint.Json.Printer
import SqlLint.Proofs.Lists

/-! # Numerals

The numeral that a number is written as, and that a numeral is read as it is written. Main
statements: `numeral?_chars`, `chars_numeral`. -/

namespace SqlLint

open Document

variable {rest : List Char}

/-! ## As they are written -/

namespace Numeral

/-- Digits as a numeral has them before its point: at least one, and no zero before another one. -/
structure IsWhole (ds : List Char) : Prop where
  ne_nil : ds ≠ []
  digits : ∀ c ∈ ds, isDigit c = true
  zero : ∀ rest, ds = '0' :: rest → rest = []

/-- Whether the digits of a numeral are such as its grammar has them. -/
structure WellFormed (n : Numeral) : Prop where
  whole : IsWhole n.whole
  fraction : ∀ ds ∈ n.fraction, ds ≠ [] ∧ ∀ c ∈ ds, isDigit c = true

/-- A numeral as it is written. -/
def chars (n : Numeral) : List Char :=
  (if n.negative then ['-'] else []) ++ n.whole ++ n.fraction.elim [] ('.' :: ·)
    ++ n.exponent.elim [] fun e => 'e' :: Json.exponentChars e

end Numeral

/-- Whether a numeral that stands before the text ends there. -/
def Document.EndsNumeral (rest : List Char) : Prop :=
  ∀ c ∈ rest.head?, isDigit c = false ∧ c ≠ '.' ∧ c ≠ 'e' ∧ c ≠ 'E'

/-! ## As they are read -/

namespace Document

theorem isDigit_of_mem_digits {n : Nat} {c : Char} (h : c ∈ Json.digits n) : isDigit c = true :=
  Nat.isDigit_of_mem_toDigits (by decide) (by decide) h

theorem ofDigits_digits (n : Nat) : Numeral.ofDigits (Json.digits n) = n :=
  Nat.ofDigitChars_ten_toDigits

theorem digits?_append {ds : List Char} (hne : ds ≠ []) (hdigits : ∀ c ∈ ds, isDigit c = true)
    (hrest : ∀ c ∈ rest.head?, isDigit c = false) : digits? (ds ++ rest) = some (ds, rest) := by
  unfold digits?
  rw [takeWhile_append_of_stop hdigits hrest, dropWhile_append_of_stop hdigits hrest]
  cases ds with
  | nil => exact absurd rfl hne
  | cons d ds => rfl

theorem whole?_append {ds : List Char} (h : Numeral.IsWhole ds)
    (hrest : ∀ c ∈ rest.head?, isDigit c = false) : whole? (ds ++ rest) = some (ds, rest) := by
  have hread := digits?_append h.ne_nil h.digits hrest
  unfold whole?
  split
  · next heq =>
    cases ds with
    | nil => exact absurd rfl h.ne_nil
    | cons d ds =>
      obtain ⟨rfl, hds⟩ := List.cons.inj heq
      obtain rfl := h.zero ds rfl
      rw [← hds]
      rfl
  · exact hread

theorem fraction?_append {fraction : Option (List Char)}
    (h : ∀ ds ∈ fraction, ds ≠ [] ∧ ∀ c ∈ ds, isDigit c = true)
    (hrest : ∀ c ∈ rest.head?, isDigit c = false ∧ c ≠ '.') :
    fraction? (fraction.elim [] ('.' :: ·) ++ rest) = some (fraction, rest) := by
  cases fraction with
  | some ds =>
    obtain ⟨hne, hdigits⟩ := h ds rfl
    have hread := digits?_append hne hdigits fun c hc => (hrest c hc).1
    rw [Option.elim_some, List.cons_append, fraction?, hread, Option.map_some]
  | none =>
    rw [Option.elim_none, List.nil_append, fraction?.eq_def]
    split
    · exact absurd rfl (hrest '.' rfl).2
    · rfl

theorem exponent?_append {exponent : Option Int} (hrest : EndsNumeral rest) :
    exponent? (exponent.elim [] (fun e => 'e' :: Json.exponentChars e) ++ rest)
      = some (exponent, rest) := by
  have hread : ∀ n, digits? (Json.digits n ++ rest) = some (Json.digits n, rest) := fun n =>
    digits?_append Nat.toDigits_ne_nil (fun _ => isDigit_of_mem_digits) fun c hc => (hrest c hc).1
  cases exponent with
  | some e =>
    cases e with
    | ofNat n =>
      change (digits? (Json.digits n ++ rest)).map
        (fun x => (some ((Numeral.ofDigits x.1 : Nat) : Int), x.2)) = _
      rw [hread, Option.map_some, ofDigits_digits]
      rfl
    | negSucc n =>
      change (digits? (Json.digits (n + 1) ++ rest)).map
        (fun x => (some (-((Numeral.ofDigits x.1 : Nat) : Int)), x.2)) = _
      rw [hread, Option.map_some, ofDigits_digits]
      rfl
  | none =>
    cases rest with
    | nil => rfl
    | cons c rest =>
      obtain ⟨-, -, he, hE⟩ := hrest c rfl
      simp [exponent?, he, hE]

theorem unsigned?_append {n : Numeral} (h : n.WellFormed) (hrest : EndsNumeral rest) :
    unsigned? n.negative (n.whole ++ (n.fraction.elim [] ('.' :: ·)
        ++ (n.exponent.elim [] (fun e => 'e' :: Json.exponentChars e) ++ rest)))
      = some (n, rest) := by
  have hexponent : ∀ c ∈ (n.exponent.elim [] (fun e => 'e' :: Json.exponentChars e) ++ rest).head?,
      isDigit c = false ∧ c ≠ '.' := by
    cases n.exponent with
    | none => exact fun c hc => ⟨(hrest c hc).1, (hrest c hc).2.1⟩
    | some e =>
      rintro c ⟨⟩
      decide
  have hfraction : ∀ c ∈ (n.fraction.elim [] ('.' :: ·)
      ++ (n.exponent.elim [] (fun e => 'e' :: Json.exponentChars e) ++ rest)).head?,
      isDigit c = false := by
    cases n.fraction with
    | none => exact fun c hc => (hexponent c hc).1
    | some ds =>
      rintro c ⟨⟩
      decide
  unfold unsigned?
  simp [whole?_append h.whole hfraction, fraction?_append h.fraction hexponent,
    exponent?_append hrest]

theorem numeral?_chars {n : Numeral} (h : n.WellFormed) (hrest : EndsNumeral rest) :
    numeral? (n.chars ++ rest) = some (n, rest) := by
  have hread := unsigned?_append h hrest
  unfold Numeral.chars
  simp only [List.append_assoc]
  cases hsign : n.negative with
  | true =>
    rw [hsign] at hread
    exact hread
  | false =>
    rw [hsign] at hread
    obtain ⟨d, ds, hwhole⟩ := List.exists_cons_of_ne_nil h.whole.ne_nil
    have hd : d ≠ '-' := by
      rintro rfl
      exact absurd (h.whole.digits '-' (hwhole ▸ List.mem_cons_self)) (by decide)
    rw [hwhole] at hread ⊢
    simp only [Bool.false_eq_true, if_false, List.nil_append, List.cons_append] at hread ⊢
    rw [numeral?, hread]
    exact fun _ h => hd (List.cons.inj h).1

end Document

/-! ## Numbers -/

namespace Json

/-- The numeral with the digits `ds` before `exponent` further places, as it is written. -/
def placedNumeral (negative : Bool) (ds : List Char) (exponent : Int) : Numeral :=
  let point : Int := ds.length + exponent
  if 0 ≤ exponent && point ≤ 16 then
    ⟨negative, ds ++ List.replicate exponent.toNat '0', some ['0'], none⟩
  else if 0 < point && point ≤ 16 then
    ⟨negative, ds.take point.toNat, some (ds.drop point.toNat), none⟩
  else if -5 < point && point ≤ 0 then
    ⟨negative, ['0'], some (List.replicate (-point).toNat '0' ++ ds), none⟩
  else
    match ds with
    | [d] => ⟨negative, [d], none, some (point - 1)⟩
    | d :: rest => ⟨negative, [d], some rest, some (point - 1)⟩
    | [] => ⟨negative, [], none, some (point - 1)⟩

theorem chars_placedNumeral {ds : List Char} (h : ds ≠ []) (negative : Bool) (exponent : Int) :
    (placedNumeral negative ds exponent).chars
      = (if negative then ['-'] else []) ++ placed ds exponent := by
  unfold placedNumeral placed Numeral.chars
  simp only
  split_ifs <;> rcases ds with _ | ⟨d, _ | ⟨d', ds⟩⟩ <;> simp_all

theorem isWhole_singleton {d : Char} (h : isDigit d = true) : Numeral.IsWhole [d] := by
  refine ⟨List.cons_ne_nil d [], fun c hc => ?_, fun rest hrest => (List.cons.inj hrest).2.symm⟩
  rw [List.mem_singleton.mp hc]
  exact h

theorem isDigit_of_mem_replicate {n : Nat} {c : Char} (h : c ∈ List.replicate n '0') :
    isDigit c = true := by
  rw [(List.mem_replicate.mp h).2]
  decide

theorem wellFormed_placedNumeral {ds : List Char} {exponent : Int} (hne : ds ≠ [])
    (hdigits : ∀ c ∈ ds, isDigit c = true)
    (hzero : ∀ rest, ds = '0' :: rest → rest = [] ∧ exponent = 0) (negative : Bool) :
    (placedNumeral negative ds exponent).WellFormed := by
  have hlength : 0 < ds.length := List.length_pos_of_ne_nil hne
  unfold placedNumeral
  simp only
  split_ifs with hbehind hinside hbefore
  · -- Zeros are put behind the digits.
    refine ⟨⟨by simp [hne], fun c hc => ?_, fun rest hrest => ?_⟩, fun fs hfs => ?_⟩
    · rcases List.mem_append.mp hc with hc | hc
      · exact hdigits c hc
      · exact isDigit_of_mem_replicate hc
    · cases ds with
      | nil => exact absurd rfl hne
      | cons d ds =>
        obtain ⟨rfl, hds⟩ := List.cons.inj hrest
        obtain ⟨rfl, rfl⟩ := hzero ds rfl
        simpa using hds.symm
    · obtain rfl := Option.some.inj hfs
      exact ⟨by simp, by simp [isDigit]⟩
  · -- The point stands among the digits, so the exponent is no zero.
    simp only [Bool.and_eq_true, decide_eq_true_eq] at hbehind hinside
    refine ⟨⟨?_, fun c hc => hdigits c (List.mem_of_mem_take hc), fun rest hrest => ?_⟩,
      fun fs hfs => ?_⟩
    · rw [Ne, List.take_eq_nil_iff, not_or]
      exact ⟨by omega, hne⟩
    · have hhead : ds = '0' :: (rest ++ ds.drop (ds.length + exponent).toNat) := by
        rw [← List.cons_append, ← hrest, List.take_append_drop]
      have hexponent := (hzero _ hhead).2
      omega
    · obtain rfl := Option.some.inj hfs
      refine ⟨?_, fun c hc => hdigits c (List.mem_of_mem_drop hc)⟩
      rw [Ne, List.drop_eq_nil_iff]
      omega
  · refine ⟨isWhole_singleton rfl, fun fs hfs => ?_⟩
    obtain rfl := Option.some.inj hfs
    refine ⟨by simp [hne], fun c hc => ?_⟩
    rcases List.mem_append.mp hc with hc | hc
    · exact isDigit_of_mem_replicate hc
    · exact hdigits c hc
  · rcases ds with _ | ⟨d, _ | ⟨d', ds⟩⟩
    · exact absurd rfl hne
    · exact ⟨isWhole_singleton (hdigits d List.mem_cons_self), by simp⟩
    · refine ⟨isWhole_singleton (hdigits d List.mem_cons_self), fun fs hfs => ?_⟩
      obtain rfl := Option.some.inj hfs
      exact ⟨by simp, fun c hc => hdigits c (List.mem_cons_of_mem d hc)⟩

theorem digits_eq_cons_zero {n : Nat} {rest : List Char} (h : digits n = '0' :: rest) :
    n = 0 ∧ rest = [] := by
  induction n using Nat.strongRecOn generalizing rest with
  | ind n ih =>
    unfold digits at h
    rw [Nat.toDigits_eq_if (by decide)] at h
    split_ifs at h with hsmall
    · obtain ⟨hdigit, hrest⟩ := List.cons.inj h
      refine ⟨?_, hrest.symm⟩
      have := congrArg Char.toNat hdigit
      rw [Nat.toNat_digitChar_of_lt_ten hsmall] at this
      simpa using this
    · obtain ⟨d, ds, hds⟩ := List.exists_cons_of_ne_nil
        (Nat.toDigits_ne_nil (b := 10) (n := n / 10))
      rw [hds] at h
      obtain ⟨rfl, -⟩ := List.cons.inj h
      obtain ⟨hzero, -⟩ := ih (n / 10) (by omega) hds
      omega

theorem isWhole_digits (n : Nat) : Numeral.IsWhole (digits n) where
  ne_nil := Nat.toDigits_ne_nil
  digits _ := isDigit_of_mem_digits
  zero _ h := (digits_eq_cons_zero h).2

/-- The coefficient and the exponent of the shortest decimal. -/
def shortest (size : Binary64) : Nat × Int := size.shortest?.getD (0, 0)

theorem ofDecimal?_zero (exponent : Int) : Binary64.ofDecimal? 0 exponent = some ⟨0⟩ := by
  have hratio : ∀ {den : Nat}, 0 < den → Binary64.ofRatio? 0 den = some ⟨0⟩ := by
    intro den hden
    have hnearest := Binary64.nearest_mul_self 0 (Nat.mul_pos hden (Binary64.gap_pos 0))
    rw [Nat.zero_mul] at hnearest
    unfold Binary64.ofRatio?
    simp only [Nat.zero_mul, Nat.zero_div, hnearest]
    rw [if_pos]
    exact Binary64.twoPower_pos _
  cases exponent with
  | ofNat n =>
    simp only [Binary64.ofDecimal?, Nat.zero_mul]
    rw [hratio Nat.one_pos]
  | negSucc n =>
    have hpos : 0 < Nat.pow 10 (n + 1) := Nat.pow_pos (by decide)
    simp only [Binary64.ofDecimal?]
    rw [hratio hpos]

theorem exponent_of_coefficient_eq_zero {size : Binary64} (h : (shortest size).1 = 0) :
    (shortest size).2 = 0 := by
  unfold shortest at h ⊢
  cases hshortest : size.shortest? with
  | none => rfl
  | some decimal =>
    obtain ⟨coefficient, exponent⟩ := decimal
    rw [hshortest] at h
    obtain rfl : coefficient = 0 := h
    have hsize := Binary64.ofDecimal?_of_shortest? hshortest
    rw [ofDecimal?_zero] at hsize
    obtain rfl := Option.some.inj hsize
    have hzero : Binary64.shortest? ⟨0⟩ = some (0, 0) := by decide +kernel
    rw [hzero] at hshortest
    cases hshortest
    rfl

/-- The numeral that a number is written as. -/
def Number.numeral : Number → Numeral
  | .int (.ofNat n) => ⟨false, digits n, none, none⟩
  | .int (.negSucc n) => ⟨true, digits (n + 1), none, none⟩
  | .decimal negative size =>
    placedNumeral negative (digits (shortest size).1) (shortest size).2

theorem sizeChars_eq (size : Binary64) :
    sizeChars size = placed (digits (shortest size).1) (shortest size).2 := by
  unfold sizeChars shortest
  generalize size.shortest?.getD (0, 0) = decimal
  rfl

theorem Number.chars_numeral (n : Number) : n.numeral.chars = n.chars := by
  cases n with
  | int i => cases i <;> simp [numeral, Numeral.chars, chars, intChars]
  | decimal negative size =>
    rw [numeral, chars, sizeChars_eq]
    exact chars_placedNumeral Nat.toDigits_ne_nil _ _

theorem Number.wellFormed_numeral (n : Number) : n.numeral.WellFormed := by
  cases n with
  | int i => cases i <;> exact ⟨isWhole_digits _, by simp [numeral]⟩
  | decimal negative size =>
    unfold numeral
    refine wellFormed_placedNumeral Nat.toDigits_ne_nil (fun _ => isDigit_of_mem_digits)
      (fun rest hrest => ?_) negative
    obtain ⟨hcoefficient, hrest⟩ := digits_eq_cons_zero hrest
    exact ⟨hrest, exponent_of_coefficient_eq_zero hcoefficient⟩

end Json
end SqlLint
