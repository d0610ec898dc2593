import Mathlib.Data.List.TakeWhile
import SqlLint.ParseError
import SqlLint.Proofs.Lists

/-! # Positions in messages

What the search for a position finds in a message, said by the text alone, and what becomes of the
position that the parser puts at the end of its messages. Main statements: `position_of_suffix`, it
is the position of the error unless the text before it names another one, and `position?_exact`,
the leftmost position in a message is the one that counts, if its numbers can be read. -/

namespace SqlLint.ParseError

variable {cs found rest line column : List Char}

/-! ## What a position looks like -/

/-- A number as a position has it: digits of any script, at least one. -/
structure IsNumber (ds : List Char) : Prop where
  ne_nil : ds ≠ []
  digits : ∀ c ∈ ds, Text.isDigit c = true

def IsBlank (cs : List Char) : Prop := ∀ c ∈ cs, Text.isBlank c = true

/-- Whether the text is a position with the given numbers: `Line:` and the first, a comma, `Column:`
and the second, with blanks before a number and around the comma. -/
structure Spells (line column cs : List Char) : Prop where
  isNumber_line : IsNumber line
  isNumber_column : IsNumber column
  parts : ∃ a b c d, IsBlank a ∧ IsBlank b ∧ IsBlank c ∧ IsBlank d
    ∧ cs = "Line:".toList ++ a ++ line ++ b ++ ",".toList ++ c ++ "Column:".toList ++ d ++ column

/-- Whether a number that stands before the text cannot be continued in it. -/
def EndsNumber (rest : List Char) : Prop := ∀ c ∈ rest.head?, Text.isDigit c = false

/-- Whether the first position in a text has the given numbers, where the second number is taken as
long as it can be. -/
def IsFirst (line column cs : List Char) : Prop :=
  ∃ before found after, cs = before ++ found ++ after ∧ Spells line column found
    ∧ EndsNumber after
    ∧ ∀ before' found' after' line' column', cs = before' ++ found' ++ after' →
      Spells line' column' found' → before.length ≤ before'.length

/-! ## Blanks and digits -/

theorem isDigit_of_isBlank {c : Char} (h : Text.isBlank c = true) : Text.isDigit c = false := by
  have hapart : ∀ r ∈ Text.blankRanges, ∀ z ∈ Text.digitZeros, r.2 < z ∨ z + 10 ≤ r.1 := by
    decide
  unfold Text.isBlank at h
  obtain ⟨r, hr, hc⟩ := List.any_eq_true.mp h
  unfold Text.isDigit
  rw [List.any_eq_false]
  intro z hz
  have := hapart r hr z hz
  simp only [Bool.and_eq_true, decide_eq_true_eq] at hc ⊢
  omega

theorem IsNumber.not_blank (h : IsNumber line) :
    ∀ c ∈ (line ++ rest).head?, Text.isBlank c = false := by
  obtain ⟨hne, hdigits⟩ := h
  cases line with
  | nil => exact absurd rfl hne
  | cons d ds =>
    rintro c hc
    obtain rfl : d = c := by simpa using hc
    have hd := hdigits d List.mem_cons_self
    by_contra hblank
    rw [isDigit_of_isBlank (by simpa using hblank)] at hd
    cases hd

theorem IsBlank.endsNumber (h : IsBlank cs) (hrest : EndsNumber rest) :
    EndsNumber (cs ++ rest) := by
  cases cs with
  | nil => exact hrest
  | cons c cs =>
    intro x hx
    obtain rfl : c = x := by simpa using hx
    exact isDigit_of_isBlank (h c List.mem_cons_self)

/-! ## One step of the reading -/

theorem after?_eq_some_iff {start : String} :
    after? start cs = some rest
      ↔ ∃ blanks, IsBlank blanks ∧ cs = start.toList ++ blanks ++ rest
        ∧ ∀ c ∈ rest.head?, Text.isBlank c = false := by
  unfold after?
  constructor
  · intro h
    obtain ⟨hstart, hrest⟩ := Option.ite_none_right_eq_some.mp h
    obtain ⟨t, rfl⟩ := List.isPrefixOf_iff_prefix.mp hstart
    have hdrop : (start.toList ++ t).drop start.length = t := by
      rw [← String.length_toList, List.drop_left]
    rw [hdrop, Option.some.injEq] at hrest
    refine ⟨t.takeWhile Text.isBlank, fun c hc => List.mem_takeWhile_imp hc, ?_, ?_⟩
    · rw [← hrest, List.append_assoc, List.takeWhile_append_dropWhile]
    · rw [← hrest]
      exact stop_dropWhile _ t
  · rintro ⟨blanks, hblanks, rfl, hrest⟩
    have hdrop : (start.toList ++ blanks ++ rest).drop start.length = blanks ++ rest := by
      rw [← String.length_toList, List.append_assoc, List.drop_left]
    have hstart : start.toList.isPrefixOf (start.toList ++ blanks ++ rest) = true := by
      rw [List.isPrefixOf_iff_prefix, List.append_assoc]
      exact List.prefix_append _ _
    rw [if_pos hstart, hdrop, dropWhile_append_of_stop hblanks hrest]

theorem digitRun?_eq_some_iff {ds : List Char} :
    digitRun? cs = some (ds, rest) ↔ IsNumber ds ∧ cs = ds ++ rest ∧ EndsNumber rest := by
  unfold digitRun?
  constructor
  · intro h
    split at h
    · cases h
    · next hne =>
      obtain ⟨hds, hrest⟩ := Prod.mk.inj (Option.some.inj h)
      rw [← hds, ← hrest]
      have hdigits : ∀ c ∈ cs.takeWhile Text.isDigit, Text.isDigit c = true :=
        fun c hc => List.mem_takeWhile_imp hc
      refine ⟨⟨fun hnil => hne hnil, hdigits⟩, ?_, stop_dropWhile _ cs⟩
      rw [List.takeWhile_append_dropWhile]
  · rintro ⟨⟨hne, hdigits⟩, rfl, hrest⟩
    rw [takeWhile_append_of_stop hdigits hrest, dropWhile_append_of_stop hdigits hrest]
    cases ds with
    | nil => exact absurd rfl hne
    | cons d ds => rfl

theorem positionHere?_eq_some_iff :
    positionHere? cs = some (line, column)
      ↔ ∃ found rest, cs = found ++ rest ∧ Spells line column found ∧ EndsNumber rest := by
  unfold positionHere?
  simp only [Option.bind_eq_bind, Option.bind_eq_some_iff, Option.pure_def, Option.some.injEq,
    Prod.mk.injEq, Prod.exists]
  constructor
  · rintro ⟨cs₁, h₁, ds, cs₂, h₂, cs₃, h₃, cs₄, h₄, ds', rest, h₅, rfl, rfl⟩
    obtain ⟨a, ha, rfl, -⟩ := after?_eq_some_iff.mp h₁
    obtain ⟨hline, rfl, -⟩ := digitRun?_eq_some_iff.mp h₂
    obtain ⟨c, hc, hcomma, -⟩ := after?_eq_some_iff.mp h₃
    obtain ⟨d, hd, rfl, -⟩ := after?_eq_some_iff.mp h₄
    obtain ⟨hcolumn, rfl, hrest⟩ := digitRun?_eq_some_iff.mp h₅
    obtain ⟨b, hb, hcs₂⟩ : ∃ b, IsBlank b ∧ cs₂ = b ++ cs₂.dropWhile Text.isBlank :=
      ⟨cs₂.takeWhile Text.isBlank, fun x hx => List.mem_takeWhile_imp hx,
        List.takeWhile_append_dropWhile.symm⟩
    rw [hcomma] at hcs₂
    refine ⟨_, rest, ?_, ⟨hline, hcolumn, a, b, c, d, ha, hb, hc, hd, rfl⟩, hrest⟩
    rw [hcs₂]
    simp only [List.append_assoc]
  · rintro ⟨found, rest, rfl, ⟨hline, hcolumn, a, b, c, d, ha, hb, hc, hd, rfl⟩, hrest⟩
    obtain ⟨second, hsecond⟩ : ∃ second, second = "Column:".toList ++ d ++ (column ++ rest) :=
      ⟨_, rfl⟩
    obtain ⟨behind, hbehind⟩ : ∃ behind, behind = ",".toList ++ c ++ second := ⟨_, rfl⟩
    have hcomma : ∀ x ∈ behind.head?, x = ',' := by
      rw [hbehind]
      rintro x ⟨⟩
      rfl
    have hletter : ∀ x ∈ second.head?, Text.isBlank x = false := by
      rw [hsecond]
      rintro x ⟨⟩
      decide
    have h₁ : after? "Line:" ("Line:".toList ++ a ++ line ++ b ++ ",".toList ++ c
        ++ "Column:".toList ++ d ++ column ++ rest) = some (line ++ (b ++ behind)) := by
      refine after?_eq_some_iff.mpr ⟨a, ha, ?_, hline.not_blank⟩
      simp only [hbehind, hsecond, List.append_assoc]
    have h₂ : digitRun? (line ++ (b ++ behind)) = some (line, b ++ behind) := by
      refine digitRun?_eq_some_iff.mpr ⟨hline, rfl, hb.endsNumber fun x hx => ?_⟩
      rw [hcomma x hx]
      decide
    have h₃ : after? "," ((b ++ behind).dropWhile Text.isBlank) = some second := by
      rw [dropWhile_append_of_stop hb fun x hx => by rw [hcomma x hx]; decide]
      exact after?_eq_some_iff.mpr ⟨c, hc, hbehind, hletter⟩
    have h₄ : after? "Column:" second = some (column ++ rest) :=
      after?_eq_some_iff.mpr ⟨d, hd, hsecond, hcolumn.not_blank⟩
    have h₅ : digitRun? (column ++ rest) = some (column, rest) :=
      digitRun?_eq_some_iff.mpr ⟨hcolumn, rfl, hrest⟩
    exact ⟨_, h₁, line, _, h₂, _, h₃, _, h₄, column, rest, h₅, rfl, rfl⟩

/-! ## Where a position stands -/

theorem Spells.exists_cons (h : Spells line column found) : ∃ t, found = 'L' :: t := by
  obtain ⟨a, b, c, d, -, -, -, -, rfl⟩ := h.parts
  exact ⟨_, rfl⟩

theorem Spells.positionHere?_eq_some (h : Spells line column found) (rest : List Char) :
    positionHere? (found ++ rest) = some (line, column ++ rest.takeWhile Text.isDigit) := by
  obtain ⟨hline, hcolumn, a, b, c, d, ha, hb, hc, hd, rfl⟩ := h
  have hlonger : IsNumber (column ++ rest.takeWhile Text.isDigit) := by
    refine ⟨by simp [hcolumn.ne_nil], fun x hx => ?_⟩
    rcases List.mem_append.mp hx with hx | hx
    · exact hcolumn.digits x hx
    · exact List.mem_takeWhile_imp hx
  refine positionHere?_eq_some_iff.mpr ⟨_, rest.dropWhile Text.isDigit, ?_,
    ⟨hline, hlonger, a, b, c, d, ha, hb, hc, hd, rfl⟩, stop_dropWhile _ rest⟩
  simp only [List.append_assoc, List.takeWhile_append_dropWhile]

theorem positionHere?_cons_of_ne {c : Char} (hc : c ≠ 'L') : positionHere? (c :: cs) = none := by
  rw [Option.eq_none_iff_forall_ne_some]
  rintro ⟨line, column⟩ h
  obtain ⟨found, rest, hcs, hspells, -⟩ := positionHere?_eq_some_iff.mp h
  obtain ⟨t, rfl⟩ := hspells.exists_cons
  exact hc (List.cons.inj hcs).1

theorem findPosition?_eq_some_iff :
    findPosition? cs = some (line, column) ↔ IsFirst line column cs := by
  induction cs with
  | nil =>
    refine iff_of_false (by simp [findPosition?]) ?_
    rintro ⟨before, found, after, hcs, hspells, -⟩
    obtain ⟨t, rfl⟩ := hspells.exists_cons
    simp at hcs
  | cons x cs ih =>
    unfold findPosition?
    cases hhere : positionHere? (x :: cs) with
    | some read =>
      obtain ⟨line₀, column₀⟩ := read
      obtain ⟨found, rest, hcs, hspells, hrest⟩ := positionHere?_eq_some_iff.mp hhere
      constructor
      · rintro ⟨⟩
        exact ⟨[], found, rest, hcs, hspells, hrest, fun _ _ _ _ _ _ _ => Nat.zero_le _⟩
      · rintro ⟨before, found', after, hcs', hspells', hafter, hfirst⟩
        have hbefore : before = [] := by
          have := hfirst [] found rest line₀ column₀ hcs hspells
          simpa using this
        subst hbefore
        have hread := positionHere?_eq_some_iff.mpr ⟨found', after, hcs', hspells', hafter⟩
        rw [hhere] at hread
        exact hread
    | none =>
      have hlater : ∀ before found after l c, x :: cs = before ++ found ++ after →
          Spells l c found → ∃ t, before = x :: t ∧ cs = t ++ found ++ after := by
        intro before found after l c hcs hspells
        cases before with
        | nil =>
          have hread := hspells.positionHere?_eq_some after
          rw [List.nil_append] at hcs
          rw [← hcs, hhere] at hread
          cases hread
        | cons y t =>
          rw [List.cons_append, List.cons_append, List.cons.injEq] at hcs
          exact ⟨t, by rw [hcs.1], hcs.2⟩
      change findPosition? cs = some (line, column) ↔ _
      rw [ih]
      constructor
      · rintro ⟨before, found, after, rfl, hspells, hafter, hfirst⟩
        refine ⟨x :: before, found, after, rfl, hspells, hafter, ?_⟩
        intro before' found' after' line' column' hcs' hspells'
        obtain ⟨t, rfl, htail⟩ := hlater _ _ _ _ _ hcs' hspells'
        exact Nat.succ_le_succ (hfirst t found' after' line' column' htail hspells')
      · rintro ⟨before, found, after, hcs, hspells, hafter, hfirst⟩
        obtain ⟨t, rfl, rfl⟩ := hlater _ _ _ _ _ hcs hspells
        refine ⟨t, found, after, rfl, hspells, hafter, ?_⟩
        intro before' found' after' line' column' hcs' hspells'
        have hle := hfirst (x :: before') found' after' line' column' (by rw [hcs']; rfl) hspells'
        exact Nat.le_of_succ_le_succ hle

theorem findPosition?_eq_none_iff :
    findPosition? cs = none
      ↔ ∀ found line column, found <:+: cs → ¬ Spells line column found := by
  constructor
  · intro h found line column hfound hspells
    induction cs with
    | nil =>
      obtain ⟨t, rfl⟩ := hspells.exists_cons
      exact absurd hfound.length_le (by simp)
    | cons c cs ih =>
      rw [findPosition?] at h
      split at h
      · cases h
      · next hhere =>
        rcases List.infix_cons_iff.mp hfound with ⟨after, hstart⟩ | hlater
        · rw [← hstart, hspells.positionHere?_eq_some] at hhere
          cases hhere
        · exact ih h hlater
  · intro h
    rw [Option.eq_none_iff_forall_ne_some]
    rintro ⟨line, column⟩ hfind
    obtain ⟨before, found, after, rfl, hspells, -⟩ := findPosition?_eq_some_iff.mp hfind
    exact h found line column ⟨before, after, rfl⟩ hspells

/-- Whether a position with the given numbers stands in a text from a place on. -/
def StandsAt (start : Nat) (line column cs : List Char) : Prop :=
  ∃ found, found <+: cs.drop start ∧ Spells line column found

/-- Whether the leftmost position in a text stands at a place, with the given numbers as the longest
runs of digits that it can be read with. -/
structure IsLeftmost (start : Nat) (line column cs : List Char) : Prop where
  stands : StandsAt start line column cs
  leftmost : ∀ start' line' column', StandsAt start' line' column' cs → start ≤ start'
  longest : ∀ line' column', StandsAt start line' column' cs → line' <+: line ∧ column' <+: column

theorem IsFirst.exists_isLeftmost (h : IsFirst line column cs) :
    ∃ start, IsLeftmost start line column cs := by
  obtain ⟨before, found, after, rfl, hspells, hafter, hfirst⟩ := h
  have hdrop : (before ++ found ++ after).drop before.length = found ++ after := by
    rw [List.append_assoc, List.drop_left]
  refine ⟨before.length, ⟨found, ?_, hspells⟩, ?_, ?_⟩
  · rw [hdrop]
    exact List.prefix_append found after
  · rintro start' line' column' ⟨found', ⟨after', hfound'⟩, hspells'⟩
    have hle := hfirst ((before ++ found ++ after).take start') found' after' line' column'
      (by rw [List.append_assoc (List.take _ _), hfound', List.take_append_drop]) hspells'
    exact hle.trans (List.length_take_le start' _)
  · rintro line' column' ⟨found', ⟨after', hfound'⟩, hspells'⟩
    -- Both are read at this place, so they agree but for more digits at the end.
    have hread : positionHere? (found ++ after) = some (line, column) :=
      positionHere?_eq_some_iff.mpr ⟨found, after, rfl, hspells, hafter⟩
    rw [← hdrop, ← hfound', hspells'.positionHere?_eq_some, Option.some.injEq,
      Prod.mk.injEq] at hread
    obtain ⟨rfl, rfl⟩ := hread
    exact ⟨List.prefix_rfl, List.prefix_append column' _⟩

theorem IsLeftmost.unique {start start' : Nat} {line' column' : List Char}
    (h : IsLeftmost start line column cs) (h' : IsLeftmost start' line' column' cs) :
    start = start' ∧ line = line' ∧ column = column' := by
  obtain rfl : start = start' := Nat.le_antisymm (h.leftmost _ _ _ h'.stands)
    (h'.leftmost _ _ _ h.stands)
  have hleft := h.longest _ _ h'.stands
  have hright := h'.longest _ _ h.stands
  exact ⟨rfl, hright.1.eq_of_length_le hleft.1.length_le,
    hright.2.eq_of_length_le hleft.2.length_le⟩

theorem isFirst_iff : IsFirst line column cs ↔ ∃ start, IsLeftmost start line column cs := by
  constructor
  · exact IsFirst.exists_isLeftmost
  · rintro ⟨start, h⟩
    obtain ⟨found, hfound, hspells⟩ := h.stands
    cases hfind : findPosition? cs with
    | none =>
      have hinfix := hfound.isInfix.trans (List.drop_suffix start cs).isInfix
      exact absurd hspells (findPosition?_eq_none_iff.mp hfind found line column hinfix)
    | some first =>
      have hfirst := findPosition?_eq_some_iff.mp hfind
      obtain ⟨start', h'⟩ := hfirst.exists_isLeftmost
      obtain ⟨-, rfl, rfl⟩ := h.unique h'
      exact hfirst

/-- A position stands behind what has no `L`. -/
theorem findPosition?_append_of_not_mem {skipped : List Char} (h : 'L' ∉ skipped)
    (cs : List Char) : findPosition? (skipped ++ cs) = findPosition? cs := by
  induction skipped with
  | nil => rfl
  | cons c skipped ih =>
    rw [List.mem_cons, not_or] at h
    rw [List.cons_append, findPosition?, positionHere?_cons_of_ne (Ne.symm h.1)]
    exact ih h.2

/-! ## The position at the end of a message -/

/-- The position that the parser puts at the end of its messages. -/
def suffix (l : Location) : String :=
  " at Line: " ++ toString l.line ++ ", Column: " ++ toString l.column

theorem Spells.not_mem (h : Spells line column found) : 'a' ∉ found := by
  obtain ⟨⟨-, hline⟩, ⟨-, hcolumn⟩, a, b, c, d, ha, hb, hc, hd, rfl⟩ := h
  have hblank : ∀ {cs}, IsBlank cs → 'a' ∉ cs := fun hcs hmem =>
    absurd (hcs 'a' hmem) (by decide)
  have hdigit : ∀ {ds : List Char}, (∀ c ∈ ds, Text.isDigit c = true) → 'a' ∉ ds := fun hds hmem =>
    absurd (hds 'a' hmem) (by decide)
  simp only [List.mem_append, not_or]
  exact ⟨⟨⟨⟨⟨⟨⟨⟨by decide, hblank ha⟩, hdigit hline⟩, hblank hb⟩, by decide⟩, hblank hc⟩,
    by decide⟩, hblank hd⟩, hdigit hcolumn⟩

theorem Spells.ne_concat (h : Spells line column found) : found ≠ cs ++ [' '] := by
  obtain ⟨-, ⟨hne, hdigits⟩, a, b, c, d, -, -, -, -, rfl⟩ := h
  intro heq
  have hlast := congrArg List.getLast? heq
  rw [List.getLast?_append_of_ne_nil _ hne, List.getLast?_concat] at hlast
  have hblank := hdigits ' ' (List.mem_of_getLast? hlast)
  exact absurd hblank (by decide)

/-- No position reaches over the start of ` at`. -/
theorem positionHere?_append (cs rest : List Char) :
    positionHere? (cs ++ ' ' :: 'a' :: rest) = positionHere? cs := by
  apply Option.ext
  rintro ⟨line, column⟩
  rw [positionHere?_eq_some_iff, positionHere?_eq_some_iff]
  constructor
  · rintro ⟨found, after, hcs, hspells, hafter⟩
    rcases List.append_eq_append_iff.mp hcs with ⟨t, rfl, ht⟩ | ⟨t, rfl, rfl⟩
    · -- The position goes on behind `cs`, by no character, by the blank or by more.
      rcases t with _ | ⟨x, _ | ⟨y, t⟩⟩
      · exact ⟨cs, [], by simp, by simpa using hspells, by simp [EndsNumber]⟩
      · obtain rfl : ' ' = x := (List.cons.inj ht).1
        exact absurd rfl hspells.ne_concat
      · obtain rfl : 'a' = y := (List.cons.inj (List.cons.inj ht).2).1
        exact absurd (by simp) hspells.not_mem
    · refine ⟨found, t, rfl, hspells, ?_⟩
      cases t with
      | nil => simp [EndsNumber]
      | cons x t => simpa [EndsNumber] using hafter
  · rintro ⟨found, after, rfl, hspells, hafter⟩
    refine ⟨found, after ++ ' ' :: 'a' :: rest, by simp, hspells, ?_⟩
    cases after with
    | nil =>
      rintro x ⟨⟩
      decide
    | cons x t => simpa [EndsNumber] using hafter

theorem findPosition?_append (cs rest : List Char) :
    findPosition? (cs ++ ' ' :: 'a' :: rest)
      = (findPosition? cs).or (findPosition? (' ' :: 'a' :: rest)) := by
  induction cs with
  | nil => rfl
  | cons c cs ih =>
    have hhere := positionHere?_append (c :: cs) rest
    rw [List.cons_append] at hhere
    rw [List.cons_append, findPosition?, findPosition?, hhere, ih]
    cases positionHere? (c :: cs) <;> rfl

/-! ## Its numbers -/

theorem asciiDigit?_of_isDigit {c : Char} (h : c.isDigit = true) :
    Text.asciiDigit? c = some (c.toNat - '0'.toNat) := by
  unfold Text.asciiDigit?
  unfold Char.isDigit at h
  exact if_pos h

theorem isDigit_of_asciiDigit? {c : Char} {n : Nat} (h : Text.asciiDigit? c = some n) :
    c.isDigit = true := by
  unfold Text.asciiDigit? at h
  exact (Option.ite_none_right_eq_some.mp h).1

theorem asciiNumber?_eq {ds : List Char} (h : ∀ c ∈ ds, c.isDigit = true) :
    Text.asciiNumber? ds = some (Nat.ofDigitChars 10 ds 0) := by
  have hfold : ∀ n, ds.foldl
        (fun acc c => do return 10 * (← acc) + (← Text.asciiDigit? c)) (some n)
      = some (Nat.ofDigitChars 10 ds n) := by
    induction ds with
    | nil => exact fun n => rfl
    | cons c ds ih =>
      intro n
      rw [List.forall_mem_cons] at h
      rw [List.foldl_cons, asciiDigit?_of_isDigit h.1, Nat.ofDigitChars_cons]
      exact ih h.2 _
  exact hfold 0

theorem isDigit_of_asciiNumber? {ds : List Char} {n : Nat} (h : Text.asciiNumber? ds = some n) :
    ∀ c ∈ ds, c.isDigit = true := by
  induction ds using List.reverseRecOn generalizing n with
  | nil => simp
  | append_singleton ds d ih =>
    unfold Text.asciiNumber? at h ih
    rw [List.foldl_concat] at h
    obtain ⟨m, hm, hd⟩ := Option.bind_eq_some_iff.mp h
    obtain ⟨k, hk, -⟩ := Option.bind_eq_some_iff.mp hd
    intro c hc
    rcases List.mem_append.mp hc with hc | hc
    · exact ih hm c hc
    · obtain rfl := List.mem_singleton.mp hc
      exact isDigit_of_asciiDigit? hk

/-- Whether the digits are ASCII digits that write a number of at most 64 bits. -/
structure WritesWord (ds : List Char) (n : Nat) : Prop where
  ascii : ∀ c ∈ ds, c.isDigit = true
  value : Nat.ofDigitChars 10 ds 0 = n
  fits : n < wordLimit

theorem word?_eq_some_iff {ds : List Char} {n : Nat} : word? ds = some n ↔ WritesWord ds n := by
  unfold word?
  rw [Option.filter_eq_some_iff, decide_eq_true_eq]
  constructor
  · rintro ⟨hnumber, hlt⟩
    have hascii := isDigit_of_asciiNumber? hnumber
    rw [asciiNumber?_eq hascii, Option.some.injEq] at hnumber
    exact ⟨hascii, hnumber, hlt⟩
  · rintro ⟨hascii, rfl, hfits⟩
    exact ⟨asciiNumber?_eq hascii, hfits⟩

theorem isDigit_of_mem_toDigits {n : Nat} {c : Char} (h : c ∈ Nat.toDigits 10 n) :
    c.isDigit = true :=
  Nat.isDigit_of_mem_toDigits (by decide) (by decide) h

theorem word?_toDigits {n : Nat} (h : n < wordLimit) : word? (Nat.toDigits 10 n) = some n := by
  unfold word?
  rw [asciiNumber?_eq fun _ hc => isDigit_of_mem_toDigits hc, Nat.ofDigitChars_ten_toDigits]
  simp [h]

theorem isNumber_toDigits (n : Nat) : IsNumber (Nat.toDigits 10 n) where
  ne_nil := Nat.toDigits_ne_nil
  digits _ hc := Text.isDigit_of_asciiDigit (asciiDigit?_of_isDigit (isDigit_of_mem_toDigits hc))

/-- The position that the digits of its numbers write. -/
def location? (line column : List Char) : Option Location :=
  return ⟨← word? line, ← word? column⟩

theorem location?_eq_some_iff {l : Location} :
    location? line column = some l ↔ word? line = some l.line ∧ word? column = some l.column := by
  unfold location?
  simp only [Option.bind_eq_bind, Option.bind_eq_some_iff, Option.pure_def, Option.some.injEq]
  constructor
  · rintro ⟨x, hx, y, hy, rfl⟩
    exact ⟨hx, hy⟩
  · rintro ⟨hx, hy⟩
    exact ⟨l.line, hx, l.column, hy, rfl⟩

theorem toList_suffix (l : Location) :
    (suffix l).toList = " at Line: ".toList ++ Nat.toDigits 10 l.line
      ++ ", Column: ".toList ++ Nat.toDigits 10 l.column := by
  unfold suffix
  simp

theorem findPosition?_suffix (l : Location) :
    findPosition? (suffix l).toList
      = some (Nat.toDigits 10 l.line, Nat.toDigits 10 l.column) := by
  have hblank : IsBlank [' '] := by
    rintro c hc
    obtain rfl := List.mem_singleton.mp hc
    decide
  have hspells : Spells (Nat.toDigits 10 l.line) (Nat.toDigits 10 l.column)
      ("Line:".toList ++ [' '] ++ Nat.toDigits 10 l.line ++ [] ++ ",".toList ++ [' ']
        ++ "Column:".toList ++ [' '] ++ Nat.toDigits 10 l.column) :=
    ⟨isNumber_toDigits _, isNumber_toDigits _, [' '], [], [' '], [' '], hblank,
      fun c hc => absurd hc List.not_mem_nil, hblank, hblank, rfl⟩
  have hhere := positionHere?_eq_some_iff.mpr ⟨_, [], (List.append_nil _).symm, hspells,
    fun c hc => by cases hc⟩
  have htext : (suffix l).toList = " at ".toList
      ++ ("Line:".toList ++ [' '] ++ Nat.toDigits 10 l.line ++ [] ++ ",".toList ++ [' ']
        ++ "Column:".toList ++ [' '] ++ Nat.toDigits 10 l.column) := by
    rw [toList_suffix]
    simp
  rw [htext, findPosition?_append_of_not_mem (by decide)]
  obtain ⟨t, ht⟩ := hspells.exists_cons
  rw [ht] at hhere ⊢
  rw [findPosition?, hhere]

theorem findPosition?_append_suffix (p : String) (l : Location) :
    findPosition? ("sql parser error: " ++ (p ++ suffix l)).toList
      = (findPosition? p.toList).or
        (some (Nat.toDigits 10 l.line, Nat.toDigits 10 l.column)) := by
  obtain ⟨rest, hrest⟩ : ∃ rest, (suffix l).toList = ' ' :: 'a' :: rest :=
    ⟨_, by rw [toList_suffix]; rfl⟩
  rw [String.toList_append, String.toList_append, findPosition?_append_of_not_mem (by decide),
    ← findPosition?_suffix l, hrest, findPosition?_append]

/-- The position at the end counts unless the text before it says another one. -/
theorem position_of_suffix (failure : Failure) (p : String) (l : Location)
    (hfailure : failure = .grammar (p ++ suffix l) ∨ failure = .lexical (p ++ suffix l))
    (hline : l.line < wordLimit) (hcolumn : l.column < wordLimit) :
    ((ofFailure failure).position = some l
      ↔ ∀ line column, IsFirst line column p.toList →
        word? line = some l.line ∧ word? column = some l.column)
    ∧ ((∀ found line column, found <:+: p.toList → ¬ Spells line column found) →
      (ofFailure failure).position = some l)
    ∧ ∀ line column, IsFirst line column p.toList →
      (ofFailure failure).position = location? line column := by
  have htext : failure.text = "sql parser error: " ++ (p ++ suffix l) := by
    rcases hfailure with rfl | rfl <;> rfl
  have hposition : (ofFailure failure).position = ((findPosition? p.toList).or
      (some (Nat.toDigits 10 l.line, Nat.toDigits 10 l.column))).bind
        fun x => location? x.1 x.2 := by
    rw [← findPosition?_append_suffix, ← htext]
    rfl
  have hsuffix : findPosition? p.toList = none → (ofFailure failure).position = some l := by
    intro hnone
    rw [hposition, hnone, Option.none_or, Option.bind_some, location?_eq_some_iff]
    exact ⟨word?_toDigits hline, word?_toDigits hcolumn⟩
  have hfirst : ∀ line column, IsFirst line column p.toList →
      (ofFailure failure).position = location? line column := by
    intro line column h
    rw [hposition, findPosition?_eq_some_iff.mpr h]
    rfl
  refine ⟨⟨fun h line column hread => ?_, fun h => ?_⟩, fun hnowhere => hsuffix ?_, hfirst⟩
  · rw [hfirst line column hread] at h
    exact location?_eq_some_iff.mp h
  · cases hfind : findPosition? p.toList with
    | none => exact hsuffix hfind
    | some first =>
      have hread := findPosition?_eq_some_iff.mp hfind
      rw [hfirst _ _ hread, location?_eq_some_iff]
      exact h _ _ hread
  · rw [Option.eq_none_iff_forall_ne_some]
    rintro ⟨line, column⟩ h
    obtain ⟨before, found, after, hp, hspells, -⟩ := findPosition?_eq_some_iff.mp h
    exact hnowhere found line column ⟨before, after, hp.symm⟩ hspells

theorem position_of_suffix_quotedStart :
    let p := "Expected: end of statement, found: 'Line: 7, Column'"
    let l : Location := ⟨3, 18446744073709551615⟩
    l.line < wordLimit ∧ l.column < wordLimit
    ∧ (ofFailure (.grammar (p ++ suffix l))).position = some l
    ∧ (ofFailure (.lexical (p ++ suffix l))).position = some l := by
  intro p l
  have hnone : findPosition? p.toList = none := by decide +kernel
  have hnowhere : ∀ line column, ¬ IsFirst line column p.toList := by
    intro line column h
    rw [findPosition?_eq_some_iff.mpr h] at hnone
    cases hnone
  have hline : l.line < wordLimit := by decide
  have hcolumn : l.column < wordLimit := by decide
  exact ⟨hline, hcolumn,
    (position_of_suffix _ p l (.inl rfl) hline hcolumn).1.mpr fun _ _ h =>
      absurd h (hnowhere _ _),
    (position_of_suffix _ p l (.inr rfl) hline hcolumn).1.mpr fun _ _ h =>
      absurd h (hnowhere _ _)⟩

/-- A string in the place of the offending token can have a position in it: that one is reported. -/
theorem position_quotedPosition :
    let p := "Expected: end of statement, found: 'Line: 7, Column: 9'"
    let l : Location := ⟨1, 29⟩
    l.line < wordLimit ∧ l.column < wordLimit
    ∧ (ofFailure (.grammar (p ++ suffix l))).position = some ⟨7, 9⟩
    ∧ (ofFailure (.grammar (p ++ suffix l))).position ≠ some l := by
  decide +kernel

/-! ## What a message says -/

/-- The leftmost position counts, and there is none if its numbers cannot be read. -/
theorem position?_exact (message : String) :
    ((∀ found line column, found <:+: message.toList → ¬ Spells line column found) →
      position? message = none)
    ∧ ((∃ found line column, found <:+: message.toList ∧ Spells line column found) →
      ∃ start line column, IsLeftmost start line column message.toList)
    ∧ ∀ start line column, IsLeftmost start line column message.toList →
      (∀ l, position? message = some l ↔ WritesWord line l.line ∧ WritesWord column l.column)
      ∧ (position? message = none
        ↔ (∀ n, ¬ WritesWord line n) ∨ ∀ n, ¬ WritesWord column n) := by
  have hposition : position? message
      = (findPosition? message.toList).bind fun x => location? x.1 x.2 := rfl
  refine ⟨fun hnowhere => ?_, ?_, fun start line column h => ?_⟩
  · rw [hposition, findPosition?_eq_none_iff.mpr hnowhere, Option.bind_none]
  · rintro ⟨found, line, column, hfound, hspells⟩
    cases hfind : findPosition? message.toList with
    | none => exact absurd hspells (findPosition?_eq_none_iff.mp hfind found line column hfound)
    | some first =>
      obtain ⟨start, h⟩ := isFirst_iff.mp (findPosition?_eq_some_iff.mp hfind)
      exact ⟨start, first.1, first.2, h⟩
  · have hfind := findPosition?_eq_some_iff.mpr (isFirst_iff.mpr ⟨start, h⟩)
    have hsome : ∀ l, position? message = some l
        ↔ WritesWord line l.line ∧ WritesWord column l.column := by
      intro l
      rw [hposition, hfind, Option.bind_some, location?_eq_some_iff, word?_eq_some_iff,
        word?_eq_some_iff]
    refine ⟨hsome, ?_⟩
    simp only [Option.eq_none_iff_forall_ne_some, ne_eq, ← not_exists, ← not_and_or]
    refine not_congr ⟨?_, ?_⟩
    · rintro ⟨l, hl⟩
      obtain ⟨hline, hcolumn⟩ := (hsome l).mp hl
      exact ⟨⟨_, hline⟩, _, hcolumn⟩
    · rintro ⟨⟨x, hx⟩, y, hy⟩
      exact ⟨⟨x, y⟩, (hsome ⟨x, y⟩).mpr ⟨hx, hy⟩⟩

/-- A number of more than 64 bits loses the position, although another one follows. -/
theorem position?_exact_restarted :
    let kept := "Line: Line: 0012\t,Column:3 at Line: 4, Column: 5"
    let lost := "Line: 18446744073709551616, Column: 3 at Line: 4, Column: 5"
    let reversed := "Error at Column: 5, Line: 1"
    ((∃ start, IsLeftmost start "0012".toList ['3'] kept.toList) ∧ position? kept = some ⟨12, 3⟩)
    ∧ ((∃ start, IsLeftmost start "18446744073709551616".toList ['3'] lost.toList)
      ∧ position? lost = none)
    ∧ (∀ found line column, found <:+: reversed.toList → ¬ Spells line column found)
      ∧ position? reversed = none := by
  intro kept lost reversed
  have hkept : findPosition? kept.toList = some ("0012".toList, ['3']) := by decide +kernel
  have hlost : findPosition? lost.toList = some ("18446744073709551616".toList, ['3']) := by
    decide +kernel
  have hreversed : findPosition? reversed.toList = none := by decide +kernel
  obtain ⟨start, hstart⟩ := isFirst_iff.mp (findPosition?_eq_some_iff.mp hkept)
  obtain ⟨start', hstart'⟩ := isFirst_iff.mp (findPosition?_eq_some_iff.mp hlost)
  have hnowhere := findPosition?_eq_none_iff.mp hreversed
  have hword : word? "18446744073709551616".toList = none := by decide
  refine ⟨⟨⟨start, hstart⟩, ?_⟩, ⟨⟨start', hstart'⟩, ?_⟩, hnowhere,
    (position?_exact reversed).1 hnowhere⟩
  · refine (((position?_exact kept).2.2 start _ _ hstart).1 ⟨12, 3⟩).mpr ⟨?_, ?_⟩
    · exact word?_eq_some_iff.mp (by decide)
    · exact word?_eq_some_iff.mp (by decide)
  · refine ((position?_exact lost).2.2 start' _ _ hstart').2.mpr (.inl fun n hn => ?_)
    rw [word?_eq_some_iff.mpr hn] at hword
    cases hword

end SqlLint.ParseError
