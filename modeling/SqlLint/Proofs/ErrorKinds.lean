import SqlLint.Proofs.Positions

/-! # Categories of parse errors

Which phrases decide the category of an error whose message names what was expected and what was
found, and when the found token has a say in it. Main statement: `kind_expectation_congr_iff`. -/

namespace SqlLint.ParseError

/-- The message of the parser about a token that it did not expect. -/
def expectation (expected token : String) (position : Option Location) : String :=
  "Expected: " ++ expected ++ ", found: " ++ token ++ position.elim "" suffix

/-- The phrases of an input that ends too early. -/
def endPhrases : List String := ["unexpected end", "eof"]

/-- Whether one of them stands in the text, in any letter case. -/
def SaysEnd (text : String) : Prop :=
  ∃ phrase ∈ endPhrases, phrase.toList <:+: text.toList.flatMap smallForm

theorem mentions_iff {message : String} {phrases : List String} :
    mentions message phrases = true
      ↔ ∃ phrase ∈ phrases, phrase.toList <:+: message.toList.flatMap smallForm := by
  unfold mentions
  simp only [List.any_eq_true, Text.occurs_iff]

theorem smallForm_of_isDigit {c : Char} (h : c.isDigit = true) : smallForm c = [c] := by
  have hsmall : c.toNat ≤ 57 := by
    unfold Char.isDigit at h
    simpa [UInt32.le_iff_toNat_le] using (Bool.and_eq_true_iff.mp h).2
  have hlower : c.toLower = c := by
    unfold Char.toLower
    refine dif_neg fun hupper => ?_
    have hletter : 65 ≤ c.toNat := UInt32.le_iff_toNat_le.mp hupper.1
    omega
  unfold smallForm
  rw [if_neg (by omega), if_neg (by omega), hlower]

theorem smallForm_toDigits (n : Nat) :
    (Nat.toDigits 10 n).flatMap smallForm = Nat.toDigits 10 n := by
  rw [List.flatMap_congr fun c hc => smallForm_of_isDigit (isDigit_of_mem_toDigits hc)]
  exact List.flatMap_singleton' _

/-- A phrase has an `e`, and behind the comma of a position there is none. -/
theorem not_infix_numbers {phrase : String} (h : phrase ∈ endPhrases) (line column : Nat) :
    ¬ phrase.toList <:+: ' ' :: (Nat.toDigits 10 line
      ++ (", column: ".toList ++ Nat.toDigits 10 column)) := by
  intro hoccurs
  have he : ∀ phrase ∈ endPhrases, 'e' ∈ phrase.toList := by decide
  have hdigits : ∀ n, 'e' ∉ Nat.toDigits 10 n := fun n hn =>
    absurd (isDigit_of_mem_toDigits hn) (by decide)
  have hmem := hoccurs.subset (he phrase h)
  rw [List.mem_cons, List.mem_append, List.mem_append] at hmem
  rcases hmem with hmem | hmem | hmem | hmem
  · exact absurd hmem (by decide)
  · exact hdigits line hmem
  · exact absurd hmem (by decide)
  · exact hdigits column hmem

theorem infix_append_suffix_iff {phrase : String} (h : phrase ∈ endPhrases) (cs : List Char)
    (position : Option Location) :
    phrase.toList <:+: cs ++ (position.elim "" suffix).toList.flatMap smallForm
      ↔ phrase.toList <:+: cs := by
  cases position with
  | none => simp
  | some l =>
    have hsmall : ((some l).elim "" suffix).toList.flatMap smallForm
        = ' ' :: 'a' :: ("t line".toList ++ ':' :: ' ' :: (Nat.toDigits 10 l.line
          ++ (", column: ".toList ++ Nat.toDigits 10 l.column))) := by
      have hat : " at Line: ".toList.flatMap smallForm = " at line: ".toList := by decide
      have hcolumn : ", Column: ".toList.flatMap smallForm = ", column: ".toList := by decide
      rw [Option.elim_some, toList_suffix, List.flatMap_append, List.flatMap_append,
        List.flatMap_append, hat, hcolumn, smallForm_toDigits, smallForm_toDigits,
        List.append_assoc, List.append_assoc]
      rfl
    have hfacts : ∀ phrase ∈ endPhrases, 'a' ∉ phrase.toList ∧ ':' ∉ phrase.toList
        ∧ phrase.toList.getLast? ≠ some ' ' ∧ ¬ phrase.toList <:+: "t line".toList := by
      decide +kernel
    obtain ⟨ha, hcolon, hlast, hline⟩ := hfacts phrase h
    rw [hsmall, List.append_cons, infix_append_cons_iff ha, infix_append_cons_iff hcolon,
      infix_concat_iff_of_getLast? hlast]
    simp only [hline, not_infix_numbers h, or_false]

theorem smallForm_expectation (expected token : String) (position : Option Location) :
    (expectation expected token position).toList.flatMap smallForm
      = "expected".toList ++ ':' :: ' ' :: (expected.toList.flatMap smallForm
        ++ ',' :: (" found".toList ++ ':' :: ' ' :: (token.toList.flatMap smallForm
          ++ (position.elim "" suffix).toList.flatMap smallForm))) := by
  have hstart : "Expected: ".toList.flatMap smallForm = "expected: ".toList := by decide
  have hmiddle : ", found: ".toList.flatMap smallForm = ", found: ".toList := by decide
  unfold expectation
  simp only [String.toList_append, List.flatMap_append, List.append_assoc, hstart, hmiddle]
  rfl

theorem saysEnd_expectation_iff (expected token : String) (position : Option Location) :
    SaysEnd (expectation expected token position) ↔ SaysEnd expected ∨ SaysEnd token := by
  have hparts : ∀ phrase ∈ endPhrases,
      (phrase.toList <:+: (expectation expected token position).toList.flatMap smallForm
        ↔ phrase.toList <:+: expected.toList.flatMap smallForm
          ∨ phrase.toList <:+: token.toList.flatMap smallForm) := by
    intro phrase hphrase
    have hfacts : ∀ phrase ∈ endPhrases, ':' ∉ phrase.toList ∧ ',' ∉ phrase.toList
        ∧ phrase.toList.head? ≠ some ' ' ∧ ¬ phrase.toList <:+: "expected".toList
        ∧ ¬ phrase.toList <:+: " found".toList := by
      decide +kernel
    obtain ⟨hcolon, hcomma, hhead, hexpected, hfound⟩ := hfacts phrase hphrase
    rw [smallForm_expectation, infix_append_cons_iff hcolon, infix_cons_iff_of_head? hhead,
      infix_append_cons_iff hcomma, infix_append_cons_iff hcolon, infix_cons_iff_of_head? hhead,
      infix_append_suffix_iff hphrase]
    simp only [hexpected, hfound, false_or]
  unfold SaysEnd
  rw [exists_congr fun phrase => and_congr_right (hparts phrase)]
  simp only [and_or_left, exists_or]

theorem kind_grammar (message : String) :
    (ofFailure (.grammar message)).kind = Kind.ofMessage message := rfl

theorem kind_expectation (expected token : String) (position : Option Location) :
    (SaysEnd expected ∨ SaysEnd token →
      (ofFailure (.grammar (expectation expected token position))).kind = .unexpectedEof)
    ∧ (¬ (SaysEnd expected ∨ SaysEnd token) →
      (ofFailure (.grammar (expectation expected token position))).kind = .missingClause) := by
  have hend : mentions (expectation expected token position) ["unexpected end", "eof"] = true
      ↔ SaysEnd expected ∨ SaysEnd token :=
    mentions_iff.trans (saysEnd_expectation_iff expected token position)
  have hexpected : mentions (expectation expected token position) ["expected"] = true := by
    rw [mentions_iff, smallForm_expectation]
    exact ⟨"expected", List.mem_singleton_self _, (List.prefix_append _ _).isInfix⟩
  rw [kind_grammar, ← hend, Kind.ofMessage, if_pos hexpected]
  exact ⟨fun h => if_pos h, fun h => if_neg h⟩

/-- The found token has a say unless what was expected speaks of the end of the input. -/
theorem kind_expectation_congr_iff (expected token token' : String) (position : Option Location) :
    (ofFailure (.grammar (expectation expected token position))).kind
        = (ofFailure (.grammar (expectation expected token' position))).kind
      ↔ SaysEnd expected ∨ (SaysEnd token ↔ SaysEnd token') := by
  obtain ⟨hend, hother⟩ := kind_expectation expected token position
  obtain ⟨hend', hother'⟩ := kind_expectation expected token' position
  by_cases hexpected : SaysEnd expected
  · rw [hend (.inl hexpected), hend' (.inl hexpected)]
    exact iff_of_true rfl (.inl hexpected)
  · by_cases htoken : SaysEnd token <;> by_cases htoken' : SaysEnd token' <;>
      simp_all

/-- A name can have the letters of a phrase in it. -/
theorem kind_expectation_geoffrey :
    let position : Option Location := some ⟨1, 29⟩
    "geoffrey" ≠ "EOF" ∧ "jeffrey" ≠ "EOF"
    ∧ (ofFailure (.grammar (expectation "end of statement" "geoffrey" position))).kind
      = .unexpectedEof
    ∧ (ofFailure (.grammar (expectation "end of statement" "jeffrey" position))).kind
      = .missingClause := by
  decide +kernel

end SqlLint.ParseError
