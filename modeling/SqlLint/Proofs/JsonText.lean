import SqlLint.Proofs.Numerals

/-! # Reading printed JSON

The document that a value is printed as, and that its text is read as this document. Main statement:
`parse?_compress`. -/

namespace SqlLint

open Document

variable {cs rest : List Char}

/-! ## Strings -/

namespace Document

theorem hexDigit?_digitChar : ∀ n < 16, hexDigit? (Nat.digitChar n) = some n := by decide

theorem hexUnit?_hexPair {n : Nat} (h : n < 256) :
    hexUnit? '0' '0' (Nat.digitChar (n / 16)) (Nat.digitChar (n % 16)) = some n := by
  have hzero : hexDigit? '0' = some 0 := rfl
  unfold hexUnit?
  simp only [hzero, hexDigit?_digitChar (n / 16) (by omega),
    hexDigit?_digitChar (n % 16) (by omega), Option.bind_eq_bind, Option.bind_some, Option.pure_def,
    Option.some.injEq]
  omega

theorem join?_unit {n : Nat} (h : n < 0xD800) (ps : List Piece) :
    join? (.unit n :: ps) = (join? ps).map (Char.ofNat n :: ·) := by
  have hhigh : isHighSurrogate n = false := by
    unfold isHighSurrogate
    simp only [Bool.and_eq_false_iff, decide_eq_false_iff_not]
    omega
  have hlow : isLowSurrogate n = false := by
    unfold isLowSurrogate
    simp only [Bool.and_eq_false_iff, decide_eq_false_iff_not]
    omega
  rcases ps with _ | ⟨_ | _, ps⟩ <;> simp [join?, hhigh, hlow]

theorem pieces?_cons {c : Char} (hquote : c ≠ '"') (hbackslash : c ≠ '\\')
    (hcontrol : ¬ c.toNat < 0x20) (rest : List Char) :
    pieces? (c :: rest) = (pieces? rest).map fun x => (.char c :: x.1, x.2) := by
  rw [pieces?, if_neg hcontrol, Option.map_eq_bind]
  · rfl
  · exact hquote
  · exact fun _ _ _ _ _ h _ => hbackslash h
  · exact fun _ _ h _ => hbackslash h

theorem pieces?_escaped (c : Char) (rest : List Char) :
    ∃ p, (∀ ps, join? (p :: ps) = (join? ps).map (c :: ·))
      ∧ pieces? (Json.escaped c ++ rest) = (pieces? rest).map fun x => (p :: x.1, x.2) := by
  have hshort : ∀ {e : Char}, e ≠ 'u' → shortEscape? e = some c →
      pieces? ('\\' :: e :: rest) = (pieces? rest).map fun x => (.char c :: x.1, x.2) := by
    intro e he hescape
    rw [pieces?, hescape, Option.map_eq_bind]
    · rfl
    · exact fun _ _ _ _ _ h _ => he h
  unfold Json.escaped
  split
  · exact ⟨.char _, fun _ => rfl, hshort (by decide) rfl⟩
  · exact ⟨.char _, fun _ => rfl, hshort (by decide) rfl⟩
  · exact ⟨.char _, fun _ => rfl, hshort (by decide) rfl⟩
  · exact ⟨.char _, fun _ => rfl, hshort (by decide) rfl⟩
  · exact ⟨.char _, fun _ => rfl, hshort (by decide) rfl⟩
  · exact ⟨.char _, fun _ => rfl, hshort (by decide) rfl⟩
  · exact ⟨.char _, fun _ => rfl, hshort (by decide) rfl⟩
  · next hquote hbackslash _ _ _ _ _ =>
    split
    · refine ⟨.unit c.toNat, fun ps => ?_, ?_⟩
      · rw [join?_unit (by omega), Char.ofNat_toNat]
      · simp only [Json.hexPair, List.cons_append, List.nil_append]
        rw [pieces?, hexUnit?_hexPair (by omega), Option.map_eq_bind]
        rfl
    · next hcontrol =>
      exact ⟨.char c, fun _ => rfl, pieces?_cons hquote hbackslash hcontrol rest⟩

theorem pieces?_flatMap_escaped (cs rest : List Char) :
    ∃ ps, join? ps = some cs
      ∧ pieces? (cs.flatMap Json.escaped ++ '"' :: rest) = some (ps, rest) := by
  induction cs with
  | nil => exact ⟨[], rfl, by simp [pieces?]⟩
  | cons c cs ih =>
    obtain ⟨ps, hjoin, hread⟩ := ih
    obtain ⟨p, hp, hpiece⟩ := pieces?_escaped c (cs.flatMap Json.escaped ++ '"' :: rest)
    refine ⟨p :: ps, ?_, ?_⟩
    · rw [hp, hjoin, Option.map_some]
    · rw [List.flatMap_cons, List.append_assoc, hpiece, hread, Option.map_some]

theorem quoted_append (s : String) (rest : List Char) :
    Json.quoted s ++ rest = '"' :: (s.toList.flatMap Json.escaped ++ '"' :: rest) := by
  unfold Json.quoted
  simp

theorem string?_quoted (s : String) (rest : List Char) :
    string? (s.toList.flatMap Json.escaped ++ '"' :: rest) = some (some s, rest) := by
  obtain ⟨ps, hjoin, hread⟩ := pieces?_flatMap_escaped s.toList rest
  unfold string?
  simp only [hread, hjoin, Option.map_some, String.ofList_toList]

end Document

/-! ## Values -/

namespace Json

mutual

/-- The document that a value is printed as. -/
def document : Json → Document
  | .null => .null
  | .bool b => .bool b
  | .number n => .number n.numeral
  | .string s => .string (some s)
  | .array items => .array (documents items)
  | .object members => .object (memberDocuments members)

def documents : List Json → List Document
  | [] => []
  | item :: rest => document item :: documents rest

/-- The members of an object with the documents of their values. -/
def memberDocuments : List (String × Json) → List (Option String × Document)
  | [] => []
  | (key, value) :: rest => (some key, document value) :: memberDocuments rest

end

theorem memberDocuments_eq_map (members : List (String × Json)) :
    memberDocuments members = members.map fun m => (some m.1, m.2.document) := by
  induction members with
  | nil => rfl
  | cons m rest ih => rw [memberDocuments, ih, List.map_cons]

/-- Whether a numeral can start with the character. -/
def StartsNumeral (c : Char) : Prop := c = '-' ∨ isDigit c = true

theorem StartsNumeral.ne {c x : Char} (h : StartsNumeral c) (hsign : x ≠ '-')
    (hdigit : isDigit x = false) : c ≠ x := by
  rintro rfl
  rcases h with h | h
  · exact hsign h
  · rw [hdigit] at h
    cases h

theorem StartsNumeral.isSpace {c : Char} (h : StartsNumeral c) : isSpace c = false := by
  unfold Document.isSpace
  simp [h.ne (x := ' ') (by decide) (by decide), h.ne (x := '\n') (by decide) (by decide),
    h.ne (x := '\t') (by decide) (by decide), h.ne (x := '\r') (by decide) (by decide)]

theorem exists_cons_numeral {n : Numeral} (h : n.WellFormed) :
    ∃ c cs, n.chars = c :: cs ∧ StartsNumeral c := by
  unfold Numeral.chars
  cases n.negative with
  | true => exact ⟨'-', _, rfl, .inl rfl⟩
  | false =>
    obtain ⟨d, ds, hwhole⟩ := List.exists_cons_of_ne_nil h.whole.ne_nil
    rw [hwhole]
    exact ⟨d, _, rfl, .inr (h.whole.digits d (hwhole ▸ List.mem_cons_self))⟩

theorem exists_cons_chars (value : Json) :
    ∃ c cs, value.chars = c :: cs ∧ isSpace c = false ∧ c ≠ ']' := by
  cases value with
  | null => exact ⟨_, _, rfl, by decide, by decide⟩
  | bool b => cases b <;> exact ⟨_, _, rfl, by decide, by decide⟩
  | number n =>
    obtain ⟨c, cs, hchars, hstart⟩ := exists_cons_numeral n.wellFormed_numeral
    refine ⟨c, cs, ?_, hstart.isSpace, hstart.ne (by decide) (by decide)⟩
    rw [chars, ← Number.chars_numeral, hchars]
  | string s => exact ⟨_, _, rfl, by decide, by decide⟩
  | array items => exact ⟨_, _, rfl, by decide, by decide⟩
  | object members => exact ⟨_, _, rfl, by decide, by decide⟩

theorem skipSpace_cons {c : Char} (h : isSpace c = false) (cs : List Char) :
    skipSpace (c :: cs) = c :: cs := by
  unfold skipSpace
  rw [List.dropWhile_cons_of_neg (by simp [h])]

theorem value?_numeral {n : Numeral} (h : n.WellFormed) (hrest : EndsNumeral rest) (fuel : Nat) :
    value? (fuel + 1) (n.chars ++ rest) = some (.number n, rest) := by
  have hread := numeral?_chars h hrest
  obtain ⟨c, cs, hchars, hstart⟩ := exists_cons_numeral h
  rw [hchars, List.cons_append] at hread ⊢
  unfold value?
  rw [skipSpace_cons hstart.isSpace]
  split
  all_goals first
    | next heq =>
      exact absurd (List.cons.inj heq).1 (hstart.ne (by decide) (by decide))
    | rw [hread, Option.map_some]

theorem endsNumeral_cons {c : Char} (hdigit : isDigit c = false) (hother : c ∉ ['.', 'e', 'E'])
    (rest : List Char) : EndsNumeral (c :: rest) := by
  rintro x ⟨⟩
  simp only [List.mem_cons, List.not_mem_nil, or_false, not_or] at hother
  exact ⟨hdigit, hother⟩

theorem value?_array_cons {fuel : Nat} {c : Char} {ds : List Document}
    (hspace : isSpace c = false) (hclose : c ≠ ']') (h : items? fuel (c :: cs) = some (ds, rest)) :
    value? (fuel + 1) ('[' :: c :: cs) = some (.array ds, rest) := by
  rw [value?, skipSpace_cons (by decide)]
  simp only [skipSpace_cons hspace]
  split
  · next heq => exact absurd (List.cons.inj heq).1 hclose
  · rw [h]
    rfl

theorem value?_object_cons {fuel : Nat} {ms : List (Option String × Document)}
    (h : members? fuel ('"' :: cs) = some (ms, rest)) :
    value? (fuel + 1) ('\x7b' :: '"' :: cs) = some (.object ms, rest) := by
  rw [value?, skipSpace_cons (by decide)]
  simp only [skipSpace_cons (c := '"') (by decide)]
  split
  · next heq => exact absurd (List.cons.inj heq).1 (by decide)
  · rw [h]
    rfl

theorem items?_last {fuel : Nat} {d : Document} (h : value? fuel cs = some (d, ']' :: rest)) :
    items? (fuel + 1) cs = some ([d], rest) := by
  rw [items?, h]
  rfl

theorem items?_more {fuel : Nat} {d : Document} {ds : List Document} {next : List Char}
    (h : value? fuel cs = some (d, ',' :: next)) (hnext : items? fuel next = some (ds, rest)) :
    items? (fuel + 1) cs = some (d :: ds, rest) := by
  rw [items?, h]
  change ((items? fuel next).bind fun x => some (d :: x.1, x.2)) = _
  rw [hnext]
  rfl

theorem members?_last {fuel : Nat} {key : String} {d : Document}
    (h : value? fuel cs = some (d, '\x7d' :: rest)) :
    members? (fuel + 1) (quoted key ++ ':' :: cs) = some ([(some key, d)], rest) := by
  rw [quoted_append, members?, skipSpace_cons (by decide)]
  simp only [string?_quoted, Option.bind_eq_bind, Option.bind_some,
    skipSpace_cons (c := ':') (by decide), h, skipSpace_cons (c := '\x7d') (by decide),
    Option.pure_def]

theorem members?_more {fuel : Nat} {key : String} {d : Document}
    {ms : List (Option String × Document)} {next : List Char}
    (h : value? fuel cs = some (d, ',' :: next)) (hnext : members? fuel next = some (ms, rest)) :
    members? (fuel + 1) (quoted key ++ ':' :: cs) = some ((some key, d) :: ms, rest) := by
  rw [quoted_append, members?, skipSpace_cons (by decide)]
  simp only [string?_quoted, Option.bind_eq_bind, Option.bind_some,
    skipSpace_cons (c := ':') (by decide), h, skipSpace_cons (c := ',') (by decide), hnext,
    Option.pure_def]

mutual

/-- With enough fuel, the text of a value is read as its document. -/
theorem value?_chars (value : Json) (fuel : Nat) (rest : List Char)
    (hfuel : value.chars.length ≤ fuel) (hrest : EndsNumeral rest) :
    value? fuel (value.chars ++ rest) = some (value.document, rest) := by
  obtain ⟨fuel, rfl⟩ : ∃ n, fuel = n + 1 := by
    obtain ⟨c, cs, hchars, -⟩ := exists_cons_chars value
    rw [hchars, List.length_cons] at hfuel
    exact ⟨fuel - 1, by omega⟩
  match value with
  | .null => rfl
  | .bool true => rfl
  | .bool false => rfl
  | .number n =>
    rw [chars, ← Number.chars_numeral]
    exact value?_numeral n.wellFormed_numeral hrest fuel
  | .string s =>
    rw [chars, quoted_append, value?, skipSpace_cons (by decide)]
    simp only [string?_quoted, Option.map_some]
    rfl
  | .array [] => rfl
  | .array (item :: items) =>
    have hitems := items?_itemsChars (item :: items) (by simp) fuel rest
      (by simpa [chars] using hfuel)
    obtain ⟨c, cs, hchars, hspace, hclose⟩ := exists_cons_chars item
    obtain ⟨cs', hcs⟩ : ∃ cs', itemsChars (item :: items) ++ rest = c :: cs' := by
      cases items <;> simp [itemsChars, hchars]
    rw [hcs] at hitems
    rw [chars, List.cons_append, hcs]
    exact value?_array_cons hspace hclose hitems
  | .object [] => rfl
  | .object (member :: members) =>
    have hmembers := members?_membersChars (member :: members) (by simp) fuel rest
      (by simpa [chars] using hfuel)
    obtain ⟨cs, hcs⟩ : ∃ cs, membersChars (member :: members) ++ rest = '"' :: cs := by
      cases members <;> simp [membersChars, quoted]
    rw [hcs] at hmembers
    rw [chars, List.cons_append, hcs]
    exact value?_object_cons hmembers

theorem items?_itemsChars (items : List Json) (hne : items ≠ []) (fuel : Nat) (rest : List Char)
    (hfuel : (itemsChars items).length ≤ fuel) :
    items? fuel (itemsChars items ++ rest) = some (documents items, rest) := by
  match items with
  | [] => exact absurd rfl hne
  | [item] =>
    simp only [itemsChars, List.length_append, List.length_singleton] at hfuel
    obtain ⟨fuel, rfl⟩ : ∃ n, fuel = n + 1 := ⟨fuel - 1, by omega⟩
    have hitem := value?_chars item fuel (']' :: rest) (by omega)
      (endsNumeral_cons (by decide) (by decide) rest)
    rw [itemsChars, List.append_assoc]
    exact items?_last hitem
  | item :: next :: items =>
    simp only [itemsChars, List.length_append, List.length_cons] at hfuel
    obtain ⟨fuel, rfl⟩ : ∃ n, fuel = n + 1 := ⟨fuel - 1, by omega⟩
    have hitem := value?_chars item fuel (',' :: (itemsChars (next :: items) ++ rest)) (by omega)
      (endsNumeral_cons (by decide) (by decide) _)
    have hitems := items?_itemsChars (next :: items) (by simp) fuel rest (by omega)
    rw [itemsChars, List.append_assoc]
    exact items?_more hitem hitems
    exact List.cons_ne_nil next items

theorem members?_membersChars (members : List (String × Json)) (hne : members ≠ []) (fuel : Nat)
    (rest : List Char) (hfuel : (membersChars members).length ≤ fuel) :
    members? fuel (membersChars members ++ rest) = some (memberDocuments members, rest) := by
  match members with
  | [] => exact absurd rfl hne
  | [(key, value)] =>
    simp only [membersChars, List.length_append, List.length_cons, List.length_nil] at hfuel
    obtain ⟨fuel, rfl⟩ : ∃ n, fuel = n + 1 := ⟨fuel - 1, by omega⟩
    have hvalue := value?_chars value fuel ('\x7d' :: rest) (by omega)
      (endsNumeral_cons (by decide) (by decide) rest)
    rw [membersChars, List.append_assoc, List.append_assoc]
    exact members?_last hvalue
  | (key, value) :: next :: members =>
    simp only [membersChars, List.length_append, List.length_cons] at hfuel
    obtain ⟨fuel, rfl⟩ : ∃ n, fuel = n + 1 := ⟨fuel - 1, by omega⟩
    have hvalue := value?_chars value fuel (',' :: (membersChars (next :: members) ++ rest))
      (by omega) (endsNumeral_cons (by decide) (by decide) _)
    have hmembers := members?_membersChars (next :: members) (by simp) fuel rest (by omega)
    rw [membersChars, List.append_assoc, List.append_assoc]
    exact members?_more hvalue hmembers
    exact List.cons_ne_nil next members

end

theorem parse?_compress (value : Json) : Document.parse? value.compress = some value.document := by
  have hread := value?_chars value (fuelFor value.chars.length) []
    (by unfold fuelFor; omega) (by rintro c ⟨⟩)
  rw [List.append_nil] at hread
  unfold Document.parse? compress
  simp only [String.toList_ofList, hread, Option.bind_eq_bind, Option.bind_some]
  rfl

end Json
end SqlLint
