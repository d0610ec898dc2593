import SqlLint.Diagnostic
import SqlLint.Proofs.JsonText

/-! # Diagnostics as JSON texts

A finding is read from its JSON text as it was written, and its text has a member for an optional
field exactly if the field is there. Main statement: `parse?_encode`. -/

namespace SqlLint

open Document

/-! ## Records -/

namespace Json

variable {fields : List (String × Option Json)}

/-- The members of a record: a field that is absent has none. -/
def present (fields : List (String × Option Json)) : List (String × Json) :=
  fields.filterMap fun f => f.2.map (f.1, ·)

theorem present_some (key : String) (value : Json) (fields : List (String × Option Json)) :
    present ((key, some value) :: fields) = (key, value) :: present fields := rfl

theorem present_none (key : String) (fields : List (String × Option Json)) :
    present ((key, none) :: fields) = present fields := rfl

theorem present_map {α : Type} (key : String) (f : α → Json) (value : Option α)
    (fields : List (String × Option Json)) :
    present ((key, value.map f) :: fields) = member? key f value ++ present fields := by
  cases value <;> rfl

theorem keys_present_sublist (fields : List (String × Option Json)) :
    ((present fields).map Prod.fst).Sublist (fields.map Prod.fst) := by
  unfold present
  refine map_filterMap_sublist (fun f m hm => ?_) fields
  obtain ⟨v, -, rfl⟩ := Option.map_eq_some_iff.mp hm
  rfl

theorem lookup_present (hdistinct : (fields.map Prod.fst).Nodup) {key : String}
    {value : Option Json} (h : (key, value) ∈ fields) : (present fields).lookup key = value := by
  induction fields with
  | nil => cases h
  | cons field rest ih =>
    obtain ⟨name, content⟩ := field
    rw [List.map_cons, List.nodup_cons] at hdistinct
    rcases List.mem_cons.mp h with heq | hrest
    · obtain ⟨rfl, rfl⟩ := Prod.mk.inj heq
      cases value with
      | some v => rw [present_some, List.lookup_cons_self]
      | none =>
        rw [present_none, List.lookup_eq_none_iff]
        intro m hm
        have hkey := (keys_present_sublist rest).subset (List.mem_map_of_mem hm)
        rw [bne_iff_ne]
        exact fun heq => hdistinct.1 (heq ▸ hkey)
    · have hkey : key ∈ rest.map Prod.fst := List.mem_map.mpr ⟨_, hrest, rfl⟩
      have hne : (key == name) = false := by
        rw [beq_eq_false_iff_ne]
        exact fun heq => hdistinct.1 (heq ▸ hkey)
      cases content with
      | some v => rw [present_some, List.lookup_cons, hne, ih hdistinct.2 hrest]
      | none => rw [present_none, ih hdistinct.2 hrest]

theorem mem_keys_present_iff (hdistinct : (fields.map Prod.fst).Nodup) {key : String}
    {value : Option Json} (h : (key, value) ∈ fields) :
    key ∈ (present fields).map Prod.fst ↔ value.isSome = true := by
  rw [← lookup_present hdistinct h, List.lookup_isSome_iff, List.mem_map]
  exact exists_congr fun m => and_congr_right fun _ => by rw [beq_iff_eq, eq_comm]

end Json

theorem Document.knownMembers?_eq {names : List String} {members : Fields}
    (hknown : ∀ m ∈ members, m.1 ∈ names) (hdistinct : (members.map Prod.fst).Nodup) :
    knownMembers? names (members.map fun m => (some m.1, m.2)) = some members := by
  induction members with
  | nil => rfl
  | cons m rest ih =>
    rw [List.map_cons, List.nodup_cons] at hdistinct
    rw [List.forall_mem_cons] at hknown
    have hfresh : rest.any (fun x => x.1 == m.1) = false := by
      rw [List.any_eq_false]
      intro x hx heq
      exact hdistinct.1 (List.mem_map.mpr ⟨x, hx, by simpa using heq⟩)
    rw [List.map_cons, knownMembers?]
    simp [ih hknown.2 hdistinct.2, hknown.1, hfresh]

theorem Document.lookup_map (members : List (String × Json)) (key : String) :
    (members.map fun m => (m.1, m.2.document)).lookup key
      = (members.lookup key).map Json.document := by
  induction members with
  | nil => rfl
  | cons m rest ih =>
    rw [List.map_cons, List.lookup_cons, List.lookup_cons, ih]
    cases key == m.1 <;> rfl

theorem Json.exists_found (names : List String) (fields : List (String × Option Json))
    (hnames : fields.map Prod.fst = names) (hdistinct : names.Nodup) :
    ∃ found, record? names (Json.object (present fields)).document = some found
      ∧ ∀ f ∈ fields, found.lookup f.1 = f.2.map document := by
  subst hnames
  have hkeys : ((present fields).map fun m => (m.1, m.2.document)).map Prod.fst
      = (present fields).map Prod.fst := by
    rw [List.map_map]
    rfl
  have hsublist := keys_present_sublist fields
  rw [← hkeys] at hsublist
  have hread := knownMembers?_eq (fun _ hm => hsublist.subset (List.mem_map_of_mem hm))
    (hdistinct.sublist hsublist)
  refine ⟨(present fields).map fun m => (m.1, m.2.document), ?_, fun f hf => ?_⟩
  · rw [document, record?, memberDocuments_eq_map, ← hread, List.map_map]
    rfl
  · rw [lookup_map, lookup_present hdistinct hf]

/-! ## Fields -/

namespace Document.Fields

variable {α : Type} {fields : Fields} {name : String}

theorem required?_eq (decode : Document → Option α) {a : α} {d : Document}
    (h : fields.lookup name = some d) (hd : decode d = some a) :
    fields.required? name decode = some a := by
  unfold required?
  rw [h]
  exact hd

theorem default?_nullable_eq (decode : Document → Option α) {f : α → Json} {a : Option α}
    (h : fields.lookup name = (a.map f).map Json.document)
    (hread : ∀ x ∈ a, decode (f x).document = some x) (hnull : decode .null = none) :
    fields.default? name none (nullable? decode) = some a := by
  unfold default?
  rw [h]
  cases a with
  | none => rfl
  | some x =>
    have hx := hread x rfl
    unfold nullable?
    simp only [Option.map_some]
    split
    · next heq =>
      rw [heq, hnull] at hx
      cases hx
    · rw [hx, Option.map_some]

end Document.Fields

theorem Document.nat?_document {n : Nat} (h : n < wordLimit) :
    Document.nat? (Json.nat n).document = some n := by
  have hvalue : Numeral.nat? ⟨false, Json.digits n, none, none⟩ = some n := by
    unfold Numeral.nat? Numeral.plain
    simp [ofDigits_digits, h]
  exact hvalue

/-! ## Findings -/

/-- Whether the numbers of a location fit in 64 bits. -/
def Location.FitsWord (l : Location) : Prop := l.line < wordLimit ∧ l.column < wordLimit

def Span.FitsWord (s : Span) : Prop := s.start.FitsWord ∧ s.stop.FitsWord

/-- Whether the numbers of a finding fit in 64 bits. -/
structure Diagnostic.FitsWord (d : Diagnostic) : Prop where
  span : ∀ s ∈ d.span, s.FitsWord
  statementIndex : ∀ i ∈ d.statementIndex, i < wordLimit

namespace Location

def fields (l : Location) : List (String × Option Json) :=
  [("line", some (.nat l.line)), ("column", some (.nat l.column))]

theorem toJson_eq (l : Location) : l.toJson = .object (Json.present l.fields) := rfl

theorem decode_document {l : Location} (h : l.FitsWord) : decode l.toJson.document = some l := by
  obtain ⟨found, hread, hfound⟩ := Json.exists_found ["line", "column"] l.fields rfl (by decide)
  unfold fields at hfound
  simp only [List.forall_mem_cons] at hfound
  obtain ⟨hline, hcolumn, -⟩ := hfound
  have hline := Fields.required?_eq Document.nat? hline (nat?_document h.1)
  have hcolumn := Fields.required?_eq Document.nat? hcolumn (nat?_document h.2)
  unfold decode
  rw [toJson_eq, hread]
  simp [hline, hcolumn]

end Location

namespace Span

def fields (s : Span) : List (String × Option Json) :=
  [("start", some s.start.toJson), ("end", some s.stop.toJson)]

theorem toJson_eq (s : Span) : s.toJson = .object (Json.present s.fields) := rfl

theorem decode_document {s : Span} (h : s.FitsWord) : decode s.toJson.document = some s := by
  obtain ⟨found, hread, hfound⟩ := Json.exists_found ["start", "end"] s.fields rfl (by decide)
  unfold fields at hfound
  simp only [List.forall_mem_cons] at hfound
  obtain ⟨hstart, hstop, -⟩ := hfound
  have hstart := Fields.required?_eq Location.decode hstart (Location.decode_document h.1)
  have hstop := Fields.required?_eq Location.decode hstop (Location.decode_document h.2)
  unfold decode
  rw [toJson_eq, hread]
  simp [hstart, hstop]

end Span

theorem Severity.decode_document (s : Severity) :
    Severity.decode (Json.string s.name).document = some s := by
  cases s <;> rfl

theorem Impact.decode_document (i : Impact) :
    Impact.decode (Json.string i.name).document = some i := by
  cases i <;> rfl

namespace Diagnostic

def fields (d : Diagnostic) : List (String × Option Json) :=
  [("code", some (.string d.code)), ("severity", some (.string d.severity.name)),
    ("message", some (.string d.message)), ("span", d.span.map Span.toJson),
    ("statementIndex", d.statementIndex.map Json.nat), ("docUrl", d.docUrl.map Json.string),
    ("impact", d.impact.map fun i => .string i.name), ("fixable", some (.bool d.fixable))]

def fieldNames : List String :=
  ["code", "severity", "message", "span", "statementIndex", "docUrl", "impact", "fixable"]

theorem toJson_eq (d : Diagnostic) : d.toJson = .object (Json.present d.fields) := by
  unfold toJson fields
  simp only [Json.present_some, Json.present_map, List.append_assoc, List.cons_append]
  rfl

theorem decode_document {d : Diagnostic} (h : d.FitsWord) :
    decode d.toJson.document = some d := by
  obtain ⟨found, hread, hfound⟩ := Json.exists_found fieldNames d.fields rfl (by decide)
  unfold fields at hfound
  simp only [List.forall_mem_cons] at hfound
  obtain ⟨hcode, hseverity, hmessage, hspan, hstatement, hurl, himpact, hfixable, -⟩ := hfound
  have hcode := Fields.required?_eq text? hcode rfl
  have hseverity := Fields.required?_eq Severity.decode hseverity d.severity.decode_document
  have hmessage := Fields.required?_eq text? hmessage rfl
  have hspan := Fields.default?_nullable_eq Span.decode hspan
    (fun s hs => Span.decode_document (h.span s hs)) rfl
  have hstatement := Fields.default?_nullable_eq Document.nat? hstatement
    (fun i hi => nat?_document (h.statementIndex i hi)) rfl
  have hurl := Fields.default?_nullable_eq text? hurl (fun _ _ => rfl) rfl
  have himpact := Fields.default?_nullable_eq Impact.decode himpact
    (fun i _ => i.decode_document) rfl
  have hfixable : found.default? "fixable" false Document.bool? = some d.fixable := by
    unfold Fields.default?
    rw [hfixable]
    rfl
  unfold decode
  unfold fieldNames at hread
  rw [toJson_eq, hread]
  simp [hcode, hseverity, hmessage, hspan, hstatement, hurl, himpact, hfixable]

/-- A finding is read from its text as it was written, and no other has the same text. -/
theorem parse?_encode (d : Diagnostic) (h : d.FitsWord) :
    parse? d.encode = some d
    ∧ (∃ members, Document.parse? d.encode = some (.object members)
      ∧ ∀ key there, (key, there) ∈ [("span", d.span.isSome),
          ("statementIndex", d.statementIndex.isSome), ("docUrl", d.docUrl.isSome),
          ("impact", d.impact.isSome)] →
        (some key ∈ members.map Prod.fst ↔ there = true))
    ∧ ∀ d' : Diagnostic, d'.FitsWord → d'.encode = d.encode → d' = d := by
  have hparse : ∀ d : Diagnostic, d.FitsWord → parse? d.encode = some d := by
    intro d h
    unfold parse? encode
    rw [Json.parse?_compress]
    exact decode_document h
  refine ⟨hparse d h, ⟨Json.memberDocuments (Json.present d.fields), ?_, fun key there hkey => ?_⟩,
    fun d' h' heq => ?_⟩
  · unfold encode
    rw [Json.parse?_compress, toJson_eq, Json.document]
  · have hfields : ∀ x ∈ [("span", d.span.isSome), ("statementIndex", d.statementIndex.isSome),
        ("docUrl", d.docUrl.isSome), ("impact", d.impact.isSome)],
        x ∈ d.fields.map fun f => (f.1, f.2.isSome) := by
      simp [fields]
    obtain ⟨f, hf, heq⟩ := List.mem_map.mp (hfields _ hkey)
    obtain ⟨rfl, rfl⟩ := Prod.mk.inj heq
    have hdistinct : (d.fields.map Prod.fst).Nodup := (by decide : fieldNames.Nodup)
    rw [← Json.mem_keys_present_iff hdistinct hf, Json.memberDocuments_eq_map, List.map_map]
    simp
  · have hread := hparse d' h'
    rw [heq, hparse d h] at hread
    exact (Option.some.inj hread).symm

/-- Quotes, control characters, characters beyond ASCII and the largest number come back. -/
theorem parse?_encode_escapes :
    let d : Diagnostic := ⟨"LINT_\"AM\"_\\004", .hint, "tab\t nul\x00 line\n bell\x07 é \x7f 😀",
      some ⟨⟨0, 18446744073709551615⟩, ⟨7, 1⟩⟩, none, some "", some .critical, true⟩
    d.FitsWord ∧ parse? d.encode = some d
    ∧ (∃ members, Document.parse? d.encode = some (.object members)
      ∧ some "docUrl" ∈ members.map Prod.fst ∧ some "statementIndex" ∉ members.map Prod.fst)
    ∧ ∀ d' : Diagnostic, d'.FitsWord → d'.encode = d.encode → d' = d := by
  intro d
  have hfits : d.FitsWord := by
    refine ⟨fun s hs => ?_, fun i hi => by cases hi⟩
    obtain rfl := Option.some.inj hs
    exact ⟨⟨by decide, by decide⟩, by decide, by decide⟩
  obtain ⟨hparse, ⟨members, hmembers, hkeys⟩, hinjective⟩ := parse?_encode d hfits
  refine ⟨hfits, hparse, ⟨members, hmembers, ?_, ?_⟩, hinjective⟩
  · exact (hkeys "docUrl" true (by simp [d])).mpr rfl
  · exact fun h => Bool.false_ne_true ((hkeys "statementIndex" false (by simp [d])).mp h)

end Diagnostic
end SqlLint
