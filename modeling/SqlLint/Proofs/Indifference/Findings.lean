import Mathlib.Data.List.Forall2
import SqlLint.Proofs.Catalog
import SqlLint.Proofs.Indifference.Rules

/-! # Findings depend neither on positions nor on letter case

Main statements: `check_without_spans`, statements that differ only in their spans have the same
findings at other places; `check_folded`, statements without quotes that differ only in the letter
case of identifiers have the same findings up to letter case in the messages. -/

namespace SqlLint

/-! ## Both recasts of a statement look alike to the linter -/

namespace Lens

variable {l : Lens} {r q : Recast}

theorem view_getD (findings : Option (List Diagnostic)) :
    ((findings.getD []).map Diagnostic.documented).map l.view
      = ((findings.map (·.map l.view)).getD []).map Diagnostic.documented := by
  cases findings with
  | none => rfl
  | some ds => simp only [Option.map_some, Option.getD_some, List.map_map, Function.comp_def,
      view_documented]

theorem view_runRule (h : l.Hides r q) (linter : Linter) {rule : Rule} (hrule : rule ∈ builtinRules)
    (s : Statement) (dialect : Dialect) :
    (linter.runRule (r.statement s) dialect rule).map l.view
      = (linter.runRule (q.statement s) dialect rule).map l.view := by
  have hcheck := Rules.indifferent_builtinRules h rule hrule s
    (linter.config.contextFor dialect rule.info)
  unfold Linter.runRule
  rw [view_getD, view_getD, hcheck]

theorem view_check (h : l.Hides r q) (config : Config) (s : Statement) (dialect : Dialect) :
    ((Linter.builtin config).check (r.statement s) dialect).map l.view
      = ((Linter.builtin config).check (q.statement s) dialect).map l.view := by
  unfold Linter.check
  rw [Linter.enabledRules_builtin, List.map_flatMap, List.map_flatMap]
  apply List.flatMap_congr
  intro rule hrule
  exact view_runRule h _ (List.mem_of_mem_filter hrule) s dialect

theorem forall₂_of_map_view {R : Diagnostic → Diagnostic → Prop} {as bs : List Diagnostic}
    (hview : as.map l.view = bs.map l.view) (hR : ∀ a b, l.view a = l.view b → R a b) :
    List.Forall₂ R as bs := by
  have heq : List.Forall₂ (· = ·) (as.map l.view) (bs.map l.view) := by
    rw [hview]
    exact List.forall₂_refl _
  rw [List.forall₂_map_left_iff, List.forall₂_map_right_iff] at heq
  exact heq.imp hR

end Lens

/-! ## Positions -/

/-- Every position is unknown. -/
def Recast.unplaced : Recast := ⟨fun i => { i with span := .empty }, fun _ => .empty⟩

/-- The statement with every position unknown. -/
def Statement.withoutSpans (s : Statement) : Statement := Recast.unplaced.statement s

/-- Everything but where two findings are. -/
structure Diagnostic.AgreeUpToSpan (a b : Diagnostic) : Prop where
  code : a.code = b.code
  severity : a.severity = b.severity
  message : a.message = b.message
  docUrl : a.docUrl = b.docUrl
  impact : a.impact = b.impact
  fixable : a.fixable = b.fixable
  statementIndex : a.statementIndex = b.statementIndex

namespace Lens

/-- All but the span of a finding. -/
def unplaced : Lens := ⟨id, false⟩

theorem hides_unplaced : unplaced.Hides .same .unplaced where
  append _ _ := rfl
  value _ := rfl
  key _ := rfl
  quoted _ := rfl
  literal _ _ := rfl
  equivalent _ _ := rfl
  span hspans := nomatch hspans
  identSpan hspans := nomatch hspans

theorem agreeUpToSpan_of_view {a b : Diagnostic} (h : unplaced.view a = unplaced.view b) :
    a.AgreeUpToSpan b := by
  obtain ⟨_, _, _, _, _, _, _, _⟩ := a
  obtain ⟨_, _, _, _, _, _, _, _⟩ := b
  simp only [view, unplaced, Diagnostic.mk.injEq] at h
  obtain ⟨hcode, hseverity, hmessage, -, hindex, hurl, himpact, hfixable⟩ := h
  exact ⟨hcode, hseverity, hmessage, hurl, himpact, hfixable, hindex⟩

end Lens

namespace Linter

theorem check_without_spans (config : Config) (dialect : Dialect) {s t : Statement}
    (h : s.withoutSpans = t.withoutSpans) :
    List.Forall₂ Diagnostic.AgreeUpToSpan ((Linter.builtin config).check s dialect)
      ((Linter.builtin config).check t dialect) := by
  have hplace : ∀ s : Statement,
      ((Linter.builtin config).check s dialect).map Lens.unplaced.view
        = ((Linter.builtin config).check s.withoutSpans dialect).map Lens.unplaced.view := by
    intro s
    have hview := Lens.view_check Lens.hides_unplaced config s dialect
    rw [Recast.statement_same] at hview
    exact hview
  refine Lens.forall₂_of_map_view ?_ fun a b => Lens.agreeUpToSpan_of_view
  rw [hplace s, hplace t, h]

end Linter

/-- `SELECT column FROM table` on a line of its own. -/
def lineOf (line : Nat) (column table : String) : Core :=
  let span : Span := ⟨⟨line, 1⟩, ⟨line, 20⟩⟩
  { distinct := false
    columns := [.expr ⟨.column ⟨[], { value := column, span }⟩, span⟩ none]
    source := some ⟨.named ⟨[{ value := table, span }]⟩ none span, []⟩
    condition := none
    groupBy := []
    having := none
    qualify := none
    orderBy := []
    limit := none
    offset := none
    span := span }

/-- Two equal branches on two lines, under an operator. -/
def twins : Statement :=
  .query
    { ctes := []
      recursive := false
      body := .setOperation
        ⟨.union, .implicit, .core (lineOf 1 "n" "t"), .core (lineOf 2 "n" "t"), .empty⟩
      orderBy := []
      limit := none
      offset := none
      span := ⟨⟨1, 1⟩, ⟨2, 20⟩⟩ }

/-- Without spans the two branches are one and the same. -/
theorem Linter.check_twins :
    (lineOf 1 "n" "t" ≠ lineOf 2 "n" "t"
      ∧ Recast.unplaced.core (lineOf 1 "n" "t") = Recast.unplaced.core (lineOf 2 "n" "t")
      ∧ twins.withoutSpans = twins.withoutSpans.withoutSpans)
      ∧ List.Forall₂ Diagnostic.AgreeUpToSpan ((Linter.builtin .standard).check twins .generic)
        ((Linter.builtin .standard).check twins.withoutSpans .generic) :=
  ⟨⟨by simp [lineOf], rfl, rfl⟩, check_without_spans .standard .generic rfl⟩

/-! ## Letter case -/

/-- No identifier is quoted. -/
def Recast.unquoted : Recast := ⟨fun i => { i with quoted := false }, id⟩

/-- No identifier is quoted or has a capital. -/
def Recast.folded : Recast :=
  ⟨fun i => { i with quoted := false, value := Text.lower i.value }, id⟩

/-- The statement itself if nothing in it is quoted. -/
def Statement.withoutQuotes (s : Statement) : Statement := Recast.unquoted.statement s

/-- The statement without quotes and with every identifier in lower case. -/
def Statement.folded (s : Statement) : Statement := Recast.folded.statement s

/-- Everything of two findings, where messages may differ in letter case. -/
structure Diagnostic.AgreeUpToCase (a b : Diagnostic) : Prop where
  code : a.code = b.code
  severity : a.severity = b.severity
  message : Text.same a.message b.message = true
  span : a.span = b.span
  statementIndex : a.statementIndex = b.statementIndex
  docUrl : a.docUrl = b.docUrl
  impact : a.impact = b.impact
  fixable : a.fixable = b.fixable

namespace Lens

/-- All of a finding but the letter case of its message. -/
def folded : Lens := ⟨Text.lower, true⟩

theorem hides_folded : folded.Hides .unquoted .folded where
  append := Text.lower_append
  value i := (Text.lower_lower i.value).symm
  key i := (Text.lower_lower i.value).symm
  quoted _ := rfl
  literal _ hquoted := nomatch hquoted
  equivalent i j := by
    simp [Recast.unquoted, Recast.folded, Ident.equivalent, Text.same, Text.lower_lower]
  span _ _ := rfl
  identSpan _ _ := rfl

theorem agreeUpToCase_of_view {a b : Diagnostic} (h : folded.view a = folded.view b) :
    a.AgreeUpToCase b := by
  obtain ⟨_, _, _, _, _, _, _, _⟩ := a
  obtain ⟨_, _, _, _, _, _, _, _⟩ := b
  simp only [view, folded, Diagnostic.mk.injEq] at h
  obtain ⟨hcode, hseverity, hmessage, hspan, hindex, hurl, himpact, hfixable⟩ := h
  exact ⟨hcode, hseverity, (Text.same_iff _ _).2 hmessage, hspan, hindex, hurl, himpact, hfixable⟩

end Lens

namespace Linter

theorem check_folded (config : Config) (dialect : Dialect) {s t : Statement}
    (hs : s.withoutQuotes = s) (ht : t.withoutQuotes = t) (h : s.folded = t.folded) :
    List.Forall₂ Diagnostic.AgreeUpToCase ((Linter.builtin config).check s dialect)
      ((Linter.builtin config).check t dialect) := by
  have hfold : ∀ s : Statement, s.withoutQuotes = s →
      ((Linter.builtin config).check s dialect).map Lens.folded.view
        = ((Linter.builtin config).check s.folded dialect).map Lens.folded.view := by
    intro s hs
    have hview := Lens.view_check Lens.hides_folded config s dialect
    change _ = ((Linter.builtin config).check s.folded dialect).map Lens.folded.view at hview
    rw [← hview]
    exact congrArg (fun s => ((Linter.builtin config).check s dialect).map Lens.folded.view) hs.symm
  refine Lens.forall₂_of_map_view ?_ fun a b => Lens.agreeUpToCase_of_view
  rw [hfold s hs, hfold t ht, h]

end Linter

/-- `WITH c AS (SELECT n FROM t) SELECT column FROM table` -/
def readingC (column table : String) : Statement :=
  .query
    { ctes := [⟨{ value := "c" }, .ofCore (lineOf 1 "n" "t"), .empty⟩]
      recursive := false
      body := .core (lineOf 2 column table)
      orderBy := []
      limit := none
      offset := none
      span := .empty }

theorem folded_readingC {a b c d : String} (hcolumn : Text.lower a = Text.lower b)
    (htable : Text.lower c = Text.lower d) : (readingC a c).folded = (readingC b d).folded := by
  have hident : ∀ {a b : String} (span : Span), Text.lower a = Text.lower b →
      Recast.folded.ident ⟨a, false, span⟩ = Recast.folded.ident ⟨b, false, span⟩ := by
    intro a b span h
    simp only [Recast.folded, h]
  simp only [readingC, lineOf, Statement.folded, Recast.statement, Recast.query, Recast.body,
    Recast.core, Recast.items, Recast.item, Recast.expr, Recast.exprKind, Recast.column,
    Recast.source?, Recast.source, Recast.table, Recast.name, List.map_cons, hident _ hcolumn,
    hident _ htable]

/-- The one reads `C`, the other `c`. -/
theorem Linter.check_capitals :
    (readingC "N" "C" ≠ readingC "n" "c" ∧ (readingC "N" "C").withoutQuotes = readingC "N" "C"
      ∧ (readingC "n" "c").withoutQuotes = readingC "n" "c"
      ∧ (readingC "N" "C").folded = (readingC "n" "c").folded)
      ∧ List.Forall₂ Diagnostic.AgreeUpToCase
        ((Linter.builtin .standard).check (readingC "N" "C") .generic)
        ((Linter.builtin .standard).check (readingC "n" "c") .generic) :=
  have hfolded := folded_readingC (show Text.lower "N" = Text.lower "n" by simp [Text.lower])
    (show Text.lower "C" = Text.lower "c" by simp [Text.lower])
  ⟨⟨by simp [readingC, lineOf], rfl, rfl, hfolded⟩,
    check_folded .standard .generic rfl rfl hfolded⟩

end SqlLint
