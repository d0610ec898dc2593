import Mathlib.Data.List.Pairwise
import SqlLint.Proofs.Placement
import SqlLint.Proofs.Restriction

/-! # Well-formed findings

Main statement: `check_wellFormed`, every finding of the built-in rules has the stamp of a rule that
runs, the page of its code, and a place in its statement, and the findings stand in the order in
which their rules were registered. -/

namespace SqlLint

/-- What holds of every finding in a statement. -/
structure Diagnostic.WellFormed (config : Config) (s : Statement) (d : Diagnostic) : Prop where
  rule : ∃ rule ∈ (Linter.builtin config).enabledRules,
    d.code = rule.info.code ∧ d.severity = config.severityFor rule.info
  docUrl : d.docUrl = some (documentationUrl d.code)
  statementIndex : d.statementIndex = none
  placed : d.Placed (Node.statement s).spans

def Registry.position (r : Registry) (code : String) : Nat :=
  (r.rules.map (·.info.code)).idxOf code

theorem pairwise_idxOf {α : Type} [DecidableEq α] {l : List α} (h : l.Nodup) :
    l.Pairwise fun a b => l.idxOf a < l.idxOf b := by
  refine List.pairwise_iff_getElem.2 fun i j hi hj hlt => ?_
  rwa [h.idxOf_getElem, h.idxOf_getElem]

namespace Linter

variable {config : Config} {dialect : Dialect} {s : Statement} {rule : Rule} {d : Diagnostic}

theorem wellFormed_of_mem_runRule (hrule : rule ∈ (Linter.builtin config).enabledRules)
    (hd : d ∈ (Linter.builtin config).runRule s dialect rule) : d.WellFormed config s := by
  have hbuiltin : rule ∈ builtinRules := by
    rw [enabledRules_builtin] at hrule
    exact List.mem_of_mem_filter hrule
  obtain ⟨d, hfound, rfl⟩ := List.mem_map.1 hd
  have hstamp := Rules.stampsAll_builtinRules rule hbuiltin s _ d hfound
  have hplaced := Rules.placed_builtinRules rule hbuiltin s _ d hfound
  refine ⟨⟨rule, hrule, hstamp.code, hstamp.severity⟩, ?_, hstamp.statementIndex, hplaced⟩
  simp [Diagnostic.documented, hstamp.docUrl]

theorem pairwise_position (config : Config) (s : Statement) (dialect : Dialect) :
    ((Linter.builtin config).check s dialect).Pairwise fun a b =>
      Registry.builtin.position a.code ≤ Registry.builtin.position b.code := by
  -- The position of a finding is that of its rule.
  have hcode : ∀ rule ∈ builtinRules.filter (config.enables ·.info),
      ∀ d ∈ (Linter.builtin config).runRule s dialect rule, d.code = rule.info.code :=
    fun rule hrule d hd => code_of_mem_runRule (List.mem_of_mem_filter hrule) hd
  have horder : (builtinRules.filter (config.enables ·.info)).Pairwise fun a b =>
      Registry.builtin.position a.info.code < Registry.builtin.position b.info.code := by
    unfold Registry.position
    rw [Registry.rules_builtin]
    exact (List.pairwise_map.1 (pairwise_idxOf Rule.distinct_builtinRules.codes)).sublist
      List.filter_sublist
  rw [check, enabledRules_builtin, List.pairwise_flatMap]
  constructor
  · intro rule hrule
    refine List.pairwise_of_forall_mem_list fun a ha b hb => ?_
    have hsame : a.code = b.code := (hcode rule hrule a ha).trans (hcode rule hrule b hb).symm
    exact Nat.le_of_eq (congrArg _ hsame)
  · refine List.Pairwise.imp_of_mem ?_ horder
    intro first second hfirst hsecond hlt a ha b hb
    rw [hcode first hfirst a ha, hcode second hsecond b hb]
    exact Nat.le_of_lt hlt

/-- Findings are well formed, stand in the order of registration and know their statement. -/
theorem check_wellFormed (config : Config) (dialect : Dialect) :
    (∀ s, (∀ d ∈ (Linter.builtin config).check s dialect, d.WellFormed config s)
      ∧ ((Linter.builtin config).check s dialect).Pairwise fun a b =>
        Registry.builtin.position a.code ≤ Registry.builtin.position b.code)
    ∧ ∀ statements, ∀ d ∈ (Linter.builtin config).checkAll statements dialect,
      ∃ index s found, statements[index]? = some s
        ∧ found ∈ (Linter.builtin config).check s dialect ∧ d = found.withStatement index
        ∧ d.statementIndex = some index := by
  refine ⟨fun s => ⟨List.forall_mem_flatMap.2 fun rule hrule d => ?_,
    pairwise_position config s dialect⟩, ?_⟩
  · exact wellFormed_of_mem_runRule hrule
  · refine fun statements => List.forall_mem_flatMap.2 ?_
    rintro ⟨s, index⟩ hs
    refine List.forall_mem_map.2 fun found hfound => ⟨index, s, found, ?_, hfound, rfl, rfl⟩
    exact List.mem_zipIdx_iff_getElem?.1 hs

end Linter

/-- `VALUES (1) ORDER BY a DESC, b, c` with the position of `b` unknown. -/
def sortedValues : Statement :=
  .query
    { ctes := []
      recursive := false
      body := .values [[⟨.literal ⟨.number, "1"⟩, .empty⟩]] .empty
      orderBy :=
        [⟨⟨.column ⟨[], { value := "a" }⟩, ⟨⟨1, 21⟩, ⟨1, 22⟩⟩⟩, some false, none⟩,
          ⟨⟨.column ⟨[], { value := "b" }⟩, .empty⟩, none, none⟩,
          ⟨⟨.column ⟨[], { value := "c" }⟩, ⟨⟨1, 32⟩, ⟨1, 33⟩⟩⟩, none, none⟩]
      limit := none
      offset := none
      span := .empty }

/-- The span begins with one sort key and ends with another. -/
theorem Linter.check_sortedValues :
    ((Linter.builtin .standard).check sortedValues .generic).map (fun d => (d.code, d.span))
        = [("LINT_AM_003", some ⟨⟨1, 21⟩, ⟨1, 33⟩⟩)]
      ∧ ∀ d ∈ (Linter.builtin .standard).check sortedValues .generic,
        d.WellFormed .standard sortedValues := by
  refine ⟨?_, ((check_wellFormed .standard .generic).1 sortedValues).1⟩
  rw [check, enabledRules_builtin]
  decide +kernel

end SqlLint
