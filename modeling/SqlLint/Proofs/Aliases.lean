import SqlLint.Proofs.Operands

/-! # Table aliases

A table keeps its alias, but for the forms that are kept as text with the alias in it. Main statement:
`aliases_exact`, the aliases of a statement are those kept and those left in such a text. -/

namespace SqlLint

namespace Parsed

namespace Table

def label? : Table → Option Ident
  | .named _ label _ | .derived _ _ label _ | .nestedJoin _ label _ | .rendered _ _ label _ => label

/-- Whether a table has an alias that stays in its text. -/
def losesAlias : Table → Bool
  | .rendered form _ label _ => label.isSome && !form.keepsAlias
  | _ => false

end Table

/-- Every table of a statement, joins in parentheses included. -/
def Statement.tables (s : Statement) : List Table := s.parts.filterMap Part.table?

end Parsed

namespace Lower

/-! ## One table -/

theorem alias?_table (t : Parsed.Table) :
    (table t).alias? = if t.losesAlias then none else t.label? := by
  cases t with
  | named name label span => rfl
  | derived lateral q label span => cases lateral <;> rfl
  | nestedJoin inner label span => rfl
  | rendered form text label span =>
    rw [table, Parsed.TableForm.lower, TableRef.alias?, Parsed.Table.losesAlias,
      Parsed.Table.label?]
    cases form.keepsAlias <;> cases label <;> rfl

theorem isSome_label?_of_losesAlias {t : Parsed.Table} (h : t.losesAlias = true) :
    t.label?.isSome := by
  cases t with
  | rendered form text label span =>
    rw [Parsed.Table.losesAlias, Bool.and_eq_true] at h
    exact h.1
  | _ => cases h

theorem alias?_table_iff (t : Parsed.Table) :
    (table t).alias? = t.label? ↔ t.losesAlias = false := by
  rw [alias?_table]
  cases h : t.losesAlias with
  | false => simp
  | true =>
    have hlabel := isSome_label?_of_losesAlias h
    cases hnone : t.label? with
    | none => simp [hnone] at hlabel
    | some label => simp

/-! ## A whole statement -/

theorem perm_tables (s : Parsed.Statement) :
    ((Node.statement (statement s)).tables.filter (!·.isBareJoin)).Perm
      ((s.tables.filter (!·.isBareJoin)).map table) := by
  have htables := perm_traces (kept_statement s) Trace.table?
  simp only [trace?_bind, part_trace?_bind, Trace.table?, Option.bind_fun_none, Option.none_or,
    Option.bind_fun_some] at htables
  rw [Node.tables, Node.collect_eq, ← List.filterMap_eq_filter, List.filterMap_filterMap,
    Parsed.Statement.tables, ← List.filterMap_eq_filter, List.filterMap_filterMap,
    List.map_filterMap]
  simp only [Option.map_eq_bind, Function.comp_def]
  exact htables

theorem alias?_of_isBareJoin {t : TableRef} (h : t.isBareJoin = true) : t.alias? = none := by
  cases t with
  | nestedJoin source label span => cases label <;> first | rfl | cases h
  | _ => cases h

theorem filterMap_filter_isBareJoin (ts : List TableRef) :
    (ts.filter (!·.isBareJoin)).filterMap TableRef.alias? = ts.filterMap TableRef.alias? := by
  rw [← List.filterMap_eq_filter, List.filterMap_filterMap]
  refine List.filterMap_congr fun t _ => ?_
  cases h : t.isBareJoin with
  | false => simp [Option.guard, h]
  | true => simp [Option.guard, h, alias?_of_isBareJoin h]

theorem perm_aliases (s : Parsed.Statement) :
    ((Node.statement (statement s)).tables.filterMap TableRef.alias?).Perm
      ((s.tables.filter (!·.losesAlias)).filterMap Parsed.Table.label?) := by
  have hbare : (((s.tables.filter (!·.isBareJoin)).map table).filterMap TableRef.alias?)
      = (s.tables.map table).filterMap TableRef.alias? := by
    rw [← filterMap_filter_isBareJoin (s.tables.map table), List.filter_map]
    simp only [Function.comp_def, isBareJoin_table]
  have hkept : (s.tables.map table).filterMap TableRef.alias?
      = (s.tables.filter (!·.losesAlias)).filterMap Parsed.Table.label? := by
    rw [List.filterMap_map, ← List.filterMap_eq_filter, List.filterMap_filterMap]
    refine List.filterMap_congr fun t _ => ?_
    rw [Function.comp_apply, alias?_table]
    cases h : t.losesAlias <;> simp [Option.guard, h]
  have htables := (perm_tables s).filterMap TableRef.alias?
  rwa [filterMap_filter_isBareJoin, hbare, hkept] at htables

/-- No table is lost, and the aliases are those that do not stay in a text. -/
theorem aliases_exact (s : Parsed.Statement) :
    let lowered := (Node.statement (statement s)).tables
    let lost := (s.tables.filter (·.losesAlias)).filterMap Parsed.Table.label?
    (∀ t, (table t).alias? = t.label? ↔ t.losesAlias = false)
    ∧ (lowered.filter (!·.isBareJoin)).Perm ((s.tables.filter (!·.isBareJoin)).map table)
    ∧ (lowered.filterMap TableRef.alias? ++ lost).Perm (s.tables.filterMap Parsed.Table.label?)
    ∧ ((lowered.filterMap TableRef.alias?).Perm (s.tables.filterMap Parsed.Table.label?)
      ↔ ∀ t ∈ s.tables, t.losesAlias = false) := by
  intro lowered lost
  have hall : (lowered.filterMap TableRef.alias? ++ lost).Perm
      (s.tables.filterMap Parsed.Table.label?) := by
    have hsplit := (List.filter_append_perm (·.losesAlias) s.tables).filterMap Parsed.Table.label?
    rw [List.filterMap_append] at hsplit
    exact ((perm_aliases s).append_right lost).trans (List.perm_append_comm.trans hsplit)
  refine ⟨alias?_table_iff, perm_tables s, hall, fun hkept => ?_, fun hnone => ?_⟩
  · -- The kept aliases are as many as all of them, so none is left to be lost.
    have hlost : lost = [] := by
      have hlength := (hkept.trans hall.symm).length_eq
      rw [List.length_append] at hlength
      exact List.eq_nil_of_length_eq_zero (by omega)
    intro t ht
    by_contra h
    rw [Bool.not_eq_false] at h
    have hlabel := isSome_label?_of_losesAlias h
    rw [List.filterMap_eq_nil_iff.1 hlost t (List.mem_filter.2 ⟨ht, h⟩)] at hlabel
    cases hlabel
  · have hlost : lost = [] := by
      have hfilter : s.tables.filter (·.losesAlias) = [] :=
        List.filter_eq_nil_iff.2 fun t ht => by simp [hnone t ht]
      simp only [lost, hfilter, List.filterMap_nil]
    rwa [hlost, List.append_nil] at hall

/-- `SELECT * FROM XMLTABLE('/r' PASSING d COLUMNS a INT PATH '@a') AS xt` -/
def xmlTable : Parsed.Statement :=
  let source : Parsed.Table :=
    .rendered .xmlTable "XMLTABLE('/r' PASSING d COLUMNS a INT PATH '@a') AS xt"
      (some ⟨"xt", false, ⟨⟨1, 67⟩, ⟨1, 69⟩⟩⟩) .empty
  .query
    { recursive := false
      ctes := []
      body := .select ⟨none, [.wildcard ⟨⟨1, 8⟩, ⟨1, 9⟩⟩], [⟨source, []⟩], none, .exprs [], none, none,
        ⟨⟨1, 1⟩, ⟨1, 9⟩⟩⟩
      orderBy := .keys []
      limit := .none
      span := ⟨⟨1, 1⟩, ⟨1, 9⟩⟩ }

theorem aliases_xmlTable :
    let lowered := (Node.statement (statement xmlTable)).tables
    (xmlTable.tables.filterMap Parsed.Table.label?).map Ident.value = ["xt"]
      ∧ lowered.length = 1 ∧ lowered.filterMap TableRef.alias? = []
      ∧ ¬ (lowered.filterMap TableRef.alias?).Perm
        (xmlTable.tables.filterMap Parsed.Table.label?) := by
  refine ⟨by rfl, by rfl, by rfl, fun h => ?_⟩
  exact absurd h.length_eq (by decide)

end Lower
end SqlLint
