import SqlLint.Proofs.Operands
import SqlLint.Proofs.Tables

/-! # Lowered queries

The queries under a lowered node are lowered themselves, and so are the cores and the `FROM` clauses
at their levels. Main statements: `isOperand_setExpr`, `exists_source`. -/

namespace SqlLint.Lower

variable {α : Type} {view : Node → Option α} {n : Node} {parts : List Parsed.Part}

theorem exists_query (h : kept n = due parts) {q : Query} (hq : q ∈ n.queries) :
    ∃ p, .query p ∈ parts ∧ query p = q := by
  rw [(perm_queries h).mem_iff, List.mem_map] at hq
  obtain ⟨p, hp, rfl⟩ := hq
  obtain ⟨part, hpart, hsome⟩ := List.mem_filterMap.1 hp
  cases part <;> cases hsome
  exact ⟨p, hpart, rfl⟩

/-! ## One query -/

/-- The clauses of a query that stand after its body are kept there, or go to its core. -/
theorem query_cases (p : Parsed.Query) :
    (∃ c, setExpr p.body = .core c
        ∧ (query p).body = .core
          { c with
            orderBy := sortClause p.orderBy
            limit := limit p.limit
            offset := offset p.limit }
        ∧ (query p).orderBy = [] ∧ (query p).limit = none ∧ (query p).offset = none)
      ∨ (∀ c, setExpr p.body ≠ .core c) ∧ (query p).body = setExpr p.body
        ∧ (query p).orderBy = sortClause p.orderBy := by
  obtain ⟨recursive, ctes, body, orderBy, clause, span⟩ := p
  rw [query]
  unfold Query.withTrailing
  split
  · next c hc => exact .inl ⟨c, hc, rfl, rfl, rfl, rfl⟩
  · next hc => exact .inr ⟨hc, rfl, rfl⟩

/-! ## The cores of a query -/

/-- Whether the core has no trailing clauses and a lowered `FROM` clause. -/
def IsOperand (c : Core) : Prop := c.NoTrailing ∧ ∃ ts, c.source = source ts

theorem isOperand_select (s : Parsed.Select) : IsOperand (select s) := by
  obtain ⟨distinct, items, ts, selection, groupBy, having, qualify, span⟩ := s
  exact ⟨⟨rfl, rfl, rfl⟩, ts, rfl⟩

theorem isOperand_starCore (span : Span) : IsOperand (starCore span) :=
  ⟨⟨rfl, rfl, rfl⟩, [], rfl⟩

theorem isOperand_setExpr : ∀ b : Parsed.SetExpr,
    ∀ c ∈ (Node.body (setExpr b)).collectPlain Node.core?, IsOperand c
  | .select s, c, hc => by
    rw [setExpr, Node.collectPlain_bodyCores] at hc
    obtain rfl := List.mem_singleton.1 hc
    exact isOperand_select s
  | .other span, c, hc => by
    rw [setExpr, Node.collectPlain_bodyCores] at hc
    obtain rfl := List.mem_singleton.1 hc
    exact isOperand_starCore span
  | .setOperation _ _ left right _, c, hc => by
    rw [setExpr, Node.collectPlain_bodyCores] at hc
    rcases List.mem_append.1 hc with hc | hc
    · exact isOperand_setExpr left c hc
    · exact isOperand_setExpr right c hc
  | .query _, c, hc | .values _ _, c, hc => by
    rw [setExpr, Node.collectPlain_bodyCores] at hc
    cases hc

theorem exists_source_of_core {p : Parsed.Query} {c : Core}
    (hc : c ∈ (query p).collectOwn Node.core?) : ∃ ts, c.source = source ts := by
  rw [Node.collectOwn_core?] at hc
  rcases query_cases p with ⟨core, hcore, hbody, -⟩ | ⟨-, hbody, -⟩
  · -- The core of the query has other trailing clauses, but the same source.
    rw [hbody, Node.collectPlain_bodyCores] at hc
    obtain rfl := List.mem_singleton.1 hc
    refine (isOperand_setExpr p.body core ?_).2
    rw [hcore, Node.collectPlain_bodyCores]
    exact List.mem_singleton_self core
  · rw [hbody] at hc
    exact (isOperand_setExpr p.body c hc).2

theorem exists_source (hview : Node.OfJoined view) (h : kept n = due parts) {a : α}
    (ha : a ∈ n.collect view) :
    a ∈ n.collectPlain view
      ∨ ∃ ts f, source ts = some f ∧ a ∈ (Node.source f).collectPlain view := by
  refine (Node.mem_collect_iff.1 ha).imp_right ?_
  rintro ⟨q, hq, ha⟩
  obtain ⟨p, -, rfl⟩ := exists_query h hq
  rw [hview.collectOwn_eq, List.mem_flatMap] at ha
  obtain ⟨c, hc, ha⟩ := ha
  obtain ⟨ts, hts⟩ := exists_source_of_core hc
  rw [hview.ofFrame.collectPlain_core, hview _ rfl, Option.toList_none, List.nil_append,
    List.mem_flatMap] at ha
  obtain ⟨f, hf, ha⟩ := ha
  exact ⟨ts, f, by rw [← hts]; exact Option.mem_toList.1 hf, ha⟩

end SqlLint.Lower
