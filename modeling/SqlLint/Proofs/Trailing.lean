import SqlLint.Proofs.Chains
import SqlLint.Proofs.LoweredQueries

/-! # Where trailing clauses go

The `ORDER BY`, `LIMIT` and `OFFSET` of a query belong to its core if the body is one, and to the
query if not. Main statement: `trailing_once`, no clause stands in two places or in none, and mixed
sort directions are reported once for each query that has them. -/

namespace SqlLint

/-- Whether some of the keys have a direction, but not all. -/
def Parsed.SortClause.mixesDirections : Parsed.SortClause → Bool
  | .keys list => list.any (·.ascending.isSome) && list.any (·.ascending.isNone)
  | .all => false

namespace Lower

/-! ## One query -/

theorem ascending_sortKeys (keys : List Parsed.SortKey) :
    (sortKeys keys).map OrderBy.ascending = keys.map Parsed.SortKey.ascending := by
  induction keys with
  | nil => rfl
  | cons key keys ih =>
    obtain ⟨e, ascending, nullsFirst⟩ := key
    rw [sortKeys, List.map_cons, List.map_cons, ih]

theorem mixesDirections_sortClause (clause : Parsed.SortClause) :
    Rules.AmbiguousOrderBy.mixesDirections (sortClause clause) = clause.mixesDirections := by
  cases clause with
  | all => rfl
  | keys keys =>
    have hany : ∀ p : Option Bool → Bool,
        (sortKeys keys).any (fun key => p key.ascending) = keys.any fun key => p key.ascending := by
      intro p
      have hkeys := congrArg (List.any · p) (ascending_sortKeys keys)
      simpa only [List.any_map, Function.comp_def] using hkeys
    unfold Rules.AmbiguousOrderBy.mixesDirections Parsed.SortClause.mixesDirections
    rw [sortClause, hany Option.isSome, hany Option.isNone]

theorem ownClauses_query (p : Parsed.Query) :
    (((query p).collectOwn Node.core?).map Core.orderBy ++ [(query p).orderBy]).filter
        (!·.isEmpty)
      = [sortClause p.orderBy].filter (!·.isEmpty) := by
  rw [Node.collectOwn_core?]
  rcases query_cases p with ⟨c, -, hbody, hkeys, -⟩ | ⟨-, hbody, hkeys⟩
  · rw [hbody, Node.collectPlain_bodyCores, hkeys]
    simp only [List.map_cons, List.map_nil, List.filter_append, List.filter_cons_of_neg,
      List.isEmpty_nil, Bool.not_true, Bool.false_eq_true, not_false_eq_true, List.filter_nil,
      List.append_nil]
  · have hcores : ((((Node.body (query p).body).collectPlain Node.core?).map Core.orderBy).filter
        (!·.isEmpty)) = [] := by
      rw [hbody, List.filter_eq_nil_iff]
      intro keys hkeys
      obtain ⟨c, hc, rfl⟩ := List.mem_map.1 hkeys
      simp [(isOperand_setExpr p.body c hc).1.1]
    rw [List.filter_append, hcores, hkeys, List.nil_append]

/-! ## A whole statement -/

theorem perm_clauses (s : Parsed.Statement) :
    ((Rules.AmbiguousOrderBy.clauses (.statement (statement s))).filter (!·.isEmpty)).Perm
      (((s.parts.filterMap Parsed.Part.query?).map fun p => sortClause p.orderBy).filter
        (!·.isEmpty)) := by
  let root := Node.statement (statement s)
  let own := fun q : Query => (q.collectOwn Node.core?).map Core.orderBy ++ [q.orderBy]
  have hcores : root.cores.Perm (root.queries.flatMap (·.collectOwn Node.core?)) := by
    have hperm := Node.perm_collect root Node.core?
    rwa [Node.collectPlain_statement] at hperm
  have hown : (Rules.AmbiguousOrderBy.clauses root).Perm (root.queries.flatMap own) := by
    unfold Rules.AmbiguousOrderBy.clauses
    refine ((hcores.map Core.orderBy).append_right _).trans ?_
    rw [List.map_flatMap, List.map_eq_flatMap (l := root.queries)]
    exact List.flatMap_append_perm ..
  have hqueries := (perm_queries (kept_statement s)).flatMap_right own
  -- Both sides are now lists over the queries of the parser's tree, and agree query by query.
  refine ((hown.trans hqueries).filter _).trans ?_
  rw [List.filter_flatMap, List.flatMap_map, List.map_eq_flatMap, List.filter_flatMap]
  simp only [own, ownClauses_query]
  rfl

theorem exists_setExpr_of_operand {b : Parsed.SetExpr} {o : SetOperation} {x : Body}
    (hb : setExpr b = .setOperation o) (hx : (Node.body (.setOperation o)).Holds (.body x)) :
    ∃ b', setExpr b' = x := by
  cases b <;> simp only [setExpr, Body.setOperation.injEq, reduceCtorEq] at hb
  obtain rfl := hb
  rcases hx with hleft | hright
  · exact ⟨_, hleft.symm⟩
  · exact ⟨_, hright.symm⟩

theorem exists_setExpr {s : Parsed.Statement} {place : Place} {o : SetOperation}
    (ho : (Node.statement (statement s)).at? place = some (.body (.setOperation o))) :
    ∃ b, setExpr b = .setOperation o := by
  induction place using List.reverseRecOn generalizing o with
  | nil => cases ho
  | append_singleton place i ih =>
    rw [Node.at?_concat, Option.bind_eq_some_iff] at ho
    obtain ⟨above, habove, hchild⟩ := ho
    rcases Chain.above_body hchild with ⟨o', rfl, -⟩ | ⟨q, rfl, -, hbody⟩
    · -- An operand of a set operation further up.
      obtain ⟨b, hb⟩ := ih habove
      exact exists_setExpr_of_operand hb
        ((Node.mem_children_iff ..).1 (List.mem_of_getElem? hchild))
    · have hq : q ∈ (Node.statement (statement s)).queries := by
        rw [Node.queries, Node.collect_eq, List.mem_filterMap]
        refine ⟨.query q, ?_, rfl⟩
        rw [← Node.map_snd_places]
        exact List.mem_map.2 ⟨_, (Node.mem_places_iff ..).2 habove, rfl⟩
      obtain ⟨p, -, rfl⟩ := exists_query (kept_statement s) hq
      rcases query_cases p with ⟨c, -, hcore, -⟩ | ⟨-, hsame, -⟩
      · cases hbody.trans hcore
      · exact ⟨p.body, hsame.symm.trans hbody.symm⟩

theorem noTrailing_or_body {s : Parsed.Statement} {place : Place} {c : Core}
    (hc : (Node.statement (statement s)).at? place = some (.core c)) :
    c.NoTrailing ∨ ∃ p q, (Node.statement (statement s)).at? p = some (.query q)
      ∧ place = p ++ [q.ctes.length, 0] := by
  rcases Node.above_of_at? hc with ⟨-, hroot⟩ | ⟨bodyPlace, i, above, rfl, habove, hchild⟩
  · cases hroot
  have hstored : above.Holds (.core c) := (Node.mem_children_iff ..).1 (List.mem_of_getElem? hchild)
  obtain rfl : above = .body (.core c) := by
    cases above with
    | body b =>
      cases b <;> simp only [Node.Holds] at hstored
      rw [hstored]
    | _ => simp [Node.Holds] at hstored
  obtain rfl : i = 0 := by
    rcases i with _ | i
    · rfl
    · cases hchild
  rcases Node.above_of_at? habove with ⟨-, hroot⟩ | ⟨p, j, outer, rfl, houter, hbody⟩
  · cases hroot
  rcases Chain.above_body hbody with ⟨o, rfl, -⟩ | ⟨q, rfl, rfl, -⟩
  · obtain ⟨b, hb⟩ := exists_setExpr houter
    have hoperand := (Node.mem_children_iff ..).1 (List.mem_of_getElem? hbody)
    obtain ⟨b', hb'⟩ := exists_setExpr_of_operand hb hoperand
    exact .inl (noTrailing_setExpr b' c hb')
  · exact .inr ⟨p, q, houter, by simp⟩

/-- Every trailing clause is kept in one place, and mixed directions are reported once. -/
theorem trailing_once (s : Parsed.Statement) (ctx : Context) :
    let root := Node.statement (statement s)
    (∀ q ∈ root.queries, ∀ c, q.body = .core c →
      q.orderBy = [] ∧ q.limit = none ∧ q.offset = none)
    ∧ (∀ place c, root.at? place = some (.core c) →
      c.NoTrailing ∨ ∃ p q, root.at? p = some (.query q) ∧ place = p ++ [q.ctes.length, 0])
    ∧ ((root.cores.map Core.orderBy ++ root.queries.map Query.orderBy).filter (!·.isEmpty)).Perm
      (((s.parts.filterMap Parsed.Part.query?).map fun p => sortClause p.orderBy).filter
        (!·.isEmpty))
    ∧ (Rules.AmbiguousOrderBy.check (statement s) ctx).length
      = ((s.parts.filterMap Parsed.Part.query?).filter (·.orderBy.mixesDirections)).length := by
  intro root
  refine ⟨fun q hq c hc => ?_, fun place c hc => noTrailing_or_body hc, perm_clauses s, ?_⟩
  · obtain ⟨p, -, rfl⟩ := exists_query (kept_statement s) hq
    rcases query_cases p with ⟨c', -, -, hclauses⟩ | ⟨hcompound, hbody, -⟩
    · exact hclauses
    · exact absurd (hbody.symm.trans hc) (hcompound c)
  · -- Keys that mix directions are not empty.
    have hmixed : ∀ lists : List (List OrderBy),
        lists.filter Rules.AmbiguousOrderBy.mixesDirections
          = (lists.filter (!·.isEmpty)).filter Rules.AmbiguousOrderBy.mixesDirections := by
      intro lists
      rw [List.filter_filter]
      refine List.filter_congr fun keys _ => ?_
      cases keys <;> simp [Rules.AmbiguousOrderBy.mixesDirections]
    have hlists := ((perm_clauses s).filter Rules.AmbiguousOrderBy.mixesDirections).length_eq
    rw [← hmixed, ← hmixed, List.filter_map, List.length_map] at hlists
    rw [Rules.AmbiguousOrderBy.check, List.length_map, hlists]
    simp only [Function.comp_def, mixesDirections_sortClause]

/-- `SELECT column` -/
def selectColumn (column : String) : Parsed.SetExpr :=
  .select ⟨none, [.unnamed ⟨.identifier { value := column }, .empty⟩], [], none, .exprs [], none,
    none, .empty⟩

/-- `column` as a sort key. -/
def sortColumn (column : String) (ascending : Option Bool) : Parsed.SortKey :=
  ⟨⟨.identifier { value := column }, .empty⟩, ascending, none⟩

/-- `SELECT a ORDER BY b, c DESC` -/
def mixedOperand : Parsed.Query where
  recursive := false
  ctes := []
  body := selectColumn "a"
  orderBy := .keys [sortColumn "b" none, sortColumn "c" (some false)]
  limit := .none
  span := .empty

/-- `(SELECT a ORDER BY b, c DESC) UNION SELECT d ORDER BY e` -/
def sortedUnion : Parsed.Query where
  recursive := false
  ctes := []
  body := .setOperation .union .none (.query mixedOperand) (selectColumn "d") .empty
  orderBy := .keys [sortColumn "e" none]
  limit := .none
  span := .empty

theorem trailing_once_sortedUnion :
    let root := Node.statement (statement (.query sortedUnion))
    let ctx : Context := ⟨Rules.AmbiguousOrderBy.info, .generic, .warning, none⟩
    (query mixedOperand ∈ root.queries ∧ (query mixedOperand).orderBy = []
      ∧ (query mixedOperand).limit = none ∧ (query mixedOperand).offset = none)
    ∧ (∃ c, root.at? [0, 0, 1, 0] = some (.core c)
      ∧ (c.NoTrailing
        ∨ ∃ p q, root.at? p = some (.query q) ∧ [0, 0, 1, 0] = p ++ [q.ctes.length, 0]))
    ∧ (Rules.AmbiguousOrderBy.check (statement (.query sortedUnion)) ctx).length = 1 := by
  intro root ctx
  have hmem : query mixedOperand ∈ root.queries := by
    rw [Node.queries, Node.collect_eq]
    exact List.mem_of_getElem? (i := 1) rfl
  obtain ⟨hclauses, hplaces, -, hlength⟩ := trailing_once (.query sortedUnion) ctx
  exact ⟨⟨hmem, hclauses _ hmem _ rfl⟩, ⟨_, rfl, hplaces _ _ rfl⟩, hlength.trans (by decide)⟩

end Lower
end SqlLint
