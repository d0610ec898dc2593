import SqlLint.Proofs.Lists
import SqlLint.Proofs.Trailing

/-! # Stars in the operands of set operations

A star on an expression becomes an expression and counts as one column, while an operand with
another star has no known number of columns. Main statement: `wildcards_exact`, what is reported of
a lowered chain in terms of the parser's tree. -/

namespace SqlLint

namespace Parsed

/-! ## Operands of the parser's tree -/

namespace Projection

/-- Whether the item is `*` or `t.*`. -/
def isStar : Projection → Bool
  | .wildcard _ | .qualifiedWildcard _ _ => true
  | .unnamed _ | .aliased _ _ | .exprWildcard _ _ => false

def isExprWildcard : Projection → Bool
  | .exprWildcard _ _ => true
  | .unnamed _ | .aliased _ _ | .wildcard _ | .qualifiedWildcard _ _ => false

def isWildcard (p : Projection) : Bool := p.isStar || p.isExprWildcard

theorem any_isWildcard (ps : List Projection) :
    ps.any isWildcard = (ps.any isStar || ps.any isExprWildcard) := by
  rw [Bool.eq_iff_iff, Bool.or_eq_true]
  simp only [List.any_eq_true, isWildcard, Bool.or_eq_true, and_or_left, exists_or]

end Projection

mutual

/-- The operands of a chain of set operations, parentheses dissolved. -/
def SetExpr.branches : SetExpr → List SetExpr
  | .setOperation _ _ left right _ => left.branches ++ right.branches
  | .query q => q.branches
  | .select s => [.select s]
  | .values rows span => [.values rows span]
  | .other span => [.other span]

def Query.branches : Query → List SetExpr
  | ⟨_, _, body, _, _, _⟩ => body.branches

end

namespace SetExpr

/-- The number of columns of an operand. With an item that passes the test there is none. -/
def columnCount? (star : Projection → Bool) : SetExpr → Option Nat
  | .select s => if s.projection.any star then none else some s.projection.length
  | .values rows _ => rows.head?.map List.length
  | .setOperation _ _ _ _ _ | .query _ | .other _ => none

/-- Whether a star on an expression is among the columns. -/
def hasExprWildcard : SetExpr → Bool
  | .select s => s.projection.any Projection.isExprWildcard
  | .setOperation _ _ _ _ _ | .query _ | .values _ _ | .other _ => false

theorem columnCount?_isWildcard (b : SetExpr) :
    b.columnCount? Projection.isWildcard
      = if b.hasExprWildcard then none else b.columnCount? Projection.isStar := by
  cases b with
  | select s =>
    rw [columnCount?, columnCount?, hasExprWildcard, Projection.any_isWildcard]
    cases s.projection.any Projection.isStar <;>
      cases s.projection.any Projection.isExprWildcard <;> rfl
  | _ => rfl

end SetExpr
end Parsed

namespace Lower

open Rules.ColumnCount (columnCount? chainRoots check checkBranch checkChain message)
open Parsed.Projection (isStar isExprWildcard isWildcard)

/-! ## The same operands after lowering -/

theorem isStar_projection (p : Parsed.Projection) : (projection p).isStar = p.isStar := by
  cases p <;> rfl

theorem hasStar_select (s : Parsed.Select) : (select s).hasStar = s.projection.any isStar := by
  obtain ⟨distinct, items, from?, selection, groupBy, having, qualify, span⟩ := s
  rw [select, Core.hasStar]
  induction items with
  | nil => rfl
  | cons p items ih => rw [projections, List.any_cons, List.any_cons, isStar_projection, ih]

theorem length_projections (ps : List Parsed.Projection) :
    (projections ps).length = ps.length := by
  induction ps with
  | nil => rfl
  | cons p ps ih => rw [projections, List.length_cons, List.length_cons, ih]

theorem length_head_rows (rs : List (List Parsed.Expr)) :
    (rows rs).head?.map List.length = rs.head?.map List.length := by
  cases rs with
  | nil => rfl
  | cons r rs =>
    have hlength : ∀ es : List Parsed.Expr, (exprs es).length = es.length := by
      intro es
      induction es with
      | nil => rfl
      | cons e es ih => rw [exprs, List.length_cons, List.length_cons, ih]
    rw [rows, List.head?_cons, List.head?_cons, Option.map_some, Option.map_some, hlength]

theorem columnCount?_setExpr (b : Parsed.SetExpr) :
    columnCount? (setExpr b) = b.columnCount? isStar := by
  cases b with
  | select s =>
    rw [setExpr, columnCount?, Parsed.SetExpr.columnCount?, hasStar_select]
    have hcolumns : (select s).columns.length = s.projection.length := by
      cases s
      exact length_projections _
    rw [hcolumns]
  | values rs span => exact length_head_rows rs
  | _ => rfl

def shape (b : Body) : Option Nat × Span := (columnCount? b, b.span)

/-- The same from the parser's tree. -/
def lowerShape (b : Parsed.SetExpr) : Option Nat × Span := (b.columnCount? isStar, (setExpr b).span)

theorem shape_setExpr (b : Parsed.SetExpr) : shape (setExpr b) = lowerShape b := by
  rw [shape, columnCount?_setExpr, lowerShape]

theorem map_shape_query (p : Parsed.Query) :
    (query p).branches.map shape = (setExpr p.body).branches.map shape := by
  have hbranches : ∀ q : Query, q.branches = q.body.branches := by
    intro q
    cases q
    rfl
  rw [hbranches]
  rcases query_cases p with ⟨c, hcore, hbody, -⟩ | ⟨-, hbody, -⟩
  · rw [hcore, hbody]
    rfl
  · rw [hbody]

mutual

theorem map_shape_branches : ∀ b : Parsed.SetExpr,
    (setExpr b).branches.map shape = b.branches.map lowerShape
  | .select s => congrArg ([·]) (shape_setExpr (.select s))
  | .values rs span => congrArg ([·]) (shape_setExpr (.values rs span))
  | .other span => congrArg ([·]) (shape_setExpr (.other span))
  | .setOperation _ _ left right _ => by
    rw [setExpr, Body.branches, SetOperation.branches, Parsed.SetExpr.branches, List.map_append,
      List.map_append, map_shape_branches left, map_shape_branches right]
  | .query q => by
    rw [setExpr, Body.branches, Parsed.SetExpr.branches]
    exact map_shape_query_branches q

theorem map_shape_query_branches : ∀ q : Parsed.Query,
    (query q).branches.map shape = q.branches.map lowerShape
  | ⟨recursive, ctes, body, orderBy, limit, span⟩ => by
    rw [Parsed.Query.branches, ← map_shape_branches body]
    exact map_shape_query ⟨recursive, ctes, body, orderBy, limit, span⟩

end

/-! ## Findings from the parser's tree -/

/-- What is reported of an operand with its index after the first one, by their numbers of columns
and the span. -/
def finding? {α : Type} (ctx : Context) (count : α → Option Nat) (span : α → Span) (first : α)
    (x : α × Nat) : Option Diagnostic := do
  let expected ← count first
  let actual ← count x.1
  if actual = expected then none
  else return (ctx.report (message (x.2 + 2) actual expected) (span x.1)).withImpact .critical

def findings {α : Type} (ctx : Context) (count : α → Option Nat) (span : α → Span) :
    List α → List Diagnostic
  | [] => []
  | first :: rest => rest.zipIdx.filterMap (finding? ctx count span first)

theorem findings_map {α β : Type} (ctx : Context) (count : β → Option Nat) (span : β → Span)
    (f : α → β) (xs : List α) :
    findings ctx count span (xs.map f) = findings ctx (count ∘ f) (span ∘ f) xs := by
  cases xs with
  | nil => rfl
  | cons first rest =>
    rw [List.map_cons, findings, findings, List.zipIdx_map, List.filterMap_map]
    rfl

theorem checkChain_eq_findings (ctx : Context) (b : Body) :
    checkChain ctx b = findings ctx columnCount? Body.span b.branches := by
  unfold checkChain findings
  cases b.branches with
  | nil => rfl
  | cons first rest =>
    dsimp only
    cases hfirst : columnCount? first with
    | none =>
      symm
      rw [List.filterMap_eq_nil_iff]
      intro x _
      rw [finding?, hfirst]
      rfl
    | some expected =>
      refine List.filterMap_congr fun x _ => ?_
      rw [finding?, hfirst, checkBranch]
      cases columnCount? x.1 with
      | none => rfl
      | some actual => by_cases h : actual = expected <;> simp [h]

/-- The findings for a chain of the parser's tree. -/
def chainFindings (ctx : Context) (star : Parsed.Projection → Bool) (chain : Parsed.SetExpr) :
    List Diagnostic :=
  findings ctx (Parsed.SetExpr.columnCount? star) (fun x => (setExpr x).span) chain.branches

theorem checkChain_setExpr (ctx : Context) (b : Parsed.SetExpr) :
    checkChain ctx (setExpr b) = chainFindings ctx isStar b := by
  have hshapes := congrArg (findings ctx Prod.fst Prod.snd) (map_shape_branches b)
  rw [findings_map, findings_map] at hshapes
  rw [checkChain_eq_findings]
  exact hshapes

/-! ## Stars on expressions -/

/-- Whether two operands have known numbers of columns, and these differ. -/
def Differ (first x : Parsed.SetExpr) : Prop :=
  ∃ expected actual, first.columnCount? isStar = some expected
    ∧ x.columnCount? isStar = some actual ∧ actual ≠ expected

/-- Whether neither of two operands has a star on an expression among its columns. -/
def Plain (first x : Parsed.SetExpr) : Prop :=
  first.hasExprWildcard = false ∧ x.hasExprWildcard = false

section

variable {ctx : Context} {span : Parsed.SetExpr → Span} {first : Parsed.SetExpr}
  {x : Parsed.SetExpr × Nat}

theorem finding?_eq_none_iff :
    finding? ctx (Parsed.SetExpr.columnCount? isStar) span first x = none
      ↔ ¬ Differ first x.1 := by
  unfold finding? Differ
  cases first.columnCount? isStar with
  | none => simp
  | some expected =>
    cases x.1.columnCount? isStar with
    | none => simp
    | some actual => by_cases h : actual = expected <;> simp [h]

theorem finding?_isWildcard_of_plain (h : Plain first x.1) :
    finding? ctx (Parsed.SetExpr.columnCount? isWildcard) span first x
      = finding? ctx (Parsed.SetExpr.columnCount? isStar) span first x := by
  unfold finding?
  rw [Parsed.SetExpr.columnCount?_isWildcard, Parsed.SetExpr.columnCount?_isWildcard, h.1, h.2]
  rfl

theorem finding?_isWildcard_of_not_plain (h : ¬ Plain first x.1) :
    finding? ctx (Parsed.SetExpr.columnCount? isWildcard) span first x = none := by
  unfold finding?
  rw [Parsed.SetExpr.columnCount?_isWildcard, Parsed.SetExpr.columnCount?_isWildcard]
  rw [Plain, not_and_or, Bool.not_eq_false, Bool.not_eq_false] at h
  rcases h with h | h
  · rw [h]
    rfl
  · rw [h]
    cases (if first.hasExprWildcard = true then none else first.columnCount? isStar) <;> rfl

theorem finding?_isWildcard_sublist :
    (finding? ctx (Parsed.SetExpr.columnCount? isWildcard) span first x).toList.Sublist
      (finding? ctx (Parsed.SetExpr.columnCount? isStar) span first x).toList := by
  by_cases h : Plain first x.1
  · rw [finding?_isWildcard_of_plain h]
  · rw [finding?_isWildcard_of_not_plain h]
    exact List.nil_sublist _

theorem finding?_isWildcard_eq_iff :
    (finding? ctx (Parsed.SetExpr.columnCount? isWildcard) span first x).toList
        = (finding? ctx (Parsed.SetExpr.columnCount? isStar) span first x).toList
      ↔ (Differ first x.1 → Plain first x.1) := by
  by_cases h : Plain first x.1
  · rw [finding?_isWildcard_of_plain h]
    exact iff_of_true rfl fun _ => h
  · rw [finding?_isWildcard_of_not_plain h, Option.toList_none, eq_comm, Option.toList_eq_nil_iff,
      finding?_eq_none_iff]
    exact ⟨fun hsame hdiffer => absurd hdiffer hsame, fun himp hdiffer => h (himp hdiffer)⟩

end

theorem chainFindings_sublist (ctx : Context) (chain : Parsed.SetExpr) :
    (chainFindings ctx isWildcard chain).Sublist (chainFindings ctx isStar chain) := by
  unfold chainFindings findings
  cases chain.branches with
  | nil => exact .slnil
  | cons first rest =>
    dsimp only
    rw [List.filterMap_eq_flatMap_toList, List.filterMap_eq_flatMap_toList]
    exact List.Sublist.flatMap_right _ fun x _ => finding?_isWildcard_sublist

theorem chainFindings_eq_iff (ctx : Context) (chain : Parsed.SetExpr) :
    chainFindings ctx isWildcard chain = chainFindings ctx isStar chain
      ↔ ∀ first ∈ chain.branches.head?, ∀ x ∈ chain.branches.tail,
        Differ first x → Plain first x := by
  unfold chainFindings findings
  cases chain.branches with
  | nil => simp
  | cons first rest =>
    dsimp only
    rw [List.filterMap_eq_flatMap_toList, List.filterMap_eq_flatMap_toList,
      flatMap_eq_iff fun x _ => finding?_isWildcard_sublist]
    simp only [finding?_isWildcard_eq_iff]
    -- The index does not matter for the numbers of columns.
    have hindex : ∀ p : Parsed.SetExpr → Prop,
        (∀ x ∈ rest.zipIdx, p x.1) ↔ ∀ x ∈ rest, p x := by
      intro p
      conv_rhs => rw [← List.zipIdx_map_fst 0 rest]
      rw [List.forall_mem_map]
    rw [hindex fun x => Differ first x → Plain first x]
    simp

/-! ## The chains of a statement -/

open Chain (IsRoot Under roots)

theorem exists_query_of_isRoot {s : Statement} {r : BodyAt} (hr : IsRoot (.statement s) r) :
    ∃ p q, (Node.statement s).at? p = some (.query q) ∧ r = (p ++ [q.ctes.length], q.body) := by
  obtain ⟨place, b⟩ := r
  rcases Node.above_of_at? hr.under with ⟨-, hroot⟩ | ⟨p, i, above, rfl, habove, hchild⟩
  · cases hroot
  · rcases Chain.above_body hchild with ⟨o, rfl, hstep⟩ | ⟨q, rfl, rfl, rfl⟩
    · exact absurd (.single (hstep p)) (hr.unreached (p, .setOperation o) habove ⟨o, rfl⟩)
    · exact ⟨p, q, habove, rfl⟩

theorem subperm_chainRoots (s : Statement) :
    (chainRoots (.statement s)).Subperm ((Node.statement s).queries.map Query.body) := by
  let bodies : List BodyAt := (Node.statement s).places.filterMap fun x =>
    x.2.query?.map fun q => (x.1 ++ [q.ctes.length], q.body)
  have hbodies : bodies.map Prod.snd = (Node.statement s).queries.map Query.body := by
    rw [Node.queries, Node.collect_eq, ← Node.map_snd_places, List.filterMap_map,
      List.map_filterMap, List.map_filterMap]
    simp [Function.comp_def]
  have hsubset : roots (.statement s) ⊆ bodies := by
    intro r hr
    obtain ⟨p, q, hq, rfl⟩ := exists_query_of_isRoot (Chain.mem_roots_iff.1 hr)
    exact List.mem_filterMap.2 ⟨(p, .query q), (Node.mem_places_iff ..).2 hq, rfl⟩
  rw [← hbodies, ← Chain.map_snd_roots]
  exact subperm_map _ (List.subperm_of_subset (Chain.nodup_roots _) hsubset)

theorem exists_chains (s : Parsed.Statement) :
    ∃ chains : List Parsed.SetExpr,
      chains.Subperm ((s.parts.filterMap Parsed.Part.query?).map Parsed.Query.body)
      ∧ chains.map setExpr = chainRoots (.statement (statement s)) := by
  have hroots := (subperm_chainRoots (statement s)).trans
    ((perm_queries (kept_statement s)).map Query.body).subperm
  rw [List.map_map] at hroots
  obtain ⟨qs, hqs, hmap⟩ := exists_map_of_subperm hroots
  refine ⟨qs.map Parsed.Query.body, subperm_map _ hqs, ?_⟩
  rw [← hmap, List.map_map]
  refine List.map_congr_left fun p hp => ?_
  -- A chain is no core, so the body of its query is as it was lowered.
  have hmem : (query p).body ∈ chainRoots (.statement (statement s)) :=
    hmap ▸ List.mem_map_of_mem hp
  rw [← Chain.map_snd_roots, List.mem_map] at hmem
  obtain ⟨r, hr, hbody⟩ := hmem
  obtain ⟨o, ho⟩ := (Chain.mem_roots_iff.1 hr).isSetOperation
  rcases query_cases p with ⟨c, -, hcore, -⟩ | ⟨-, hsame, -⟩
  · cases (ho.symm.trans hbody).trans hcore
  · exact hsame.symm

theorem check_of_chains {s : Parsed.Statement} {chains : List Parsed.SetExpr} (ctx : Context)
    (h : chains.map setExpr = chainRoots (.statement (statement s))) :
    check (statement s) ctx = chains.flatMap (chainFindings ctx isStar) := by
  rw [check, ← h, List.flatMap_map]
  simp only [checkChain_setExpr]

/-- A star on an expression counts as one column; other stars make the number unknown. -/
theorem wildcards_exact (s : Parsed.Statement) (ctx : Context) :
    (∀ select' : Parsed.Select,
      (select select').hasStar = select'.projection.any isStar
      ∧ ((select select').hasStar = select'.projection.any isWildcard
        ↔ (select'.projection.any isExprWildcard → select'.projection.any isStar)))
    ∧ (∃ chains : List Parsed.SetExpr,
      chains.Subperm ((s.parts.filterMap Parsed.Part.query?).map Parsed.Query.body)
      ∧ chains.map setExpr = chainRoots (.statement (statement s)))
    ∧ ∀ chains : List Parsed.SetExpr,
      chains.map setExpr = chainRoots (.statement (statement s)) →
        check (statement s) ctx = chains.flatMap (chainFindings ctx isStar)
        ∧ (check (statement s) ctx = chains.flatMap (chainFindings ctx isWildcard)
          ↔ ∀ chain ∈ chains, ∀ first ∈ chain.branches.head?, ∀ x ∈ chain.branches.tail,
            Differ first x → Plain first x) := by
  refine ⟨fun s => ⟨hasStar_select s, ?_⟩, exists_chains s, fun chains h => ?_⟩
  · rw [hasStar_select, Parsed.Projection.any_isWildcard]
    cases s.projection.any isStar <;> cases s.projection.any isExprWildcard <;> simp
  · refine ⟨check_of_chains ctx h, ?_⟩
    rw [check_of_chains ctx h, eq_comm,
      flatMap_eq_iff fun chain _ => chainFindings_sublist ctx chain]
    simp only [chainFindings_eq_iff]

/-- `SELECT items FROM table` -/
def selectItems (items : List Parsed.Projection) (table : String) : Parsed.Select where
  distinct := none
  projection := items
  source := [⟨.named [.ident { value := table }] none .empty, []⟩]
  selection := none
  groupBy := .exprs []
  having := none
  qualify := none
  span := .empty

/-- `SELECT (a.b).* FROM a` -/
def selectFields : Parsed.Select := selectItems [.exprWildcard "(a.b)" .empty] "a"

/-- `SELECT x, y FROM t` -/
def selectTwo : Parsed.Select :=
  let column := fun name : String =>
    Parsed.Projection.unnamed ⟨.identifier { value := name }, .empty⟩
  selectItems [column "x", column "y"] "t"

/-- The two selects with `UNION` between them. -/
def fieldsChain : Parsed.SetExpr :=
  .setOperation .union .none (.select selectFields) (.select selectTwo) .empty

/-- `SELECT (a.b).* FROM a UNION SELECT x, y FROM t` -/
def fieldsUnion : Parsed.Statement :=
  .query
    { recursive := false
      ctes := []
      body := fieldsChain
      orderBy := .keys []
      limit := .none
      span := .empty }

def snowflakeContext : Context := ⟨Rules.ColumnCount.info, .snowflake, .error, none⟩

theorem wildcards_exact_fieldsUnion :
    [fieldsChain].map setExpr = chainRoots (.statement (statement fieldsUnion))
      ∧ check (statement fieldsUnion) snowflakeContext
        = [fieldsChain].flatMap (chainFindings snowflakeContext isStar)
      ∧ check (statement fieldsUnion) snowflakeContext
        ≠ [fieldsChain].flatMap (chainFindings snowflakeContext isWildcard) := by
  have hchains : [fieldsChain].map setExpr = chainRoots (.statement (statement fieldsUnion)) := rfl
  obtain ⟨hfound, hall⟩ := (wildcards_exact fieldsUnion snowflakeContext).2.2 _ hchains
  refine ⟨hchains, hfound, fun hsame => ?_⟩
  have hplain := hall.1 hsame fieldsChain (List.mem_singleton_self _) (.select selectFields) rfl
    (.select selectTwo) (List.mem_singleton_self _) ⟨1, 2, rfl, rfl, by decide⟩
  exact absurd hplain.1 (by decide)

/-- The fields of `a.b` count as one column, and the second operand is reported against them. -/
theorem check_fieldsUnion :
    selectFields.projection.any isWildcard = true
      ∧ (select selectFields).hasStar = false
      ∧ chainRoots (.statement (statement fieldsUnion)) = [setExpr fieldsChain]
      ∧ fieldsChain.branches.head? = some (.select selectFields)
      ∧ check (statement fieldsUnion) snowflakeContext
        = [(snowflakeContext.report (message 2 2 1) .empty).withImpact .critical] := by
  exact ⟨rfl, rfl, rfl, rfl, by decide⟩

end Lower
end SqlLint
