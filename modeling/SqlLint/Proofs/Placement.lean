import SqlLint.Proofs.Scopes
import SqlLint.Proofs.Spans

/-! # Where findings stand

A finding has no span, or one that is not empty and has its ends from spans in the tree. Main
statement: `placed_builtinRules`. -/

namespace SqlLint

/-- Whether a finding has no span, or one that is not empty and has its ends from the spans. -/
def Diagnostic.Placed (spans : List Span) (d : Diagnostic) : Prop :=
  ∀ span, d.span = some span → span.isEmpty = false ∧ span.EndsIn spans

namespace Diagnostic

variable {spans : List Span} {ctx : Context} {d : Diagnostic}

theorem placed_report {span : Span} (h : span.Fits spans) (message : String) :
    (ctx.report message span).Placed spans := by
  intro found hfound
  unfold Context.report withSpan at hfound
  split at hfound
  · cases hfound
  · next hempty =>
    obtain rfl : span = found := by simpa using hfound
    exact ⟨by simpa using hempty, h (by simpa using hempty)⟩

theorem Placed.markFixable (h : d.Placed spans) : d.markFixable.Placed spans := h

theorem Placed.withImpact (h : d.Placed spans) (impact : Impact) :
    (d.withImpact impact).Placed spans := h

theorem placed_fixable {span : Span} (h : span.Fits spans) (message : String) :
    (ctx.report message span).markFixable.Placed spans :=
  (placed_report h message).markFixable

theorem placed_filterMap_map {α β : Type} {xs : List α} {f : α → Option β} {g : α → β → Diagnostic}
    (h : ∀ x ∈ xs, ∀ y, f x = some y → (g x y).Placed spans) :
    ∀ d ∈ xs.filterMap fun x => (f x).map (g x), d.Placed spans := by
  refine List.forall_mem_filterMap.2 fun x hx d hd => ?_
  obtain ⟨y, hy, rfl⟩ := Option.map_eq_some_iff.1 hd
  exact h x hx y hy

end Diagnostic

namespace Rules

open Diagnostic Node

variable (s : Statement) (ctx : Context)

/-! ## Identifiers -/

theorem repeats_sublist (seen : List String) (names : List Ident) :
    (repeats seen names).Sublist names := by
  induction names generalizing seen with
  | nil => exact .slnil
  | cons name rest ih =>
    unfold repeats
    split
    · exact (ih seen).cons_cons name
    · exact (ih _).cons name

section Idents

variable {root : Node} {core : Core} {t : TableRef} {i : Ident}

theorem fits_columnAlias (hcore : core ∈ root.cores) (h : i ∈ columnAliases core) :
    i.span.Fits root.spans := by
  obtain ⟨item, hitem, hlabel⟩ := List.mem_filterMap.1 h
  have hnode : Node.item item ∈ root.preorder :=
    mem_preorder_of_holds (mem_preorder_of_cores hcore) hitem
  refine fits_ident hnode ?_
  cases item with
  | expr e label => simpa [idents, SelectItem.alias?] using hlabel
  | _ => cases hlabel

theorem fits_tableAlias (ht : .table t ∈ root.preorder) (h : t.alias? = some i) :
    i.span.Fits root.spans :=
  fits_ident ht (by simp [idents, h])

theorem fits_tablePart {name : ObjectName} (ht : .table t ∈ root.preorder) (h : t.name? = some name)
    (hi : i ∈ name.parts) : i.span.Fits root.spans :=
  fits_ident ht (by simp [idents, h, hi])

theorem fits_referenceName (ht : .table t ∈ root.preorder) (h : t.referenceName? = some i) :
    i.span.Fits root.spans := by
  unfold TableRef.referenceName? at h
  cases halias : t.alias? with
  | some label =>
    obtain rfl : label = i := by simpa [halias] using h
    exact fits_tableAlias ht halias
  | none =>
    obtain ⟨name, hname, hlast⟩ : ∃ name, t.name? = some name ∧ name.base? = some i := by
      simpa [halias, Option.bind_eq_some_iff] using h
    exact fits_tablePart ht hname (List.mem_of_getLast? hlast)

end Idents

/-! ## Aliases -/

theorem ExpressionAlias.placed : ∀ d ∈ check s ctx, d.Placed (Node.statement s).spans := by
  refine List.forall_mem_flatMap.2 fun core hcore => List.forall_mem_filterMap.2 ?_
  rintro ⟨item, index⟩ hitem d hd
  have hnode : Node.item item ∈ (Node.statement s).preorder :=
    mem_preorder_of_holds (mem_preorder_of_cores hcore) (List.fst_mem_of_mem_zipIdx hitem)
  simp only [checkItem] at hd
  split at hd
  · obtain ⟨-, hd⟩ := Option.ite_none_right_eq_some.1 hd
    cases hd
    exact placed_report (fits_expr (mem_preorder_of_holds hnode rfl)) _
  · cases hd

theorem UniqueTableAlias.placed : ∀ d ∈ check s ctx, d.Placed (Node.statement s).spans := by
  refine List.forall_mem_flatMap.2 fun core hcore => List.forall_mem_map.2 fun name hname => ?_
  obtain ⟨t, ht, hname⟩ := List.mem_filterMap.1 ((repeats_sublist ..).subset hname)
  have hnode := mem_preorder_of_coreTables (mem_preorder_of_cores hcore) ht
  exact placed_report (fits_referenceName hnode hname) _

theorem UniqueColumnAlias.placed : ∀ d ∈ check s ctx, d.Placed (Node.statement s).spans := by
  refine List.forall_mem_flatMap.2 fun core hcore => List.forall_mem_map.2 fun label hlabel => ?_
  exact placed_report (fits_columnAlias hcore ((repeats_sublist ..).subset hlabel)) _

theorem AliasLength.placed : ∀ d ∈ check s ctx, d.Placed (Node.statement s).spans := by
  refine placed_filterMap_map fun label hlabel complaint _ => ?_
  obtain ⟨t, ht, hlabel⟩ := List.mem_filterMap.1 hlabel
  exact placed_report (fits_tableAlias (mem_preorder_of_tables ht) hlabel) _

theorem SelfAlias.placed : ∀ d ∈ check s ctx, d.Placed (Node.statement s).spans := by
  refine List.forall_mem_flatMap.2 fun core hcore => List.forall_mem_filterMap.2 ?_
  intro item hitem d hd
  have hnode : Node.item item ∈ (Node.statement s).preorder :=
    mem_preorder_of_holds (mem_preorder_of_cores hcore) hitem
  simp only [checkItem, Option.bind_eq_bind, Option.bind_eq_some_iff] at hd
  obtain ⟨_, -, _, -, _, -, hd⟩ := hd
  obtain ⟨-, hd⟩ := Option.ite_none_right_eq_some.1 hd
  cases hd
  exact placed_fixable (fits_item hnode) _

theorem UnusedAlias.placed : ∀ d ∈ check s ctx, d.Placed (Node.statement s).spans := by
  refine List.forall_mem_flatMap.2 fun core hcore => List.forall_mem_map.2 fun label hlabel => ?_
  obtain ⟨t, ht, hlabel⟩ := List.mem_filterMap.1 (List.mem_of_mem_filter hlabel)
  have hnode := mem_preorder_of_coreTables (mem_preorder_of_cores hcore) ht
  have halias : t.alias? = some label := by
    cases t with
    | named name label' span => exact hlabel
    | _ => cases hlabel
  exact placed_report (fits_tableAlias hnode halias) _

/-! ## Ambiguous queries -/

theorem DistinctWithGroupBy.placed : ∀ d ∈ check s ctx, d.Placed (Node.statement s).spans := by
  refine List.forall_mem_map.2 fun core hcore => ?_
  exact placed_fixable (fits_node (mem_preorder_of_cores (List.mem_of_mem_filter hcore)) rfl) _

theorem BareUnion.placed : ∀ d ∈ check s ctx, d.Placed (Node.statement s).spans := by
  refine List.forall_mem_map.2 fun operation hoperation => ?_
  exact placed_report
    (fits_node (mem_preorder_of_setOperations (List.mem_of_mem_filter hoperation)) rfl) _

theorem AmbiguousOrderBy.fits_keys {root : Node} {keys : List OrderBy}
    (hkeys : keys ∈ clauses root) : ∀ key ∈ keys, key.expr.span.Fits root.spans := by
  intro key hkey
  have hnode : Node.orderBy key ∈ root.preorder := by
    rcases List.mem_append.1 hkeys with hkeys | hkeys
    · obtain ⟨core, hcore, rfl⟩ := List.mem_map.1 hkeys
      exact mem_preorder_of_holds (mem_preorder_of_cores hcore) hkey
    · obtain ⟨query, hquery, rfl⟩ := List.mem_map.1 hkeys
      exact mem_preorder_of_holds (mem_preorder_of_queries hquery) hkey
  exact fits_expr (mem_preorder_of_holds hnode rfl)

theorem AmbiguousOrderBy.placed : ∀ d ∈ check s ctx, d.Placed (Node.statement s).spans := by
  refine List.forall_mem_map.2 fun keys hkeys => placed_report (Span.fits_unions ?_) _
  exact List.forall_mem_map.2 (fits_keys (List.mem_of_mem_filter hkeys))

theorem ColumnCount.placed : ∀ d ∈ check s ctx, d.Placed (Node.statement s).spans := by
  refine List.forall_mem_flatMap.2 fun chain hchain d hd => ?_
  have hnode : Node.body chain ∈ (Node.statement s).preorder := by
    obtain ⟨⟨mark, n⟩, hn, hchain⟩ := List.mem_filterMap.1 hchain
    unfold chainRoot? at hchain
    split at hchain
    · next operation hmarked =>
      cases hmarked
      cases hchain
      exact mem_preorder_of_marked hn
    · cases hchain
  unfold checkChain at hd
  split at hd
  · cases hd
  · next first rest hbranches =>
    split at hd
    · cases hd
    · obtain ⟨⟨branch, index⟩, hbranch, hd⟩ := List.mem_filterMap.1 hd
      have hmem : branch ∈ chain.branches :=
        hbranches ▸ List.mem_cons_of_mem _ (List.fst_mem_of_mem_zipIdx hbranch)
      simp only [checkBranch, Option.bind_eq_bind, Option.bind_eq_some_iff] at hd
      obtain ⟨_, -, hd⟩ := hd
      obtain ⟨-, hd⟩ := Option.ite_none_left_eq_some.1 hd
      cases hd
      exact (placed_report (fits_node (mem_preorder_of_branches hnode hmem) rfl) _).withImpact _

theorem BareJoin.placed : ∀ d ∈ check s ctx, d.Placed (Node.statement s).spans := by
  refine List.forall_mem_map.2 fun join hjoin => ?_
  exact placed_fixable (fits_join (List.mem_of_mem_filter hjoin)) _

theorem ColumnReferences.placed_checkItems {spans : List Span} {items : List Expr} (style : Style)
    (h : ∀ item ∈ items, item.span.Fits spans) :
    ∀ d ∈ checkItems ctx style items, d.Placed spans :=
  List.forall_mem_map.2 fun item hitem => placed_report (h item (List.mem_of_mem_filter hitem)) _

theorem ColumnReferences.placed : ∀ d ∈ check s ctx, d.Placed (Node.statement s).spans := by
  refine List.forall_mem_append.2 ⟨List.forall_mem_flatMap.2 fun core hcore => ?_,
    List.forall_mem_flatMap.2 fun query hquery => ?_⟩
  · refine placed_checkItems ctx _ (List.forall_mem_append.2 ⟨fun item hitem => ?_,
      List.forall_mem_map.2 ?_⟩)
    · exact fits_expr (mem_preorder_of_holds (mem_preorder_of_cores hcore) (.inr (.inl hitem)))
    · exact AmbiguousOrderBy.fits_keys (List.mem_append_left _ (List.mem_map_of_mem hcore))
  · refine placed_checkItems ctx _ (List.forall_mem_map.2 ?_)
    exact AmbiguousOrderBy.fits_keys (List.mem_append_right _ (List.mem_map_of_mem hquery))

theorem JoinCondition.placed : ∀ d ∈ check s ctx, d.Placed (Node.statement s).spans := by
  refine List.forall_mem_map.2 fun join hjoin => ?_
  exact placed_report (fits_join (List.mem_of_mem_filter hjoin)) _

/-! ## Conventions -/

theorem fits_function {root : Node} {f : Located FunctionCall} (h : f ∈ root.functions) :
    f.span.Fits root.spans :=
  fits_located (fun n _ h => by unfold function? at h; split at h <;> cases h; rfl) h

theorem PreferCoalesce.placed : ∀ d ∈ check s ctx, d.Placed (Node.statement s).spans :=
  placed_filterMap_map fun _ hf _ _ => placed_fixable (fits_function hf) _

theorem CountRows.placed : ∀ d ∈ check s ctx, d.Placed (Node.statement s).spans :=
  placed_filterMap_map fun _ hf _ _ => placed_fixable (fits_function hf) _

theorem IsNullComparison.placed : ∀ d ∈ check s ctx, d.Placed (Node.statement s).spans := by
  refine placed_filterMap_map fun b hb _ _ => placed_fixable ?_ _
  exact fits_located (fun n _ h => by unfold binary? at h; split at h <;> cases h; rfl) hb

theorem PreferLeftJoin.placed : ∀ d ∈ check s ctx, d.Placed (Node.statement s).spans := by
  refine List.forall_mem_map.2 fun join hjoin => ?_
  exact placed_report (fits_join (List.mem_of_mem_filter hjoin)) _

theorem CastingStyle.placed : ∀ d ∈ check s ctx, d.Placed (Node.statement s).spans := by
  simp only [check]
  split
  · exact List.forall_mem_nil _
  · refine List.forall_mem_map.2 fun c hc => placed_report ?_ _
    exact fits_located (fun n _ h => by unfold cast? at h; split at h <;> cases h <;> rfl)
      (List.mem_of_mem_filter hc)

theorem CaseCoalesce.placed : ∀ d ∈ check s ctx, d.Placed (Node.statement s).spans :=
  List.forall_mem_map.2 fun _ hc =>
    placed_fixable (fits_expr (mem_preorder_of_cases (List.mem_of_mem_filter hc))) _

/-! ## The structure of queries -/

theorem UnusedCte.placed : ∀ d ∈ check s ctx, d.Placed (Node.statement s).spans := by
  refine List.forall_mem_flatMap.2 fun q hq => List.forall_mem_map.2 fun c hc => ?_
  have hnode : Node.cte c ∈ (Node.statement s).preorder :=
    mem_preorder_of_holds (mem_preorder_of_queries hq) (List.mem_of_mem_filter hc)
  exact placed_report (fits_ident hnode List.mem_cons_self) _

theorem ElseNull.placed : ∀ d ∈ check s ctx, d.Placed (Node.statement s).spans := by
  refine placed_filterMap_map fun c hc otherwise hotherwise => ?_
  have hstored : c.value.otherwise = some otherwise :=
    (Option.filter_eq_some_iff.1 hotherwise).1
  have hnode : Node.expr otherwise ∈ (Node.statement s).preorder :=
    mem_preorder_of_holds (mem_preorder_of_cases hc) (.inr (.inr hstored))
  exact placed_fixable (fits_expr hnode) _

theorem NestedCase.placed : ∀ d ∈ check s ctx, d.Placed (Node.statement s).spans := by
  refine List.forall_mem_map.2 fun c hc => ?_
  obtain ⟨⟨mark, n⟩, hn, hc⟩ := List.mem_filterMap.1 (List.mem_of_mem_filter hc)
  have hcase : n.case? = some c := by
    cases mark with
    | false => exact hc
    | true => cases hc
  exact placed_report (fits_expr (eq_of_case? hcase ▸ mem_preorder_of_marked hn)) _

theorem JoinUsing.placed : ∀ d ∈ check s ctx, d.Placed (Node.statement s).spans := by
  refine List.forall_mem_map.2 fun join hjoin => ?_
  exact placed_report (fits_join (List.mem_of_mem_filter hjoin)) _

theorem Subquery.mem_preorder_of_placedTables {root : Node} {f : FromClause} {x : TableRef × Clause}
    (hf : .source f ∈ root.preorder) (hx : x ∈ placedTables f) : .table x.1 ∈ root.preorder := by
  rcases List.mem_cons.1 hx with rfl | hx
  · exact mem_preorder_of_holds hf rfl
  · obtain ⟨join, hjoin, rfl⟩ := List.mem_map.1 hx
    have hnode : Node.join join ∈ root.preorder := mem_preorder_of_holds hf hjoin
    exact mem_preorder_of_holds hnode rfl

theorem Subquery.placed : ∀ d ∈ check s ctx, d.Placed (Node.statement s).spans := by
  refine List.forall_mem_flatMap.2 fun core hcore => List.forall_mem_map.2 ?_
  rintro ⟨t, clause⟩ ht
  have ht := List.mem_of_mem_filter ht
  cases hsource : core.source with
  | none => simp [hsource] at ht
  | some f =>
    rw [hsource] at ht
    have hf : Node.source f ∈ (Node.statement s).preorder :=
      mem_preorder_of_holds (mem_preorder_of_cores hcore) hsource
    exact placed_report (fits_node (mem_preorder_of_placedTables hf ht) rfl) _

theorem ColumnOrder.placed : ∀ d ∈ check s ctx, d.Placed (Node.statement s).spans := by
  refine placed_filterMap_map fun core hcore item hitem => ?_
  have hnode : Node.core core ∈ (Node.statement s).preorder := by
    obtain ⟨⟨mark, n⟩, hn, hcore⟩ := List.mem_filterMap.1 hcore
    cases mark with
    | false => cases n <;> cases hcore; exact mem_preorder_of_marked hn
    | true => cases hcore
  have hcolumn : item ∈ core.columns :=
    (List.dropWhile_sublist _).subset (List.mem_of_find?_eq_some hitem)
  exact placed_report (fits_item (mem_preorder_of_holds hnode hcolumn)) _

theorem DistinctParentheses.placed : ∀ d ∈ check s ctx, d.Placed (Node.statement s).spans := by
  refine List.forall_mem_map.2 fun e he => ?_
  obtain ⟨core, hcore, he⟩ := List.mem_filterMap.1 he
  have hfirst : (core.columns.head? >>= SelectItem.expr?) = some e := by
    unfold parenthesized? at he
    split at he
    · split at he
      · next hfirst => exact hfirst.trans he
      · cases he
    · cases he
  obtain ⟨item, hitem, hexpr⟩ := Option.bind_eq_some_iff.1 hfirst
  have hnode : Node.item item ∈ (Node.statement s).preorder :=
    mem_preorder_of_holds (mem_preorder_of_cores hcore) (List.mem_of_head? hitem)
  exact placed_fixable (fits_expr (mem_preorder_of_holds hnode hexpr)) _

namespace JoinConditionOrder

variable {root : Node} {ctx : Context} {preferred : Preference}

theorem placed_checkJoin {join : Join} (known : List String) (hjoin : .join join ∈ root.preorder) :
    ∀ d ∈ checkJoin ctx preferred known join, d.Placed root.spans := by
  unfold checkJoin
  split
  · next name condition _ hcondition =>
    split
    · exact List.forall_mem_nil _
    · refine List.forall_mem_filterMap.2 fun equality hequality d hd => ?_
      simp only [checkEquality, Option.bind_eq_bind, Option.bind_eq_some_iff] at hd
      obtain ⟨_, -, _, -, _, -, _, -, hd⟩ := hd
      obtain ⟨-, hd⟩ := Option.ite_none_right_eq_some.1 hd
      cases hd
      have hnode : Node.expr condition ∈ root.preorder := mem_preorder_of_holds hjoin hcondition
      exact placed_report (fits_equalities hnode hequality) _
  · exact List.forall_mem_nil _

theorem placed_checkJoins {joins : List Join} (known : List String)
    (hjoins : ∀ join ∈ joins, .join join ∈ root.preorder) :
    ∀ d ∈ checkJoins ctx preferred known joins, d.Placed root.spans := by
  induction joins generalizing known with
  | nil => exact List.forall_mem_nil _
  | cons join rest ih =>
    refine List.forall_mem_append.2 ⟨placed_checkJoin known (hjoins join List.mem_cons_self), ?_⟩
    exact ih _ fun join hjoin => hjoins join (List.mem_cons_of_mem _ hjoin)

theorem placed (s : Statement) (ctx : Context) :
    ∀ d ∈ check s ctx, d.Placed (Node.statement s).spans := by
  refine List.forall_mem_flatMap.2 fun core hcore => List.forall_mem_flatMap.2 fun f hf => ?_
  have hnode : Node.source f ∈ (Node.statement s).preorder := by
    cases hsource : core.source with
    | none => simp [hsource] at hf
    | some whole =>
      rw [hsource] at hf
      have hwhole : Node.source whole ∈ (Node.statement s).preorder :=
        mem_preorder_of_holds (mem_preorder_of_cores hcore) hsource
      exact mem_preorder_of_joinLists hwhole hf
  exact placed_checkJoins _ fun join hjoin => mem_preorder_of_holds hnode hjoin

end JoinConditionOrder

theorem ConstantExpression.placed : ∀ d ∈ check s ctx, d.Placed (Node.statement s).spans := by
  refine List.forall_mem_flatMap.2 fun core hcore => ?_
  cases hcondition : core.condition with
  | none => exact List.forall_mem_nil _
  | some condition =>
    have hnode : Node.expr condition ∈ (Node.statement s).preorder :=
      mem_preorder_of_holds (mem_preorder_of_cores hcore) (.inl hcondition)
    refine placed_filterMap_map fun e he _ _ => ?_
    exact placed_report (fits_expr (mem_preorder_of_conditions hnode he)) _

/-! ## References and identifiers -/

theorem ReferencesFrom.placed : ∀ d ∈ check s ctx, d.Placed (Node.statement s).spans := by
  simp only [check]
  split
  · exact List.forall_mem_nil _
  · refine List.forall_mem_map.2 fun c hc => ?_
    exact placed_report (fits_expr (mem_preorder_of_columns (List.mem_of_mem_filter hc))) _

theorem fits_tableColumn {root : Node} {core : Core} {c : Located ColumnRef}
    (hcore : core ∈ root.cores) (hc : c ∈ tableColumns core) : c.span.Fits root.spans :=
  fits_expr (mem_preorder_of_scopeColumns (mem_preorder_of_cores hcore) (List.mem_of_mem_filter hc))

theorem Qualification.placed : ∀ d ∈ check s ctx, d.Placed (Node.statement s).spans := by
  refine List.forall_mem_flatMap.2 fun core hcore => List.forall_mem_map.2 fun c hc => ?_
  exact placed_report
    (fits_tableColumn (List.mem_of_mem_filter hcore) (List.mem_of_mem_filter hc)) _

theorem Consistency.placed : ∀ d ∈ check s ctx, d.Placed (Node.statement s).spans := by
  refine List.forall_mem_flatMap.2 fun core hcore => ?_
  rw [checkColumns_eq]
  refine List.forall_mem_map.2 fun c hc => ?_
  exact placed_report
    (fits_tableColumn (List.mem_of_mem_filter hcore) ((strays_sublist ..).subset hc)) _

theorem Keywords.placed : ∀ d ∈ check s ctx, d.Placed (Node.statement s).spans := by
  refine List.forall_mem_map.2 ?_
  rintro ⟨i, kind⟩ hi
  simp only [candidates, cteNames, List.mem_filter, List.mem_append, List.mem_map,
    List.mem_filterMap, List.mem_flatMap, Prod.mk.injEq] at hi
  obtain ⟨(⟨_, ⟨c, hc, rfl⟩, rfl, -⟩ | ⟨_, ⟨t, ht, halias⟩, rfl, -⟩)
    | ⟨_, ⟨core, hcore, halias⟩, rfl, -⟩, -⟩ := hi
  · exact placed_report (fits_ident (mem_preorder_of_ctes hc) List.mem_cons_self) _
  · exact placed_report (fits_tableAlias (mem_preorder_of_tables ht) halias) _
  · exact placed_report (fits_columnAlias hcore halias) _

theorem SpecialChars.fits_identifiers {root : Node} {i : Ident} (hi : i ∈ identifiers root) :
    i.span.Fits root.spans := by
  simp only [identifiers, cteNames, List.mem_append, List.mem_map, List.mem_flatMap] at hi
  obtain ((⟨c, hc, rfl⟩ | ⟨t, ht, hi⟩) | ⟨c, hc, hi⟩) | ⟨core, hcore, hi⟩ := hi
  · exact fits_ident (mem_preorder_of_ctes hc) List.mem_cons_self
  · exact fits_ident (mem_preorder_of_tables ht) (List.mem_append.2 hi)
  · exact fits_ident (mem_preorder_of_columns hc) (List.mem_append.2 hi)
  · exact fits_columnAlias hcore hi

theorem SpecialChars.placed : ∀ d ∈ check s ctx, d.Placed (Node.statement s).spans :=
  List.forall_mem_map.2 fun _ hi => placed_report (fits_identifiers (List.mem_of_mem_filter hi)) _

/-! ## All rules -/

theorem placed_builtinRules : ∀ rule ∈ builtinRules, ∀ (s : Statement) (ctx : Context),
    ∀ d ∈ (rule.check s ctx).getD [], d.Placed (Node.statement s).spans := by
  simp only [builtinRules, List.forall_mem_cons]
  exact ⟨ExpressionAlias.placed, UniqueTableAlias.placed, UniqueColumnAlias.placed,
    AliasLength.placed, SelfAlias.placed, UnusedAlias.placed, DistinctWithGroupBy.placed,
    BareUnion.placed, AmbiguousOrderBy.placed, ColumnCount.placed, BareJoin.placed,
    ColumnReferences.placed, JoinCondition.placed, PreferCoalesce.placed, CountRows.placed,
    IsNullComparison.placed, PreferLeftJoin.placed, CastingStyle.placed, CaseCoalesce.placed,
    UnusedCte.placed, ElseNull.placed, NestedCase.placed, JoinUsing.placed, Subquery.placed,
    ColumnOrder.placed, DistinctParentheses.placed, JoinConditionOrder.placed,
    ConstantExpression.placed, ReferencesFrom.placed, Qualification.placed, Consistency.placed,
    Keywords.placed, SpecialChars.placed, List.forall_mem_nil _⟩

end Rules
end SqlLint
