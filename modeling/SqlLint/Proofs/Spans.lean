import SqlLint.Catalog
import SqlLint.Proofs.Chains
import SqlLint.Proofs.Outside

/-! # Spans in a tree

A span fits a list of spans if it is empty, or has each of its ends from one of them. What rules
collect has spans that fit those of the nodes and identifiers of the tree. Main statements:
`fits_node`, `fits_ident`, and `fits_unions` for spans that are put together. -/

namespace SqlLint

/-! ## Nodes and identifiers -/

/-- The identifiers in an expression, those of its parts left out. -/
def ExprKind.idents : ExprKind → List Ident
  | .column c => c.qualifier ++ [c.name]
  | .function f => f.name.parts ++ (f.window.bind Window.name).toList
  | .struct fields => fields.filterMap StructField.name
  | .lambda params _ => params
  | .field _ name => [name]
  | .star qualifier => qualifier.elim [] ObjectName.parts
  | _ => []

namespace Node

/-- The identifiers in a node, those of its parts left out. -/
def idents : Node → List Ident
  | .statement (.createView name _ _) | .statement (.createTableAs name _ _) => name.parts
  | .cte c => [c.name]
  | .item (.expr _ label) => label.toList
  | .item (.qualifiedWildcard qualifier _) => qualifier.parts
  | .join j => j.usingColumns
  | .table t => t.name?.elim [] ObjectName.parts ++ t.alias?.toList
  | .expr e => e.kind.idents
  | _ => []

/-- The span of a node, unless it is made of the spans of its parts. -/
def ownSpan? : Node → Option Span
  | .item (.expr _ _) | .source _ | .orderBy _ => none
  | n => some n.span

/-- The spans of the nodes and of the identifiers under a node. -/
def spans (root : Node) : List Span :=
  root.preorder.flatMap fun n => n.ownSpan?.toList ++ n.idents.map Ident.span

end Node

namespace Span

/-- Whether a span begins where one of the spans does, and ends where one of them does. -/
def EndsIn (spans : List Span) (span : Span) : Prop :=
  (∃ a ∈ spans, a.start = span.start) ∧ ∃ b ∈ spans, b.stop = span.stop

/-- The empty span is nowhere. -/
def Fits (spans : List Span) (span : Span) : Prop := span.isEmpty = false → span.EndsIn spans

variable {spans : List Span} {a b : Span}

theorem fits_of_mem (h : a ∈ spans) : a.Fits spans := fun _ => ⟨⟨a, h, rfl⟩, ⟨a, h, rfl⟩⟩

theorem EndsIn.around (ha : a.EndsIn spans) (hb : b.EndsIn spans) :
    EndsIn spans ⟨min a.start b.start, max a.stop b.stop⟩ := by
  constructor
  · change ∃ c ∈ spans, c.start = if a.start ≤ b.start then a.start else b.start
    split
    · exact ha.1
    · exact hb.1
  · change ∃ c ∈ spans, c.stop = if a.stop ≤ b.stop then b.stop else a.stop
    split
    · exact hb.2
    · exact ha.2

theorem Fits.union (ha : a.Fits spans) (hb : b.Fits spans) : (a.union b).Fits spans := by
  unfold Span.union
  split
  · exact hb
  · next hfirst =>
    split
    · exact ha
    · next hsecond =>
      intro _
      exact (ha (by simpa using hfirst)).around (hb (by simpa using hsecond))

theorem fits_unions {parts : List Span} (h : ∀ part ∈ parts, part.Fits spans) :
    (unions parts).Fits spans := by
  -- The span so far fits all along, and it starts empty.
  have hfold : ∀ start : Span, start.Fits spans → (parts.foldl union start).Fits spans := by
    induction parts with
    | nil => exact fun _ hstart => hstart
    | cons part rest ih =>
      intro start hstart
      have hrest := ih fun part hpart => h part (List.mem_cons_of_mem _ hpart)
      exact hrest _ (hstart.union (h part List.mem_cons_self))
  exact hfold empty fun hempty => nomatch hempty

end Span

/-! ## What rules collect stands in the tree -/

namespace Node

variable {α : Type} {root n m : Node}

theorem mem_preorder_of_holds (hn : n ∈ root.preorder) (h : n.Holds m) : m ∈ root.preorder :=
  (mem_preorder_iff ..).2 (((mem_preorder_iff ..).1 hn).tail h)

theorem mem_preorder_trans (hn : n ∈ root.preorder) (hm : m ∈ n.preorder) : m ∈ root.preorder :=
  (mem_preorder_iff ..).2 (((mem_preorder_iff ..).1 hn).trans ((mem_preorder_iff ..).1 hm))

theorem mem_preorder_of_marked {σ : Type} {step : σ → Node → Node → σ} {mark start : σ}
    (h : (mark, n) ∈ (root.tree.marked step start).preorder) : n ∈ root.preorder := by
  rw [Rose.preorder_marked, List.mem_map] at h
  obtain ⟨x, hx, heq⟩ := h
  rw [← map_snd_places]
  exact List.mem_map.2 ⟨x, hx, congrArg Prod.snd heq⟩

theorem mem_preorder_of_collect (node : α → Node) {view : Node → Option α} {a : α}
    (hview : ∀ n a, view n = some a → n = node a) (ha : a ∈ root.collect view) :
    node a ∈ root.preorder := by
  rw [collect_eq, List.mem_filterMap] at ha
  obtain ⟨n, hn, ha⟩ := ha
  exact hview n a ha ▸ hn

theorem mem_preorder_of_cores {c : Core} (h : c ∈ root.cores) : .core c ∈ root.preorder :=
  mem_preorder_of_collect .core (fun n _ h => by cases n <;> cases h; rfl) h

theorem mem_preorder_of_queries {q : Query} (h : q ∈ root.queries) : .query q ∈ root.preorder :=
  mem_preorder_of_collect .query (fun n _ h => by cases n <;> cases h; rfl) h

theorem mem_preorder_of_joins {j : Join} (h : j ∈ root.joins) : .join j ∈ root.preorder :=
  mem_preorder_of_collect .join (fun n _ h => by cases n <;> cases h; rfl) h

theorem mem_preorder_of_tables {t : TableRef} (h : t ∈ root.tables) : .table t ∈ root.preorder :=
  mem_preorder_of_collect .table (fun n _ h => by cases n <;> cases h; rfl) h

theorem mem_preorder_of_ctes {c : Cte} (h : c ∈ root.collect cte?) : .cte c ∈ root.preorder :=
  mem_preorder_of_collect .cte (fun n _ h => by cases n <;> cases h; rfl) h

theorem mem_preorder_of_setOperations {o : SetOperation} (h : o ∈ root.setOperations) :
    .body (.setOperation o) ∈ root.preorder := by
  obtain ⟨b, hb, ho⟩ := List.mem_filterMap.1 h
  cases b <;> cases ho
  exact mem_preorder_of_collect .body (fun n _ h => by cases n <;> cases h; rfl) hb

theorem mem_preorder_of_cases {c : Located CaseExpr} (h : c ∈ root.cases) :
    .expr ⟨.caseWhen c.value, c.span⟩ ∈ root.preorder :=
  mem_preorder_of_collect (fun c : Located CaseExpr => .expr ⟨.caseWhen c.value, c.span⟩)
    (fun _ _ => eq_of_case?) h

theorem mem_preorder_of_columns {c : Located ColumnRef} (h : c ∈ root.columns) :
    .expr ⟨.column c.value, c.span⟩ ∈ root.preorder :=
  mem_preorder_of_collect (fun c : Located ColumnRef => .expr ⟨.column c.value, c.span⟩)
    (fun _ _ => eq_of_column?) h

theorem mem_preorder_of_scopeColumns {core : Core} {c : Located ColumnRef}
    (hcore : .core core ∈ root.preorder) (h : c ∈ core.scopeColumns) :
    .expr ⟨.column c.value, c.span⟩ ∈ root.preorder := by
  rw [Core.scopeColumns, collectOutside_eq _ _ _ [], List.mem_filterMap] at h
  obtain ⟨x, hx, hc⟩ := h
  have hplace := (Rose.outsideFrom_sublist _ [] _).subset hx
  rw [← eq_of_column? hc]
  refine mem_preorder_trans hcore ?_
  rw [← map_snd_places]
  exact List.mem_map_of_mem hplace

/-! ### Their spans -/

theorem fits_node {span : Span} (hn : n ∈ root.preorder) (h : n.ownSpan? = some span) :
    span.Fits root.spans :=
  Span.fits_of_mem (List.mem_flatMap.2 ⟨n, hn, by simp [h]⟩)

theorem fits_ident {i : Ident} (hn : n ∈ root.preorder) (h : i ∈ n.idents) :
    i.span.Fits root.spans :=
  Span.fits_of_mem (List.mem_flatMap.2
    ⟨n, hn, List.mem_append_right _ (List.mem_map_of_mem h)⟩)

theorem fits_expr {e : Expr} (h : .expr e ∈ root.preorder) : e.span.Fits root.spans :=
  fits_node h rfl

theorem fits_join {j : Join} (h : j ∈ root.joins) : j.span.Fits root.spans :=
  fits_node (mem_preorder_of_joins h) rfl

theorem fits_item {i : SelectItem} (h : .item i ∈ root.preorder) : i.span.Fits root.spans := by
  cases i with
  | expr e label =>
    have hexpr : e.span.Fits root.spans := fits_expr (mem_preorder_of_holds h rfl)
    cases label with
    | none => exact hexpr
    | some label => exact hexpr.union (fits_ident h List.mem_cons_self)
  | wildcard span => exact fits_node h rfl
  | qualifiedWildcard qualifier span => exact fits_node h rfl

theorem fits_located {view : Node → Option (Located α)} {a : Located α}
    (hview : ∀ n a, view n = some a → n.ownSpan? = some a.span) (h : a ∈ root.collect view) :
    a.span.Fits root.spans := by
  rw [collect_eq, List.mem_filterMap] at h
  obtain ⟨n, hn, ha⟩ := h
  exact fits_node hn (hview n a ha)

/-! ### Tables and joins in parentheses -/

mutual

theorem mem_preorder_of_table {t u : TableRef} (ht : .table t ∈ root.preorder)
    (hu : u ∈ t.tables) : .table u ∈ root.preorder := by
  cases t with
  | nestedJoin f label span =>
    rcases List.mem_cons.1 hu with rfl | hu
    · exact ht
    · exact mem_preorder_of_source (mem_preorder_of_holds ht rfl) hu
  | named name label span => exact List.mem_singleton.1 hu ▸ ht
  | derived q label span => exact List.mem_singleton.1 hu ▸ ht
  | lateral q label span => exact List.mem_singleton.1 hu ▸ ht

theorem mem_preorder_of_source {f : FromClause} {u : TableRef} (hf : .source f ∈ root.preorder)
    (hu : u ∈ f.tables) : .table u ∈ root.preorder := by
  cases f with
  | mk first joins =>
    rcases List.mem_append.1 hu with hu | hu
    · exact mem_preorder_of_table (mem_preorder_of_holds hf rfl) hu
    · exact mem_preorder_of_joined (fun j hj => mem_preorder_of_holds hf hj) hu

theorem mem_preorder_of_joined {joins : List Join} {u : TableRef}
    (hjoins : ∀ j ∈ joins, .join j ∈ root.preorder) (hu : u ∈ joinedTables joins) :
    .table u ∈ root.preorder := by
  cases joins with
  | nil => cases hu
  | cons j rest =>
    cases j with
    | mk kind natural table condition usingColumns span =>
      rcases List.mem_append.1 hu with hu | hu
      · have hj := hjoins _ List.mem_cons_self
        exact mem_preorder_of_table (mem_preorder_of_holds hj rfl) hu
      · exact mem_preorder_of_joined (fun j hj => hjoins j (List.mem_cons_of_mem _ hj)) hu

end

theorem mem_preorder_of_coreTables {c : Core} {t : TableRef} (hc : .core c ∈ root.preorder)
    (ht : t ∈ c.tables) : .table t ∈ root.preorder := by
  unfold Core.tables at ht
  cases hsource : c.source with
  | none => simp [hsource] at ht
  | some f =>
    rw [hsource] at ht
    exact mem_preorder_of_source (mem_preorder_of_holds hc hsource) ht

/-! ### Operands of set operations -/

theorem mem_preorder_of_branches {b c : Body} (hb : .body b ∈ root.preorder)
    (hc : c ∈ b.branches) : .body c ∈ root.preorder := by
  induction b using Body.induction_chain with
  | operand b h =>
    rw [Body.branches_of_isOperand h] at hc
    exact List.mem_singleton.1 hc ▸ hb
  | setOperation o ihl ihr =>
    rw [Body.branches_setOperation] at hc
    rcases List.mem_append.1 hc with hc | hc
    · exact ihl (mem_preorder_of_holds hb (.inl rfl)) hc
    · exact ihr (mem_preorder_of_holds hb (.inr rfl)) hc
  | nested q ih =>
    rw [Body.branches_nested] at hc
    have hq : .query q ∈ root.preorder := mem_preorder_of_holds hb rfl
    exact ih (mem_preorder_of_holds hq rfl) hc

end Node

namespace Rules

open Node

/-! ## Parts of conditions -/

namespace ConstantExpression

variable {root : Node}

mutual

theorem mem_preorder_of_conditions {e c : Expr} (he : .expr e ∈ root.preorder)
    (hc : c ∈ conditions e) : .expr c ∈ root.preorder := by
  cases e with
  | mk kind span => exact mem_preorder_of_kindConditions he hc

theorem mem_preorder_of_kindConditions {kind : ExprKind} {span : Span} {c : Expr}
    (he : .expr ⟨kind, span⟩ ∈ root.preorder) (hc : c ∈ kindConditions ⟨kind, span⟩ kind) :
    .expr c ∈ root.preorder := by
  have hbelow : ∀ {x : Expr}, kind.HoldsExpr x → .expr x ∈ root.preorder :=
    fun hx => mem_preorder_of_holds he hx
  unfold kindConditions at hc
  split at hc
  · exact mem_preorder_of_conditions (hbelow rfl) hc
  · rcases List.mem_append.1 hc with hc | hc
    · exact mem_preorder_of_conditions (hbelow (.inl rfl)) hc
    · exact mem_preorder_of_conditions (hbelow (.inr rfl)) hc
  · rcases List.mem_append.1 hc with hc | hc
    · exact mem_preorder_of_conditions (hbelow (.inl rfl)) hc
    · exact mem_preorder_of_conditions (hbelow (.inr rfl)) hc
  · exact List.mem_singleton.1 hc ▸ he

end

end ConstantExpression

namespace JoinConditionOrder

variable {root : Node}

mutual

theorem fits_equalities {e : Expr} {b : Located BinaryExpr} (he : .expr e ∈ root.preorder)
    (hb : b ∈ equalities e) : b.span.Fits root.spans := by
  cases e with
  | mk kind span => exact fits_kindEqualities he hb

theorem fits_kindEqualities {kind : ExprKind} {span : Span} {b : Located BinaryExpr}
    (he : .expr ⟨kind, span⟩ ∈ root.preorder) (hb : b ∈ kindEqualities span kind) :
    b.span.Fits root.spans := by
  have hbelow : ∀ {x : Expr}, kind.HoldsExpr x → .expr x ∈ root.preorder :=
    fun hx => mem_preorder_of_holds he hx
  unfold kindEqualities at hb
  split at hb
  · exact fits_equalities (hbelow rfl) hb
  · rcases List.mem_append.1 hb with hb | hb
    · exact fits_equalities (hbelow (.inl rfl)) hb
    · exact fits_equalities (hbelow (.inr rfl)) hb
  · obtain rfl := List.mem_singleton.1 hb
    exact fits_expr he
  · cases hb

end

mutual

theorem mem_preorder_of_joinLists {f g : FromClause} (hf : .source f ∈ root.preorder)
    (hg : g ∈ joinLists f) : .source g ∈ root.preorder := by
  cases f with
  | mk first joins =>
    simp only [joinLists, List.mem_append, List.mem_singleton] at hg
    rcases hg with (hg | hg) | rfl
    · exact mem_preorder_of_tableJoinLists (mem_preorder_of_holds hf rfl) hg
    · exact mem_preorder_of_joinedJoinLists (fun j hj => mem_preorder_of_holds hf hj) hg
    · exact hf

theorem mem_preorder_of_tableJoinLists {t : TableRef} {g : FromClause}
    (ht : .table t ∈ root.preorder) (hg : g ∈ tableJoinLists t) : .source g ∈ root.preorder := by
  cases t with
  | nestedJoin f label span => exact mem_preorder_of_joinLists (mem_preorder_of_holds ht rfl) hg
  | _ => cases hg

theorem mem_preorder_of_joinedJoinLists {joins : List Join} {g : FromClause}
    (hjoins : ∀ j ∈ joins, .join j ∈ root.preorder) (hg : g ∈ joinedJoinLists joins) :
    .source g ∈ root.preorder := by
  cases joins with
  | nil => cases hg
  | cons j rest =>
    cases j with
    | mk kind natural table condition usingColumns span =>
      rcases List.mem_append.1 hg with hg | hg
      · have hj := hjoins _ List.mem_cons_self
        exact mem_preorder_of_tableJoinLists (mem_preorder_of_holds hj rfl) hg
      · exact mem_preorder_of_joinedJoinLists (fun j hj => hjoins j (List.mem_cons_of_mem _ hj)) hg

end

end JoinConditionOrder

end Rules
end SqlLint
