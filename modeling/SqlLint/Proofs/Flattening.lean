import SqlLint.Proofs.LoweredQueries

/-! # Joins in parentheses

Parentheses around the first tables of a `FROM` clause are dropped if they have no alias; others stay
as a table. Main statement: `source_flattened`, no table and no join is lost or moved by that, and
only the parentheses that stay can be told from the result. -/

namespace SqlLint

def TableRef.isNestedJoin : TableRef → Bool
  | .nestedJoin _ _ _ => true
  | _ => false

namespace Parsed

def Table.isNestedJoin : Table → Bool
  | .nestedJoin _ _ _ => true
  | _ => false

/-- A table or a join of a `FROM` clause. -/
inductive Piece where
  | table (table : Table)
  | join (join : Join)

namespace Piece

/-- A table other than a join in parentheses. -/
def leaf? : Piece → Option Table
  | .table t => if t.isNestedJoin then none else some t
  | .join _ => none

def join? : Piece → Option Join
  | .table _ => none
  | .join j => some j

end Piece

/-! ## Tables and joins in source order -/

mutual

def Table.pieces : Table → List Piece
  | .nestedJoin inner label span => .table (.nestedJoin inner label span) :: inner.pieces
  | .named name label span => [.table (.named name label span)]
  | .derived lateral q label span => [.table (.derived lateral q label span)]
  | .rendered form text label span => [.table (.rendered form text label span)]

def TableWithJoins.pieces : TableWithJoins → List Piece
  | ⟨relation, js⟩ => relation.pieces ++ joinedPieces js

def joinedPieces : List Join → List Piece
  | [] => []
  | ⟨op, relation, constraint, span⟩ :: rest =>
    .join ⟨op, relation, constraint, span⟩ :: (relation.pieces ++ joinedPieces rest)

end

namespace TableWithJoins

/-- The tables in source order, joins in parentheses dissolved into theirs. -/
def leaves (t : TableWithJoins) : List Table := t.pieces.filterMap Piece.leaf?

/-- The joins in source order, those in parentheses included. -/
def allJoins (t : TableWithJoins) : List Join := t.pieces.filterMap Piece.join?

/-- Whether parentheses are put around a table and some of the joins after it, here or anywhere in
parentheses. The new parentheses have any span. -/
inductive Regrouped : TableWithJoins → TableWithJoins → Prop where
  | here (relation : Table) (js js' : List Join) (span : Span) :
    Regrouped ⟨relation, js ++ js'⟩ ⟨.nestedJoin ⟨relation, js⟩ none span, js'⟩
  | inRelation {t t' : TableWithJoins} (label : Option Ident) (span : Span) (js : List Join) :
    Regrouped t t' → Regrouped ⟨.nestedJoin t label span, js⟩ ⟨.nestedJoin t' label span, js⟩
  | inJoin {t t' : TableWithJoins} (relation : Table) (js : List Join) (op : JoinOp)
      (label : Option Ident) (tableSpan : Span) (constraint : Constraint) (span : Span)
      (rest : List Join) :
    Regrouped t t' →
      Regrouped ⟨relation, js ++ ⟨op, .nestedJoin t label tableSpan, constraint, span⟩ :: rest⟩
        ⟨relation, js ++ ⟨op, .nestedJoin t' label tableSpan, constraint, span⟩ :: rest⟩

end TableWithJoins
end Parsed

namespace Node

variable {α : Type} {view : Node → Option α}

def source? : Node → Option FromClause
  | .source f => some f
  | _ => none

/-- Whether a node is a join, or a table other than a join in parentheses. -/
def isPiece : Node → Bool
  | .join _ => true
  | .table t => !t.isNestedJoin
  | _ => false

/-- Whether a view shows nothing but joins, and tables other than joins in parentheses. -/
def OfPiece (view : Node → Option α) : Prop := ∀ n, n.isPiece = false → view n = none

theorem OfPiece.ofJoined (hview : OfPiece view) : OfJoined view := by
  intro n h
  refine hview n ?_
  cases n <;> first | rfl | cases h

/-- Whether a node has no join in parentheses without an alias where lowering drops parentheses. -/
def IsFlat : Node → Prop
  | .source f => f.first.isBareJoin = false
  | .join j => j.kind = .implicit → j.table.isBareJoin = false
  | _ => True

def joined? (n : Node) : Option Node := if n.isJoined then some n else none

theorem ofJoined_joined? : OfJoined joined? := by
  intro n h
  rw [joined?, h]
  rfl

/-- Whether the parts of a `FROM` clause from a node on are flat, nested queries left out. -/
def AllFlat (n : Node) : Prop := ∀ m ∈ n.collectPlain joined?, m.IsFlat

theorem allFlat_source_iff (f : FromClause) :
    (source f).AllFlat
      ↔ f.first.isBareJoin = false ∧ (table f.first).AllFlat ∧ ∀ j ∈ f.joins, (join j).AllFlat := by
  unfold AllFlat
  rw [collectPlain_source]
  simp only [joined?, isJoined, if_true, Option.toList_some, List.mem_append, List.mem_singleton,
    List.mem_flatMap]
  constructor
  · intro h
    exact ⟨h _ (.inl rfl), fun m hm => h m (.inr (.inl hm)),
      fun j hj m hm => h m (.inr (.inr ⟨j, hj, hm⟩))⟩
  · rintro ⟨hfirst, htable, hjoins⟩ m (rfl | hm | ⟨j, hj, hm⟩)
    · exact hfirst
    · exact htable m hm
    · exact hjoins j hj m hm

theorem allFlat_join_iff (j : Join) :
    (join j).AllFlat
      ↔ (j.kind = .implicit → j.table.isBareJoin = false) ∧ (table j.table).AllFlat := by
  unfold AllFlat
  rw [ofJoined_joined?.ofFrame.collectPlain_join]
  simp only [joined?, isJoined, if_true, Option.toList_some, List.mem_append, List.mem_singleton]
  constructor
  · exact fun h => ⟨h _ (.inl rfl), fun m hm => h m (.inr hm)⟩
  · rintro ⟨hjoin, htable⟩ m (rfl | hm)
    · exact hjoin
    · exact htable m hm

theorem allFlat_table_iff (t : TableRef) :
    (table t).AllFlat ↔ match t with
      | .nestedJoin f _ _ => (source f).AllFlat
      | _ => True := by
  unfold AllFlat
  rw [collectPlain_table]
  simp only [joined?, isJoined, if_true, Option.toList_some, List.mem_append, List.mem_singleton,
    forall_eq_or_imp]
  cases t <;> simp [IsFlat]

end Node

namespace Lower

open Node (OfPiece collectPlain_table collectPlain_source)

variable {α : Type} {view : Node → Option α}

/-! ## One item of a list -/

theorem joins_append (js js' : List Parsed.Join) : joins (js ++ js') = joins js ++ joins js' := by
  induction js with
  | nil => rfl
  | cons j js ih => rw [List.cons_append, joins, joins, ih, List.cons_append]

theorem tableWithJoins_of_kept {t : Parsed.Table} (h : t.isBareJoin = false)
    (js : List Parsed.Join) : tableWithJoins ⟨t, js⟩ = (table t, joins js) := by
  rw [tableWithJoins]
  rintro inner span rfl
  cases h

theorem tableWithJoins_append (t : Parsed.Table) (js js' : List Parsed.Join) :
    tableWithJoins ⟨t, js ++ js'⟩
      = ((tableWithJoins ⟨t, js⟩).1, (tableWithJoins ⟨t, js⟩).2 ++ joins js') := by
  by_cases h : t.isBareJoin = false
  · rw [tableWithJoins_of_kept h, tableWithJoins_of_kept h, joins_append]
  · cases t with
    | nestedJoin inner label span =>
      cases label with
      | none => simp [tableWithJoins, joins_append]
      | some label => exact absurd rfl h
    | _ => exact absurd rfl h

theorem isBareJoin_tableWithJoins (t : Parsed.TableWithJoins) :
    (tableWithJoins t).1.isBareJoin = false := by
  obtain ⟨relation, js⟩ := t
  by_cases hkept : relation.isBareJoin = false
  · rw [tableWithJoins_of_kept hkept, isBareJoin_table, hkept]
  · cases relation with
    | nestedJoin inner label span =>
      cases label with
      | none =>
        rw [tableWithJoins]
        exact isBareJoin_tableWithJoins inner
      | some label => exact absurd rfl hkept
    | _ => exact absurd rfl hkept

theorem tableWithJoins_of_regrouped {t t' : Parsed.TableWithJoins} (h : t.Regrouped t') :
    tableWithJoins t' = tableWithJoins t := by
  induction h with
  | here relation js js' span =>
    rw [tableWithJoins_append]
    simp [tableWithJoins]
  | inRelation label span js h ih =>
    cases label <;> simp [tableWithJoins, table, ih]
  | inJoin relation js op label tableSpan constraint span rest h ih =>
    have hjoin : ∀ t, join ⟨op, .nestedJoin t label tableSpan, constraint, span⟩
        = { kind := op.lower
            natural := isNatural constraint
            table := .nestedJoin ⟨(tableWithJoins t).1, (tableWithJoins t).2⟩ label tableSpan
            condition := condition constraint
            usingColumns := usingColumns constraint
            span := span } := by
      intro t
      simp [join, table]
    rw [tableWithJoins_append, tableWithJoins_append, joins, joins, hjoin, hjoin, ih]

/-! ## Tables and joins -/

theorem isNestedJoin_table (t : Parsed.Table) : (table t).isNestedJoin = t.isNestedJoin := by
  cases t with
  | derived lateral q label span => cases lateral <;> rfl
  | _ => rfl

/-- The table or the join of the rules' tree. -/
def piece : Parsed.Piece → Node
  | .table t => .table (table t)
  | .join j => .join (join j)

/-- What a view shows of a table or a join. -/
def shown (view : Node → Option α) (p : Parsed.Piece) : List α := (view (piece p)).toList

theorem shown_nestedJoin (hview : OfPiece view) (inner : Parsed.TableWithJoins)
    (label : Option Ident) (span : Span) :
    shown view (.table (.nestedJoin inner label span)) = [] := by
  rw [shown, hview _ rfl, Option.toList_none]

theorem collectPlain_leaf {t : Parsed.Table} (h : t.isNestedJoin = false) :
    (Node.table (table t)).collectPlain view = t.pieces.flatMap (shown view) := by
  have hleaf : (Node.table (table t)).collectPlain view = (view (.table (table t))).toList := by
    rw [collectPlain_table]
    cases t with
    | nestedJoin inner label span => cases h
    | derived lateral q label span => cases lateral <;> exact List.append_nil _
    | _ => exact List.append_nil _
  have hpieces : t.pieces = [.table t] := by
    cases t with
    | nestedJoin inner label span => cases h
    | _ => rw [Parsed.Table.pieces]
  rw [hleaf, hpieces, List.flatMap_singleton]
  rfl

mutual

theorem collectPlain_pieces (hview : OfPiece view) : ∀ t : Parsed.Table,
    (Node.table (table t)).collectPlain view = t.pieces.flatMap (shown view)
  | .nestedJoin inner label span => by
    rw [Parsed.Table.pieces, List.flatMap_cons, shown_nestedJoin hview, List.nil_append,
      ← collectPlain_tableWithJoins hview inner, table, collectPlain_table, hview _ rfl,
      Option.toList_none, List.nil_append]
    simp only [collectPlain_source, hview (.source _) rfl, Option.toList_none, List.nil_append]
  | .named _ _ _ | .derived _ _ _ _ | .rendered _ _ _ _ => collectPlain_leaf rfl

theorem collectPlain_tableWithJoins (hview : OfPiece view) : ∀ t : Parsed.TableWithJoins,
    (Node.table (tableWithJoins t).1).collectPlain view
        ++ (tableWithJoins t).2.flatMap (fun j => (Node.join j).collectPlain view)
      = t.pieces.flatMap (shown view)
  | ⟨.nestedJoin inner none span, js⟩ => by
    -- The joins inside come before those after the parentheses, as in the source.
    rw [Parsed.TableWithJoins.pieces, Parsed.Table.pieces, List.flatMap_append, List.flatMap_cons,
      shown_nestedJoin hview, List.nil_append, ← collectPlain_tableWithJoins hview inner,
      ← collectPlain_joins hview js, List.append_assoc, ← List.flatMap_append, tableWithJoins]
  | ⟨.nestedJoin inner (some label) span, js⟩ => by
    rw [tableWithJoins_of_kept rfl, Parsed.TableWithJoins.pieces, List.flatMap_append,
      collectPlain_pieces hview (.nestedJoin inner (some label) span), collectPlain_joins hview js]
  | ⟨.named _ _ _, js⟩ | ⟨.derived _ _ _ _, js⟩ | ⟨.rendered _ _ _ _, js⟩ => by
    rw [tableWithJoins_of_kept rfl, Parsed.TableWithJoins.pieces, List.flatMap_append,
      collectPlain_leaf (by rfl), collectPlain_joins hview js]

theorem collectPlain_joins (hview : OfPiece view) : ∀ js : List Parsed.Join,
    (joins js).flatMap (fun j => (Node.join j).collectPlain view)
      = (Parsed.joinedPieces js).flatMap (shown view)
  | [] => rfl
  | ⟨op, relation, constraint, span⟩ :: rest => by
    rw [joins, List.flatMap_cons, Parsed.joinedPieces, List.flatMap_cons, List.flatMap_append,
      ← collectPlain_pieces hview relation, ← collectPlain_joins hview rest,
      hview.ofJoined.ofFrame.collectPlain_join, List.append_assoc]
    rfl

end

/-! ## A list of items -/

/-- The join that a comma and the item after it become. -/
def commaJoin (t : Parsed.TableWithJoins) : Join where
  kind := .implicit
  natural := false
  table := (tableWithJoins t).1
  condition := none
  usingColumns := []
  span := t.relation.span

theorem commaTables_cons (t : Parsed.TableWithJoins) (rest : List Parsed.TableWithJoins) :
    commaTables (t :: rest) = commaJoin t :: ((tableWithJoins t).2 ++ commaTables rest) := by
  rw [commaTables]
  rfl

theorem commaTables_append (ts us : List Parsed.TableWithJoins) :
    commaTables (ts ++ us) = commaTables ts ++ commaTables us := by
  induction ts with
  | nil => rfl
  | cons t ts ih =>
    rw [List.cons_append, commaTables_cons, commaTables_cons, ih, List.cons_append,
      List.append_assoc]

theorem source_cons (t : Parsed.TableWithJoins) (rest : List Parsed.TableWithJoins) :
    source (t :: rest)
      = some ⟨(tableWithJoins t).1, (tableWithJoins t).2 ++ commaTables rest⟩ := by
  rw [source]

theorem collectPlain_commaTables (hview : OfPiece view) (ts : List Parsed.TableWithJoins) :
    (commaTables ts).flatMap (fun j => (Node.join j).collectPlain view)
      = ts.flatMap fun t => (view (.join (commaJoin t))).toList ++ t.pieces.flatMap (shown view) := by
  induction ts with
  | nil => rfl
  | cons t ts ih =>
    rw [commaTables_cons, List.flatMap_cons, List.flatMap_append, ih, List.flatMap_cons,
      hview.ofJoined.ofFrame.collectPlain_join, ← collectPlain_tableWithJoins hview t,
      List.append_assoc, List.append_assoc, List.append_assoc]
    rfl

theorem collectPlain_items (hview : OfPiece view) {t : Parsed.TableWithJoins}
    {rest : List Parsed.TableWithJoins} {f : FromClause} (hf : source (t :: rest) = some f) :
    (Node.source f).collectPlain view
      = t.pieces.flatMap (shown view)
        ++ rest.flatMap fun u =>
          (view (.join (commaJoin u))).toList ++ u.pieces.flatMap (shown view) := by
  rw [source_cons, Option.some.injEq] at hf
  rw [← hf, collectPlain_source, hview _ rfl, Option.toList_none, List.nil_append,
    List.flatMap_append, ← List.append_assoc, collectPlain_tableWithJoins hview,
    collectPlain_commaTables hview]

theorem flatMap_shown {β : Type} {part? : Parsed.Piece → Option β} {lower : β → α}
    (h : ∀ p, view (piece p) = (part? p).map lower) (pieces : List Parsed.Piece) :
    pieces.flatMap (shown view) = (pieces.filterMap part?).map lower := by
  rw [List.map_filterMap, List.filterMap_eq_flatMap_toList]
  exact List.flatMap_congr fun p _ => by rw [shown, h]

variable {t : Parsed.TableWithJoins} {rest : List Parsed.TableWithJoins} {f : FromClause}

theorem leaves_source (hf : source (t :: rest) = some f) :
    f.tables.filter (!·.isNestedJoin) = ((t :: rest).flatMap (·.leaves)).map table := by
  let leaf? := fun n : Node => n.table?.bind (Option.guard (!·.isNestedJoin))
  have hview : OfPiece leaf? := by
    intro n h
    cases n with
    | table u =>
      rw [Node.isPiece, Bool.not_eq_false'] at h
      simp [leaf?, Node.table?, Option.guard, h]
    | _ => rfl
  have hleaf : ∀ p, leaf? (piece p) = p.leaf?.map table := by
    intro p
    cases p with
    | table u =>
      cases hu : u.isNestedJoin <;>
        simp [leaf?, piece, Node.table?, Option.guard, isNestedJoin_table, Parsed.Piece.leaf?, hu]
    | join j => rfl
  have hcomma : ∀ u, leaf? (.join (commaJoin u)) = none := fun _ => rfl
  rw [← Node.collectPlain_sourceTables, ← List.filterMap_eq_filter, Node.filterMap_collectPlain,
    collectPlain_items hview hf]
  simp only [flatMap_shown hleaf, hcomma, Option.toList_none, List.nil_append, List.flatMap_cons,
    List.map_append, List.map_flatMap]
  rfl

theorem length_joins_source (hf : source (t :: rest) = some f) :
    ((Node.source f).collectPlain Node.join?).length
      = ((t :: rest).flatMap (·.allJoins)).length + rest.length := by
  have hview : OfPiece Node.join? := by
    intro n h
    cases n <;> first | rfl | cases h
  have hjoin : ∀ p, Node.join? (piece p) = p.join?.map join := by
    intro p
    cases p <;> rfl
  have hcommas : ∀ us : List Parsed.TableWithJoins,
      (us.flatMap fun u => (Node.join? (.join (commaJoin u))).toList
        ++ (u.pieces.filterMap Parsed.Piece.join?).map join).length
          = (us.flatMap (·.allJoins)).length + us.length := by
    intro us
    induction us with
    | nil => rfl
    | cons u us ih =>
      rw [List.flatMap_cons, List.length_append, ih, List.flatMap_cons, List.length_append,
        List.length_append, List.length_map, List.length_cons, Parsed.TableWithJoins.allJoins]
      simp only [Node.join?, Option.toList_some, List.length_singleton]
      omega
  rw [collectPlain_items hview hf]
  simp only [flatMap_shown hjoin]
  rw [List.length_append, List.length_map, hcommas, List.flatMap_cons, List.length_append,
    Nat.add_assoc]
  rfl

/-! ## Parentheses that stay -/

theorem kind_join_ne (j : Parsed.Join) : (join j).kind ≠ .implicit := by
  obtain ⟨op, relation, constraint, span⟩ := j
  cases op <;> simp [join, Parsed.JoinOp.lower]

theorem allFlat_leaf {t : Parsed.Table} (h : t.isNestedJoin = false) :
    (Node.table (table t)).AllFlat := by
  rw [Node.allFlat_table_iff]
  cases t with
  | nestedJoin inner label span => cases h
  | derived lateral q label span => cases lateral <;> trivial
  | _ => trivial

mutual

theorem allFlat_table : ∀ t : Parsed.Table, (Node.table (table t)).AllFlat
  | .nestedJoin inner label span => by
    obtain ⟨hfirst, hjoins⟩ := allFlat_tableWithJoins inner
    rw [table, Node.allFlat_table_iff]
    exact (Node.allFlat_source_iff _).2 ⟨isBareJoin_tableWithJoins inner, hfirst, hjoins⟩
  | .named _ _ _ | .derived _ _ _ _ | .rendered _ _ _ _ => allFlat_leaf rfl

theorem allFlat_tableWithJoins : ∀ t : Parsed.TableWithJoins,
    (Node.table (tableWithJoins t).1).AllFlat ∧ ∀ j ∈ (tableWithJoins t).2, (Node.join j).AllFlat
  | ⟨.nestedJoin inner none span, js⟩ => by
    obtain ⟨hfirst, hinside⟩ := allFlat_tableWithJoins inner
    rw [tableWithJoins]
    exact ⟨hfirst, List.forall_mem_append.2 ⟨hinside, allFlat_joins js⟩⟩
  | ⟨.nestedJoin inner (some label) span, js⟩ => by
    rw [tableWithJoins_of_kept rfl]
    exact ⟨allFlat_table (.nestedJoin inner (some label) span), allFlat_joins js⟩
  | ⟨.named _ _ _, js⟩ | ⟨.derived _ _ _ _, js⟩ | ⟨.rendered _ _ _ _, js⟩ => by
    rw [tableWithJoins_of_kept rfl]
    exact ⟨allFlat_leaf rfl, allFlat_joins js⟩

theorem allFlat_joins : ∀ js : List Parsed.Join, ∀ j ∈ joins js, (Node.join j).AllFlat
  | [] => nofun
  | ⟨op, relation, constraint, span⟩ :: rest => by
    -- A join may keep parentheses without an alias, since no keyword becomes a comma.
    rw [joins, List.forall_mem_cons, Node.allFlat_join_iff]
    exact ⟨⟨fun h => absurd h (kind_join_ne _), allFlat_table relation⟩, allFlat_joins rest⟩

end

theorem allFlat_commaTables (ts : List Parsed.TableWithJoins) :
    ∀ j ∈ commaTables ts, (Node.join j).AllFlat := by
  induction ts with
  | nil => nofun
  | cons t ts ih =>
    obtain ⟨hfirst, hjoins⟩ := allFlat_tableWithJoins t
    rw [commaTables_cons, List.forall_mem_cons, Node.allFlat_join_iff]
    exact ⟨⟨fun _ => isBareJoin_tableWithJoins t, hfirst⟩, List.forall_mem_append.2 ⟨hjoins, ih⟩⟩

theorem allFlat_source {ts : List Parsed.TableWithJoins} (hf : source ts = some f) :
    (Node.source f).AllFlat := by
  cases ts with
  | nil => cases hf
  | cons t rest =>
    obtain ⟨hfirst, hjoins⟩ := allFlat_tableWithJoins t
    rw [source_cons, Option.some.injEq] at hf
    rw [← hf, Node.allFlat_source_iff]
    exact ⟨isBareJoin_tableWithJoins t, hfirst,
      List.forall_mem_append.2 ⟨hjoins, allFlat_commaTables rest⟩⟩

theorem isFlat_of_mem {ts : List Parsed.TableWithJoins} (hf : source ts = some f) {n : Node}
    (hn : n ∈ (Node.source f).preorder) (h : n.isJoined) : n.IsFlat := by
  have hkept : kept (.source f) = due (Parsed.Parts.tablesWithJoins ts) := by
    have hsource := kept_source ts
    rwa [hf, Option.toList_some, List.map_singleton, keptAll_cons, keptAll_nil, add_zero] at hsource
  have hmem : n ∈ (Node.source f).collect Node.joined? := by
    rw [Node.collect_eq, List.mem_filterMap]
    exact ⟨n, hn, if_pos h⟩
  -- At the level of this clause, or of one in a nested query, which is lowered too.
  rcases exists_source Node.ofJoined_joined? hkept hmem with hplain | ⟨ts', f', hf', hplain⟩
  · exact allFlat_source hf n hplain
  · exact allFlat_source hf' n hplain

theorem source_of_regrouped (t : Parsed.TableWithJoins) (before after : List Parsed.TableWithJoins)
    {u u' : Parsed.TableWithJoins} (h : u.Regrouped u') :
    ∃ g later, source (t :: before) = some g
      ∧ source (t :: (before ++ u :: after)) = some ⟨g.first, g.joins ++ commaJoin u :: later⟩
      ∧ source (t :: (before ++ u' :: after))
        = some ⟨g.first, g.joins ++ { commaJoin u with span := u'.relation.span } :: later⟩ := by
  have hitem := tableWithJoins_of_regrouped h
  have hjoin : commaJoin u' = { commaJoin u with span := u'.relation.span } := by
    rw [commaJoin, hitem]
    rfl
  refine ⟨_, (tableWithJoins u).2 ++ commaTables after, source_cons t before, ?_, ?_⟩
  · rw [source_cons, commaTables_append, commaTables_cons, List.append_assoc]
  · rw [source_cons, commaTables_append, commaTables_cons, hitem, hjoin, List.append_assoc]

/-- No table is lost, and dropped parentheses show at most in the span of a comma. -/
theorem source_flattened (t : Parsed.TableWithJoins) (rest : List Parsed.TableWithJoins) :
    ∃ f, source (t :: rest) = some f
      ∧ f.tables.filter (!·.isNestedJoin) = ((t :: rest).flatMap (·.leaves)).map table
      ∧ ((Node.source f).collectOutside (·.query?.isSome) Node.join?).length
        = ((t :: rest).flatMap (·.allJoins)).length + rest.length
      ∧ (∀ g ∈ (Node.source f).collect Node.source?, g.first.isBareJoin = false)
      ∧ (∀ j ∈ (Node.source f).joins, j.kind = .implicit → j.table.isBareJoin = false)
      ∧ (∀ t', t.Regrouped t' → source (t' :: rest) = some f)
      ∧ ∀ before u after u', rest = before ++ u :: after → u.Regrouped u' →
        ∃ g later, source (t :: before) = some g
          ∧ f = ⟨g.first, g.joins ++ commaJoin u :: later⟩
          ∧ source (t :: (before ++ u' :: after))
            = some ⟨g.first, g.joins ++ { commaJoin u with span := u'.relation.span } :: later⟩ := by
  have hf := source_cons t rest
  refine ⟨_, hf, leaves_source hf, length_joins_source hf, ?_, ?_, ?_, ?_⟩
  · intro g hg
    rw [Node.collect_eq, List.mem_filterMap] at hg
    obtain ⟨n, hn, hsource⟩ := hg
    cases n <;> cases hsource
    exact isFlat_of_mem hf hn rfl
  · intro j hj
    rw [Node.joins, Node.collect_eq, List.mem_filterMap] at hj
    obtain ⟨n, hn, hjoin⟩ := hj
    cases n <;> cases hjoin
    exact isFlat_of_mem hf hn rfl
  · intro t' h
    rw [source_cons, tableWithJoins_of_regrouped h]
  · rintro before u after u' rfl h
    obtain ⟨g, later, hbefore, hsame, hother⟩ := source_of_regrouped t before after h
    exact ⟨g, later, hbefore, Option.some.inj (hf.symm.trans hsame), hother⟩

/-- `name` -/
def plainTable (name : String) : Parsed.Table := .named [.ident { value := name }] none .empty

/-- `JOIN name` -/
def plainJoin (name : String) : Parsed.Join := ⟨.join, plainTable name, .none, .empty⟩

/-- `a JOIN b JOIN c` -/
def threeJoined : Parsed.TableWithJoins := ⟨plainTable "a", [plainJoin "b", plainJoin "c"]⟩

/-- `(a JOIN b) JOIN c` -/
def threeGrouped (span : Span) : Parsed.TableWithJoins :=
  ⟨.nestedJoin ⟨plainTable "a", [plainJoin "b"]⟩ none span, [plainJoin "c"]⟩

theorem source_flattened_grouped :
    let span : Span := ⟨⟨1, 40⟩, ⟨1, 51⟩⟩
    ∃ f, source [threeJoined, threeJoined] = some f
      ∧ source [threeGrouped span, threeJoined] = some f
      ∧ ∃ (g : FromClause) (later : List Join),
        f = ⟨g.first, g.joins ++ commaJoin threeJoined :: later⟩
        ∧ source [threeJoined, threeGrouped span]
          = some ⟨g.first, g.joins ++ { commaJoin threeJoined with span } :: later⟩ := by
  intro span
  have hgrouped : threeJoined.Regrouped (threeGrouped span) :=
    .here (plainTable "a") [plainJoin "b"] [plainJoin "c"] span
  obtain ⟨f, hf, -, -, -, -, hfirst, hitem⟩ := source_flattened threeJoined [threeJoined]
  obtain ⟨g, later, -, hsame, hother⟩ := hitem [] threeJoined [] (threeGrouped span) rfl hgrouped
  exact ⟨f, hf, hfirst _ hgrouped, g, later, hsame, hother⟩

end Lower
end SqlLint
