import SqlLint.Rules.JoinOrder
import SqlLint.Proofs.Flattening
import SqlLint.Proofs.Lists

/-! # The conditions of joins

The names that the rule on the sides of a join condition knows at a join are those of the tables
that stand in its list before, where a join in parentheses without an alias has no name. Main
statement: `check_earlier`, an equality is reported once if its left side belongs to the table being
joined and its right side to a known one, and no other is. -/

namespace SqlLint

/-! ## Names -/

/-- The name by which a table is referred to, in any letter case. -/
def TableRef.referenceKey? (t : TableRef) : Option String := t.referenceName?.map Ident.key

mutual

/-- The names that a table brings with it: its own, or those inside if it is a join in parentheses
without an alias. -/
def TableRef.visibleKeys : TableRef → List String
  | .nestedJoin source none _ => source.visibleKeys
  | t => t.referenceKey?.toList

def FromClause.visibleKeys : FromClause → List String
  | ⟨first, joins⟩ => first.visibleKeys ++ joinedVisibleKeys joins

def joinedVisibleKeys : List Join → List String
  | [] => []
  | ⟨_, _, table, _, _, _⟩ :: rest => table.visibleKeys ++ joinedVisibleKeys rest

end

theorem TableRef.mem_visibleKeys {t : TableRef} {key : String} (h : t.referenceKey? = some key) :
    key ∈ t.visibleKeys := by
  have hown : t.visibleKeys = t.referenceKey?.toList := by
    rw [visibleKeys]
    rintro source span rfl
    cases h
  rw [hown, h]
  exact List.mem_singleton_self key

namespace FromClause

/-- The tables that stand before join number `i` of a list. -/
def before (f : FromClause) (i : Nat) : List TableRef := f.first :: (f.joins.take i).map Join.table

/-- The names that tables before a join have themselves. -/
def keysBefore (f : FromClause) (i : Nat) : List String :=
  (f.before i).filterMap TableRef.referenceKey?

/-- The names that tables before a join bring with them. -/
def visibleKeysBefore (f : FromClause) (i : Nat) : List String :=
  (f.before i).flatMap TableRef.visibleKeys

theorem keysBefore_subset (f : FromClause) (i : Nat) : f.keysBefore i ⊆ f.visibleKeysBefore i := by
  intro key hkey
  obtain ⟨t, ht, hkey⟩ := List.mem_filterMap.1 hkey
  exact List.mem_flatMap.2 ⟨t, ht, TableRef.mem_visibleKeys hkey⟩

end FromClause

namespace Rules.JoinConditionOrder

/-! ## Every `FROM` clause -/

theorem ofJoined_source? : Node.OfJoined Node.source? := by
  intro n h
  cases n <;> first | rfl | cases h

open Node (collectPlain_source collectPlain_table) in
mutual

theorem perm_joinLists : ∀ f : FromClause,
    ((Node.source f).collectPlain Node.source?).Perm (joinLists f)
  | ⟨first, joins⟩ => by
    rw [collectPlain_source, joinLists]
    exact List.perm_append_comm.trans
      (((perm_tableJoinLists first).append (perm_joinedJoinLists joins)).append_right _)

theorem perm_tableJoinLists : ∀ t : TableRef,
    ((Node.table t).collectPlain Node.source?).Perm (tableJoinLists t)
  | .nestedJoin source label span => by
    rw [collectPlain_table, tableJoinLists]
    exact perm_joinLists source
  | .named _ _ _ | .derived _ _ _ | .lateral _ _ _ => by
    rw [collectPlain_table]
    exact .refl _

theorem perm_joinedJoinLists : ∀ js : List Join,
    (js.flatMap fun j => (Node.join j).collectPlain Node.source?).Perm (joinedJoinLists js)
  | [] => .refl _
  | ⟨kind, natural, table, condition, usingColumns, span⟩ :: rest => by
    rw [List.flatMap_cons, ofJoined_source?.ofFrame.collectPlain_join, joinedJoinLists]
    exact (perm_tableJoinLists table).append (perm_joinedJoinLists rest)

end

def coreLists (c : Core) : List FromClause := c.source.elim [] joinLists

theorem perm_coreLists (c : Core) :
    ((Node.core c).collectPlain Node.source?).Perm (coreLists c) := by
  rw [ofJoined_source?.ofFrame.collectPlain_core, coreLists]
  cases c.source with
  | none => exact .refl _
  | some f =>
    rw [Option.toList_some, List.flatMap_singleton]
    exact perm_joinLists f

theorem perm_lists (s : Statement) :
    ((Node.statement s).cores.flatMap coreLists).Perm ((Node.statement s).collect Node.source?) :=
  ((ofJoined_source?.perm_cores s).trans (.flatMap_left _ fun c _ => perm_coreLists c)).symm

/-! ## Equalities by place -/

mutual

/-- The equalities that a condition demands, each with its place. -/
def equalitiesAt (p : Place) : Expr → List (Place × Located BinaryExpr)
  | ⟨kind, span⟩ => kindEqualitiesAt p span kind

def kindEqualitiesAt (p : Place) (span : Span) : ExprKind → List (Place × Located BinaryExpr)
  | .nested inner => equalitiesAt (p ++ [0]) inner
  | .binary left .and right => equalitiesAt (p ++ [0]) left ++ equalitiesAt (p ++ [1]) right
  | .binary left .eq right => [(p, ⟨⟨left, .eq, right⟩, span⟩)]
  | _ => []

end

mutual

theorem map_snd_equalitiesAt (p : Place) : ∀ e : Expr,
    (equalitiesAt p e).map Prod.snd = equalities e
  | ⟨kind, span⟩ => map_snd_kindEqualitiesAt p span kind

theorem map_snd_kindEqualitiesAt (p : Place) (span : Span) : ∀ kind : ExprKind,
    (kindEqualitiesAt p span kind).map Prod.snd = kindEqualities span kind
  | .nested inner => map_snd_equalitiesAt (p ++ [0]) inner
  | .binary left op right => by
    cases op with
    | and =>
      rw [kindEqualitiesAt, kindEqualities, List.map_append, map_snd_equalitiesAt (p ++ [0]) left,
        map_snd_equalitiesAt (p ++ [1]) right]
    | _ => rfl
  | .column _ | .literal _ | .unary _ _ | .function _ | .caseWhen _ | .cast _ _ _ | .inList _ _ _
  | .inSubquery _ _ _ | .between _ _ _ _ | .isNull _ _ | .isBool _ _ _ | .like _ _ _ _
  | .subquery _ | .existsIn _ _ | .index _ _ | .slice _ _ _ | .list _ | .struct _ | .lambda _ _
  | .field _ _ | .star _ | .raw _ => rfl

end

/-- The conditions that a condition consists of: the operands of `AND`, or what stands in
parentheses. -/
def conjuncts : Place × Expr → List (Place × Expr)
  | (p, ⟨.nested inner, _⟩) => [(p ++ [0], inner)]
  | (p, ⟨.binary left .and right, _⟩) => [(p ++ [0], left), (p ++ [1], right)]
  | _ => []

/-- Whether a condition holds only if another one does, that is a part of it. -/
abbrev Demands : Place × Expr → Place × Expr → Prop :=
  Relation.ReflTransGen fun x y => y ∈ conjuncts x

def expression (e : Located BinaryExpr) : Expr :=
  ⟨.binary e.value.left e.value.op e.value.right, e.span⟩

theorem demands_iff {x y : Place × Expr} :
    Demands x y ↔ x = y ∨ ∃ z ∈ conjuncts x, Demands z y := by
  rw [Demands, Relation.ReflTransGen.cases_head_iff]

theorem Demands.above {x y : Place × Expr} (h : Demands x y) : x.1 <+: y.1 := by
  induction h with
  | refl => exact List.prefix_rfl
  | @tail y z _ hstep ih =>
    refine ih.trans ?_
    unfold conjuncts at hstep
    split at hstep
    · obtain rfl := List.mem_singleton.1 hstep
      exact List.prefix_append _ _
    · rcases List.mem_pair.1 hstep with rfl | rfl <;> exact List.prefix_append _ _
    · cases hstep

mutual

theorem mem_equalitiesAt_iff {x : Place × Located BinaryExpr} (p : Place) : ∀ e : Expr,
    x ∈ equalitiesAt p e ↔ Demands (p, e) (x.1, expression x.2) ∧ x.2.value.op = .eq
  | ⟨kind, span⟩ => mem_kindEqualitiesAt_iff p span kind

theorem mem_kindEqualitiesAt_iff {x : Place × Located BinaryExpr} (p : Place) (span : Span) :
    ∀ kind : ExprKind, x ∈ kindEqualitiesAt p span kind
      ↔ Demands (p, ⟨kind, span⟩) (x.1, expression x.2) ∧ x.2.value.op = .eq
  | .nested inner => by
    rw [kindEqualitiesAt, mem_equalitiesAt_iff (p ++ [0]) inner, demands_iff (x := (p, _))]
    simp [conjuncts, expression]
  | .binary left op right => by
    obtain ⟨q, ⟨l, o, r⟩, s⟩ := x
    rw [demands_iff]
    cases op with
    | and =>
      rw [kindEqualitiesAt, List.mem_append, mem_equalitiesAt_iff (p ++ [0]) left,
        mem_equalitiesAt_iff (p ++ [1]) right]
      cases o <;> simp [conjuncts, expression]
    | eq => cases o <;> simp [kindEqualitiesAt, conjuncts, expression, eq_comm]
    | _ => cases o <;> simp [kindEqualitiesAt, conjuncts, expression]
  | .column _ | .literal _ | .unary _ _ | .function _ | .caseWhen _ | .cast _ _ _ | .inList _ _ _
  | .inSubquery _ _ _ | .between _ _ _ _ | .isNull _ _ | .isBool _ _ _ | .like _ _ _ _
  | .subquery _ | .existsIn _ _ | .index _ _ | .slice _ _ _ | .list _ | .struct _ | .lambda _ _
  | .field _ _ | .star _ | .raw _ => by
    rw [demands_iff]
    simp [kindEqualitiesAt, conjuncts, expression]

end

mutual

theorem nodup_equalitiesAt (p : Place) : ∀ e : Expr, ((equalitiesAt p e).map Prod.fst).Nodup
  | ⟨kind, span⟩ => nodup_kindEqualitiesAt p span kind

theorem nodup_kindEqualitiesAt (p : Place) (span : Span) : ∀ kind : ExprKind,
    ((kindEqualitiesAt p span kind).map Prod.fst).Nodup
  | .nested inner => nodup_equalitiesAt (p ++ [0]) inner
  | .binary left op right => by
    cases op with
    | and =>
      rw [kindEqualitiesAt, List.map_append, List.nodup_append]
      refine ⟨nodup_equalitiesAt (p ++ [0]) left, nodup_equalitiesAt (p ++ [1]) right, ?_⟩
      -- The places on the two sides differ in the number after `p`.
      rintro q hleft _ hright rfl
      obtain ⟨x, hx, rfl⟩ := List.mem_map.1 hleft
      obtain ⟨y, hy, hplace⟩ := List.mem_map.1 hright
      obtain ⟨a, ha⟩ := ((mem_equalitiesAt_iff (p ++ [0]) left).1 hx).1.above
      obtain ⟨b, hb⟩ := ((mem_equalitiesAt_iff (p ++ [1]) right).1 hy).1.above
      simp only at ha hb
      rw [hplace, ← ha] at hb
      simp at hb
    | eq => exact List.nodup_singleton p
    | _ => exact List.nodup_nil
  | .column _ | .literal _ | .unary _ _ | .function _ | .caseWhen _ | .cast _ _ _ | .inList _ _ _
  | .inSubquery _ _ _ | .between _ _ _ _ | .isNull _ _ | .isBool _ _ _ | .like _ _ _ _
  | .subquery _ | .existsIn _ _ | .index _ _ | .slice _ _ _ | .list _ | .struct _ | .lambda _ _
  | .field _ _ | .star _ | .raw _ => List.nodup_nil

end

/-! ## The sides of an equality -/

/-- The side of a join that a column belongs to. -/
def operandSide? (known : List String) (joined : String) (e : Expr) : Option Side :=
  e.unnested.column? >>= side? known joined

/-- The sides of a join that the two columns of an equality belong to. -/
def sides? (known : List String) (joined : String) (e : BinaryExpr) : Option (Side × Side) := do
  return (← operandSide? known joined e.left, ← operandSide? known joined e.right)

def finding? (ctx : Context) (preferred : Preference) (e : Located BinaryExpr) :
    Option Diagnostic := do
  let left ← e.value.left.unnested.column?
  let right ← e.value.right.unnested.column?
  return ctx.report (message preferred left right) e.span

theorem checkEquality_eq (ctx : Context) (preferred : Preference) (known : List String)
    (joined : String) (e : Located BinaryExpr) :
    checkEquality ctx preferred known joined e
      = if sides? known joined e.value = some (reversed preferred) then finding? ctx preferred e
        else none := by
  unfold checkEquality sides? operandSide? finding?
  cases e.value.left.unnested.column? with
  | none => rfl
  | some left =>
    cases e.value.right.unnested.column? with
    | none => simp
    | some right =>
      cases hleft : side? known joined left <;> cases hright : side? known joined right <;>
        simp [hleft, hright]

theorem isSome_finding? {ctx : Context} {preferred : Preference} {known : List String}
    {joined : String} {e : Located BinaryExpr} {sides : Side × Side}
    (h : sides? known joined e.value = some sides) : (finding? ctx preferred e).isSome := by
  unfold sides? operandSide? at h
  unfold finding?
  cases hleft : e.value.left.unnested.column? with
  | none => simp [hleft] at h
  | some left =>
    cases hright : e.value.right.unnested.column? with
    | none => simp [hleft, hright] at h
    | some right => rfl

def qualifier? (e : Expr) : Option String :=
  (e.unnested.column? >>= ColumnRef.table?).map Ident.key

theorem operandSide?_eq (known : List String) (joined : String) (e : Expr) :
    operandSide? known joined e = (qualifier? e).bind fun key =>
      if key = joined then some .joined else if key ∈ known then some .known else none := by
  unfold operandSide? qualifier? side?
  cases e.unnested.column? with
  | none => rfl
  | some c => cases hc : c.table? <;> simp [hc]

theorem operandSide?_eq_joined_iff {known : List String} {joined : String} {e : Expr} :
    operandSide? known joined e = some .joined ↔ qualifier? e = some joined := by
  rw [operandSide?_eq]
  cases qualifier? e <;> grind

theorem operandSide?_eq_known_iff {known : List String} {joined : String} (h : joined ∉ known)
    {e : Expr} :
    operandSide? known joined e = some .known ↔ ∃ key ∈ known, qualifier? e = some key := by
  rw [operandSide?_eq]
  cases qualifier? e <;> grind

/-- Whether an equality has a column of the table being joined on its left and a column of a table
of one of the given names on its right. -/
def IsReversed (joined : String) (earlier : List String) (e : BinaryExpr) : Prop :=
  qualifier? e.left = some joined ∧ ∃ key ∈ earlier, qualifier? e.right = some key

instance (joined : String) (earlier : List String) (e : BinaryExpr) :
    Decidable (IsReversed joined earlier e) :=
  inferInstanceAs (Decidable (_ ∧ _))

theorem sides?_eq_iff {known : List String} {joined : String} (h : joined ∉ known)
    (e : BinaryExpr) :
    sides? known joined e = some (reversed .earlier) ↔ IsReversed joined known e := by
  have hpair : sides? known joined e = some (reversed .earlier)
      ↔ operandSide? known joined e.left = some .joined
        ∧ operandSide? known joined e.right = some .known := by
    unfold sides? reversed
    cases operandSide? known joined e.left <;> cases operandSide? known joined e.right <;> simp
  rw [hpair, operandSide?_eq_joined_iff, operandSide?_eq_known_iff h, IsReversed]

/-! ## One join -/

theorem checkJoins_eq (ctx : Context) (preferred : Preference) (known : List String)
    (js : List Join) :
    checkJoins ctx preferred known js = js.zipIdx.flatMap fun x =>
      checkJoin ctx preferred
        (known ++ (js.take x.2).filterMap fun join => join.table.referenceKey?) x.1 := by
  induction js generalizing known with
  | nil => rfl
  | cons join rest ih =>
    rw [checkJoins, ih, List.zipIdx_cons, List.flatMap_cons, Nat.zero_add, List.zipIdx_succ,
      List.flatMap_map, List.take_zero, List.filterMap_nil, List.append_nil]
    congr 1
    refine List.flatMap_congr fun x _ => ?_
    rw [List.take_succ_cons, List.filterMap_cons, List.append_assoc]
    unfold TableRef.referenceKey?
    cases join.table.referenceName?.map Ident.key <;> rfl

theorem checkList_eq (ctx : Context) (preferred : Preference) (f : FromClause) :
    checkList ctx preferred f = f.joins.zipIdx.flatMap fun x =>
      checkJoin ctx preferred (f.keysBefore x.2) x.1 := by
  rw [checkList, checkJoins_eq]
  refine List.flatMap_congr fun x _ => ?_
  rw [FromClause.keysBefore, FromClause.before, List.filterMap_cons, List.filterMap_map]
  unfold TableRef.referenceKey?
  cases f.first.referenceName?.map Ident.key <;> rfl

theorem checkJoin_eq {ctx : Context} {known : List String} {join : Join} {name : Ident}
    {condition : Expr} (hname : join.table.referenceName? = some name)
    (hcondition : join.condition = some condition) (hnew : name.key ∉ known) :
    (checkJoin ctx .earlier known join).map some
      = ((equalitiesAt [] condition).filter fun x => IsReversed name.key known x.2.value).map
        fun x => finding? ctx .earlier x.2 := by
  have hcheck : checkJoin ctx .earlier known join
      = (equalitiesAt [] condition).filterMap fun x =>
        if IsReversed name.key known x.2.value then finding? ctx .earlier x.2 else none := by
    rw [checkJoin, hname, hcondition]
    simp only
    rw [if_neg (by simpa using hnew), ← map_snd_equalitiesAt [] condition, List.filterMap_map]
    refine List.filterMap_congr fun x _ => ?_
    rw [Function.comp_apply, checkEquality_eq]
    simp only [sides?_eq_iff hnew]
  rw [hcheck]
  refine map_some_filterMap (fun x hx => ?_) _
  exact isSome_finding? ((sides?_eq_iff hnew _).2 hx)

/-- Known at a join are the tables of its list before, without those inside parentheses. -/
theorem check_earlier (s : Statement) (ctx : Context) (hctx : preference ctx = .earlier) :
    ∃ lists : List FromClause,
      lists.Perm ((Node.statement s).collect Node.source?)
      ∧ (check s ctx = lists.flatMap fun f => f.joins.zipIdx.flatMap fun x =>
          checkJoin ctx .earlier (f.keysBefore x.2) x.1)
      ∧ ∀ f ∈ lists, ∀ i join name condition, f.joins[i]? = some join →
        join.table.referenceName? = some name → join.condition = some condition →
        name.key ∉ f.keysBefore i →
        let found := checkJoin ctx .earlier (f.keysBefore i) join
        let demanded := equalitiesAt [] condition
        let findings := fun earlier : List String =>
          (demanded.filter fun x => IsReversed name.key earlier x.2.value).map fun x =>
            finding? ctx .earlier x.2
        (demanded.map Prod.fst).Nodup
        ∧ (∀ x, x ∈ demanded
          ↔ Demands ([], condition) (x.1, expression x.2) ∧ x.2.value.op = .eq)
        ∧ found.map some = findings (f.keysBefore i)
        ∧ (found.map some = findings (f.visibleKeysBefore i)
          ↔ ∀ x ∈ demanded, IsReversed name.key (f.visibleKeysBefore i) x.2.value →
            IsReversed name.key (f.keysBefore i) x.2.value) := by
  refine ⟨(Node.statement s).cores.flatMap coreLists, perm_lists s, ?_, ?_⟩
  · have hlist : checkList ctx .earlier = fun f => f.joins.zipIdx.flatMap fun x =>
        checkJoin ctx .earlier (f.keysBefore x.2) x.1 := funext (checkList_eq ctx .earlier)
    rw [check, hctx, hlist, List.flatMap_assoc]
    rfl
  · intro f _ i join name condition _ hname hcondition hnew found demanded findings
    have hfound : found.map some = findings (f.keysBefore i) :=
      checkJoin_eq hname hcondition hnew
    refine ⟨nodup_equalitiesAt [] condition, fun x => mem_equalitiesAt_iff [] condition, hfound, ?_⟩
    have hmore : ∀ x : Place × Located BinaryExpr,
        decide (IsReversed name.key (f.keysBefore i) x.2.value) = true →
          decide (IsReversed name.key (f.visibleKeysBefore i) x.2.value) = true := by
      intro x hx
      rw [decide_eq_true_iff] at hx ⊢
      obtain ⟨hleft, key, hkey, hright⟩ := hx
      exact ⟨hleft, key, f.keysBefore_subset i hkey, hright⟩
    rw [hfound, map_filter_eq_iff _ hmore]
    simp only [decide_eq_true_iff]

/-! ## Three tables, and tables in parentheses -/

def plainContext : Context := ⟨info, .generic, info.defaultSeverity, none⟩

/-- `table.id` -/
def idColumn (table : String) : Expr :=
  ⟨.column ⟨[{ value := table }], { value := "id" }⟩, .empty⟩

/-- `left.id = right.id` -/
def sameId (left right : String) : Expr := ⟨.binary (idColumn left) .eq (idColumn right), .empty⟩

/-- `JOIN table ON condition` -/
def joinOn (table : TableRef) (condition : Expr) : Join :=
  ⟨.plain, false, table, some condition, [], .empty⟩

/-- `JOIN c ON (c.id = a.id) AND b.id = c.id` -/
def thirdJoin : Join :=
  joinOn (bareTable "c")
    ⟨.binary ⟨.nested (sameId "c" "a"), .empty⟩ .and (sameId "b" "c"), .empty⟩

/-- `a JOIN b ON a.id = b.id JOIN c ON (c.id = a.id) AND b.id = c.id` -/
def chainedJoins : FromClause :=
  ⟨bareTable "a", [joinOn (bareTable "b") (sameId "a" "b"), thirdJoin]⟩

/-- `SELECT x FROM` the joins. -/
def selectingX (source : FromClause) : Statement := .query (.ofCore (selectingFrom "x" source))

theorem check_earlier_chainedJoins :
    preference plainContext = .earlier ∧ "c" ∉ chainedJoins.keysBefore 1
      ∧ ∃ lists : List FromClause,
        lists.Perm ((Node.statement (selectingX chainedJoins)).collect Node.source?)
        ∧ chainedJoins ∈ lists
        ∧ (checkJoin plainContext .earlier (chainedJoins.keysBefore 1) thirdJoin).map some
          = [finding? plainContext .earlier ⟨⟨idColumn "c", .eq, idColumn "a"⟩, .empty⟩] := by
  obtain ⟨lists, hperm, -, hjoins⟩ :=
    check_earlier (selectingX chainedJoins) plainContext (by decide)
  have hmem : chainedJoins ∈ lists := by
    rw [hperm.mem_iff, Node.collect_eq]
    exact List.mem_singleton_self chainedJoins
  obtain ⟨-, -, hfound, -⟩ := hjoins _ hmem 1 thirdJoin _ _ rfl rfl rfl (by decide)
  exact ⟨by decide, by decide, lists, hperm, hmem, hfound.trans rfl⟩

/-- `a JOIN (b JOIN c ON b.id = c.id) ON a.id = b.id JOIN d ON d.id = b.id` -/
def groupedJoins : FromClause where
  first := bareTable "a"
  joins :=
    [joinOn
        (.nestedJoin ⟨bareTable "b", [joinOn (bareTable "c") (sameId "b" "c")]⟩ none .empty)
        (sameId "a" "b"),
      joinOn (bareTable "d") (sameId "d" "b")]

/-- The earlier table on the right stands in parentheses, and nothing is reported. -/
theorem check_groupedJoins :
    preference plainContext = .earlier
      ∧ groupedJoins.joins[1]? = some (joinOn (bareTable "d") (sameId "d" "b"))
      ∧ "d" ∉ groupedJoins.visibleKeysBefore 1
      ∧ IsReversed "d" (groupedJoins.visibleKeysBefore 1) ⟨idColumn "d", .eq, idColumn "b"⟩
      ∧ check (selectingX groupedJoins) plainContext = [] := by
  refine ⟨by decide, rfl, by decide, by decide, by decide⟩

end Rules.JoinConditionOrder
end SqlLint
