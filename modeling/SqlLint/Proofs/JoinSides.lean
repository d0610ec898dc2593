import SqlLint.Proofs.JoinConditions

/-! # Exchanging the sides of join conditions

The names known at a join do not depend on conditions, so an equality is judged as before when
others are changed. Main statement: `sides_exchanged`, after what is reported is exchanged nothing
is reported, and the findings of one preference are those of the other with all sides exchanged. -/

namespace SqlLint.Rules.JoinConditionOrder

/-! ## Judged equalities -/

/-- An equality that is judged by the sides of its columns: its place under the `FROM` clause, the
names of the tables before, and the name of the table being joined. -/
structure Judged where
  place : Place
  known : List String
  joined : String
  equality : Located BinaryExpr

/-- The judged equalities of a join at a place. A table of a known name is passed over. -/
def joinJudged (p : Place) (known : List String) (join : Join) : List Judged :=
  match join.table.referenceName?, join.condition with
  | some name, some condition =>
    if known.contains name.key then []
    else (equalitiesAt (p ++ [1]) condition).map fun x => ⟨x.1, known, name.key, x.2⟩
  | _, _ => []

/-- The judged equalities of a list of joins that starts with child number `i`. -/
def joinsJudged (p : Place) (i : Nat) (known : List String) : List Join → List Judged
  | [] => []
  | join :: rest =>
    joinJudged (p ++ [i]) known join
      ++ joinsJudged p (i + 1) (known ++ join.table.referenceKey?.toList) rest

mutual

/-- The judged equalities of a `FROM` clause, those of lists in parentheses first. -/
def judged (p : Place) : FromClause → List Judged
  | ⟨first, joins⟩ =>
    tableJudged (p ++ [0]) first ++ joinedJudged p 1 joins
      ++ joinsJudged p 1 first.referenceKey?.toList joins

def tableJudged (p : Place) : TableRef → List Judged
  | .nestedJoin source _ _ => judged (p ++ [0]) source
  | .named _ _ _ | .derived _ _ _ | .lateral _ _ _ => []

def joinedJudged (p : Place) (i : Nat) : List Join → List Judged
  | [] => []
  | ⟨_, _, table, _, _, _⟩ :: rest =>
    tableJudged (p ++ [i] ++ [0]) table ++ joinedJudged p (i + 1) rest

end

namespace Judged

def IsReported (preferred : Preference) (j : Judged) : Prop :=
  sides? j.known j.joined j.equality.value = some (reversed preferred)

instance (preferred : Preference) (j : Judged) : Decidable (j.IsReported preferred) :=
  inferInstanceAs (Decidable (_ = _))

end Judged

def reports (ctx : Context) (preferred : Preference) (f : FromClause) : List Diagnostic :=
  (joinLists f).flatMap (checkList ctx preferred)

def reported (preferred : Preference) (f : FromClause) : List Judged :=
  (judged [] f).filter (·.IsReported preferred)

theorem checkJoin_eq_judged (ctx : Context) (preferred : Preference) (p : Place)
    (known : List String) (join : Join) :
    checkJoin ctx preferred known join = (joinJudged p known join).filterMap fun j =>
      checkEquality ctx preferred j.known j.joined j.equality := by
  unfold checkJoin joinJudged
  cases join.table.referenceName? with
  | none => rfl
  | some name =>
    cases join.condition with
    | none => rfl
    | some condition =>
      simp only
      split
      · rfl
      · rw [← map_snd_equalitiesAt (p ++ [1]) condition, List.filterMap_map, List.filterMap_map]
        rfl

theorem checkJoins_eq_judged (ctx : Context) (preferred : Preference) (p : Place) (i : Nat)
    (known : List String) (js : List Join) :
    checkJoins ctx preferred known js = (joinsJudged p i known js).filterMap fun j =>
      checkEquality ctx preferred j.known j.joined j.equality := by
  induction js generalizing i known with
  | nil => rfl
  | cons join rest ih =>
    rw [checkJoins, joinsJudged, List.filterMap_append, ← checkJoin_eq_judged, ← ih]
    rfl

mutual

theorem reports_eq_judged (ctx : Context) (preferred : Preference) (p : Place) : ∀ f : FromClause,
    (joinLists f).flatMap (checkList ctx preferred) = (judged p f).filterMap fun j =>
      checkEquality ctx preferred j.known j.joined j.equality
  | ⟨first, joins⟩ => by
    rw [joinLists, judged, List.flatMap_append, List.flatMap_append, List.flatMap_singleton,
      List.filterMap_append, List.filterMap_append,
      tableReports_eq_judged ctx preferred (p ++ [0]) first,
      joinedReports_eq_judged ctx preferred p 1 joins, checkList,
      checkJoins_eq_judged ctx preferred p 1]
    rfl

theorem tableReports_eq_judged (ctx : Context) (preferred : Preference) (p : Place) :
    ∀ t : TableRef, (tableJoinLists t).flatMap (checkList ctx preferred)
      = (tableJudged p t).filterMap fun j =>
        checkEquality ctx preferred j.known j.joined j.equality
  | .nestedJoin source _ _ => reports_eq_judged ctx preferred (p ++ [0]) source
  | .named _ _ _ | .derived _ _ _ | .lateral _ _ _ => rfl

theorem joinedReports_eq_judged (ctx : Context) (preferred : Preference) (p : Place) (i : Nat) :
    ∀ js : List Join, (joinedJoinLists js).flatMap (checkList ctx preferred)
      = (joinedJudged p i js).filterMap fun j =>
        checkEquality ctx preferred j.known j.joined j.equality
  | [] => rfl
  | ⟨_, _, table, _, _, _⟩ :: rest => by
    rw [joinedJoinLists, joinedJudged, List.flatMap_append, List.filterMap_append,
      tableReports_eq_judged ctx preferred (p ++ [i] ++ [0]) table,
      joinedReports_eq_judged ctx preferred p (i + 1) rest]

end

theorem reports_eq (ctx : Context) (preferred : Preference) (f : FromClause) :
    (reports ctx preferred f).map some
      = (reported preferred f).map fun j => finding? ctx preferred j.equality := by
  have hchecks : reports ctx preferred f = (judged [] f).filterMap fun j =>
      if j.IsReported preferred then finding? ctx preferred j.equality else none := by
    rw [reports, reports_eq_judged ctx preferred [] f]
    exact List.filterMap_congr fun j _ => checkEquality_eq ..
  rw [hchecks]
  exact map_some_filterMap (fun j hj => isSome_finding? hj) _

/-! ## Places of judged equalities -/

theorem place_of_mem_joinJudged {p : Place} {known : List String} {join : Join} {j : Judged}
    (h : j ∈ joinJudged p known join) : p ++ [1] <+: j.place := by
  unfold joinJudged at h
  split at h
  · split at h
    · cases h
    · obtain ⟨x, hx, rfl⟩ := List.mem_map.1 h
      exact ((mem_equalitiesAt_iff _ _).1 hx).1.above
  · cases h

theorem place_of_mem_joinsJudged {p : Place} {i : Nat} {known : List String} {js : List Join}
    {j : Judged} (h : j ∈ joinsJudged p i known js) :
    ∃ k, i ≤ k ∧ p ++ [k] ++ [1] <+: j.place := by
  induction js generalizing i known with
  | nil => cases h
  | cons join rest ih =>
    rcases List.mem_append.1 h with h | h
    · exact ⟨i, Nat.le_refl i, place_of_mem_joinJudged h⟩
    · obtain ⟨k, hk, hplace⟩ := ih h
      exact ⟨k, by omega, hplace⟩

mutual

theorem place_of_mem_judged (p : Place) : ∀ f : FromClause, ∀ j ∈ judged p f, p <+: j.place
  | ⟨first, joins⟩, j, h => by
    rw [judged, List.mem_append, List.mem_append] at h
    rcases h with (h | h) | h
    · exact (List.prefix_append p [0]).trans (place_of_mem_tableJudged (p ++ [0]) first j h)
    · obtain ⟨k, -, hplace⟩ := place_of_mem_joinedJudged p 1 joins j h
      exact ((List.prefix_append p [k]).trans (List.prefix_append _ [0])).trans hplace
    · obtain ⟨k, -, hplace⟩ := place_of_mem_joinsJudged h
      exact ((List.prefix_append p [k]).trans (List.prefix_append _ [1])).trans hplace

theorem place_of_mem_tableJudged (p : Place) : ∀ t : TableRef, ∀ j ∈ tableJudged p t, p <+: j.place
  | .nestedJoin source _ _, j, h =>
    (List.prefix_append p [0]).trans (place_of_mem_judged (p ++ [0]) source j h)
  | .named _ _ _, _, h | .derived _ _ _, _, h | .lateral _ _ _, _, h => by cases h

theorem place_of_mem_joinedJudged (p : Place) (i : Nat) : ∀ js : List Join,
    ∀ j ∈ joinedJudged p i js, ∃ k, i ≤ k ∧ p ++ [k] ++ [0] <+: j.place
  | [], _, h => by cases h
  | ⟨_, _, table, _, _, _⟩ :: rest, j, h => by
    rw [joinedJudged, List.mem_append] at h
    rcases h with h | h
    · exact ⟨i, Nat.le_refl i, place_of_mem_tableJudged _ table j h⟩
    · obtain ⟨k, hk, hplace⟩ := place_of_mem_joinedJudged p (i + 1) rest j h
      exact ⟨k, by omega, hplace⟩

end

/-! ### They are in the tree -/

theorem at?_of_demands {root : Node} {x y : Place × Expr} (h : Demands x y)
    (hx : root.at? x.1 = some (.expr x.2)) : root.at? y.1 = some (.expr y.2) := by
  induction h with
  | refl => exact hx
  | @tail y z _ hstep ih =>
    unfold conjuncts at hstep
    split at hstep
    · obtain rfl := List.mem_singleton.1 hstep
      rw [Node.at?_concat, ih]
      rfl
    · rcases List.mem_pair.1 hstep with rfl | rfl <;>
      · rw [Node.at?_concat, ih]
        rfl
    · cases hstep

theorem at?_of_mem_joinJudged {root : Node} {p : Place} {known : List String} {join : Join}
    (hp : root.at? p = some (.join join)) {j : Judged} (h : j ∈ joinJudged p known join) :
    root.at? j.place = some (.expr (expression j.equality)) := by
  unfold joinJudged at h
  split at h
  · next condition _ hcondition =>
    split at h
    · cases h
    · obtain ⟨x, hx, rfl⟩ := List.mem_map.1 h
      refine at?_of_demands ((mem_equalitiesAt_iff _ _).1 hx).1 ?_
      rw [Node.at?_concat, hp, Option.bind_some, Node.children, hcondition]
      rfl
  · cases h

theorem at?_of_mem_joinsJudged {root : Node} {p : Place} {i : Nat} {known : List String}
    {js : List Join}
    (hp : ∀ k join, js[k]? = some join → root.at? (p ++ [i + k]) = some (.join join))
    {j : Judged} (h : j ∈ joinsJudged p i known js) :
    root.at? j.place = some (.expr (expression j.equality)) := by
  induction js generalizing i known with
  | nil => cases h
  | cons join rest ih =>
    rcases List.mem_append.1 h with h | h
    · exact at?_of_mem_joinJudged (hp 0 join rfl) h
    · refine ih (fun k next hk => ?_) h
      rw [show i + 1 + k = i + (k + 1) by omega]
      exact hp (k + 1) next hk

mutual

theorem at?_of_mem_judged {root : Node} (p : Place) : ∀ f : FromClause,
    root.at? p = some (.source f) → ∀ j ∈ judged p f,
      root.at? j.place = some (.expr (expression j.equality))
  | ⟨first, joins⟩, hp, j, h => by
    have hjoins : ∀ k join, joins[k]? = some join →
        root.at? (p ++ [1 + k]) = some (.join join) := by
      intro k join hk
      rw [Node.at?_concat, hp, Option.bind_some, Node.children, Nat.add_comm 1 k,
        List.getElem?_cons_succ, List.getElem?_map, hk]
      rfl
    rw [judged, List.mem_append, List.mem_append] at h
    rcases h with (h | h) | h
    · refine at?_of_mem_tableJudged (p ++ [0]) first ?_ j h
      rw [Node.at?_concat, hp]
      rfl
    · exact at?_of_mem_joinedJudged p 1 joins hjoins j h
    · exact at?_of_mem_joinsJudged hjoins h

theorem at?_of_mem_tableJudged {root : Node} (p : Place) : ∀ t : TableRef,
    root.at? p = some (.table t) → ∀ j ∈ tableJudged p t,
      root.at? j.place = some (.expr (expression j.equality))
  | .nestedJoin source _ _, hp, j, h => by
    refine at?_of_mem_judged (p ++ [0]) source ?_ j h
    rw [Node.at?_concat, hp]
    rfl
  | .named _ _ _, _, _, h | .derived _ _ _, _, _, h | .lateral _ _ _, _, _, h => by cases h

theorem at?_of_mem_joinedJudged {root : Node} (p : Place) (i : Nat) : ∀ js : List Join,
    (∀ k join, js[k]? = some join → root.at? (p ++ [i + k]) = some (.join join)) →
      ∀ j ∈ joinedJudged p i js, root.at? j.place = some (.expr (expression j.equality))
  | [], _, _, h => by cases h
  | ⟨kind, natural, table, condition, usingColumns, span⟩ :: rest, hp, j, h => by
    rw [joinedJudged, List.mem_append] at h
    rcases h with h | h
    · have hjoin : root.at? (p ++ [i]) = some (.join _) := hp 0 _ rfl
      refine at?_of_mem_tableJudged (p ++ [i] ++ [0]) table ?_ j h
      rw [Node.at?_concat, hjoin]
      rfl
    · refine at?_of_mem_joinedJudged p (i + 1) rest (fun k next hk => ?_) j h
      rw [show i + 1 + k = i + (k + 1) by omega]
      exact hp (k + 1) next hk

end

/-! ### They differ -/

theorem child_unique {p q : Place} {a b : Nat} (ha : p ++ [a] <+: q) (hb : p ++ [b] <+: q) :
    a = b := by
  obtain ⟨r, hr⟩ := ha
  obtain ⟨r', hr'⟩ := hb
  rw [← hr'] at hr
  simp at hr
  exact hr.1

theorem nodup_append {xs ys : List Judged} (hxs : (xs.map Judged.place).Nodup)
    (hys : (ys.map Judged.place).Nodup) (h : ∀ x ∈ xs, ∀ y ∈ ys, x.place ≠ y.place) :
    ((xs ++ ys).map Judged.place).Nodup := by
  rw [List.map_append, List.nodup_append]
  refine ⟨hxs, hys, ?_⟩
  simpa using h

theorem nodup_joinJudged (p : Place) (known : List String) (join : Join) :
    ((joinJudged p known join).map Judged.place).Nodup := by
  unfold joinJudged
  split
  · split
    · exact List.nodup_nil
    · rw [List.map_map]
      exact nodup_equalitiesAt _ _
  · exact List.nodup_nil

theorem nodup_joinsJudged (p : Place) (i : Nat) (known : List String) (js : List Join) :
    ((joinsJudged p i known js).map Judged.place).Nodup := by
  induction js generalizing i known with
  | nil => exact List.nodup_nil
  | cons join rest ih =>
    refine nodup_append (nodup_joinJudged (p ++ [i]) known join) (ih (i + 1) _) ?_
    intro x hx y hy hplace
    have hhere := (List.prefix_append (p ++ [i]) [1]).trans (place_of_mem_joinJudged hx)
    obtain ⟨k, hk, hthere⟩ := place_of_mem_joinsJudged hy
    rw [hplace] at hhere
    have := child_unique hhere ((List.prefix_append _ [1]).trans hthere)
    omega

mutual

theorem nodup_judged (p : Place) : ∀ f : FromClause, ((judged p f).map Judged.place).Nodup
  | ⟨first, joins⟩ => by
    refine nodup_append (nodup_append (nodup_tableJudged (p ++ [0]) first)
      (nodup_joinedJudged p 1 joins) ?_) (nodup_joinsJudged p 1 _ joins) ?_
    · intro x hx y hy hplace
      have hhere := place_of_mem_tableJudged (p ++ [0]) first x hx
      obtain ⟨k, hk, hthere⟩ := place_of_mem_joinedJudged p 1 joins y hy
      rw [hplace] at hhere
      have := child_unique hhere ((List.prefix_append _ [0]).trans hthere)
      omega
    · intro x hx y hy hplace
      obtain ⟨k, hk, hthere⟩ := place_of_mem_joinsJudged hy
      rcases List.mem_append.1 hx with hx | hx
      · have hhere := place_of_mem_tableJudged (p ++ [0]) first x hx
        rw [hplace] at hhere
        have := child_unique hhere ((List.prefix_append _ [1]).trans hthere)
        omega
      · -- The table of a join is its child 0, and the condition its child 1.
        obtain ⟨l, -, hhere⟩ := place_of_mem_joinedJudged p 1 joins x hx
        rw [hplace] at hhere
        obtain rfl := child_unique ((List.prefix_append _ [0]).trans hhere)
          ((List.prefix_append _ [1]).trans hthere)
        exact absurd (child_unique hhere hthere) (by decide)

theorem nodup_tableJudged (p : Place) : ∀ t : TableRef,
    ((tableJudged p t).map Judged.place).Nodup
  | .nestedJoin source _ _ => nodup_judged (p ++ [0]) source
  | .named _ _ _ | .derived _ _ _ | .lateral _ _ _ => List.nodup_nil

theorem nodup_joinedJudged (p : Place) (i : Nat) : ∀ js : List Join,
    ((joinedJudged p i js).map Judged.place).Nodup
  | [] => List.nodup_nil
  | ⟨_, _, table, _, _, _⟩ :: rest => by
    refine nodup_append (nodup_tableJudged (p ++ [i] ++ [0]) table)
      (nodup_joinedJudged p (i + 1) rest) ?_
    intro x hx y hy hplace
    have hhere := (List.prefix_append (p ++ [i]) [0]).trans
      (place_of_mem_tableJudged (p ++ [i] ++ [0]) table x hx)
    obtain ⟨k, hk, hthere⟩ := place_of_mem_joinedJudged p (i + 1) rest y hy
    rw [hplace] at hhere
    have := child_unique hhere ((List.prefix_append _ [0]).trans hthere)
    omega

end

/-! ## Exchanging sides -/

/-- The equality with its sides exchanged. -/
def swap (e : Located BinaryExpr) : Located BinaryExpr :=
  ⟨⟨e.value.right, e.value.op, e.value.left⟩, e.span⟩

mutual

/-- A condition with the sides of some of its equalities exchanged: those that a test picks, by
their place and by themselves. -/
def exchange (test : Place → BinaryExpr → Bool) (p : Place) : Expr → Expr
  | ⟨kind, span⟩ => ⟨exchangeKind test p kind, span⟩

def exchangeKind (test : Place → BinaryExpr → Bool) (p : Place) : ExprKind → ExprKind
  | .nested inner => .nested (exchange test (p ++ [0]) inner)
  | .binary left .and right =>
    .binary (exchange test (p ++ [0]) left) .and (exchange test (p ++ [1]) right)
  | .binary left .eq right =>
    if test p ⟨left, .eq, right⟩ then .binary right .eq left else .binary left .eq right
  | kind => kind

end

mutual

/-- A `FROM` clause with the sides of some equalities exchanged, in its own conditions and in those
of the lists in parentheses. -/
def exchangeSource (test : Place → BinaryExpr → Bool) (p : Place) : FromClause → FromClause
  | ⟨first, joins⟩ => ⟨exchangeTable test (p ++ [0]) first, exchangeJoins test p 1 joins⟩

def exchangeTable (test : Place → BinaryExpr → Bool) (p : Place) : TableRef → TableRef
  | .nestedJoin source label span => .nestedJoin (exchangeSource test (p ++ [0]) source) label span
  | .named name label span => .named name label span
  | .derived query label span => .derived query label span
  | .lateral query label span => .lateral query label span

def exchangeJoins (test : Place → BinaryExpr → Bool) (p : Place) (i : Nat) : List Join → List Join
  | [] => []
  | ⟨kind, natural, table, condition, usingColumns, span⟩ :: rest =>
    ⟨kind, natural, exchangeTable test (p ++ [i] ++ [0]) table,
      condition.map (exchange test (p ++ [i] ++ [1])), usingColumns, span⟩
      :: exchangeJoins test p (i + 1) rest

end

/-- Exchanges the sides of an equality at a place if the test picks it. -/
def exchangeAt (test : Place → BinaryExpr → Bool) (p : Place) (e : Located BinaryExpr) :
    Located BinaryExpr :=
  if test p e.value then swap e else e

def Judged.exchange (test : Place → BinaryExpr → Bool) (j : Judged) : Judged :=
  { j with equality := exchangeAt test j.place j.equality }

variable {test : Place → BinaryExpr → Bool}

mutual

theorem equalitiesAt_exchange (p : Place) : ∀ e : Expr,
    equalitiesAt p (exchange test p e)
      = (equalitiesAt p e).map fun x => (x.1, exchangeAt test x.1 x.2)
  | ⟨kind, span⟩ => kindEqualitiesAt_exchange p span kind

theorem kindEqualitiesAt_exchange (p : Place) (span : Span) : ∀ kind : ExprKind,
    kindEqualitiesAt p span (exchangeKind test p kind)
      = (kindEqualitiesAt p span kind).map fun x => (x.1, exchangeAt test x.1 x.2)
  | .nested inner => equalitiesAt_exchange (p ++ [0]) inner
  | .binary left op right => by
    cases op with
    | and =>
      rw [exchangeKind, kindEqualitiesAt, kindEqualitiesAt, List.map_append,
        equalitiesAt_exchange (p ++ [0]) left, equalitiesAt_exchange (p ++ [1]) right]
    | eq =>
      rw [exchangeKind, kindEqualitiesAt, List.map_singleton, exchangeAt]
      split <;> rfl
    | _ => rfl
  | .column _ | .literal _ | .unary _ _ | .function _ | .caseWhen _ | .cast _ _ _ | .inList _ _ _
  | .inSubquery _ _ _ | .between _ _ _ _ | .isNull _ _ | .isBool _ _ _ | .like _ _ _ _
  | .subquery _ | .existsIn _ _ | .index _ _ | .slice _ _ _ | .list _ | .struct _ | .lambda _ _
  | .field _ _ | .star _ | .raw _ => rfl

end

theorem referenceName?_exchangeTable (p : Place) (t : TableRef) :
    (exchangeTable test p t).referenceName? = t.referenceName? := by
  cases t with
  | nestedJoin source label span => rw [exchangeTable]; rfl
  | _ => rw [exchangeTable]

theorem joinsJudged_exchange (p : Place) (i : Nat) (known : List String) (js : List Join) :
    joinsJudged p i known (exchangeJoins test p i js)
      = (joinsJudged p i known js).map (Judged.exchange test) := by
  induction js generalizing i known with
  | nil => rw [exchangeJoins]; rfl
  | cons join rest ih =>
    obtain ⟨kind, natural, table, condition, usingColumns, span⟩ := join
    rw [exchangeJoins, joinsJudged, joinsJudged, ih, List.map_append]
    unfold TableRef.referenceKey? joinJudged
    simp only [referenceName?_exchangeTable]
    congr 1
    cases table.referenceName? with
    | none => rfl
    | some name =>
      cases condition with
      | none => rfl
      | some condition =>
        simp only [Option.map_some]
        split
        · rfl
        · rw [equalitiesAt_exchange, List.map_map, List.map_map]
          rfl

mutual

/-- Exchanging sides changes the judged equalities themselves, and nothing else about them. -/
theorem judged_exchange (p : Place) : ∀ f : FromClause,
    judged p (exchangeSource test p f) = (judged p f).map (Judged.exchange test)
  | ⟨first, joins⟩ => by
    rw [exchangeSource, judged, judged, List.map_append, List.map_append,
      tableJudged_exchange (p ++ [0]) first, joinedJudged_exchange p 1 joins,
      joinsJudged_exchange p 1]
    unfold TableRef.referenceKey?
    rw [referenceName?_exchangeTable]

theorem tableJudged_exchange (p : Place) : ∀ t : TableRef,
    tableJudged p (exchangeTable test p t) = (tableJudged p t).map (Judged.exchange test)
  | .nestedJoin source _ _ => by
    rw [exchangeTable, tableJudged, tableJudged, judged_exchange (p ++ [0]) source]
  | .named _ _ _ | .derived _ _ _ | .lateral _ _ _ => by rw [exchangeTable]; rfl

theorem joinedJudged_exchange (p : Place) (i : Nat) : ∀ js : List Join,
    joinedJudged p i (exchangeJoins test p i js) = (joinedJudged p i js).map (Judged.exchange test)
  | [] => by rw [exchangeJoins]; rfl
  | ⟨_, _, table, _, _, _⟩ :: rest => by
    rw [exchangeJoins, joinedJudged, joinedJudged, List.map_append,
      tableJudged_exchange (p ++ [i] ++ [0]) table, joinedJudged_exchange p (i + 1) rest]

end

/-! ## What is reported after an exchange -/

theorem sides?_swap (known : List String) (joined : String) (e : Located BinaryExpr) :
    sides? known joined (swap e).value = (sides? known joined e.value).map Prod.swap := by
  unfold sides? swap
  cases operandSide? known joined e.value.left <;>
    cases operandSide? known joined e.value.right <;> rfl

def Preference.other : Preference → Preference
  | .earlier => .later
  | .later => .earlier

theorem swap_reversed (preferred : Preference) :
    (reversed preferred).swap = reversed preferred.other := by
  cases preferred <;> rfl

theorem reversed_other_ne (preferred : Preference) :
    reversed preferred.other ≠ reversed preferred := by
  cases preferred <;> decide

/-- Whether an equality is one of two columns. -/
def isColumnPair (e : BinaryExpr) : Bool :=
  e.left.unnested.column?.isSome && e.right.unnested.column?.isSome

theorem isColumnPair_of_sides? {known : List String} {joined : String} {e : BinaryExpr}
    {sides : Side × Side} (h : sides? known joined e = some sides) : isColumnPair e = true := by
  unfold sides? operandSide? at h
  unfold isColumnPair
  cases hleft : e.left.unnested.column? <;> cases hright : e.right.unnested.column? <;>
    simp_all

/-- The `FROM` clause with the sides of all that is reported exchanged. -/
def mended (preferred : Preference) (f : FromClause) : FromClause :=
  exchangeSource (fun p _ => ((reported preferred f).map Judged.place).contains p) [] f

/-- The `FROM` clause with the sides of every equality of two columns exchanged. -/
def mirrored (f : FromClause) : FromClause := exchangeSource (fun _ e => isColumnPair e) [] f

def Judged.swap (j : Judged) : Judged :=
  { j with equality := JoinConditionOrder.swap j.equality }

theorem Judged.isReported_swap_iff (preferred : Preference) (j : Judged) :
    j.swap.IsReported preferred.other ↔ j.IsReported preferred := by
  unfold IsReported Judged.swap
  rw [sides?_swap, ← swap_reversed]
  exact (Option.map_injective Prod.swap_injective).eq_iff (b := some (reversed preferred))

theorem reported_mended (preferred : Preference) (f : FromClause) :
    reported preferred (mended preferred f) = [] := by
  rw [reported, mended, judged_exchange, List.filter_eq_nil_iff]
  intro j' hj'
  obtain ⟨j, hj, rfl⟩ := List.mem_map.1 hj'
  rw [decide_eq_true_iff]
  by_cases hreported : j.IsReported preferred
  · have hplace : j.place ∈ (reported preferred f).map Judged.place :=
      List.mem_map_of_mem (List.mem_filter.2 ⟨hj, by simpa using hreported⟩)
    have hswap : j.exchange (fun p _ => ((reported preferred f).map Judged.place).contains p)
        = j.swap := by
      rw [Judged.exchange, exchangeAt, if_pos (by simpa using hplace), Judged.swap]
    rw [hswap]
    intro hagain
    have hother := (j.isReported_swap_iff preferred).2 hreported
    exact reversed_other_ne preferred (Option.some.inj (hother.symm.trans hagain))
  · -- No other judged equality stands at this place.
    have hplace : j.place ∉ (reported preferred f).map Judged.place := by
      intro hmem
      obtain ⟨other, hother, hsame⟩ := List.mem_map.1 hmem
      obtain ⟨hother, hyes⟩ := List.mem_filter.1 hother
      obtain rfl := List.inj_on_of_nodup_map (nodup_judged [] f) hother hj hsame
      exact hreported (by simpa using hyes)
    have hsame : j.exchange (fun p _ => ((reported preferred f).map Judged.place).contains p)
        = j := by
      rw [Judged.exchange, exchangeAt, if_neg (by simpa using hplace)]
    rwa [hsame]

theorem reported_mirrored (preferred : Preference) (f : FromClause) :
    reported preferred.other (mirrored f) = (reported preferred f).map Judged.swap := by
  have hswap : ∀ j : Judged, isColumnPair j.equality.value = true →
      j.exchange (fun _ e => isColumnPair e) = j.swap := by
    intro j h
    rw [Judged.exchange, exchangeAt, if_pos h, Judged.swap]
  have hreported : ∀ j : Judged,
      (j.exchange fun _ e => isColumnPair e).IsReported preferred.other
        ↔ j.IsReported preferred := by
    intro j
    by_cases h : isColumnPair j.equality.value = true
    · rw [hswap j h, j.isReported_swap_iff]
    · -- Nothing but columns has sides.
      have hsame : (j.exchange fun _ e => isColumnPair e) = j := by
        rw [Judged.exchange, exchangeAt, if_neg h]
      rw [hsame]
      exact iff_of_false (fun hj => h (isColumnPair_of_sides? hj))
        fun hj => h (isColumnPair_of_sides? hj)
  rw [reported, mirrored, judged_exchange, List.filter_map, reported]
  simp only [Function.comp_def, hreported]
  refine List.map_congr_left fun j hj => hswap j ?_
  have hyes := (List.mem_filter.1 hj).2
  exact isColumnPair_of_sides? (of_decide_eq_true hyes)

/-- A finding without its message. -/
def unworded (d : Diagnostic) : Diagnostic := { d with message := "" }

theorem unworded_report (ctx : Context) (message message' : String) (span : Span) :
    unworded (ctx.report message span) = unworded (ctx.report message' span) := by
  unfold Context.report Context.diagnostic Diagnostic.withSpan
  split <;> rfl

theorem unworded_finding?_swap (ctx : Context) (preferred preferred' : Preference)
    (e : Located BinaryExpr) :
    (finding? ctx preferred' (swap e)).map unworded = (finding? ctx preferred e).map unworded := by
  unfold finding? swap
  cases e.value.left.unnested.column? with
  | none => cases e.value.right.unnested.column? <;> rfl
  | some left =>
    cases e.value.right.unnested.column? with
    | none => rfl
    | some right => exact congrArg some (unworded_report ..)

theorem reports_mirrored (ctx : Context) (preferred : Preference) (f : FromClause) :
    (reports ctx preferred.other (mirrored f)).map unworded
      = (reports ctx preferred f).map unworded := by
  have hsome : ∀ (preferred : Preference) (f : FromClause),
      ((reports ctx preferred f).map unworded).map some
        = (reported preferred f).map fun j => (finding? ctx preferred j.equality).map unworded := by
    intro preferred f
    have hreports := congrArg (List.map (Option.map unworded)) (reports_eq ctx preferred f)
    rw [List.map_map, List.map_map] at hreports
    rw [List.map_map]
    exact hreports
  refine (Option.some_injective _).list_map ?_
  rw [hsome, hsome, reported_mirrored, List.map_map]
  refine List.map_congr_left fun j _ => ?_
  exact unworded_finding?_swap ctx preferred preferred.other j.equality

theorem disjoint_reported (preferred : Preference) (f : FromClause) :
    ((reported preferred f).map Judged.place).Disjoint
      ((reported preferred.other f).map Judged.place) := by
  intro p hp hp'
  obtain ⟨j, hj, rfl⟩ := List.mem_map.1 hp
  obtain ⟨j', hj', hplace⟩ := List.mem_map.1 hp'
  obtain ⟨hmem, hyes⟩ := List.mem_filter.1 hj
  obtain ⟨hmem', hyes'⟩ := List.mem_filter.1 hj'
  obtain rfl := List.inj_on_of_nodup_map (nodup_judged [] f) hmem' hmem hplace
  have hsides := (of_decide_eq_true hyes').symm.trans (of_decide_eq_true hyes)
  exact reversed_other_ne preferred (Option.some.inj hsides)

theorem check_eq_reports (s : Statement) (ctx : Context) :
    check s ctx = ((Node.statement s).cores.filterMap Core.source).flatMap
      (reports ctx (preference ctx)) := by
  rw [check, List.filterMap_eq_flatMap_toList, List.flatMap_assoc]
  refine List.flatMap_congr fun core _ => ?_
  cases core.source with
  | none => rfl
  | some f => exact (List.flatMap_singleton ..).symm

/-- Exchanging what is reported mends it, and exchanging all sides exchanges the preferences. -/
theorem sides_exchanged (ctx : Context) :
    (∀ s, check s ctx = ((Node.statement s).cores.filterMap Core.source).flatMap
      (reports ctx (preference ctx)))
    ∧ ∀ (f : FromClause) (preferred : Preference),
      ((judged [] f).map Judged.place).Nodup
      ∧ (∀ j ∈ judged [] f,
        (Node.source f).at? j.place = some (.expr (expression j.equality)))
      ∧ (reports ctx preferred f).map some
        = (reported preferred f).map (fun j => finding? ctx preferred j.equality)
      ∧ reports ctx preferred (mended preferred f) = []
      ∧ reported preferred.other (mirrored f) = (reported preferred f).map Judged.swap
      ∧ (reports ctx preferred.other (mirrored f)).map unworded
        = (reports ctx preferred f).map unworded
      ∧ ((reported preferred f).map Judged.place).Disjoint
        ((reported preferred.other f).map Judged.place) := by
  refine ⟨fun s => check_eq_reports s ctx, fun f preferred => ⟨nodup_judged [] f,
    at?_of_mem_judged [] f rfl, reports_eq ctx preferred f, ?_, reported_mirrored preferred f,
    reports_mirrored ctx preferred f, disjoint_reported preferred f⟩⟩
  have hnone := reports_eq ctx preferred (mended preferred f)
  rw [reported_mended] at hnone
  exact List.map_eq_nil_iff.1 hnone

theorem sides_exchanged_chainedJoins :
    (reports plainContext .earlier chainedJoins).length = 1
      ∧ (∀ j ∈ judged [] chainedJoins,
        (Node.source chainedJoins).at? j.place = some (.expr (expression j.equality)))
      ∧ reports plainContext .earlier (mended .earlier chainedJoins) = []
      ∧ (reports plainContext .later (mirrored chainedJoins)).map unworded
        = (reports plainContext .earlier chainedJoins).map unworded := by
  obtain ⟨-, hplaces, -, hmended, -, hmirrored, -⟩ :=
    (sides_exchanged plainContext).2 chainedJoins .earlier
  exact ⟨by decide, hplaces, hmended, hmirrored⟩

end SqlLint.Rules.JoinConditionOrder
