import Mathlib.Data.List.Nodup
import Mathlib.Data.List.Pairwise
import Mathlib.Data.List.Perm.Basic
import SqlLint.Proofs.Lists
import SqlLint.Proofs.Outside
import SqlLint.Rules.References

/-! # Column scopes

The references of a core are those that no nested query hides. What the cores leave is in the
clauses after the body of a query, or in the rows of `VALUES`. Main statements: `perm_scopes`, these
scopes have every occurrence of a column reference, and none twice; `columns_partition`, what
follows for the cores of a statement and for the two rules that judge references core by core. -/

namespace SqlLint

/-- A column reference with the place where it stands. -/
abbrev Occurrence := Place × Located ColumnRef

namespace Node

/-! ## Occurrences -/

def occurrence? (x : Place × Node) : Option Occurrence := x.2.column?.map (x.1, ·)

/-- Every column reference under a node that stands at `base`. -/
def occurrences (base : Place) (n : Node) : List Occurrence :=
  (n.tree.placesFrom base).filterMap occurrence?

/-- Those that no nested query hides. -/
def plainOccurrences (base : Place) (n : Node) : List Occurrence :=
  (n.tree.outsideFrom (·.query?.isSome) base).filterMap occurrence?

/-- Those of nodes that are the children from number `i` on of a node at `base`. -/
def plainOccurrencesAll (base : Place) (i : Nat) (ns : List Node) : List Occurrence :=
  (ns.zipIdx i).flatMap fun x => x.1.plainOccurrences (base ++ [x.2])

def scope : Place × Node → List Occurrence
  | (p, .core c) => (Node.core c).plainOccurrences p
  | (p, .query q) => plainOccurrencesAll p (q.ctes.length + 1) q.trailing
  | (p, .body (.values rows _)) => plainOccurrencesAll p 0 (rows.flatten.map .expr)
  | _ => []

/-- Whether the references of a node are in the scope of a node above it. -/
def isPart : Node → Bool
  | .item _ | .source _ | .join _ | .table _ | .orderBy _ | .expr _ => true
  | .statement _ | .query _ | .cte _ | .body _ | .core _ => false

/-- The occurrences under a node that are in the scope of a node above it. -/
def freeOccurrences (base : Place) (n : Node) : List Occurrence :=
  if n.isPart then n.plainOccurrences base else []

theorem mem_occurrences_iff (root : Node) (place : Place) (c : Located ColumnRef) :
    (place, c) ∈ root.occurrences [] ↔ (root.at? place).bind column? = some c := by
  rw [occurrences, List.mem_filterMap, Option.bind_eq_some_iff]
  constructor
  · rintro ⟨⟨p, n⟩, hn, hc⟩
    obtain ⟨c', hc', hx⟩ := Option.map_eq_some_iff.1 hc
    obtain ⟨rfl, rfl⟩ := Prod.mk.inj hx
    exact ⟨n, (root.mem_places_iff p n).1 hn, hc'⟩
  · rintro ⟨n, hn, hc⟩
    exact ⟨(place, n), (root.mem_places_iff place n).2 hn, by simp [occurrence?, hc]⟩

theorem nodup_fst_occurrences (root : Node) : ((root.occurrences []).map Prod.fst).Nodup := by
  refine root.nodup_fst_places.sublist (map_filterMap_sublist (fun x y hy => ?_) _)
  obtain ⟨c, -, rfl⟩ := Option.map_eq_some_iff.1 hy
  rfl

/-! ## One node -/

theorem occurrences_eq (base : Place) (n : Node) :
    n.occurrences base = (occurrence? (base, n)).toList
      ++ n.children.zipIdx.flatMap fun x => x.1.occurrences (base ++ [x.2]) := by
  rw [occurrences, placesFrom_eq, List.filterMap_cons, List.filterMap_flatMap]
  cases occurrence? (base, n) <;> rfl

theorem plainOccurrences_query (base : Place) (q : Query) :
    (Node.query q).plainOccurrences base = [] := by
  rw [plainOccurrences, outsideFrom_eq, if_pos (by rfl), List.filterMap_nil]

theorem plainOccurrences_eq (base : Place) {n : Node} (h : n.query? = none) :
    n.plainOccurrences base
      = (occurrence? (base, n)).toList ++ plainOccurrencesAll base 0 n.children := by
  rw [plainOccurrences, outsideFrom_eq, if_neg (by simp [h]), List.filterMap_cons,
    List.filterMap_flatMap]
  cases occurrence? (base, n) <;> rfl

theorem flatMap_freeOccurrences {ns : List Node} (base : Place) (i : Nat)
    (h : ∀ m ∈ ns, m.isPart ∨ m.query?.isSome) :
    ((ns.zipIdx i).flatMap fun x => x.1.freeOccurrences (base ++ [x.2]))
      = plainOccurrencesAll base i ns := by
  refine List.flatMap_congr fun x hx => ?_
  rw [freeOccurrences]
  split
  · rfl
  · next hpart =>
    have hquery : x.1.query?.isSome :=
      (h x.1 (List.fst_mem_of_mem_zipIdx hx)).resolve_left hpart
    cases hn : x.1 with
    | query q => rw [plainOccurrences_query]
    | _ => simp [hn, query?] at hquery

theorem flatMap_freeOccurrences_eq_nil {ns : List Node} (base : Place) (i : Nat)
    (h : ∀ m ∈ ns, m.isPart = false) :
    ((ns.zipIdx i).flatMap fun x => x.1.freeOccurrences (base ++ [x.2])) = [] := by
  refine List.flatMap_eq_nil_iff.2 fun x hx => ?_
  rw [freeOccurrences, h x.1 (List.fst_mem_of_mem_zipIdx hx)]
  rfl

theorem isPart_or_query_of_part {n m : Node} (h : n.isPart) (hm : m ∈ n.children) :
    m.isPart ∨ m.query?.isSome := by
  rw [mem_children_iff] at hm
  cases n <;> simp only [isPart, Bool.false_eq_true] at h <;> cases m <;>
    simp_all [Holds, isPart, query?]

theorem isPart_of_core {c : Core} {m : Node} (hm : m ∈ (Node.core c).children) : m.isPart := by
  rw [mem_children_iff] at hm
  cases m <;> simp_all [Holds, isPart]

theorem isPart_of_trailing {q : Query} {m : Node} (hm : m ∈ q.trailing) : m.isPart := by
  simp only [Query.trailing, List.mem_append, List.mem_map] at hm
  obtain (⟨_, -, rfl⟩ | ⟨_, -, rfl⟩) | ⟨_, -, rfl⟩ := hm <;> rfl

theorem freeOccurrences_append_scope (base : Place) (n : Node) :
    n.freeOccurrences base ++ scope (base, n) = (occurrence? (base, n)).toList
      ++ n.children.zipIdx.flatMap fun x => x.1.freeOccurrences (base ++ [x.2]) := by
  by_cases hpart : n.isPart
  · have hfree := flatMap_freeOccurrences base 0 fun m => isPart_or_query_of_part hpart
    have hscope : scope (base, n) = [] := by cases n <;> simp_all [isPart, scope]
    have hquery : n.query? = none := by cases n <;> simp_all [isPart, query?]
    rw [hfree, hscope, freeOccurrences, if_pos hpart, List.append_nil,
      plainOccurrences_eq base hquery]
  · rw [freeOccurrences, if_neg hpart, List.nil_append]
    cases n with
    | core c =>
      rw [flatMap_freeOccurrences base 0 fun m hm => .inl (isPart_of_core hm)]
      exact plainOccurrences_eq base rfl
    | query q =>
      -- What stands before the clauses has scopes of its own.
      have hbefore : ∀ m ∈ q.ctes.map Node.cte ++ [.body q.body], m.isPart = false := by
        intro m hm
        simp only [List.mem_append, List.mem_map, List.mem_singleton] at hm
        obtain ⟨_, -, rfl⟩ | rfl := hm <;> rfl
      rw [children_query, List.append_cons, List.zipIdx_append, List.flatMap_append,
        flatMap_freeOccurrences_eq_nil base 0 hbefore,
        flatMap_freeOccurrences base _ fun m hm => .inl (isPart_of_trailing hm)]
      simp [scope, occurrence?, column?]
    | body b =>
      cases b with
      | values rows span =>
        have hrows : ∀ m ∈ rows.flatten.map Node.expr, m.isPart ∨ m.query?.isSome := by
          intro m hm
          obtain ⟨_, -, rfl⟩ := List.mem_map.1 hm
          exact .inl rfl
        rw [children, flatMap_freeOccurrences base 0 hrows]
        rfl
      | _ => rfl
    | statement s =>
      rw [flatMap_freeOccurrences_eq_nil base 0 (by simp [children, isPart])]
      rfl
    | cte c => rfl
    | _ => simp [isPart] at hpart

/-! ## All nodes -/

theorem perm_scopes_from (n : Node) (base : Place) :
    (n.occurrences base).Perm
      (n.freeOccurrences base ++ (n.tree.placesFrom base).flatMap scope) := by
  induction n using induction_children generalizing base with
  | h n ih =>
    -- The scopes under a child stay together; what the children leave comes to the node itself.
    let free := fun x : Node × Nat => x.1.freeOccurrences (base ++ [x.2])
    let below := fun x : Node × Nat => (x.1.tree.placesFrom (base ++ [x.2])).flatMap scope
    have hchildren : (n.children.zipIdx.flatMap fun x => x.1.occurrences (base ++ [x.2])).Perm
        (n.children.zipIdx.flatMap free ++ n.children.zipIdx.flatMap below) :=
      (List.Perm.flatMap_left _ fun x hx => ih x.1 (List.fst_mem_of_mem_zipIdx hx) _).trans
        (List.flatMap_append_perm _ free below).symm
    rw [occurrences_eq, placesFrom_eq, List.flatMap_cons, List.flatMap_assoc, ← List.append_assoc,
      freeOccurrences_append_scope, List.append_assoc]
    exact hchildren.append_left _

theorem perm_scopes (s : Statement) :
    ((statement s).occurrences []).Perm ((statement s).places.flatMap scope) :=
  perm_scopes_from (statement s) []

theorem scope_unique {s : Statement} {x : Occurrence} {a b : Place × Node}
    (ha : a ∈ (statement s).places) (hb : b ∈ (statement s).places) (hxa : x ∈ scope a)
    (hxb : x ∈ scope b) : a = b := by
  have hnodup : ((statement s).places.flatMap scope).Nodup :=
    (perm_scopes s).nodup_iff.1 (List.Nodup.of_map _ (nodup_fst_occurrences _))
  have hdisjoint := (List.nodup_flatMap.1 hnodup).2
  have : Std.Symm (Function.onFun List.Disjoint scope) := ⟨fun _ _ h _ hb ha => h ha hb⟩
  by_contra hne
  exact hdisjoint.forall ha hb hne hxa hxb

theorem existsUnique_scope (s : Statement) {x : Occurrence}
    (hx : x ∈ (statement s).occurrences []) :
    ∃! owner, owner ∈ (statement s).places ∧ x ∈ scope owner := by
  obtain ⟨owner, howner, hscope⟩ := List.mem_flatMap.1 ((perm_scopes s).mem_iff.1 hx)
  exact ⟨owner, ⟨howner, hscope⟩, fun other h => scope_unique h.1 howner h.2 hscope⟩

/-! ## The scope of a core -/

/-- Whether a place is another or below it, with no query on the way from there. -/
def Within (root : Node) (above place : Place) : Prop :=
  above <+: place
    ∧ ∀ p n, above <+: p → p <+: place → root.at? p = some n → n.query? = none

theorem mem_outside_iff {root m n : Node} {p place : Place} (hm : root.at? p = some m) :
    (place, n) ∈ m.tree.outsideFrom (·.query?.isSome) p
      ↔ root.Within p place ∧ root.at? place = some n := by
  have hat : ∀ q, root.at? (p ++ q) = m.at? q := by
    intro q
    rw [at?_append, hm, Option.bind_some]
  have hclear : ∀ q, m.tree.Clear (·.query?.isSome) q ↔ root.Within p (p ++ q) := by
    intro q
    constructor
    · refine fun h => ⟨List.prefix_append p q, ?_⟩
      rintro _ n ⟨r, rfl⟩ hr hn
      rw [hat, ← get?_tree] at hn
      simpa using h r n ((List.prefix_append_right_inj p).1 hr) hn
    · intro h r n hr hn
      rw [get?_tree, ← hat] at hn
      simp [h.2 (p ++ r) n (List.prefix_append p r) ((List.prefix_append_right_inj p).2 hr) hn]
  simp only [Rose.mem_outsideFrom_iff, get?_tree, hclear, ← hat]
  constructor
  · rintro ⟨q, rfl, hn, hwithin⟩
    exact ⟨hwithin, hn⟩
  · rintro ⟨hwithin, hn⟩
    obtain ⟨q, rfl⟩ := hwithin.1
    exact ⟨q, rfl, hn, hwithin⟩

theorem mem_scope_core_iff {root : Node} {p place : Place} {core : Core} {c : Located ColumnRef}
    (hcore : root.at? p = some (.core core)) :
    (place, c) ∈ scope (p, .core core)
      ↔ root.Within p place ∧ (root.at? place).bind column? = some c := by
  rw [scope, plainOccurrences, List.mem_filterMap, Option.bind_eq_some_iff]
  constructor
  · rintro ⟨⟨q, n⟩, hn, hc⟩
    obtain ⟨c', hc', hx⟩ := Option.map_eq_some_iff.1 hc
    obtain ⟨rfl, rfl⟩ := Prod.mk.inj hx
    obtain ⟨hwithin, hat⟩ := (mem_outside_iff hcore).1 hn
    exact ⟨hwithin, n, hat, hc'⟩
  · rintro ⟨hwithin, n, hat, hc⟩
    exact ⟨(place, n), (mem_outside_iff hcore).2 ⟨hwithin, hat⟩, by simp [occurrence?, hc]⟩

/-! ## References without their places -/

theorem map_snd_plainOccurrences (base : Place) (n : Node) :
    (n.plainOccurrences base).map Prod.snd = n.collectOutside (·.query?.isSome) column? := by
  rw [collectOutside_eq n _ _ base, plainOccurrences, List.map_filterMap]
  simp [occurrence?, Function.comp_def]

theorem map_snd_plainOccurrencesAll (base : Place) (i : Nat) (ns : List Node) :
    (plainOccurrencesAll base i ns).map Prod.snd
      = ns.flatMap fun n => n.collectOutside (·.query?.isSome) column? := by
  simp only [plainOccurrencesAll, List.map_flatMap, map_snd_plainOccurrences]
  conv => rhs; rw [← List.zipIdx_map_fst i ns, List.flatMap_map]

theorem map_snd_occurrences (root : Node) :
    (root.occurrences []).map Prod.snd = root.columns := by
  rw [columns, collect_eq, ← map_snd_places, occurrences, List.map_filterMap, List.filterMap_map]
  simp [occurrence?, places, Rose.places, Function.comp_def]

end Node

/-- The references in the clauses after the body of a query, those in nested queries left out. -/
def Query.clauseColumns (q : Query) : List (Located ColumnRef) :=
  q.trailing.flatMap fun n => n.collectOutside (·.query?.isSome) Node.column?

/-- The references in the rows of `VALUES`, those in nested queries left out. -/
def Body.rowColumns : Body → List (Located ColumnRef)
  | .values rows _ =>
    (rows.flatten.map Node.expr).flatMap fun n => n.collectOutside (·.query?.isSome) Node.column?
  | _ => []

namespace Node

def scopeColumns (n : Node) : List (Located ColumnRef) :=
  n.core?.elim [] Core.scopeColumns ++ n.query?.elim [] Query.clauseColumns
    ++ n.body?.elim [] Body.rowColumns

theorem scopeColumns_core (c : Core) : (core c).scopeColumns = c.scopeColumns := by
  simp [scopeColumns, core?, query?, body?]

theorem map_snd_scope (x : Place × Node) : (scope x).map Prod.snd = x.2.scopeColumns := by
  obtain ⟨p, n⟩ := x
  cases n with
  | core c =>
    rw [scopeColumns_core]
    exact map_snd_plainOccurrences p (.core c)
  | query q =>
    have hown : (query q).scopeColumns = q.clauseColumns := by
      simp [scopeColumns, core?, query?, body?]
    rw [hown]
    exact map_snd_plainOccurrencesAll p _ q.trailing
  | body b =>
    cases b with
    | values rows span => exact map_snd_plainOccurrencesAll p 0 (rows.flatten.map .expr)
    | _ => rfl
  | _ => rfl

theorem flatMap_collect {α β : Type} (root : Node) (view : Node → Option α) (f : α → List β) :
    (root.collect view).flatMap f = root.preorder.flatMap fun n => (view n).elim [] f := by
  rw [collect_eq, List.filterMap_eq_flatMap_toList, List.flatMap_assoc]
  refine List.flatMap_congr fun n _ => ?_
  cases view n <;> simp

theorem perm_scopeColumns (s : Statement) :
    (statement s).columns.Perm
      ((statement s).cores.flatMap Core.scopeColumns
        ++ (statement s).queries.flatMap Query.clauseColumns
        ++ (statement s).bodies.flatMap Body.rowColumns) := by
  have hscopes : ((statement s).places.flatMap scope).map Prod.snd
      = (statement s).preorder.flatMap scopeColumns := by
    simp only [List.map_flatMap, map_snd_scope]
    rw [← map_snd_places, List.flatMap_map]
  rw [cores, queries, bodies, flatMap_collect, flatMap_collect, flatMap_collect,
    ← map_snd_occurrences]
  refine ((perm_scopes s).map Prod.snd).trans ?_
  rw [hscopes]
  exact (((List.flatMap_append_perm ..).append_right _).trans (List.flatMap_append_perm ..)).symm

end Node

/-! ## Rules that judge references core by core -/

theorem flatMap_filter_map {α β γ : Type} (test : α → Bool) (f : α → List β) (g : β → γ)
    (l : List α) :
    ((l.filter test).flatMap fun a => (f a).map g)
      = (l.flatMap fun a => if test a then f a else []).map g := by
  induction l with
  | nil => rfl
  | cons a l ih => cases h : test a <;> simp [h, ih]

namespace Rules

/-- The references that the rule reports in a core. -/
def Qualification.faults (core : Core) : List (Located ColumnRef) :=
  if 1 < core.tables.length then (tableColumns core).filter (!·.value.isQualified) else []

theorem Qualification.check_eq (s : Statement) (ctx : Context) :
    check s ctx
      = ((Node.statement s).cores.flatMap faults).map fun c =>
          ctx.report (message c.value) c.span := by
  rw [check, flatMap_filter_map]
  simp only [decide_eq_true_eq]
  rfl

namespace Consistency

/-- The references that are not named in a style. -/
def strays (style : Style) (columns : List (Located ColumnRef)) : List (Located ColumnRef) :=
  match style with
  | .consistent =>
    match columns with
    | [] => []
    | first :: _ => (columns.find? (·.value.isQualified != first.value.isQualified)).toList
  | .qualified => columns.filter (!·.value.isQualified)
  | .unqualified => columns.filter (·.value.isQualified)

def complaint (style : Style) (c : ColumnRef) : String :=
  match style with
  | .consistent => "Avoid mixing qualified and unqualified references."
  | .qualified => s!"Reference '{c.name.value}' should be qualified with its table name."
  | .unqualified => s!"Reference '{c.text}' should not be qualified in a single-table select."

theorem checkColumns_eq (ctx : Context) (style : Style) (columns : List (Located ColumnRef)) :
    checkColumns ctx style columns
      = (strays style columns).map fun c => ctx.report (complaint style c.value) c.span := by
  cases style with
  | consistent => cases columns <;> rfl
  | qualified => rfl
  | unqualified => rfl

theorem strays_sublist (style : Style) (columns : List (Located ColumnRef)) :
    (strays style columns).Sublist columns := by
  cases style with
  | consistent =>
    cases columns with
    | nil => exact .slnil
    | cons first rest =>
      simp only [strays]
      cases hfind : (first :: rest).find? _ with
      | none => exact List.nil_sublist _
      | some c => exact List.singleton_sublist.2 (List.mem_of_find?_eq_some hfind)
  | qualified => exact List.filter_sublist
  | unqualified => exact List.filter_sublist

/-- The references that the rule reports in a core. -/
def faults (style : Style) (core : Core) : List (Located ColumnRef) :=
  if core.tables.length = 1 then strays style (tableColumns core) else []

theorem check_eq (s : Statement) (ctx : Context) :
    check s ctx
      = ((Node.statement s).cores.flatMap (faults (style ctx))).map fun c =>
          ctx.report (complaint (style ctx) c.value) c.span := by
  simp only [check, checkColumns_eq]
  rw [flatMap_filter_map]
  simp only [beq_iff_eq]
  rfl

end Consistency

theorem faults_sublist (style : Consistency.Style) (core : Core) :
    (Qualification.faults core ++ Consistency.faults style core).Sublist core.scopeColumns := by
  have hcolumns : (tableColumns core).Sublist core.scopeColumns := List.filter_sublist
  by_cases hone : core.tables.length = 1
  · have hmany : ¬ 1 < core.tables.length := by omega
    rw [Qualification.faults, Consistency.faults, if_neg hmany, if_pos hone, List.nil_append]
    exact (Consistency.strays_sublist style _).trans hcolumns
  · rw [Consistency.faults, if_neg hone, List.append_nil, Qualification.faults]
    split
    · exact List.filter_sublist.trans hcolumns
    · exact List.nil_sublist _

end Rules

theorem exists_occurrences {f g : Node → List (Located ColumnRef)}
    (h : ∀ n, (f n ++ g n).Sublist n.scopeColumns) (nodes : List (Place × Node)) :
    ∃ xs ys zs : List Occurrence, xs.map Prod.snd = nodes.flatMap (fun x => f x.2)
      ∧ ys.map Prod.snd = nodes.flatMap (fun x => g x.2)
      ∧ (xs ++ ys).Perm zs ∧ zs.Sublist (nodes.flatMap Node.scope) := by
  induction nodes with
  | nil => exact ⟨[], [], [], rfl, rfl, .refl _, .slnil⟩
  | cons x nodes ih =>
    obtain ⟨xs, ys, zs, hxs, hys, hperm, hzs⟩ := ih
    have hpicked := h x.2
    rw [← Node.map_snd_scope, List.sublist_map_iff] at hpicked
    obtain ⟨picked, hscope, hpicked⟩ := hpicked
    obtain ⟨as, bs, rfl, has, hbs⟩ := List.append_eq_map_iff.1 hpicked
    -- The picks of one node stand side by side in its scope, but apart in the two lists.
    refine ⟨as ++ xs, bs ++ ys, as ++ bs ++ zs, ?_, ?_, ?_, ?_⟩
    · rw [List.map_append, has, hxs, List.flatMap_cons]
    · rw [List.map_append, hbs, hys, List.flatMap_cons]
    · have hswap : (xs ++ (bs ++ ys)).Perm (bs ++ (xs ++ ys)) := List.perm_append_comm_assoc ..
      rw [List.append_assoc, List.append_assoc]
      exact (hswap.trans (hperm.append_left bs)).append_left as
    · rw [List.flatMap_cons]
      exact hscope.append hzs

open Rules in
/-- No reference is reported by both rules, or twice by one. -/
theorem exists_reported (s : Statement) (ctx ctx' : Context) :
    ∃ xs ys : List Occurrence,
      Qualification.check s ctx
        = xs.map (fun x => ctx.report (Qualification.message x.2.value) x.2.span)
      ∧ Consistency.check s ctx'
        = ys.map (fun x =>
            ctx'.report (Consistency.complaint (Consistency.style ctx') x.2.value) x.2.span)
      ∧ (∀ x ∈ xs ++ ys, ((Node.statement s).at? x.1).bind Node.column? = some x.2)
      ∧ ((xs ++ ys).map Prod.fst).Nodup := by
  have hpicked : ∀ n : Node, (n.core?.elim [] Qualification.faults
      ++ n.core?.elim [] (Consistency.faults (Consistency.style ctx'))).Sublist n.scopeColumns := by
    intro n
    cases n with
    | core c => rw [Node.scopeColumns_core]; exact faults_sublist _ c
    | _ => exact List.nil_sublist _
  have hcores : ∀ f : Core → List (Located ColumnRef), (Node.statement s).cores.flatMap f
      = (Node.statement s).places.flatMap fun x => x.2.core?.elim [] f := by
    intro f
    rw [Node.cores, Node.flatMap_collect, ← Node.map_snd_places, List.flatMap_map]
  obtain ⟨xs, ys, zs, hxs, hys, hperm, hzs⟩ := exists_occurrences hpicked (Node.statement s).places
  have hscopes := Node.perm_scopes s
  refine ⟨xs, ys, ?_, ?_, fun x hx => ?_, ?_⟩
  · rw [Qualification.check_eq, hcores, ← hxs, List.map_map]
    rfl
  · rw [Consistency.check_eq, hcores, ← hys, List.map_map]
    rfl
  · exact (Node.mem_occurrences_iff ..).1 (hscopes.mem_iff.2 (hzs.subset (hperm.mem_iff.1 hx)))
  · rw [(hperm.map Prod.fst).nodup_iff]
    exact ((hscopes.map Prod.fst).nodup_iff.1 (Node.nodup_fst_occurrences _)).sublist
      (hzs.map Prod.fst)

open Rules in
/-- The scopes share the column references, so no reference is reported by both rules. -/
theorem Statement.columns_partition (s : Statement) :
    (Node.statement s).columns.Perm
      ((Node.statement s).cores.flatMap Core.scopeColumns
        ++ (Node.statement s).queries.flatMap Query.clauseColumns
        ++ (Node.statement s).bodies.flatMap Body.rowColumns)
    ∧ (∀ p core, ((Node.scope (p, .core core)).map Prod.snd) = core.scopeColumns)
    ∧ (∀ place c, ((Node.statement s).at? place).bind Node.column? = some c →
      (∃! owner, owner ∈ (Node.statement s).places ∧ (place, c) ∈ Node.scope owner)
      ∧ ((∃ p core, (Node.statement s).at? p = some (.core core)
            ∧ (Node.statement s).Within p place)
          ↔ ∃! p, ∃ core, (Node.statement s).at? p = some (.core core)
            ∧ (place, c) ∈ Node.scope (p, .core core)))
    ∧ ∀ ctx ctx', ∃ xs ys : List Occurrence,
      Qualification.check s ctx
        = xs.map (fun x => ctx.report (Qualification.message x.2.value) x.2.span)
      ∧ Consistency.check s ctx'
        = ys.map (fun x =>
            ctx'.report (Consistency.complaint (Consistency.style ctx') x.2.value) x.2.span)
      ∧ (∀ x ∈ xs ++ ys, ((Node.statement s).at? x.1).bind Node.column? = some x.2)
      ∧ ((xs ++ ys).map Prod.fst).Nodup := by
  refine ⟨Node.perm_scopeColumns s, fun p core => ?_, fun place c hc => ⟨?_, ?_, ?_⟩,
    exists_reported s⟩
  · exact Node.map_snd_plainOccurrences p (.core core)
  · exact Node.existsUnique_scope s ((Node.mem_occurrences_iff ..).2 hc)
  · rintro ⟨p, core, hcore, hwithin⟩
    have hscope : (place, c) ∈ Node.scope (p, .core core) :=
      (Node.mem_scope_core_iff hcore).2 ⟨hwithin, hc⟩
    refine ⟨p, ⟨core, hcore, hscope⟩, ?_⟩
    rintro q ⟨other, hother, hscope'⟩
    have hsame := Node.scope_unique ((Node.mem_places_iff ..).2 hother)
      ((Node.mem_places_iff ..).2 hcore) hscope' hscope
    exact congrArg Prod.fst hsame
  · rintro ⟨p, ⟨core, hcore, hscope⟩, -⟩
    exact ⟨p, core, hcore, ((Node.mem_scope_core_iff hcore).1 hscope).1⟩

/-- `SELECT e` -/
def selecting (e : Expr) : Core where
  distinct := false
  columns := [.expr e none]
  source := none
  condition := none
  groupBy := []
  having := none
  qualify := none
  orderBy := []
  limit := none
  offset := none
  span := .empty

/-- The reference `name`. -/
def bareColumn (name : String) : Expr := ⟨.column ⟨[], { value := name }⟩, .empty⟩

/-- `SELECT (SELECT a UNION SELECT b ORDER BY c)` -/
def compoundItem : Statement :=
  let compound : Query :=
    { ctes := []
      recursive := false
      body := .setOperation ⟨.union, .implicit, .core (selecting (bareColumn "a")),
        .core (selecting (bareColumn "b")), .empty⟩
      orderBy := [⟨bareColumn "c", none, none⟩]
      limit := none
      offset := none
      span := .empty }
  .query (.ofCore (selecting ⟨.subquery compound, .empty⟩))

/-- Of the two cores around `a`, one has it in its scope. -/
theorem Statement.columns_partition_compoundItem :
    (∃ outer inner, (Node.statement compoundItem).at? (.replicate 3 0) = some (.core outer)
      ∧ (Node.statement compoundItem).at? (.replicate 9 0) = some (.core inner))
    ∧ ∃! p, ∃ core, (Node.statement compoundItem).at? p = some (.core core)
      ∧ (List.replicate 11 0, ⟨⟨[], { value := "a" }⟩, .empty⟩) ∈ Node.scope (p, .core core) := by
  refine ⟨⟨_, _, rfl, rfl⟩, ?_⟩
  refine ((columns_partition compoundItem).2.2.1 (List.replicate 11 0) _ rfl).2.1 ?_
  refine ⟨.replicate 9 0, selecting (bareColumn "a"), rfl, ?_⟩
  exact ((Node.mem_scope_core_iff rfl).1 (List.mem_of_getElem? (i := 0) rfl)).1

/-- A reference below a core need not be in the scope of any: `c` is in that of the inner query. -/
theorem Statement.not_existsUnique_core_above :
    ¬ ∀ (s : Statement) (place : Place) (c : Located ColumnRef),
      ((Node.statement s).at? place).bind Node.column? = some c →
      (∃ p core, (Node.statement s).at? p = some (.core core) ∧ p <+: place) →
      ∃! p, ∃ core, (Node.statement s).at? p = some (.core core)
        ∧ (place, c) ∈ Node.scope (p, .core core) := by
  intro h
  let outer : Place := [0, 0, 0]
  let inner : Place := [0, 0, 0, 0, 0, 0]
  let place : Place := [0, 0, 0, 0, 0, 0, 1, 0]
  have habove : ∃ p core, (Node.statement compoundItem).at? p = some (.core core)
      ∧ p <+: place := ⟨outer, _, rfl, by decide⟩
  obtain ⟨p, ⟨core, hcore, hscope⟩, -⟩ := h compoundItem place _ rfl habove
  obtain ⟨q, hq, hclause⟩ : ∃ q, (Node.statement compoundItem).at? inner = some (.query q)
      ∧ (place, ⟨⟨[], { value := "c" }⟩, .empty⟩) ∈ Node.scope (inner, .query q) :=
    ⟨_, rfl, List.mem_of_getElem? (i := 0) rfl⟩
  have hsame : (p, Node.core core) = (inner, Node.query q) :=
    Node.scope_unique ((Node.mem_places_iff ..).2 hcore) ((Node.mem_places_iff ..).2 hq)
      hscope hclause
  nomatch congrArg Prod.snd hsame

end SqlLint
