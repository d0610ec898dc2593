import Mathlib.Data.Finset.Card
import SqlLint.Proofs.Lists
import SqlLint.Proofs.Tables
import SqlLint.Rules.Aliasing

/-! # Repeated names

Two rules go through the names of a core, tables or output columns, and report those that were there
before. Main statement: `check_repeats`, which names are reported and how many of them, core by
core. -/

namespace SqlLint

namespace Rules

/-! ## Repeats in one list -/

/-- Whether the name of a number is equal to an earlier one up to letter case. -/
def IsRepeat (names : List Ident) (k : Nat) : Prop :=
  ∃ name i earlier, names[k]? = some name ∧ i < k ∧ names[i]? = some earlier
    ∧ Text.same earlier.value name.value = true

/-- The repeated names, each with its number. -/
def numberedRepeats (names : List Ident) : List (Ident × Nat) :=
  names.zipIdx.filter fun x => (names.take x.2).any (Text.same ·.value x.1.value)

theorem mem_numberedRepeats_iff {names : List Ident} {name : Ident} {k : Nat} :
    (name, k) ∈ numberedRepeats names ↔ names[k]? = some name ∧ IsRepeat names k := by
  unfold numberedRepeats IsRepeat
  simp only [List.mem_filter, List.mem_zipIdx_iff_getElem?, List.any_eq_true]
  constructor
  · rintro ⟨hname, earlier, hearlier, hsame⟩
    obtain ⟨i, hi⟩ := List.mem_iff_getElem?.mp hearlier
    rw [List.getElem?_take] at hi
    split at hi
    · next hlt => exact ⟨hname, name, i, earlier, hname, hlt, hi, hsame⟩
    · cases hi
  · rintro ⟨hname, name', i, earlier, hname', hlt, hi, hsame⟩
    obtain rfl := Option.some.inj (hname.symm.trans hname')
    refine ⟨hname, earlier, List.mem_iff_getElem?.mpr ⟨i, ?_⟩, hsame⟩
    rw [List.getElem?_take, if_pos hlt, hi]

theorem repeats_eq_filter {seen : List String} (before : List Ident)
    (hseen : ∀ key, key ∈ seen ↔ key ∈ before.map Ident.key) (rest : List Ident) :
    repeats seen rest = ((rest.zipIdx before.length).filter fun x =>
      ((before ++ rest).take x.2).any (Text.same ·.value x.1.value)).map Prod.fst := by
  induction rest generalizing seen before with
  | nil => rfl
  | cons name rest ih =>
    have hknown : seen.contains name.key = before.any (Text.same ·.value name.value) := by
      rw [Bool.eq_iff_iff, List.contains_iff_mem, hseen]
      simp [Ident.key]
    have hbefore : (before ++ name :: rest).take before.length = before := by simp
    have happend : before ++ name :: rest = before ++ [name] ++ rest := by simp
    have hlength : before.length + 1 = (before ++ [name]).length := by simp
    rw [repeats, List.zipIdx_cons, List.filter_cons, hbefore, hknown, hlength, happend]
    cases hrepeat : before.any (Text.same ·.value name.value) with
    | true =>
      have hmem : name.key ∈ before.map Ident.key := by
        rw [← hseen, ← List.contains_iff_mem, hknown, hrepeat]
      have hseen' : ∀ key, key ∈ seen ↔ key ∈ (before ++ [name]).map Ident.key := by
        intro key
        rw [hseen, List.map_append, List.mem_append]
        simp only [List.map_cons, List.map_nil, List.mem_singleton]
        constructor
        · exact .inl
        · rintro (h | rfl)
          · exact h
          · exact hmem
      rw [if_pos rfl, if_pos rfl, ih _ hseen', List.map_cons]
    | false =>
      have hseen' : ∀ key, key ∈ name.key :: seen ↔ key ∈ (before ++ [name]).map Ident.key := by
        intro key
        rw [List.mem_cons, hseen]
        simp [or_comm]
      rw [if_neg Bool.false_ne_true, if_neg Bool.false_ne_true, ih _ hseen']

theorem map_fst_numberedRepeats (names : List Ident) :
    (numberedRepeats names).map Prod.fst = repeats [] names :=
  (repeats_eq_filter [] (by simp) names).symm

theorem length_repeats (seen : List String) (names : List Ident) :
    (repeats seen names).length + (seen.toFinset ∪ (names.map Ident.key).toFinset).card
      = names.length + seen.toFinset.card := by
  induction names generalizing seen with
  | nil => simp [repeats]
  | cons name rest ih =>
    unfold repeats
    split
    · next hseen =>
      have hmem : name.key ∈ seen.toFinset := by simpa using hseen
      have hunion : seen.toFinset ∪ ((name :: rest).map Ident.key).toFinset
          = seen.toFinset ∪ (rest.map Ident.key).toFinset := by
        rw [List.map_cons, List.toFinset_cons, Finset.union_insert, ← Finset.insert_union,
          Finset.insert_eq_of_mem hmem]
      have hrest := ih seen
      rw [hunion, List.length_cons, List.length_cons]
      omega
    · next hseen =>
      have hmem : name.key ∉ seen.toFinset := by simpa using hseen
      have hunion : seen.toFinset ∪ ((name :: rest).map Ident.key).toFinset
          = (name.key :: seen).toFinset ∪ (rest.map Ident.key).toFinset := by
        rw [List.map_cons, List.toFinset_cons, List.toFinset_cons, Finset.union_insert,
          Finset.insert_union]
      have hcard : (name.key :: seen).toFinset.card = seen.toFinset.card + 1 := by
        rw [List.toFinset_cons, Finset.card_insert_of_notMem hmem]
      have hrest := ih (name.key :: seen)
      rw [hunion, List.length_cons]
      omega

theorem length_numberedRepeats (names : List Ident) :
    (numberedRepeats names).length + (names.map Ident.key).toFinset.card = names.length := by
  have hcount := length_repeats [] names
  rw [← map_fst_numberedRepeats, List.length_map] at hcount
  simpa using hcount

theorem numberedRepeats_eq_nil_iff (names : List Ident) :
    numberedRepeats names = [] ↔ (names.map Ident.key).Nodup := by
  have hcount := length_numberedRepeats names
  have hcard := Multiset.toFinset_card_eq_card_iff_nodup (m := (names.map Ident.key : Multiset String))
  rw [Multiset.coe_card, Multiset.coe_nodup, List.length_map] at hcard
  change (names.map Ident.key).toFinset.card = names.length ↔ _ at hcard
  rw [← hcard, ← List.length_eq_zero_iff]
  omega

/-! ## Core by core -/

/-- A name of a core: the place of the core, the number of the name, and the name. -/
structure NameAt where
  core : Place
  number : Nat
  name : Ident

/-- Cores are gone through in walk order, and the names of each in their own. -/
def NameAt.Before (x y : NameAt) : Prop :=
  x.core < y.core ∨ x.core = y.core ∧ x.number < y.number

/-- The repeats among the names of one core. -/
def repeatsIn (names : Core → List Ident) (p : Place) (core : Core) : List NameAt :=
  (numberedRepeats (names core)).map fun x => ⟨p, x.2, x.1⟩

def repeatsAt (names : Core → List Ident) (root : Node) : List NameAt :=
  root.places.flatMap fun x => x.2.core?.elim [] (repeatsIn names x.1)

section

variable {names : Core → List Ident} {root : Node} {p : Place} {core : Core} {x : NameAt}

theorem mem_repeatsIn_iff :
    x ∈ repeatsIn names p core
      ↔ x.core = p ∧ (names core)[x.number]? = some x.name ∧ IsRepeat (names core) x.number := by
  unfold repeatsIn
  rw [List.mem_map, ← mem_numberedRepeats_iff]
  constructor
  · rintro ⟨y, hy, rfl⟩
    exact ⟨rfl, hy⟩
  · rintro ⟨rfl, hx⟩
    exact ⟨_, hx, rfl⟩

theorem mem_repeatsAt_iff :
    x ∈ repeatsAt names root
      ↔ ∃ core, root.at? x.core = some (.core core) ∧ (names core)[x.number]? = some x.name
        ∧ IsRepeat (names core) x.number := by
  unfold repeatsAt
  rw [List.mem_flatMap]
  constructor
  · rintro ⟨⟨q, n⟩, hn, hx⟩
    cases hcore : n.core? with
    | none => simp [hcore] at hx
    | some core =>
      obtain rfl := Node.eq_of_core? hcore
      obtain ⟨hplace, hrepeat⟩ := mem_repeatsIn_iff.mp hx
      rw [hplace]
      exact ⟨core, (root.mem_places_iff ..).mp hn, hrepeat⟩
  · rintro ⟨core, hcore, hrepeat⟩
    exact ⟨(x.core, .core core), (root.mem_places_iff ..).mpr hcore,
      mem_repeatsIn_iff.mpr ⟨rfl, hrepeat⟩⟩

theorem pairwise_repeatsAt (names : Core → List Ident) (root : Node) :
    (repeatsAt names root).Pairwise NameAt.Before := by
  have hcore : ∀ y : Place × Node, ∀ x ∈ y.2.core?.elim [] (repeatsIn names y.1), x.core = y.1 := by
    rintro ⟨q, n⟩ x hx
    cases hn : n.core? with
    | none => simp [hn] at hx
    | some core =>
      rw [hn] at hx
      exact (mem_repeatsIn_iff.mp hx).1
  unfold repeatsAt
  rw [List.pairwise_flatMap]
  constructor
  · rintro ⟨q, n⟩ -
    cases n.core? with
    | none => exact .nil
    | some core =>
      have hnumbers : (numberedRepeats (names core)).Pairwise fun x y => x.2 < y.2 := by
        have hall : (names core).zipIdx.Pairwise fun x y => x.2 < y.2 := by
          rw [← List.pairwise_map, List.zipIdx_map_snd]
          exact List.pairwise_lt_range'
        exact hall.filter _
      refine List.pairwise_map.mpr (hnumbers.imp ?_)
      intro x y hlt
      exact .inr ⟨rfl, hlt⟩
  · refine root.pairwise_places.imp ?_
    intro y z hlt x hx x' hx'
    rw [NameAt.Before, hcore y x hx, hcore z x' hx']
    exact .inl hlt

theorem filter_repeatsAt (hcore : root.at? p = some (.core core)) :
    (repeatsAt names root).filter (·.core = p) = repeatsIn names p core := by
  have hpart : ∀ y : Place × Node,
      (y.2.core?.elim [] (repeatsIn names y.1)).filter (·.core = p)
        = if y.1 = p then y.2.core?.elim [] (repeatsIn names y.1) else [] := by
    rintro ⟨q, n⟩
    cases n.core? with
    | none => simp
    | some core =>
      simp only [Option.elim_some]
      split
      · next hq =>
        rw [List.filter_eq_self]
        intro x hx
        simpa [hq] using (mem_repeatsIn_iff.mp hx).1
      · next hq =>
        rw [List.filter_eq_nil_iff]
        intro x hx
        have hplace := (mem_repeatsIn_iff.mp hx).1
        simpa [hplace] using hq
  have hmem : (p, Node.core core) ∈ root.places := (root.mem_places_iff ..).mpr hcore
  have hone : root.places.filter (·.1 = p) = [(p, Node.core core)] :=
    filter_fst_eq root.nodup_fst_places hmem
  have hflat := flatMap_filter_map (fun y : Place × Node => decide (y.1 = p))
    (fun y => y.2.core?.elim [] (repeatsIn names y.1)) id root.places
  unfold repeatsAt
  rw [List.filter_flatMap]
  simp only [hpart]
  simpa [hone, Node.core?] using hflat.symm

theorem map_name_repeatsAt (finding : Ident → Diagnostic) :
    (repeatsAt names root).map (finding ·.name)
      = root.cores.flatMap fun core => (repeats [] (names core)).map finding := by
  unfold repeatsAt
  rw [List.map_flatMap, Node.cores, Node.flatMap_collect, ← Node.map_snd_places, List.flatMap_map]
  refine List.flatMap_congr fun y _ => ?_
  cases y.2.core? with
  | none => rfl
  | some core =>
    simp only [Option.elim_some, repeatsIn, ← map_fst_numberedRepeats, List.map_map]
    rfl

end

/-- Whether findings are those for the names of each core that are equal to an earlier one of the
same core. -/
structure ReportsRepeats (s : Statement) (names : Core → List Ident) (finding : Ident → Diagnostic)
    (found : List Diagnostic) (reported : List NameAt) : Prop where
  found_eq : found = reported.map (finding ·.name)
  ordered : reported.Pairwise NameAt.Before
  mem_iff : ∀ x, x ∈ reported ↔ ∃ core, (Node.statement s).at? x.core = some (.core core)
    ∧ (names core)[x.number]? = some x.name ∧ IsRepeat (names core) x.number
  alone : ∀ p core, (Node.statement s).at? p = some (.core core) →
    reported.filter (·.core = p) = repeatsIn names p core
  count : ∀ p core, (Node.statement s).at? p = some (.core core) →
    (reported.filter (·.core = p)).length + ((names core).map Ident.key).toFinset.card
      = (names core).length
  nothing : ∀ p core, (Node.statement s).at? p = some (.core core) →
    (reported.filter (·.core = p) = [] ↔ ((names core).map Ident.key).Nodup)

theorem reportsRepeats (s : Statement) (names : Core → List Ident) (finding : Ident → Diagnostic) :
    ReportsRepeats s names finding
      ((Node.statement s).cores.flatMap fun core => (repeats [] (names core)).map finding)
      (repeatsAt names (.statement s)) where
  found_eq := (map_name_repeatsAt finding).symm
  ordered := pairwise_repeatsAt names _
  mem_iff _ := mem_repeatsAt_iff
  alone _ _ hcore := filter_repeatsAt hcore
  count p core hcore := by
    rw [filter_repeatsAt hcore, repeatsIn, List.length_map, length_numberedRepeats]
  nothing p core hcore := by
    rw [filter_repeatsAt hcore, repeatsIn, List.map_eq_nil_iff, numberedRepeats_eq_nil_iff]

/-- The names by which the tables of a core are referred to, those in parentheses included. -/
def referenceNames (core : Core) : List Ident := core.tables.filterMap TableRef.referenceName?

def UniqueTableAlias.finding (ctx : Context) (name : Ident) : Diagnostic :=
  ctx.report s!"Table alias '{name.value}' is used more than once in the same FROM clause." name.span

def UniqueColumnAlias.finding (ctx : Context) (label : Ident) : Diagnostic :=
  ctx.report s!"Column alias '{label.value}' is used more than once in the select list." label.span

/-- A name is reported if it stands earlier in its core, up to letter case. -/
theorem check_repeats (s : Statement) (ctx : Context) :
    (∃ reported, ReportsRepeats s referenceNames (UniqueTableAlias.finding ctx)
      (UniqueTableAlias.check s ctx) reported)
    ∧ (∃ reported, ReportsRepeats s columnAliases (UniqueColumnAlias.finding ctx)
      (UniqueColumnAlias.check s ctx) reported)
    ∧ (∀ p core, (Node.tablesAt p core).filterMap (TableRef.referenceName? ·.2) = referenceNames core)
    ∧ ∀ p p' core core' place t, (Node.statement s).at? p = some (.core core) →
      (Node.statement s).at? p' = some (.core core') → (place, t) ∈ Node.tablesAt p core →
      (place, t) ∈ Node.tablesAt p' core' → p = p' := by
  refine ⟨⟨_, reportsRepeats s referenceNames _⟩, ⟨_, reportsRepeats s columnAliases _⟩, ?_, ?_⟩
  · intro p core
    unfold referenceNames
    rw [← Node.map_snd_tablesAt p core, List.filterMap_map]
    rfl
  · intro p p' core core' place t hcore hcore' ht ht'
    have hwithin := ((Node.mem_tablesAt_iff hcore).mp ht).1
    have hwithin' := ((Node.mem_tablesAt_iff hcore').mp ht').1
    exact Node.core_unique hcore hcore' hwithin hwithin'

/-- The table `name AS label`. -/
def aliasedTable (name label : String) : TableRef :=
  .named ⟨[{ value := name }]⟩ (some { value := label }) .empty

/-- `SELECT x AS n FROM w AS a` -/
def innerAliases : Core :=
  { selectingFrom "x" ⟨aliasedTable "w" "a", []⟩ with
    columns := [.expr (bareColumn "x") (some { value := "n" })] }

/-- `SELECT x AS n, x AS N FROM t AS a CROSS JOIN (u CROSS JOIN v AS A) WHERE EXISTS (…)` -/
def outerAliases : Core :=
  let inside : FromClause :=
    ⟨bareTable "u", [⟨.cross, false, aliasedTable "v" "A", none, [], .empty⟩]⟩
  let source : FromClause :=
    ⟨aliasedTable "t" "a", [⟨.cross, false, .nestedJoin inside none .empty, none, [], .empty⟩]⟩
  { selectingFrom "x" source with
    columns := [.expr (bareColumn "x") (some { value := "n" }),
      .expr (bareColumn "x") (some { value := "N" })]
    condition := some ⟨.existsIn (.ofCore innerAliases) false, .empty⟩ }

theorem check_repeats_inExists :
    let s := Statement.query (.ofCore outerAliases)
    let ctx : Context := ⟨UniqueTableAlias.info, .generic, .warning, none⟩
    (Node.statement s).at? [0, 0, 0] = some (.core outerAliases)
    ∧ (Node.statement s).at? [0, 0, 0, 3, 0, 0, 0] = some (.core innerAliases)
    ∧ (UniqueTableAlias.check s ctx).map Diagnostic.message
      = ["Table alias 'A' is used more than once in the same FROM clause."]
    ∧ (∃ reported, ReportsRepeats s referenceNames (UniqueTableAlias.finding ctx)
      (UniqueTableAlias.check s ctx) reported
      ∧ reported.filter (·.core = [0, 0, 0]) = [⟨[0, 0, 0], 2, { value := "A" }⟩]
      ∧ reported.filter (·.core = [0, 0, 0, 3, 0, 0, 0]) = [])
    ∧ ∃ reported, ReportsRepeats s columnAliases (UniqueColumnAlias.finding ctx)
      (UniqueColumnAlias.check s ctx) reported
      ∧ reported.filter (·.core = [0, 0, 0]) = [⟨[0, 0, 0], 1, { value := "N" }⟩]
      ∧ reported.filter (·.core = [0, 0, 0, 3, 0, 0, 0]) = [] := by
  intro s ctx
  have houter : (Node.statement s).at? [0, 0, 0] = some (.core outerAliases) := rfl
  have hinner : (Node.statement s).at? [0, 0, 0, 3, 0, 0, 0] = some (.core innerAliases) := rfl
  obtain ⟨⟨tables, htables⟩, ⟨labels, hlabels⟩, -⟩ := check_repeats s ctx
  refine ⟨houter, hinner, rfl, ⟨tables, htables, ?_, ?_⟩, ⟨labels, hlabels, ?_, ?_⟩⟩
  · rw [htables.alone _ _ houter]
    rfl
  · exact (htables.nothing _ _ hinner).mpr (by decide)
  · rw [hlabels.alone _ _ houter]
    rfl
  · exact (hlabels.nothing _ _ hinner).mpr (by decide)

end Rules
end SqlLint
