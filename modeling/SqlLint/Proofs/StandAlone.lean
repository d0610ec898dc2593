import SqlLint.Proofs.Chains
import SqlLint.Proofs.Parentheses
import SqlLint.Proofs.Tables
import SqlLint.Rules.Structure

/-! # Selects that stand alone

The operands of a set operation keep the order of their columns. Every other core is judged, however
it lies to set operations. Main statement: `check_standAlone`, which cores are reported and at which
column. -/

namespace SqlLint.Rules.ColumnOrder

open Chain

abbrev CoreAt := Place × Core

variable {root : Node} {x : CoreAt}

/-! ## Operands of set operations -/

/-- Whether the core stands at its place under the root. -/
def Stands (root : Node) (x : CoreAt) : Prop := root.at? x.1 = some (.core x.2)

/-- Whether a set operation reaches the core by steps to operands and through parentheses. A core is
the only child of the body that it makes up. -/
def IsOperand (root : Node) (x : CoreAt) : Prop :=
  ∃ p operation q, Under root (p, .setOperation operation)
    ∧ Reaches (p, .setOperation operation) (q, .core x.2) ∧ x.1 = q ++ [0]

theorem markAt_operandStep {n : Node} {place : Place} (hn : root.at? place = some n)
    (hkind : n.body?.isSome ∨ n.query?.isSome) :
    root.tree.markAt operandStep false place
      = root.tree.markAt ColumnCount.chainStep false place := by
  induction place using List.reverseRecOn generalizing n with
  | nil => rfl
  | append_singleton p i ih =>
    rw [Node.at?_concat, Option.bind_eq_some_iff] at hn
    obtain ⟨above, habove, hchild⟩ := hn
    rw [Node.markAt_child _ _ habove hchild, Node.markAt_child _ _ habove hchild]
    -- The two steps differ for cores only; a mark that is handed on is that of a body or query.
    cases above with
    | query q =>
      rw [ih habove (.inr rfl)]
      cases n <;> rfl
    | body b =>
      rw [ih habove (.inl rfl)]
      cases b <;> cases n <;> first | rfl | cases hkind <;> contradiction
    | _ => rfl

theorem above_core {n : Node} {i : Nat} {c : Core} (h : n.children[i]? = some (.core c)) :
    n = .body (.core c) ∧ i = 0 := by
  have hmem : n.Holds (.core c) := (Node.mem_children_iff ..).mp (List.mem_of_getElem? h)
  cases n with
  | body b =>
    cases b with
    | core d =>
      obtain rfl : c = d := hmem
      refine ⟨rfl, ?_⟩
      have hi := (List.getElem?_eq_some_iff.mp h).1
      simp only [Node.children, List.length_singleton] at hi
      omega
    | _ => simp [Node.Holds] at hmem
  | _ => simp [Node.Holds] at hmem

theorem markAt_iff (hx : Stands root x) :
    root.tree.markAt operandStep false x.1 = true ↔ IsOperand root x := by
  obtain ⟨place, c⟩ := x
  rcases Node.above_of_at? hx with ⟨rfl, -⟩ | ⟨p, i, above, rfl, habove, hchild⟩
  · refine iff_of_false (by simp [Rose.markAt]) ?_
    rintro ⟨p, operation, q, -, -, hplace⟩
    simp at hplace
  · obtain ⟨rfl, rfl⟩ := above_core hchild
    have hbody : Under root (p, .core c) := habove
    rw [Node.markAt_child _ _ habove hchild]
    change root.tree.markAt operandStep false p = true ↔ _
    rw [markAt_operandStep habove (.inl rfl), mark_iff hbody]
    constructor
    · rintro ⟨⟨q, b⟩, hunder, ⟨operation, rfl⟩, hreach⟩
      exact ⟨q, operation, p, hunder, hreach.to_reflTransGen, rfl⟩
    · rintro ⟨q, operation, r, hunder, hreach, hplace⟩
      obtain ⟨rfl, -⟩ := List.append_inj' hplace rfl
      refine ⟨(q, .setOperation operation), hunder, ⟨operation, rfl⟩, ?_⟩
      rcases Relation.reflTransGen_iff_eq_or_transGen.mp hreach with heq | hreach
      · cases heq
      · exact hreach

theorem not_isOperand_of_query {p : Place} {q : Query} {c : Core}
    (hquery : root.at? p = some (.query q)) (habove : ∀ b, root.at? p.dropLast ≠ some (.body b)) :
    ¬ IsOperand root (p ++ [q.ctes.length, 0], c) := by
  rintro ⟨r, operation, place, hunder, hreach, hplace⟩
  have happend : p ++ [q.ctes.length, 0] = p ++ [q.ctes.length] ++ [0] := by simp
  obtain ⟨rfl, -⟩ := List.append_inj' (happend ▸ hplace) rfl
  rcases Relation.ReflTransGen.cases_tail hreach with heq | ⟨y, hry, hstep⟩
  · cases heq
  · -- The last step goes into a query, so parentheses stand above it.
    have hy : Under root y := Reaches.under hry hunder
    obtain ⟨hp, hbody⟩ := hstep.source_of_query hquery hy
    refine habove y.2 ?_
    rw [hp, List.dropLast_concat]
    exact hy

/-! ## The order of columns -/

/-- Whether an output column is a star, or a column in any number of parentheses. -/
def IsPlain : SelectItem → Prop
  | .expr e _ => ∃ ref span, Expr.Wraps ⟨.column ref, span⟩ e
  | .wildcard _ | .qualifiedWildcard _ _ => True

/-- Whether a computed column stands somewhere before a plain one. -/
def Misordered (items : List SelectItem) : Prop :=
  ∃ (i j : Nat) (computed plain : SelectItem), i < j ∧ items[i]? = some computed
    ∧ items[j]? = some plain ∧ ¬ IsPlain computed ∧ IsPlain plain

/-- Whether an output column is the first plain one after the first computed one. -/
def FirstPlainAfter (items : List SelectItem) (item : SelectItem) : Prop :=
  ∃ before computed between after, items = before ++ computed :: (between ++ item :: after)
    ∧ (∀ i ∈ before, IsPlain i) ∧ ¬ IsPlain computed ∧ (∀ i ∈ between, ¬ IsPlain i) ∧ IsPlain item

theorem isSimple_iff (item : SelectItem) : isSimple item = true ↔ IsPlain item := by
  cases item with
  | expr e label =>
    have hcolumn : ∀ ref span, ¬ Expr.IsNested ⟨.column ref, span⟩ := by
      rintro ref span ⟨inner, h⟩
      cases h
    simp only [isSimple, SelectItem.expr?, Option.all_some, IsPlain,
      Expr.wraps_iff (hcolumn _ _)]
    obtain ⟨kind, span⟩ := e.unnested
    cases kind <;> simp [Expr.column?]
  | wildcard span => exact iff_of_true rfl trivial
  | qualifiedWildcard qualifier span => exact iff_of_true rfl trivial

theorem misplaced?_cons_of_plain {first : SelectItem} (h : IsPlain first) (rest : List SelectItem) :
    misplaced? (first :: rest) = misplaced? rest := by
  unfold misplaced?
  rw [List.dropWhile_cons_of_pos ((isSimple_iff first).mpr h)]

theorem misplaced?_cons_of_not_plain {first : SelectItem} (h : ¬ IsPlain first)
    (rest : List SelectItem) : misplaced? (first :: rest) = rest.find? isSimple := by
  have hsimple : ¬ isSimple first = true := mt (isSimple_iff first).mp h
  unfold misplaced?
  rw [List.dropWhile_cons_of_neg hsimple, List.find?_cons_of_neg hsimple]

theorem misplaced?_eq_some_iff (items : List SelectItem) (item : SelectItem) :
    misplaced? items = some item ↔ FirstPlainAfter items item := by
  induction items with
  | nil => simp [misplaced?, FirstPlainAfter]
  | cons first rest ih =>
    by_cases hfirst : IsPlain first
    · rw [misplaced?_cons_of_plain hfirst, ih]
      constructor
      · rintro ⟨before, computed, between, after, rfl, hbefore, hrest⟩
        exact ⟨first :: before, computed, between, after, rfl,
          List.forall_mem_cons.mpr ⟨hfirst, hbefore⟩, hrest⟩
      · rintro ⟨before, computed, between, after, hsplit, hbefore, hcomputed, hrest⟩
        cases before with
        | nil =>
          obtain ⟨rfl, -⟩ := List.cons.inj hsplit
          exact absurd hfirst hcomputed
        | cons i before =>
          obtain ⟨-, hsplit⟩ := List.cons.inj hsplit
          exact ⟨before, computed, between, after, hsplit, (List.forall_mem_cons.mp hbefore).2,
            hcomputed, hrest⟩
    · rw [misplaced?_cons_of_not_plain hfirst, List.find?_eq_some_iff_append]
      simp only [isSimple_iff, Bool.not_eq_true', ← Bool.not_eq_true]
      constructor
      · rintro ⟨hitem, between, after, rfl, hbetween⟩
        exact ⟨[], first, between, after, rfl, by simp, hfirst, hbetween, hitem⟩
      · rintro ⟨before, computed, between, after, hsplit, hbefore, -, hbetween, hitem⟩
        cases before with
        | nil =>
          obtain ⟨-, rfl⟩ := List.cons.inj hsplit
          exact ⟨hitem, between, after, rfl, hbetween⟩
        | cons i before =>
          obtain ⟨rfl, -⟩ := List.cons.inj hsplit
          exact absurd (List.forall_mem_cons.mp hbefore).1 hfirst

theorem exists_firstPlainAfter_iff (items : List SelectItem) :
    (∃ item, FirstPlainAfter items item) ↔ Misordered items := by
  constructor
  · rintro ⟨item, before, computed, between, after, rfl, -, hcomputed, -, hitem⟩
    refine ⟨before.length, before.length + (between.length + 1), computed, item, by omega, ?_, ?_,
      hcomputed, hitem⟩
    · simp
    · rw [List.getElem?_append_right (by omega)]
      simp
  · rintro ⟨i, j, computed, plain, hij, hi, hj, hcomputed, hplain⟩
    simp only [← misplaced?_eq_some_iff]
    induction items generalizing i j with
    | nil => simp at hi
    | cons first rest ih =>
      obtain ⟨j, rfl⟩ : ∃ k, j = k + 1 := ⟨j - 1, by omega⟩
      rw [List.getElem?_cons_succ] at hj
      by_cases hfirst : IsPlain first
      · -- The computed column is not the first.
        cases i with
        | zero =>
          obtain rfl : first = computed := by simpa using hi
          exact absurd hfirst hcomputed
        | succ i =>
          rw [misplaced?_cons_of_plain hfirst]
          exact ih i j (by omega) (by simpa using hi) hj
      · rw [misplaced?_cons_of_not_plain hfirst, ← Option.isSome_iff_exists, List.find?_isSome]
        exact ⟨plain, List.mem_of_getElem? hj, (isSimple_iff plain).mpr hplain⟩

/-! ## What is reported -/

/-- The cores that are judged, in walk order. -/
def judged (root : Node) : List CoreAt := root.unmarkedAt operandStep Node.core?

theorem mem_judged_iff : x ∈ judged root ↔ Stands root x ∧ ¬ IsOperand root x := by
  unfold judged
  rw [Node.mem_unmarkedAt_iff]
  constructor
  · rintro ⟨n, hn, hcore, hmark⟩
    obtain rfl := Node.eq_of_core? hcore
    refine ⟨hn, fun hoperand => ?_⟩
    rw [(markAt_iff hn).mpr hoperand] at hmark
    cases hmark
  · rintro ⟨hx, hfree⟩
    exact ⟨.core x.2, hx, rfl, Bool.eq_false_iff.mpr (mt (markAt_iff hx).mp hfree)⟩

theorem map_snd_judged (root : Node) : (judged root).map Prod.snd = standAloneCores root := by
  refine Node.map_snd_unmarkedAt ?_ root
  rintro (_ | _) n <;> rfl

/-- The judged cores with a misplaced column, each with that column. -/
def reported (root : Node) : List (CoreAt × SelectItem) :=
  (judged root).filterMap fun x => (misplaced? x.2.columns).map (x, ·)

theorem mem_reported_iff {item : SelectItem} :
    (x, item) ∈ reported root
      ↔ Stands root x ∧ ¬ IsOperand root x ∧ FirstPlainAfter x.2.columns item := by
  rw [← misplaced?_eq_some_iff, ← and_assoc, ← mem_judged_iff]
  unfold reported
  simp [Option.map_eq_some_iff]

theorem reported_sublist (root : Node) :
    ((reported root).map fun x => (x.1.1, Node.core x.1.2)).Sublist root.places := by
  have hjudged : ((judged root).map fun x => (x.1, Node.core x.2)).Sublist root.places :=
    Node.unmarkedAt_sublist (fun _ _ => Node.eq_of_core?) root
  refine (map_filterMap_sublist (fun x y hy => ?_) (judged root)).trans hjudged
  obtain ⟨item, -, rfl⟩ := Option.map_eq_some_iff.mp hy
  rfl

theorem check_eq_reported (s : Statement) (ctx : Context) :
    check s ctx = (reported (.statement s)).map fun x =>
      ctx.report "Select wildcards and simple columns before complex expressions." x.2.span := by
  unfold check reported
  rw [← map_snd_judged, List.filterMap_map, List.map_filterMap]
  refine List.filterMap_congr fun x _ => ?_
  simp [Function.comp_def]

/-- Every core that is no operand is judged, and reported at its first misplaced column. -/
theorem check_standAlone (s : Statement) (ctx : Context) :
    let root := Node.statement s
    ∃ found : List (CoreAt × SelectItem),
      check s ctx = found.map (fun x =>
        ctx.report "Select wildcards and simple columns before complex expressions." x.2.span)
      ∧ (found.map fun x => (x.1.1, Node.core x.1.2)).Sublist root.places
      ∧ (found.map fun x => x.1.1).Nodup
      ∧ (∀ x item, (x, item) ∈ found
        ↔ Stands root x ∧ ¬ IsOperand root x ∧ FirstPlainAfter x.2.columns item)
      ∧ (∀ x, (∃ item, (x, item) ∈ found)
        ↔ Stands root x ∧ ¬ IsOperand root x ∧ Misordered x.2.columns)
      ∧ ∀ p q c, root.at? p = some (.query q) → q.body = .core c →
        (∀ b, root.at? p.dropLast ≠ some (.body b)) →
        Stands root (p ++ [q.ctes.length, 0], c)
          ∧ ¬ IsOperand root (p ++ [q.ctes.length, 0], c) := by
  intro root
  have hsublist := reported_sublist root
  refine ⟨reported root, check_eq_reported s ctx, hsublist, ?_, fun x item => mem_reported_iff, ?_,
    ?_⟩
  · have hplaces := root.nodup_fst_places.sublist (hsublist.map Prod.fst)
    rwa [List.map_map] at hplaces
  · intro x
    simp only [mem_reported_iff, exists_and_left, exists_firstPlainAfter_iff]
  · intro p q c hquery hbody habove
    refine ⟨?_, not_isOperand_of_query hquery habove⟩
    have happend : p ++ [q.ctes.length, 0] = p ++ [q.ctes.length] ++ [0] := by simp
    have hunder : root.at? (p ++ [q.ctes.length]) = some (.body (.core c)) := by
      rw [Node.at?_concat, hquery, Option.bind_some, query_children_at_body, hbody]
    unfold Stands
    rw [happend, Node.at?_concat, hunder]
    rfl

def plainContext : Context := ⟨info, .generic, info.defaultSeverity, none⟩

/-- `SELECT a + 1, b` -/
def shuffled : Core :=
  let computed : Expr := ⟨.binary (bareColumn "a") .plus ⟨.literal ⟨.number, "1"⟩, .empty⟩, .empty⟩
  { selecting (bareColumn "b") with columns := [.expr computed none, .expr (bareColumn "b") none] }

/-- `SELECT a + 1, b UNION SELECT b FROM (SELECT a + 1, b) AS v` -/
def derivedInOperand : Statement :=
  let derived : TableRef := .derived (.ofCore shuffled) (some { value := "v" }) .empty
  let union : SetOperation :=
    ⟨.union, .implicit, .core shuffled, .core (selectingFrom "b" ⟨derived, []⟩), .empty⟩
  .query ⟨[], false, .setOperation union, [], none, none, .empty⟩

theorem check_standAlone_derivedInOperand :
    let root := Node.statement derivedInOperand
    let inside : Place := [0, 0, 1, 0, 1, 0, 0]
    IsOperand root ([0, 0, 0, 0], shuffled)
    ∧ (root.at? inside = some (.query (.ofCore shuffled))
      ∧ ∀ b, root.at? inside.dropLast ≠ some (.body b))
    ∧ Stands root ([0, 0, 1, 0, 1, 0, 0, 0, 0], shuffled)
    ∧ ¬ IsOperand root ([0, 0, 1, 0, 1, 0, 0, 0, 0], shuffled)
    ∧ (check derivedInOperand plainContext).length = 1 := by
  intro root inside
  have hquery : root.at? inside = some (.query (.ofCore shuffled))
      ∧ ∀ b, root.at? inside.dropLast ≠ some (.body b) := ⟨rfl, fun b h => by cases h⟩
  obtain ⟨found, -, -, -, -, -, hinside⟩ := check_standAlone derivedInOperand plainContext
  obtain ⟨hstands, hfree⟩ := hinside inside _ shuffled hquery.1 rfl hquery.2
  refine ⟨⟨[0, 0], _, [0, 0, 0], rfl, .single (.left [0, 0] _), rfl⟩, hquery, hstands, hfree, rfl⟩

end SqlLint.Rules.ColumnOrder
