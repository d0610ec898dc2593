import Mathlib.Data.List.Chain
import Mathlib.Order.Bounds.Basic
import SqlLint.Proofs.Parentheses
import SqlLint.Proofs.Scopes
import SqlLint.Rules.Structure

/-! # CASE inside CASE

A `CASE` nests another that is its operand, a condition, a result or the `ELSE` result, perhaps in
parentheses. The occurrences of `CASE` in a statement are a forest under this relation. Main
statement: `check_outermost`, the rule reports the roots of this forest that are too high. -/

namespace SqlLint

/-! ## The parts of a CASE -/

def Expr.isCase (e : Expr) : Bool :=
  match e.kind with
  | .caseWhen _ => true
  | _ => false

namespace CaseExpr

/-- The operand, the conditions with their results, and the `ELSE` result. -/
def parts (c : CaseExpr) : List Expr :=
  c.operand.toList ++ c.branches.flatMap (fun b => [b.condition, b.result]) ++ c.otherwise.toList

/-- The parts that are `CASE`s themselves, parentheses aside. -/
def nestedCases (c : CaseExpr) : List Expr := (c.parts.map Expr.unnested).filter Expr.isCase

theorem children_eq (c : CaseExpr) : (ExprKind.caseWhen c).children = c.parts.map .expr := by
  simp [ExprKind.children, parts, List.map_flatMap]

end CaseExpr

/-! ## Depth -/

theorem Expr.caseDepth_unnested (e : Expr) : e.unnested.caseDepth = e.caseDepth := by
  induction e using Expr.induction_nested with
  | plain e h => rw [unnested_of_not_isNested h]
  | nested inner span ih => exact ih

theorem Expr.caseDepth_of_not_isCase {e : Expr} (h : ¬ e.unnested.isCase) : e.caseDepth = 0 := by
  have hnested := not_isNested_unnested e
  rw [← caseDepth_unnested]
  generalize e.unnested = inner at h hnested ⊢
  obtain ⟨kind, span⟩ := inner
  cases kind with
  | nested inner => exact absurd ⟨inner, rfl⟩ hnested
  | caseWhen c => exact absurd rfl h
  | _ => rfl

theorem optionDepth_le_iff {e : Option Expr} {n : Nat} :
    optionDepth e ≤ n ↔ ∀ x ∈ e.toList, x.caseDepth ≤ n := by
  cases e <;> simp [optionDepth]

theorem branchesDepth_le_iff {bs : List CaseBranch} {n : Nat} :
    branchesDepth bs ≤ n
      ↔ ∀ x ∈ bs.flatMap (fun b => [b.condition, b.result]), x.caseDepth ≤ n := by
  induction bs with
  | nil => simp [branchesDepth]
  | cons b bs ih =>
    obtain ⟨condition, result⟩ := b
    simp [branchesDepth, ih]

namespace CaseExpr

theorem depth_le_iff {c : CaseExpr} {n : Nat} :
    c.depth ≤ n + 1 ↔ ∀ e ∈ c.parts, e.caseDepth ≤ n := by
  obtain ⟨operand, branches, otherwise⟩ := c
  unfold depth parts
  simp only [Nat.add_le_add_iff_right, Nat.max_le, optionDepth_le_iff, branchesDepth_le_iff,
    List.forall_mem_append]

theorem depth_pos (c : CaseExpr) : 0 < c.depth := by
  obtain ⟨operand, branches, otherwise⟩ := c
  unfold depth
  omega

theorem caseDepth_lt_depth {c : CaseExpr} {e : Expr} (h : e ∈ c.parts) : e.caseDepth < c.depth := by
  have hpos := c.depth_pos
  have hle : e.caseDepth ≤ c.depth - 1 := depth_le_iff.mp (by omega) e h
  omega

theorem exists_part_of_depth {c : CaseExpr} (h : 1 < c.depth) :
    ∃ e ∈ c.parts, e.caseDepth + 1 = c.depth := by
  by_contra hnone
  have hparts : ∀ e ∈ c.parts, e.caseDepth ≤ c.depth - 2 := by
    intro e he
    have hlt := caseDepth_lt_depth he
    have hne : e.caseDepth + 1 ≠ c.depth := fun heq => hnone ⟨e, he, heq⟩
    omega
  have hle := depth_le_iff.mpr hparts
  omega

theorem depth_eq (c : CaseExpr) :
    c.depth = (c.nestedCases.map Expr.caseDepth).max?.getD 0 + 1 := by
  have hnested : ∀ n, (∀ e ∈ c.parts, e.caseDepth ≤ n) ↔ ∀ e ∈ c.nestedCases, e.caseDepth ≤ n := by
    intro n
    unfold nestedCases
    simp only [List.mem_filter, List.mem_map, and_imp, forall_exists_index,
      forall_apply_eq_imp_iff₂, Expr.caseDepth_unnested]
    refine forall₂_congr fun e _ => ⟨fun h _ => h, fun h => ?_⟩
    by_cases hcase : e.unnested.isCase
    · exact h hcase
    · rw [Expr.caseDepth_of_not_isCase hcase]
      exact Nat.zero_le n
  have hmax : ∀ n, (c.nestedCases.map Expr.caseDepth).max?.getD 0 ≤ n
      ↔ ∀ e ∈ c.nestedCases, e.caseDepth ≤ n := by
    intro n
    cases h : (c.nestedCases.map Expr.caseDepth).max? with
    | none =>
      rw [List.max?_eq_none_iff, List.map_eq_nil_iff] at h
      simp [h]
    | some m =>
      rw [Option.getD_some, List.max?_le_iff h]
      simp
  -- Both sides have the same upper bounds.
  have hpos := c.depth_pos
  have hle : c.depth ≤ (c.nestedCases.map Expr.caseDepth).max?.getD 0 + 1 :=
    depth_le_iff.mpr ((hnested _).mpr ((hmax _).mp (Nat.le_refl _)))
  have hge : (c.nestedCases.map Expr.caseDepth).max?.getD 0 ≤ c.depth - 1 :=
    (hmax _).mpr ((hnested _).mp (depth_le_iff.mp (by omega)))
  omega

end CaseExpr

namespace Rules.NestedCase

/-! ## Nesting -/

abbrev CaseAt := Place × Located CaseExpr

def whole (c : Located CaseExpr) : Expr := ⟨.caseWhen c.value, c.span⟩

/-- Whether an expression at a place is a part of a `CASE`, or what parentheses hold that are. -/
inductive Enters (x : CaseAt) : Place → Expr → Prop where
  | part {i : Nat} {e : Expr} (h : x.2.value.parts[i]? = some e) : Enters x (x.1 ++ [i]) e
  | inside {p : Place} {e : Expr} {span : Span} (h : Enters x p ⟨.nested e, span⟩) :
    Enters x (p ++ [0]) e

/-- Whether the `CASE` stands at its place under the root. -/
def Stands (root : Node) (x : CaseAt) : Prop := root.at? x.1 = some (.expr (whole x.2))

/-- Whether the first `CASE` has the second as a part, parentheses aside. -/
def Nests (root : Node) (x y : CaseAt) : Prop := Stands root x ∧ Enters x y.1 (whole y.2)

/-- Whether no other `CASE` nests the `CASE`. -/
def IsRoot (root : Node) (x : CaseAt) : Prop := Stands root x ∧ ∀ y, ¬ Nests root y x

/-- The lengths of the chains in which each `CASE` nests the next, from a given one on. -/
def heights (root : Node) (x : CaseAt) : Set Nat :=
  {n | ∃ chain, (x :: chain).IsChain (Nests root) ∧ (x :: chain).length = n}

variable {root : Node} {x y z : CaseAt} {p : Place} {e : Expr}

theorem whole_injective : Function.Injective whole := by
  rintro ⟨c, span⟩ ⟨d, span'⟩ h
  obtain ⟨hkind, rfl⟩ := Expr.mk.inj h
  obtain rfl := ExprKind.caseWhen.inj hkind
  rfl

theorem Stands.eq_of_place (hx : Stands root x) (hy : Stands root y) (h : x.1 = y.1) : x = y := by
  unfold Stands at hx hy
  rw [h, hy] at hx
  have hwhole : whole y.2 = whole x.2 := by simpa using hx
  exact Prod.ext h (whole_injective hwhole.symm)

theorem Enters.at? (h : Enters x p e) (hx : Stands root x) : root.at? p = some (.expr e) := by
  induction h with
  | @part i e h =>
    rw [Node.at?_concat, hx]
    have hchildren : (Node.expr (whole x.2)).children = x.2.value.parts.map .expr :=
      x.2.value.children_eq
    simp [hchildren, h]
  | inside h ih =>
    rw [Node.at?_concat, ih]
    rfl

theorem Nests.stands (h : Nests root x y) : Stands root y := h.2.at? h.1

theorem Enters.length_lt (h : Enters x p e) : x.1.length < p.length := by
  induction h with
  | part h => simp
  | inside h ih => simp; omega

theorem Enters.unique (hxe : Enters x p e) (hye : Enters y p e) (hx : Stands root x)
    (hy : Stands root y) : x = y := by
  induction hxe with
  | @part i e h =>
    generalize hp : x.1 ++ [i] = p at hye
    cases hye with
    | part h' => exact hx.eq_of_place hy (List.append_inj' hp rfl).1
    | inside h' =>
      have habove := h'.at? hy
      rw [← (List.append_inj' hp rfl).1, hx] at habove
      cases habove
  | @inside p e span h ih =>
    generalize hq : p ++ [0] = q at hye
    cases hye with
    | part h' =>
      have habove := h.at? hx
      rw [(List.append_inj' hq rfl).1, hy] at habove
      cases habove
    | @inside p' e span' h' =>
      obtain rfl := (List.append_inj' hq rfl).1
      have hspan : span = span' := by
        have habove := h.at? hx
        rw [h'.at? hy] at habove
        simpa using habove.symm
      exact ih (hspan ▸ h')

theorem Nests.left_unique (hxz : Nests root x z) (hyz : Nests root y z) : x = y :=
  hxz.2.unique hyz.2 hxz.1 hyz.1

/-! ## Marks tell what is nested -/

theorem Enters.above (h : Enters x p e) :
    (∃ i, p = x.1 ++ [i] ∧ x.2.value.parts[i]? = some e)
      ∨ ∃ q span, p = q ++ [0] ∧ Enters x q ⟨.nested e, span⟩ := by
  cases h with
  | part h => exact .inl ⟨_, rfl, h⟩
  | inside h => exact .inr ⟨_, _, rfl, h⟩

theorem markAt_iff (he : root.at? p = some (.expr e)) :
    root.tree.markAt caseStep false p = true ↔ ∃ x, Stands root x ∧ Enters x p e := by
  induction p using List.reverseRecOn generalizing e with
  | nil =>
    refine iff_of_false (by simp [Rose.markAt]) ?_
    rintro ⟨x, -, h⟩
    have hlength := h.length_lt
    simp at hlength
  | append_singleton p i ih =>
    have hconcat := he
    rw [Node.at?_concat, Option.bind_eq_some_iff] at hconcat
    obtain ⟨above, habove, hchild⟩ := hconcat
    rw [Node.markAt_child _ _ habove hchild]
    -- The expression is entered from the node above it or not at all.
    have hwhere : ∀ x, Stands root x → Enters x (p ++ [i]) e →
        above = .expr (whole x.2) ∨ ∃ span, above = .expr ⟨.nested e, span⟩
          ∧ Enters x p ⟨.nested e, span⟩ := by
      intro x hx h
      rcases h.above with ⟨j, hp, -⟩ | ⟨q, span, hp, h⟩
      · rw [(List.append_inj' hp rfl).1] at habove
        exact .inl (Option.some.inj (habove.symm.trans hx))
      · obtain rfl := (List.append_inj' hp rfl).1
        exact .inr ⟨span, Option.some.inj (habove.symm.trans (h.at? hx)), h⟩
    have hother : (∀ c : Located CaseExpr, above ≠ .expr (whole c)) →
        (∀ span, above ≠ .expr ⟨.nested e, span⟩) →
          ¬ ∃ x, Stands root x ∧ Enters x (p ++ [i]) e := by
      rintro hcase hnested ⟨x, hx, h⟩
      rcases hwhere x hx h with heq | ⟨span, heq, -⟩
      · exact hcase x.2 heq
      · exact hnested span heq
    cases above with
    | expr x =>
      obtain ⟨kind, span⟩ := x
      cases kind with
      | caseWhen c =>
        refine iff_of_true rfl ⟨(p, ⟨c, span⟩), habove, .part ?_⟩
        have hparts : (Node.expr ⟨.caseWhen c, span⟩).children = c.parts.map .expr := c.children_eq
        rw [hparts, List.getElem?_map, Option.map_eq_some_iff] at hchild
        obtain ⟨e', he', heq⟩ := hchild
        rw [he', Node.expr.inj heq]
      | nested inner =>
        change root.tree.markAt caseStep false p = true ↔ _
        rw [ih habove]
        have hi : i = 0 ∧ inner = e := by
          rcases i with _ | i <;> simp [Node.children, ExprKind.children] at hchild ⊢
          exact hchild
        obtain ⟨rfl, rfl⟩ := hi
        constructor
        · rintro ⟨x, hx, h⟩
          exact ⟨x, hx, h.inside⟩
        · rintro ⟨x, hx, h⟩
          refine ⟨x, hx, ?_⟩
          rcases hwhere x hx h with heq | ⟨span', heq, h⟩
          · cases heq
          · obtain rfl : span = span' := by simpa using heq
            exact h
      | _ => exact iff_of_false Bool.false_ne_true (hother (by simp [whole]) (by simp))
    | _ => exact iff_of_false Bool.false_ne_true (hother (by simp) (by simp))

theorem isRoot_iff :
    IsRoot root x ↔ Stands root x ∧ root.tree.markAt caseStep false x.1 = false := by
  unfold IsRoot
  refine and_congr_right fun hx => ?_
  rw [← Bool.not_eq_true, markAt_iff hx]
  exact not_exists.symm

theorem existsUnique_root (hx : Stands root x) :
    ∃! r, IsRoot root r ∧ Relation.ReflTransGen (Nests root) r x := by
  have hexists : ∃ r, IsRoot root r ∧ Relation.ReflTransGen (Nests root) r x := by
    induction hlength : x.1.length using Nat.strongRecOn generalizing x with
    | ind n ih =>
      by_cases hroot : ∃ y, Nests root y x
      · obtain ⟨y, hy⟩ := hroot
        obtain ⟨r, hr, hry⟩ := ih y.1.length (hlength ▸ hy.2.length_lt) hy.1 rfl
        exact ⟨r, hr, hry.tail hy⟩
      · exact ⟨x, ⟨hx, not_exists.mp hroot⟩, .refl⟩
  have heq : ∀ {a b}, IsRoot root b → Relation.ReflTransGen (Nests root) a b → a = b := by
    intro a b hb hab
    rcases Relation.ReflTransGen.cases_tail hab with rfl | ⟨c, -, hcb⟩
    · rfl
    · exact absurd hcb (hb.2 c)
  obtain ⟨r, hr, hrx⟩ := hexists
  refine ⟨r, ⟨hr, hrx⟩, ?_⟩
  rintro r' ⟨hr', hrx'⟩
  -- Going up from one `CASE` there is no choice, so one of the two roots is above the other.
  have hunique : Relator.RightUnique (Function.swap (Nests root)) :=
    fun _ _ _ h h' => h.left_unique h'
  rcases hrx.swap.total_of_right_unique hunique hrx'.swap with h | h
  · exact heq hr h.swap
  · exact (heq hr' h.swap).symm

/-! ## Height -/

theorem Enters.caseDepth_lt (h : Enters x p e) : e.caseDepth < x.2.value.depth := by
  induction h with
  | part h => exact CaseExpr.caseDepth_lt_depth (List.mem_of_getElem? h)
  | inside h ih => exact ih

theorem Enters.mem_parts (h : Enters x p e) : e.unnested ∈ x.2.value.parts.map Expr.unnested := by
  induction h with
  | part h => exact List.mem_map_of_mem (List.mem_of_getElem? h)
  | inside h ih => exact ih

theorem Enters.exists_of_wraps {inner : Expr} (hwraps : Expr.Wraps inner e) (h : Enters x p e) :
    ∃ q, Enters x q inner := by
  induction hwraps generalizing p with
  | refl => exact ⟨p, h⟩
  | nested span _ ih => exact ih h.inside

/-- The `CASE`s that stand directly in one are those among its parts, parentheses aside. -/
theorem nests_iff_mem (hx : Stands root x) :
    (∃ y, Nests root x y ∧ whole y.2 = e) ↔ e ∈ x.2.value.nestedCases := by
  unfold CaseExpr.nestedCases
  rw [List.mem_filter]
  constructor
  · rintro ⟨y, hy, rfl⟩
    exact ⟨hy.2.mem_parts, rfl⟩
  · rintro ⟨hmem, hcase⟩
    obtain ⟨part, hpart, rfl⟩ := List.mem_map.mp hmem
    obtain ⟨i, hi⟩ := List.mem_iff_getElem?.mp hpart
    obtain ⟨q, hq⟩ := (Enters.part hi).exists_of_wraps part.wraps_unnested
    generalize part.unnested = inner at hcase hq ⊢
    obtain ⟨kind, span⟩ := inner
    cases kind with
    | caseWhen c => exact ⟨(q, ⟨c, span⟩), ⟨hx, hq⟩, rfl⟩
    | _ => cases hcase

theorem length_le_depth {chain : List CaseAt} (h : (x :: chain).IsChain (Nests root)) :
    (x :: chain).length ≤ x.2.value.depth := by
  induction chain generalizing x with
  | nil => exact x.2.value.depth_pos
  | cons y chain ih =>
    obtain ⟨hxy, htail⟩ := List.isChain_cons_cons.mp h
    have hlt : y.2.value.depth < x.2.value.depth := hxy.2.caseDepth_lt
    have hle := ih htail
    rw [List.length_cons]
    omega

theorem depth_mem_heights (hx : Stands root x) : x.2.value.depth ∈ heights root x := by
  induction hdepth : x.2.value.depth using Nat.strongRecOn generalizing x with
  | ind n ih =>
    by_cases hone : x.2.value.depth = 1
    · exact ⟨[], .singleton x, by rw [← hdepth, hone]; rfl⟩
    · -- The chain goes on with a part that is as deep as can be.
      have hpos := x.2.value.depth_pos
      obtain ⟨part, hpart, hdeep⟩ := CaseExpr.exists_part_of_depth (by omega : 1 < x.2.value.depth)
      have hcase : part.unnested.isCase := by
        by_contra hcase
        have hzero := Expr.caseDepth_of_not_isCase hcase
        omega
      have hnested : part.unnested ∈ x.2.value.nestedCases :=
        List.mem_filter.mpr ⟨List.mem_map_of_mem hpart, hcase⟩
      obtain ⟨y, hxy, hy⟩ := (nests_iff_mem hx).mpr hnested
      have hdepthy : y.2.value.depth = part.caseDepth := by
        rw [← part.caseDepth_unnested, ← hy]
        rfl
      obtain ⟨chain, hchain, hlength⟩ := ih _ (by omega) hxy.stands hdepthy
      refine ⟨y :: chain, List.isChain_cons_cons.mpr ⟨hxy, hchain⟩, ?_⟩
      rw [List.length_cons]
      omega

theorem isGreatest_depth (hx : Stands root x) : IsGreatest (heights root x) x.2.value.depth := by
  refine ⟨depth_mem_heights hx, ?_⟩
  rintro n ⟨chain, hchain, rfl⟩
  exact length_le_depth hchain

/-! ## What is reported -/

/-- The occurrences that are nested in no other, in walk order. -/
def roots (root : Node) : List CaseAt := root.unmarkedAt caseStep Node.case?

theorem mem_roots_iff : x ∈ roots root ↔ IsRoot root x := by
  unfold roots
  rw [Node.mem_unmarkedAt_iff, isRoot_iff]
  constructor
  · rintro ⟨n, hn, hcase, hmark⟩
    obtain rfl := Node.eq_of_case? hcase
    exact ⟨hn, hmark⟩
  · rintro ⟨hx, hmark⟩
    exact ⟨_, hx, rfl, hmark⟩

theorem roots_sublist (root : Node) :
    ((roots root).map fun x => (x.1, Node.expr (whole x.2))).Sublist root.places :=
  Node.unmarkedAt_sublist (fun _ _ => Node.eq_of_case?) root

theorem map_snd_roots (root : Node) : (roots root).map Prod.snd = outermostCases root := by
  refine Node.map_snd_unmarkedAt ?_ root
  rintro (_ | _) n <;> rfl

def finding (ctx : Context) (max : Nat) (c : Located CaseExpr) : Diagnostic :=
  ctx.report s!"CASE expression is nested {c.value.depth} levels deep (maximum {max})." c.span

/-- The rule reports the roots that are too high, once each and with their heights. -/
theorem check_outermost (s : Statement) (ctx : Context) :
    let root := Node.statement s
    let max := (ctx.nat? "max_depth").getD defaultMaxDepth
    (∃ found : List CaseAt,
      check s ctx = found.map (fun x => finding ctx max x.2)
      ∧ (found.map fun x => (x.1, Node.expr (whole x.2))).Sublist root.places
      ∧ (found.map Prod.fst).Nodup
      ∧ ∀ x, x ∈ found ↔ IsRoot root x ∧ max < x.2.value.depth)
    ∧ (∀ x y z, Nests root x z → Nests root y z → x = y)
    ∧ (∀ x, Stands root x → ∃! r, IsRoot root r ∧ Relation.ReflTransGen (Nests root) r x)
    ∧ (∀ x, Stands root x → IsGreatest (heights root x) x.2.value.depth)
    ∧ (∀ x, Stands root x → ∀ e, (∃ y, Nests root x y ∧ whole y.2 = e) ↔ e ∈ x.2.value.nestedCases)
    ∧ ∀ c : Located CaseExpr,
      (whole c).caseDepth = (c.value.nestedCases.map Expr.caseDepth).max?.getD 0 + 1 := by
  intro root max
  have hsublist : (((roots root).filter (max < ·.2.value.depth)).map fun x =>
      (x.1, Node.expr (whole x.2))).Sublist root.places :=
    (List.filter_sublist.map _).trans (roots_sublist root)
  refine ⟨⟨(roots root).filter (max < ·.2.value.depth), ?_, hsublist, ?_, ?_⟩,
    fun x y z => Nests.left_unique, fun x => existsUnique_root, fun x => isGreatest_depth,
    fun x hx e => nests_iff_mem hx, fun c => c.value.depth_eq⟩
  · have hcheck : check s ctx
        = ((outermostCases root).filter (max < ·.value.depth)).map (finding ctx max) := rfl
    rw [hcheck, ← map_snd_roots, List.filter_map, List.map_map]
    rfl
  · have hplaces := root.nodup_fst_places.sublist (hsublist.map Prod.fst)
    rwa [List.map_map] at hplaces
  · intro x
    rw [List.mem_filter, mem_roots_iff, decide_eq_true_iff]

def plainContext : Context := ⟨info, .generic, info.defaultSeverity, none⟩

/-- `CASE WHEN condition THEN result END` -/
def caseWhen (condition result : Expr) : Located CaseExpr :=
  ⟨⟨none, [⟨condition, result⟩], none⟩, .empty⟩

/-- A `CASE` with another in parentheses for its condition, and three below one another for its
result. -/
def fourDeep : Located CaseExpr :=
  let inner := caseWhen (bareColumn "a") (bareColumn "b")
  let middle := caseWhen (bareColumn "c") (whole (caseWhen (bareColumn "d") (whole inner)))
  caseWhen ⟨.nested (whole inner), .empty⟩ (whole middle)

theorem check_outermost_fourDeep :
    let statement := Statement.query (.ofCore (selecting (whole fourDeep)))
    let outermost : CaseAt := ([0, 0, 0, 0, 0], fourDeep)
    Stands (.statement statement) outermost
    ∧ IsGreatest (heights (.statement statement) outermost) 4
    ∧ (check statement plainContext).length = 1 := by
  intro statement outermost
  have hstands : Stands (.statement statement) outermost := rfl
  have hdepth : outermost.2.value.depth = 4 := rfl
  obtain ⟨-, -, -, hheight, -⟩ := check_outermost statement plainContext
  exact ⟨hstands, hdepth ▸ hheight outermost hstands, by decide⟩

end Rules.NestedCase
end SqlLint
