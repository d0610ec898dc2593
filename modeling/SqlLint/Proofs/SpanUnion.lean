import Mathlib.Data.List.Induction
import Mathlib.Data.List.Perm.Basic
import SqlLint.Rules.Ambiguous

/-! # Unions of spans

The union is the join of a semilattice on the spans that are the unknown position or have a line at
both ends. Main statement: `union_semilattice`, from which neither the order nor the grouping of
the parts matters to a span that is put together. -/

namespace SqlLint

open Rules

/-! ## The order of locations -/

namespace Location

instance : Std.IsLinearOrder Location := by
  refine .of_le ⟨?_⟩ ⟨?_⟩ ⟨?_⟩
  · rintro ⟨line, column⟩ ⟨line', column'⟩ hab hba
    simp only [le_iff] at hab hba
    rw [Location.mk.injEq]
    omega
  · intro a b c hab hbc
    rw [le_iff] at hab hbc ⊢
    omega
  · intro a b
    rw [le_iff, le_iff]
    omega

instance : Std.LawfulOrderLeftLeaningMin Location := .of_eq fun _ _ => rfl

instance : Std.LawfulOrderLeftLeaningMax Location where
  max_eq_left a b hba := by
    change (if a ≤ b then b else a) = a
    split
    · next hab => exact Std.le_antisymm hba hab
    · rfl
  max_eq_right _ _ hba := if_pos (Std.le_of_not_ge hba)

theorem min_comm (a b : Location) : min a b = min b a := by
  have hle : ∀ {a b : Location}, min a b ≤ min b a :=
    Std.le_min_iff.mpr ⟨Std.min_le_right, Std.min_le_left⟩
  exact Std.le_antisymm hle hle

theorem max_comm (a b : Location) : max a b = max b a := by
  have hle : ∀ {a b : Location}, max a b ≤ max b a :=
    Std.max_le_iff.mpr ⟨Std.right_le_max, Std.left_le_max⟩
  exact Std.le_antisymm hle hle

theorem line_min (a b : Location) : (min a b).line = min a.line b.line := by
  rw [Std.min_eq_if]
  split
  · next h => rw [le_iff] at h; omega
  · next h => rw [le_iff] at h; omega

theorem line_max (a b : Location) : (max a b).line = max a.line b.line := by
  rw [Std.max_eq_if]
  split
  · next h => rw [le_iff] at h; omega
  · next h => rw [le_iff] at h; omega

end Location

namespace Span

variable {a b c : Span} {spans spans' : List Span}

/-! ## The laws of the union -/

/-- Whether a span is the unknown position or has a line at both ends. -/
def IsProper (s : Span) : Prop := s = empty ∨ s.start.line ≠ 0 ∧ s.stop.line ≠ 0

instance (s : Span) : Decidable s.IsProper :=
  inferInstanceAs (Decidable (s = empty ∨ s.start.line ≠ 0 ∧ s.stop.line ≠ 0))

/-- Whether a span begins no later than another and ends no earlier. -/
def Covers (outer inner : Span) : Prop := outer.start ≤ inner.start ∧ inner.stop ≤ outer.stop

theorem isEmpty_eq_false_iff : a.isEmpty = false ↔ a.start.line ≠ 0 ∨ a.stop.line ≠ 0 := by
  simp [isEmpty, ← Bool.not_eq_true, imp_iff_not_or]

theorem IsProper.eq_empty (h : a.IsProper) (hempty : a.isEmpty = true) : a = empty := by
  rcases h with rfl | ⟨hstart, -⟩
  · rfl
  · rw [isEmpty_eq_false_iff.mpr (.inl hstart)] at hempty
    cases hempty

theorem isProper_empty : empty.IsProper := .inl rfl

theorem union_of_isEmpty (h : a.isEmpty = true) : a.union b = b := if_pos h

theorem union_of_isEmpty_right (ha : a.isEmpty = false) (hb : b.isEmpty = true) :
    a.union b = a := by
  unfold union
  rw [if_neg (by simp [ha]), if_pos hb]

theorem union_of_not_isEmpty (ha : a.isEmpty = false) (hb : b.isEmpty = false) :
    a.union b = ⟨min a.start b.start, max a.stop b.stop⟩ := by
  unfold union
  rw [if_neg (by simp [ha]), if_neg (by simp [hb])]

theorem isEmpty_union (a b : Span) : (a.union b).isEmpty = (a.isEmpty && b.isEmpty) := by
  cases ha : a.isEmpty with
  | true => rw [union_of_isEmpty ha, Bool.true_and]
  | false =>
    cases hb : b.isEmpty with
    | true => rw [union_of_isEmpty_right ha hb, ha, Bool.false_and]
    | false =>
      rw [union_of_not_isEmpty ha hb, Bool.false_and, isEmpty_eq_false_iff, Location.line_min,
        Location.line_max]
      rw [isEmpty_eq_false_iff] at ha hb
      omega

theorem union_assoc (a b c : Span) : (a.union b).union c = a.union (b.union c) := by
  cases ha : a.isEmpty with
  | true => rw [union_of_isEmpty ha, union_of_isEmpty ha]
  | false =>
    cases hb : b.isEmpty with
    | true => rw [union_of_isEmpty_right ha hb, union_of_isEmpty hb]
    | false =>
      have hab : (a.union b).isEmpty = false := by rw [isEmpty_union, ha, Bool.false_and]
      cases hc : c.isEmpty with
      | true => rw [union_of_isEmpty_right hab hc, union_of_isEmpty_right hb hc]
      | false =>
        have hbc : (b.union c).isEmpty = false := by rw [isEmpty_union, hb, Bool.false_and]
        rw [union_of_not_isEmpty hab hc, union_of_not_isEmpty ha hbc, union_of_not_isEmpty ha hb,
          union_of_not_isEmpty hb hc]
        simp only [Std.Associative.assoc]

theorem IsProper.union_empty (h : a.IsProper) : a.union empty = a := by
  cases ha : a.isEmpty with
  | true => rw [h.eq_empty ha, empty_union]
  | false => exact union_of_isEmpty_right ha rfl

/-- Columns without a line are lost. -/
example : (⟨⟨0, 5⟩, ⟨0, 9⟩⟩ : Span).union empty = empty := rfl

theorem IsProper.union_comm (ha : a.IsProper) (hb : b.IsProper) : a.union b = b.union a := by
  cases hea : a.isEmpty with
  | true => rw [ha.eq_empty hea, empty_union, hb.union_empty]
  | false =>
    cases heb : b.isEmpty with
    | true => rw [hb.eq_empty heb, empty_union, ha.union_empty]
    | false =>
      rw [union_of_not_isEmpty hea heb, union_of_not_isEmpty heb hea, Location.min_comm,
        Location.max_comm]

theorem union_self (a : Span) : a.union a = a := by
  cases ha : a.isEmpty with
  | true => exact union_of_isEmpty ha
  | false => rw [union_of_not_isEmpty ha ha, Std.min_self, Std.max_self]

theorem IsProper.union (ha : a.IsProper) (hb : b.IsProper) : (a.union b).IsProper := by
  rcases ha with rfl | ha
  · exact hb
  · rcases hb with rfl | hb
    · rw [IsProper.union_empty (.inr ha)]
      exact .inr ha
    · rw [union_of_not_isEmpty (isEmpty_eq_false_iff.mpr (.inl ha.1))
        (isEmpty_eq_false_iff.mpr (.inl hb.1))]
      refine .inr ⟨?_, ?_⟩
      · rw [Location.line_min]
        omega
      · rw [Location.line_max]
        omega

theorem covers_union_left (ha : a.isEmpty = false) (hb : b.isEmpty = false) :
    (a.union b).Covers a := by
  rw [union_of_not_isEmpty ha hb]
  exact ⟨Std.min_le_left, Std.left_le_max⟩

theorem covers_union_right (ha : a.isEmpty = false) (hb : b.isEmpty = false) :
    (a.union b).Covers b := by
  rw [union_of_not_isEmpty ha hb]
  exact ⟨Std.min_le_right, Std.right_le_max⟩

theorem Covers.union (ha : c.Covers a) (hb : c.Covers b) : c.Covers (a.union b) := by
  cases hea : a.isEmpty with
  | true => rwa [union_of_isEmpty hea]
  | false =>
    cases heb : b.isEmpty with
    | true => rwa [union_of_isEmpty_right hea heb]
    | false =>
      rw [union_of_not_isEmpty hea heb]
      exact ⟨Std.le_min_iff.mpr ⟨ha.1, hb.1⟩, Std.max_le_iff.mpr ⟨ha.2, hb.2⟩⟩

/-! ## Spans of several parts -/

theorem isProper_unions (h : ∀ span ∈ spans, span.IsProper) : (unions spans).IsProper := by
  induction spans using List.reverseRecOn with
  | nil => exact isProper_empty
  | append_singleton spans span ih =>
    unfold unions
    rw [List.foldl_concat]
    exact (ih fun s hs => h s (List.mem_append_left _ hs)).union
      (h span (List.mem_append_right _ (List.mem_singleton_self span)))

theorem foldl_union (ha : a.IsProper) (spans : List Span) :
    spans.foldl union a = a.union (unions spans) := by
  induction spans using List.reverseRecOn with
  | nil => exact ha.union_empty.symm
  | append_singleton spans span ih =>
    unfold unions at ih ⊢
    rw [List.foldl_concat, List.foldl_concat, ih, union_assoc]

theorem unions_append (h : ∀ span ∈ spans, span.IsProper) (spans' : List Span) :
    unions (spans ++ spans') = (unions spans).union (unions spans') := by
  rw [← foldl_union (isProper_unions h)]
  unfold unions
  rw [List.foldl_append]

theorem unions_perm (h : spans.Perm spans') (hproper : ∀ span ∈ spans, span.IsProper) :
    unions spans = unions spans' := by
  refine h.foldl_eq' (fun x hx y hy z => ?_) empty
  rw [union_assoc, union_assoc, (hproper x hx).union_comm (hproper y hy)]

/-- A way to put spans together, two at a time. -/
inductive Grouping where
  | none
  | one (part : Span)
  | both (first second : Grouping)

namespace Grouping

def parts : Grouping → List Span
  | none => []
  | one part => [part]
  | both first second => first.parts ++ second.parts

def span : Grouping → Span
  | none => .empty
  | one part => part
  | both first second => first.span.union second.span

theorem span_eq_unions {g : Grouping} (h : ∀ part ∈ g.parts, part.IsProper) :
    g.span = unions g.parts := by
  induction g with
  | none => rfl
  | one part => rfl
  | both first second ihfirst ihsecond =>
    rw [parts, List.forall_mem_append] at h
    rw [span, parts, unions_append h.1, ihfirst h.1, ihsecond h.2]

theorem unions_eq_span {g : Grouping} (hparts : g.parts.Perm spans)
    (hproper : ∀ part ∈ g.parts, part.IsProper) : unions spans = g.span := by
  rw [span_eq_unions hproper]
  exact (unions_perm hparts hproper).symm

end Grouping

theorem span_source_eq_unions (f : FromClause) :
    (Node.source f).span = unions (f.first.span :: f.joins.map Join.span) := by
  change f.joins.foldl (fun span join => span.union join.span) f.first.span = _
  rw [unions, List.foldl_cons, empty_union, List.foldl_map]

/-- On proper spans the union is a semilattice, so parts go together in any order. -/
theorem union_semilattice :
    (∀ a b c : Span, (a.union b).union c = a.union (b.union c))
    ∧ (∀ a b : Span, a.IsProper → b.IsProper → a.union b = b.union a ∧ (a.union b).IsProper)
    ∧ (∀ a : Span, a.IsProper → a.union a = a ∧ a.union empty = a ∧ empty.union a = a)
    ∧ (∀ a b : Span, (a.union b).isEmpty = (a.isEmpty && b.isEmpty))
    ∧ (∀ a b : Span, a.isEmpty = false → b.isEmpty = false →
      (a.union b).Covers a ∧ (a.union b).Covers b
        ∧ ∀ c : Span, c.Covers a → c.Covers b → c.Covers (a.union b))
    ∧ (∀ (name : ObjectName) (g : Grouping), g.parts.Perm (name.parts.map Ident.span) →
      (∀ part ∈ g.parts, part.IsProper) → name.span = g.span)
    ∧ (∀ (f : FromClause) (g : Grouping),
      g.parts.Perm (f.first.span :: f.joins.map Join.span) →
      (∀ part ∈ g.parts, part.IsProper) → (Node.source f).span = g.span)
    ∧ ∀ (s : Statement) (ctx : Context) (grouping : List OrderBy → Grouping),
      (∀ keys ∈ (AmbiguousOrderBy.clauses (.statement s)).filter AmbiguousOrderBy.mixesDirections,
        (grouping keys).parts.Perm (keys.map (·.expr.span))
          ∧ ∀ part ∈ (grouping keys).parts, part.IsProper) →
      AmbiguousOrderBy.check s ctx
        = ((AmbiguousOrderBy.clauses (.statement s)).filter AmbiguousOrderBy.mixesDirections).map
          fun keys => ctx.report AmbiguousOrderBy.message (grouping keys).span := by
  refine ⟨union_assoc, fun a b ha hb => ⟨ha.union_comm hb, ha.union hb⟩,
    fun a ha => ⟨union_self a, ha.union_empty, rfl⟩, isEmpty_union,
    fun a b ha hb => ⟨covers_union_left ha hb, covers_union_right ha hb,
      fun c hca hcb => hca.union hcb⟩,
    fun name g hparts hproper => Grouping.unions_eq_span hparts hproper,
    fun f g hparts hproper => ?_, fun s ctx grouping h => ?_⟩
  · rw [span_source_eq_unions]
    exact Grouping.unions_eq_span hparts hproper
  · refine List.map_congr_left fun keys hkeys => ?_
    obtain ⟨hparts, hproper⟩ := h keys hkeys
    rw [Grouping.unions_eq_span hparts hproper]

/-- Two parts on different lines, with one at an unknown position between them. -/
def scattered : List Span := [⟨⟨1, 9⟩, ⟨1, 10⟩⟩, .empty, ⟨⟨3, 1⟩, ⟨3, 20⟩⟩]

/-- The last part, then the others in this order. -/
def lastFirst : Grouping :=
  .both (.one ⟨⟨3, 1⟩, ⟨3, 20⟩⟩) (.both .none (.both (.one ⟨⟨1, 9⟩, ⟨1, 10⟩⟩) (.one .empty)))

/-- The keys of `ORDER BY 1 DESC, 1, 1` at the scattered parts -/
def scatteredKeys : List OrderBy :=
  scattered.zipIdx.map fun (span, index) =>
    ⟨⟨.literal ⟨.number, "1"⟩, span⟩, if index = 0 then some false else none, none⟩

/-- `VALUES (1) ORDER BY 1 DESC, 1, 1` -/
def scatteredValues : Statement :=
  let one : Expr := ⟨.literal ⟨.number, "1"⟩, .empty⟩
  .query ⟨[], false, .values [[one]] .empty, scatteredKeys, none, none, .empty⟩

theorem union_semilattice_scattered :
    let first : Span := ⟨⟨1, 9⟩, ⟨1, 10⟩⟩
    let last : Span := ⟨⟨3, 1⟩, ⟨3, 20⟩⟩
    let name : ObjectName := ⟨scattered.map fun span => { value := "a", span }⟩
    let table : TableRef := .named ⟨[]⟩ none first
    let joins : FromClause :=
      ⟨table, [⟨.inner, false, table, none, [], .empty⟩, ⟨.inner, false, table, none, [], last⟩]⟩
    let ctx : Context := ⟨AmbiguousOrderBy.info, .generic, .warning, none⟩
    (first.IsProper ∧ last.IsProper ∧ first.union last = last.union first)
    ∧ (first.isEmpty = false ∧ last.isEmpty = false ∧ (first.union last).Covers last)
    ∧ (lastFirst.parts.Perm scattered ∧ (∀ part ∈ lastFirst.parts, part.IsProper))
    ∧ name.span = lastFirst.span ∧ (Node.source joins).span = lastFirst.span
    ∧ AmbiguousOrderBy.check scatteredValues ctx
      = [ctx.report AmbiguousOrderBy.message lastFirst.span] := by
  intro first last name table joins ctx
  have hfirst : first.IsProper := by decide
  have hlast : last.IsProper := by decide
  have hparts : lastFirst.parts.Perm scattered := by decide
  have hproper : ∀ part ∈ lastFirst.parts, part.IsProper := by decide
  obtain ⟨-, hcomm, -, -, hcovers, hname, hsource, hcheck⟩ := union_semilattice
  refine ⟨⟨hfirst, hlast, (hcomm first last hfirst hlast).1⟩,
    ⟨rfl, rfl, (hcovers first last rfl rfl).2.1⟩, ⟨hparts, hproper⟩,
    hname name lastFirst hparts hproper, hsource joins lastFirst hparts hproper, ?_⟩
  have hclauses : (AmbiguousOrderBy.clauses (.statement scatteredValues)).filter
      AmbiguousOrderBy.mixesDirections = [scatteredKeys] := by
    rfl
  have hcheck := hcheck scatteredValues ctx fun _ => lastFirst
  rw [hclauses] at hcheck
  refine hcheck fun keys hkeys => ?_
  obtain rfl := List.mem_singleton.mp hkeys
  exact ⟨hparts, hproper⟩

end Span
end SqlLint
