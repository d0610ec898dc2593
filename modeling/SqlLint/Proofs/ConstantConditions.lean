import SqlLint.Proofs.Levels
import SqlLint.Proofs.Lists
import SqlLint.Proofs.Predicates
import SqlLint.Proofs.Scopes

/-! # Constant conditions in parentheses

The rule goes inside the parentheses around its conditions, but not inside those around the sides of
an equality, so it does not see that `(1) = 1` is constant. Main statement: `check_parentheses`,
which parentheses have an effect on the messages. -/

namespace SqlLint.Rules.ConstantExpression

open Relation (EqvGen)

section

variable {e e' c c' left right : Expr} {span : Span}

/-! ## The sides of an equality -/

/-- Whether the second condition is the first with parentheses around a side of an equality. -/
inductive AddsToSide : Expr → Expr → Prop where
  | left {left left' : Expr} (right : Expr) (span : Span) (h : left.Wraps left') :
    AddsToSide ⟨.binary left .eq right, span⟩ ⟨.binary left' .eq right, span⟩
  | right {right right' : Expr} (left : Expr) (span : Span) (h : right.Wraps right') :
    AddsToSide ⟨.binary left .eq right, span⟩ ⟨.binary left .eq right', span⟩

/-- Whether parentheses are added or left out around conditions. -/
abbrev SameConditions : Expr → Expr → Prop := EqvGen (Adds emptyRelation)

/-- Whether parentheses are added or left out around conditions and the sides of equalities. -/
abbrev SameEqualities : Expr → Expr → Prop := EqvGen (Adds AddsToSide)

def IsEquality (c : Expr) : Prop := ∃ left right, c.kind = .binary left .eq right

/-- Whether the condition sets a literal other than `NULL` equal to itself, parentheses around its
sides aside. -/
def IsSelfEquality (c : Expr) : Prop :=
  ∃ left right l, c.kind = .binary left .eq right ∧ left.unnested.literal? = some l
    ∧ right.unnested.literal? = some l ∧ l.kind ≠ .null

/-- Whether it does so with a side in parentheses. -/
def IsHidden (c : Expr) : Prop :=
  IsSelfEquality c ∧ ∃ left right, c.kind = .binary left .eq right
    ∧ (left.IsNested ∨ right.IsNested)

/-- The condition without the parentheses around the sides of an equality. -/
def bareSides : Expr → Expr
  | ⟨.binary left .eq right, span⟩ => ⟨.binary left.unnested .eq right.unnested, span⟩
  | c => c

/-- The condition with the left side of an equality in parentheses. -/
def veiledSide : Expr → Expr
  | ⟨.binary left .eq right, span⟩ => ⟨.binary ⟨.nested left, .empty⟩ .eq right, span⟩
  | c => c

/-- The predicate with no parentheses around its conditions or around the sides of equalities. -/
def plain (e : Expr) : Expr := reduced bareSides e

theorem bareSides_of_not_isEquality (h : ¬ IsEquality c) : bareSides c = c := by
  unfold bareSides
  split
  · exact absurd ⟨_, _, rfl⟩ h
  · rfl

theorem veiledSide_of_not_isEquality (h : ¬ IsEquality c) : veiledSide c = c := by
  unfold veiledSide
  split
  · exact absurd ⟨_, _, rfl⟩ h
  · rfl

theorem isElementary_equality (left right : Expr) (span : Span) :
    IsElementary ⟨.binary left .eq right, span⟩ := by
  rintro (h | h) <;> cases h

theorem cases_equality {P : Expr → Prop}
    (equality : ∀ left right span, P ⟨.binary left .eq right, span⟩)
    (other : ∀ c, ¬ IsEquality c → P c) (c : Expr) : P c := by
  by_cases h : IsEquality c
  · obtain ⟨kind, span⟩ := c
    obtain ⟨left, right, rfl⟩ := h
    exact equality left right span
  · exact other c h

theorem isElementary_bareSides (c : Expr) (hc : IsElementary c) : IsElementary (bareSides c) := by
  induction c using cases_equality with
  | equality left right span => exact isElementary_equality _ _ _
  | other c h => rwa [bareSides_of_not_isEquality h]

theorem isElementary_veiledSide (c : Expr) (hc : IsElementary c) :
    IsElementary (veiledSide c) := by
  induction c using cases_equality with
  | equality left right span => exact isElementary_equality _ _ _
  | other c h => rwa [veiledSide_of_not_isEquality h]

theorem AddsToSide.adds (h : AddsToSide c c') : Adds AddsToSide c c' := by
  have helementary : IsElementary c ∧ IsElementary c' := by
    cases h <;> exact ⟨isElementary_equality _ _ _, isElementary_equality _ _ _⟩
  exact .condition helementary.1 helementary.2 h

theorem AddsToSide.bareSides_eq (h : AddsToSide c c') : bareSides c = bareSides c' := by
  cases h with
  | left right span h => simp only [bareSides, h.unnested_eq]
  | right left span h => simp only [bareSides, h.unnested_eq]

theorem sameEqualities_bareSides (c : Expr) : SameEqualities c (bareSides c) := by
  induction c using cases_equality with
  | equality left right span =>
    have hleft : AddsToSide ⟨.binary left.unnested .eq right.unnested, span⟩
        ⟨.binary left .eq right.unnested, span⟩ := .left _ _ left.wraps_unnested
    have hright : AddsToSide ⟨.binary left .eq right.unnested, span⟩
        ⟨.binary left .eq right, span⟩ := .right _ _ right.wraps_unnested
    exact .symm _ _ (.trans _ _ _ (.rel _ _ hleft.adds) (.rel _ _ hright.adds))
  | other c h =>
    rw [bareSides_of_not_isEquality h]
    exact .refl c

theorem sameEqualities_veiledSide (c : Expr) : SameEqualities c (veiledSide c) := by
  induction c using cases_equality with
  | equality left right span =>
    exact .rel _ _ (AddsToSide.left right span (.nested .empty .refl)).adds
  | other c h =>
    rw [veiledSide_of_not_isEquality h]
    exact .refl c

theorem sameConditions_iff : SameConditions e e' ↔ reduced id e = reduced id e' :=
  eqvGen_adds_iff (fun _ _ => False.elim) .refl

theorem sameEqualities_iff : SameEqualities e e' ↔ plain e = plain e' :=
  eqvGen_adds_iff (fun _ _ => AddsToSide.bareSides_eq) sameEqualities_bareSides

theorem SameConditions.conditions_eq (h : SameConditions e e') : conditions e = conditions e' := by
  have hid : ∀ x, conditions (reduced id x) = conditions x := fun x => by
    rw [conditions_reduced (f := id) (fun _ hc => hc), List.map_id]
  rw [← hid e, sameConditions_iff.mp h, hid]

theorem SameConditions.sameEqualities (h : SameConditions e e') : SameEqualities e e' := by
  rw [sameEqualities_iff]
  have hreduced : ∀ x, plain (reduced id x) = plain x := fun x =>
    (sameEqualities_iff.mp (eqvGen_reduced .refl x)).symm
  rw [← hreduced e, sameConditions_iff.mp h, hreduced]

theorem sameEqualities_plain (e : Expr) : SameEqualities e (plain e) :=
  eqvGen_reduced sameEqualities_bareSides e

/-! ## What is said of an equality -/

theorem selfEquality?_eq_some_iff {l : Literal} :
    selfEquality? (.binary left .eq right) = some l
      ↔ left.literal? = some l ∧ right.literal? = some l ∧ l.kind ≠ .null := by
  have heq : selfEquality? (.binary left .eq right) = left.literal?.bind fun a =>
      right.literal?.bind fun b => if a.kind != .null && a == b then some a else none := by
    obtain ⟨kind, span⟩ := left
    cases kind with
    | literal a =>
      obtain ⟨kind', span'⟩ := right
      cases kind' <;> rfl
    | _ => rfl
  rw [heq]
  simp only [Option.bind_eq_some_iff]
  constructor
  · rintro ⟨a, ha, b, hb, hab⟩
    split at hab <;> cases hab
    next h =>
      simp only [Bool.and_eq_true, bne_iff_ne, beq_iff_eq] at h
      exact ⟨ha, h.2 ▸ hb, h.1⟩
  · rintro ⟨ha, hb, hl⟩
    exact ⟨l, ha, l, hb, by simp [hl]⟩

theorem not_isNested_of_literal? {l : Literal} (h : e.literal? = some l) : ¬ e.IsNested := by
  rintro ⟨inner, hkind⟩
  simp [Expr.literal?, hkind] at h

theorem isSelfEquality_iff :
    IsSelfEquality ⟨.binary left .eq right, span⟩
      ↔ ∃ l, selfEquality? (.binary left.unnested .eq right.unnested) = some l := by
  simp only [selfEquality?_eq_some_iff]
  constructor
  · rintro ⟨_, _, l, hkind, h⟩
    cases hkind
    exact ⟨l, h⟩
  · rintro ⟨l, h⟩
    exact ⟨left, right, l, rfl, h⟩

theorem isHidden_iff :
    IsHidden ⟨.binary left .eq right, span⟩
      ↔ IsSelfEquality ⟨.binary left .eq right, span⟩ ∧ (left.IsNested ∨ right.IsNested) := by
  refine and_congr_right fun _ => ⟨?_, fun h => ⟨left, right, rfl, h⟩⟩
  rintro ⟨_, _, hkind, h⟩
  cases hkind
  exact h

theorem IsSelfEquality.isEquality (h : IsSelfEquality c) : IsEquality c := by
  obtain ⟨left, right, l, hkind, -⟩ := h
  exact ⟨left, right, hkind⟩

theorem selfEquality?_unnested {l : Literal} (h : selfEquality? (.binary left .eq right) = some l) :
    selfEquality? (.binary left.unnested .eq right.unnested) = some l := by
  obtain ⟨hleft, hright, -⟩ := selfEquality?_eq_some_iff.mp h
  rwa [Expr.unnested_of_not_isNested (not_isNested_of_literal? hleft),
    Expr.unnested_of_not_isNested (not_isNested_of_literal? hright)]

theorem complaint?_bareSides {text : String} (h : complaint? c.kind = some text) :
    complaint? (bareSides c).kind = some text := by
  induction c using cases_equality with
  | equality left right span =>
    obtain ⟨l, hl, rfl⟩ := Option.map_eq_some_iff.mp h
    exact Option.map_eq_some_iff.mpr ⟨l, selfEquality?_unnested hl, rfl⟩
  | other c hc => rwa [bareSides_of_not_isEquality hc]

theorem complaint?_eq_iff : complaint? c.kind = complaint? (bareSides c).kind ↔ ¬ IsHidden c := by
  induction c using cases_equality with
  | equality left right span =>
    rw [isHidden_iff, isSelfEquality_iff]
    change (selfEquality? (.binary left .eq right)).map _
      = (selfEquality? (.binary left.unnested .eq right.unnested)).map _ ↔ _
    constructor
    · rintro heq ⟨⟨l, hl⟩, hnested⟩
      rw [hl, Option.map_some, Option.map_eq_some_iff] at heq
      obtain ⟨l', hl', -⟩ := heq
      obtain ⟨hleft, hright, -⟩ := selfEquality?_eq_some_iff.mp hl'
      exact hnested.elim (not_isNested_of_literal? hleft) (not_isNested_of_literal? hright)
    · intro hvisible
      refine congrArg _ (Option.ext fun l => ⟨selfEquality?_unnested, fun hl => ?_⟩)
      obtain ⟨hleft, hright⟩ := not_or.mp fun h => hvisible ⟨⟨l, hl⟩, h⟩
      rwa [Expr.unnested_of_not_isNested hleft, Expr.unnested_of_not_isNested hright] at hl
  | other c hc =>
    rw [bareSides_of_not_isEquality hc]
    exact iff_of_true rfl fun h => hc h.1.isEquality

theorem isSelfEquality_bareSides : IsSelfEquality (bareSides c) ↔ IsSelfEquality c := by
  induction c using cases_equality with
  | equality left right span =>
    unfold bareSides
    rw [isSelfEquality_iff, isSelfEquality_iff,
      Expr.unnested_of_not_isNested left.not_isNested_unnested,
      Expr.unnested_of_not_isNested right.not_isNested_unnested]
  | other c hc => rw [bareSides_of_not_isEquality hc]

theorem IsSelfEquality.isHidden_veiledSide (h : IsSelfEquality c) : IsHidden (veiledSide c) := by
  obtain ⟨kind, span⟩ := c
  obtain ⟨left, right, rfl⟩ := h.isEquality
  obtain ⟨l, hl⟩ := isSelfEquality_iff.mp h
  exact isHidden_iff.mpr ⟨isSelfEquality_iff.mpr ⟨l, hl⟩, .inl ⟨left, rfl⟩⟩

/-! ## Messages -/

def messages (e : Expr) : List String := (conditions e).filterMap (complaint? ·.kind)

theorem map_message_checkPredicate (ctx : Context) (e : Expr) :
    (checkPredicate ctx e).map Diagnostic.message = messages e := by
  unfold checkPredicate messages
  rw [List.map_filterMap]
  refine List.filterMap_congr fun c _ => ?_
  cases complaint? c.kind with
  | none => rfl
  | some text => exact congrArg some (ctx.message_report text c.span)

theorem messages_eq (e : Expr) :
    messages e = (conditions e).flatMap fun c => (complaint? c.kind).toList :=
  List.filterMap_eq_flatMap_toList ..

theorem messages_plain (e : Expr) :
    messages (plain e)
      = (conditions e).flatMap fun c => (complaint? (bareSides c).kind).toList := by
  rw [messages_eq, plain, conditions_reduced isElementary_bareSides, List.flatMap_map]

theorem toList_complaint?_sublist (c : Expr) :
    (complaint? c.kind).toList.Sublist (complaint? (bareSides c).kind).toList := by
  cases h : complaint? c.kind with
  | none => exact List.nil_sublist _
  | some text => rw [complaint?_bareSides h]

theorem messages_sublist_plain (e : Expr) : (messages e).Sublist (messages (plain e)) := by
  rw [messages_eq, messages_plain]
  exact List.Sublist.flatMap_right _ fun c _ => toList_complaint?_sublist c

/-- Parentheses hide a message only where a side of a self-equality stands in them. -/
theorem messages_eq_plain_iff (e : Expr) :
    messages e = messages (plain e) ↔ ∀ c ∈ conditions e, ¬ IsHidden c := by
  rw [messages_eq, messages_plain, flatMap_eq_iff fun c _ => toList_complaint?_sublist c]
  refine forall₂_congr fun c _ => ?_
  rw [← complaint?_eq_iff]
  exact ⟨fun h => Option.ext fun x => by rw [← Option.mem_toList, h, Option.mem_toList], congrArg _⟩

theorem SameEqualities.messages_plain_eq (h : SameEqualities e e') :
    messages (plain e') = messages (plain e) := by
  rw [sameEqualities_iff.mp h]

theorem SameEqualities.isSelfEquality (h : SameEqualities e e')
    (hself : ∃ c ∈ conditions e', IsSelfEquality c) : ∃ c ∈ conditions e, IsSelfEquality c := by
  have hmap : (conditions e).map bareSides = (conditions e').map bareSides := by
    rw [← conditions_reduced isElementary_bareSides, ← conditions_reduced isElementary_bareSides]
    exact congrArg conditions (sameEqualities_iff.mp h)
  obtain ⟨c', hc', hself⟩ := hself
  have hmem : bareSides c' ∈ (conditions e).map bareSides := hmap ▸ List.mem_map_of_mem hc'
  obtain ⟨c, hc, heq⟩ := List.mem_map.mp hmem
  exact ⟨c, hc, isSelfEquality_bareSides.mp (heq ▸ isSelfEquality_bareSides.mpr hself)⟩

theorem messages_invariant_iff (e : Expr) :
    (∀ e', SameEqualities e e' → messages e' = messages e)
      ↔ ∀ c ∈ conditions e, ¬ IsSelfEquality c := by
  constructor
  · intro hsame c hc hself
    -- In the predicate with parentheses around all left sides, the condition is hidden.
    let veiled := reduced veiledSide e
    have hveiled : SameEqualities e veiled := eqvGen_reduced sameEqualities_veiledSide e
    have heq : messages veiled = messages (plain veiled) := by
      rw [hveiled.messages_plain_eq, hsame _ hveiled, hsame _ (sameEqualities_plain e)]
    have hmem : veiledSide c ∈ conditions veiled := by
      rw [conditions_reduced isElementary_veiledSide]
      exact List.mem_map_of_mem hc
    exact (messages_eq_plain_iff veiled).mp heq _ hmem hself.isHidden_veiledSide
  · intro hnone e' h
    have hnone' : ∀ c ∈ conditions e', ¬ IsSelfEquality c := by
      intro c hc hself
      obtain ⟨c₀, hc₀, hself₀⟩ := h.isSelfEquality ⟨c, hc, hself⟩
      exact hnone c₀ hc₀ hself₀
    rw [(messages_eq_plain_iff e').mpr fun c hc hidden => hnone' c hc hidden.1,
      (messages_eq_plain_iff e).mpr fun c hc hidden => hnone c hc hidden.1, h.messages_plain_eq]

/-! ## The statement around a predicate -/

/-- The query of a core with a given `WHERE` predicate. -/
def inWhere (core : Core) (e : Expr) : Statement :=
  .query (.ofCore { core with condition := some e })

theorem cores_eq (n : Node) : n.cores = n.core?.toList ++ n.children.flatMap Node.cores :=
  Node.collect_children n

theorem cores_nested (e : Expr) (span : Span) :
    (Node.expr ⟨.nested e, span⟩).cores = (Node.expr e).cores :=
  (cores_eq _).trans (List.append_nil _)

theorem cores_binary (left : Expr) (op : BinaryOperator) (right : Expr) (span : Span) :
    (Node.expr ⟨.binary left op right, span⟩).cores
      = (Node.expr left).cores ++ (Node.expr right).cores := by
  rw [cores_eq]
  simp [Node.core?, Node.children, ExprKind.children]

theorem cores_of_wraps (h : e.Wraps e') : (Node.expr e).cores = (Node.expr e').cores := by
  induction h with
  | refl => rfl
  | nested span h ih => rw [cores_nested, ih]

theorem SameEqualities.cores_eq (h : SameEqualities e e') :
    (Node.expr e).cores = (Node.expr e').cores := by
  refine eq_of_eqvGen (g := fun e => (Node.expr e).cores) (fun a b hab => ?_) h
  induction hab with
  | here e span => rw [cores_nested]
  | inside span h ih => rw [cores_nested, cores_nested, ih]
  | left hop right span h ih => rw [cores_binary, cores_binary, ih]
  | right hop left span h ih => rw [cores_binary, cores_binary, ih]
  | condition hc hc' h =>
    cases h with
    | left right span h => rw [cores_binary, cores_binary, cores_of_wraps h]
    | right left span h => rw [cores_binary, cores_binary, cores_of_wraps h]

theorem cores_inWhere (core : Core) : ∃ before after : List Core, ∀ e,
    (Node.statement (inWhere core e)).cores
      = { core with condition := some e } :: (before ++ (Node.expr e).cores ++ after) := by
  refine ⟨(core.columns.map Node.item ++ core.source.toList.map Node.source).flatMap Node.cores,
    (core.groupBy.map Node.expr ++ core.having.toList.map Node.expr
      ++ core.qualify.toList.map Node.expr ++ core.orderBy.map Node.orderBy
      ++ core.limit.toList.map Node.expr ++ core.offset.toList.map Node.expr).flatMap Node.cores,
    fun e => ?_⟩
  simp [inWhere, Query.ofCore, cores_eq (.statement _), cores_eq (.query _), cores_eq (.body _),
    cores_eq (.core _), Node.children, Node.core?, Statement.query?]

theorem check_inWhere (core : Core) (e : Expr) (ctx : Context) : ∃ others : List Diagnostic,
    ∀ e', SameEqualities e e' → check (inWhere core e') ctx = checkPredicate ctx e' ++ others := by
  obtain ⟨before, after, hcores⟩ := cores_inWhere core
  refine ⟨(before ++ (Node.expr e).cores ++ after).flatMap fun c =>
    c.condition.elim [] (checkPredicate ctx), fun e' h => ?_⟩
  rw [check, hcores, List.flatMap_cons, h.cores_eq]
  rfl

theorem map_message_check (s : Statement) (ctx : Context) :
    (check s ctx).map Diagnostic.message
      = (Node.statement s).cores.flatMap fun core => core.condition.elim [] messages := by
  unfold check
  rw [List.map_flatMap]
  refine List.flatMap_congr fun core _ => ?_
  cases core.condition with
  | none => rfl
  | some e => exact map_message_checkPredicate ctx e

end

/-- Parentheses around conditions have no effect; around sides they can hide a message. -/
theorem check_parentheses (ctx : Context) :
    (∀ s, (check s ctx).map Diagnostic.message
      = (Node.statement s).cores.flatMap fun core => core.condition.elim [] messages)
    ∧ ∀ core e,
      (∀ e', SameConditions e e' → check (inWhere core e') ctx = check (inWhere core e) ctx)
      ∧ SameEqualities e (plain e)
      ∧ (messages e).Sublist (messages (plain e))
      ∧ (messages e = messages (plain e) ↔ ∀ c ∈ conditions e, ¬ IsHidden c)
      ∧ ((∀ e', SameEqualities e e' →
          (check (inWhere core e') ctx).map Diagnostic.message
            = (check (inWhere core e) ctx).map Diagnostic.message)
        ↔ ∀ c ∈ conditions e, ¬ IsSelfEquality c) := by
  refine ⟨fun s => map_message_check s ctx, fun core e => ?_⟩
  obtain ⟨others, hcheck⟩ := check_inWhere core e ctx
  have hself : check (inWhere core e) ctx = checkPredicate ctx e ++ others := hcheck e (.refl e)
  refine ⟨fun e' h => ?_, sameEqualities_plain e, messages_sublist_plain e,
    messages_eq_plain_iff e, ?_⟩
  · rw [hcheck e' h.sameEqualities, hself, checkPredicate, checkPredicate, h.conditions_eq]
  · rw [← messages_invariant_iff]
    refine forall₂_congr fun e' h => ?_
    rw [hcheck e' h, hself, List.map_append, List.map_append, List.append_left_inj,
      map_message_checkPredicate, map_message_checkPredicate]

def plainContext : Context := ⟨info, .generic, info.defaultSeverity, none⟩

def one : Expr := ⟨.literal ⟨.number, "1"⟩, .empty⟩

/-- `1 = 1` -/
def oneIsOne : Expr := ⟨.binary one .eq one, .empty⟩

/-- `(1) = 1` -/
def nestedOneIsOne : Expr := ⟨.binary ⟨.nested one, .empty⟩ .eq one, .empty⟩

/-- The parentheses around the first `1` hide the message. -/
theorem check_nestedOneIsOne :
    SameEqualities oneIsOne nestedOneIsOne
    ∧ (check (inWhere (selecting (bareColumn "x")) oneIsOne) plainContext).map Diagnostic.message
      = ["Constant condition in WHERE clause: 1 = 1 is always true."]
    ∧ check (inWhere (selecting (bareColumn "x")) nestedOneIsOne) plainContext = [] := by
  refine ⟨.rel _ _ (AddsToSide.left one .empty (.nested .empty .refl)).adds, ?_, rfl⟩
  rfl

end SqlLint.Rules.ConstantExpression
