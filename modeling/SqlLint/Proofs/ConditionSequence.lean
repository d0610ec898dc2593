import SqlLint.Proofs.ConstantConditions
import SqlLint.Proofs.Lists
import SqlLint.Proofs.Shells

/-! # The sequence of conditions

Of a `WHERE` predicate the rule on constant conditions sees only the row of its elementary
conditions. Main statements: `eqvGen_regroups_iff`, predicates have the same row exactly when one is
the other regrouped; `check_sequence`, which conditions of a statement are reported, and that
regrouping its predicates changes nothing. -/

namespace SqlLint.Rules.ConstantExpression

open Relation (EqvGen)

variable {e e' c : Expr} {place : Place} {span : Span} {text : String}

/-! ## Conditions by place -/

/-- Whether an elementary condition stands at a place in a predicate with only `AND`, `OR` and
parentheses above it. -/
def StandsIn (e : Expr) (place : Place) (c : Expr) : Prop :=
  (Node.expr e).at? place = some (.expr c) ∧ IsElementary c
    ∧ ∀ q, q <+: place → q ≠ place →
      ∃ above, (Node.expr e).at? q = some (.expr above) ∧ ¬ IsElementary above

mutual

/-- The conditions of a predicate that stands at `base`, each with its place. -/
def conditionsFrom (base : Place) : Expr → List (Place × Expr)
  | ⟨kind, span⟩ => kindConditionsFrom base ⟨kind, span⟩ kind

def kindConditionsFrom (base : Place) (whole : Expr) : ExprKind → List (Place × Expr)
  | .nested inner => conditionsFrom (base ++ [0]) inner
  | .binary left .and right | .binary left .or right =>
    conditionsFrom (base ++ [0]) left ++ conditionsFrom (base ++ [1]) right
  | _ => [(base, whole)]

end

theorem conditionsFrom_of_isElementary (base : Place) (h : IsElementary e) :
    conditionsFrom base e = [(base, e)] := by
  obtain ⟨kind, span⟩ := e
  cases kind with
  | nested inner => exact h.elim
  | binary left op right =>
    cases op with
    | and => exact absurd (.inl rfl) h
    | or => exact absurd (.inr rfl) h
    | _ => rfl
  | _ => rfl

theorem conditionsFrom_nested (base : Place) (inner : Expr) :
    conditionsFrom base ⟨.nested inner, span⟩ = conditionsFrom (base ++ [0]) inner := rfl

theorem conditionsFrom_connective (base : Place) {left right : Expr} {op : BinaryOperator}
    (h : IsConnective op) :
    conditionsFrom base ⟨.binary left op right, span⟩
      = conditionsFrom (base ++ [0]) left ++ conditionsFrom (base ++ [1]) right := by
  rcases h with rfl | rfl <;> rfl

theorem map_snd_conditionsFrom (base : Place) (e : Expr) :
    (conditionsFrom base e).map Prod.snd = conditions e := by
  induction e using induction_conditions generalizing base with
  | elementary e he =>
    rw [conditionsFrom_of_isElementary base he, conditions_of_isElementary he]
    rfl
  | nested inner span ih => exact ih (base ++ [0])
  | connective left op right span hop ihl ihr =>
    rw [conditionsFrom_connective base hop, conditions_connective hop, List.map_append, ihl, ihr]

theorem conditionsFrom_sublist (base : Place) (e : Expr) :
    ((conditionsFrom base e).map fun x => (x.1, Node.expr x.2)).Sublist
      ((Node.expr e).tree.placesFrom base) := by
  induction e using induction_conditions generalizing base with
  | elementary e he =>
    rw [conditionsFrom_of_isElementary base he, Node.placesFrom_eq]
    exact (List.nil_sublist _).cons_cons _
  | nested inner span ih =>
    rw [conditionsFrom_nested, Node.placesFrom_eq]
    refine List.Sublist.cons _ ?_
    simpa [Node.children, ExprKind.children] using ih (base ++ [0])
  | connective left op right span hop ihl ihr =>
    rw [conditionsFrom_connective base hop, Node.placesFrom_eq, List.map_append]
    refine List.Sublist.cons _ ?_
    simpa [Node.children, ExprKind.children]
      using (ihl (base ++ [0])).append (ihr (base ++ [1]))

theorem pairwise_conditionsFrom (base : Place) (e : Expr) :
    (conditionsFrom base e).Pairwise fun x y => x.1 < y.1 := by
  have hplaces := (Rose.pairwise_placesFrom base (Node.expr e).tree).sublist
    (conditionsFrom_sublist base e)
  rwa [List.pairwise_map] at hplaces

theorem exists_of_child (h : ¬ IsElementary e) {n : Node} (hn : n ∈ (Node.expr e).children) :
    ∃ part, n = .expr part := by
  obtain ⟨kind, span⟩ := e
  cases kind with
  | nested inner => exact ⟨inner, List.mem_singleton.mp hn⟩
  | binary left op right =>
    rcases List.mem_pair.mp hn with rfl | rfl
    · exact ⟨left, rfl⟩
    · exact ⟨right, rfl⟩
  | _ => exact absurd trivial h

theorem standsIn_of_isElementary (h : IsElementary e) :
    StandsIn e place c ↔ place = [] ∧ c = e := by
  constructor
  · rintro ⟨hc, -, habove⟩
    by_cases hplace : place = []
    · subst hplace
      cases hc
      exact ⟨rfl, rfl⟩
    · obtain ⟨above, heq, hnot⟩ := habove [] List.nil_prefix (Ne.symm hplace)
      cases heq
      exact absurd h hnot
  · rintro ⟨rfl, rfl⟩
    exact ⟨rfl, h, fun q hq hne => absurd (List.prefix_nil.mp hq) hne⟩

theorem standsIn_iff (h : ¬ IsElementary e) :
    StandsIn e place c ↔ ∃ i part q, place = i :: q
      ∧ (Node.expr e).children[i]? = some (.expr part) ∧ StandsIn part q c := by
  constructor
  · rintro ⟨hc, helementary, habove⟩
    cases place with
    | nil =>
      cases hc
      exact absurd helementary h
    | cons i q =>
      simp only [Node.at?, Option.bind_eq_some_iff] at hc
      obtain ⟨n, hn, hc⟩ := hc
      obtain ⟨part, rfl⟩ := exists_of_child h (List.mem_of_getElem? hn)
      refine ⟨i, part, q, rfl, hn, hc, helementary, fun r hr hne => ?_⟩
      have hprefix : i :: r <+: i :: q := List.cons_prefix_cons.mpr ⟨rfl, hr⟩
      obtain ⟨above, heq, hnot⟩ := habove (i :: r) hprefix (by simpa using hne)
      rw [Node.at?, hn, Option.bind_some] at heq
      exact ⟨above, heq, hnot⟩
  · rintro ⟨i, part, q, rfl, hn, hc, helementary, habove⟩
    have hbelow : ∀ r, (Node.expr e).at? (i :: r) = (Node.expr part).at? r := by
      intro r
      rw [Node.at?, hn, Option.bind_some]
    refine ⟨by rw [hbelow, hc], helementary, fun r hr hne => ?_⟩
    cases r with
    | nil => exact ⟨e, rfl, h⟩
    | cons j r =>
      obtain ⟨rfl, hprefix⟩ := List.cons_prefix_cons.mp hr
      rw [hbelow]
      exact habove r hprefix (by simpa using hne)

theorem standsIn_nested {inner : Expr} :
    StandsIn ⟨.nested inner, span⟩ place c ↔ ∃ q, place = 0 :: q ∧ StandsIn inner q c := by
  rw [standsIn_iff (show ¬ IsElementary ⟨.nested inner, span⟩ from id)]
  constructor
  · rintro ⟨i, part, q, rfl, hn, h⟩
    match i, hn with
    | 0, hn =>
      cases hn
      exact ⟨q, rfl, h⟩
  · rintro ⟨q, rfl, h⟩
    exact ⟨0, inner, q, rfl, rfl, h⟩

theorem standsIn_connective {left right : Expr} {op : BinaryOperator} (hop : IsConnective op) :
    StandsIn ⟨.binary left op right, span⟩ place c
      ↔ (∃ q, place = 0 :: q ∧ StandsIn left q c) ∨ ∃ q, place = 1 :: q ∧ StandsIn right q c := by
  rw [standsIn_iff (show ¬ IsElementary ⟨.binary left op right, span⟩ from not_not_intro hop)]
  constructor
  · rintro ⟨i, part, q, rfl, hn, h⟩
    match i, hn with
    | 0, hn =>
      cases hn
      exact .inl ⟨q, rfl, h⟩
    | 1, hn =>
      cases hn
      exact .inr ⟨q, rfl, h⟩
  · rintro (⟨q, rfl, h⟩ | ⟨q, rfl, h⟩)
    · exact ⟨0, left, q, rfl, rfl, h⟩
    · exact ⟨1, right, q, rfl, rfl, h⟩

theorem mem_conditionsFrom_iff (base : Place) (e : Expr) {x : Place × Expr} :
    x ∈ conditionsFrom base e ↔ ∃ q, x.1 = base ++ q ∧ StandsIn e q x.2 := by
  induction e using induction_conditions generalizing base with
  | elementary e he =>
    rw [conditionsFrom_of_isElementary base he, List.mem_singleton, Prod.ext_iff]
    simp [standsIn_of_isElementary he]
  | nested inner span ih =>
    rw [conditionsFrom_nested, ih]
    simp [standsIn_nested]
  | connective left op right span hop ihl ihr =>
    rw [conditionsFrom_connective base hop, List.mem_append, ihl, ihr]
    simp only [standsIn_connective hop]
    constructor
    · rintro (⟨q, hx, h⟩ | ⟨q, hx, h⟩)
      · exact ⟨0 :: q, by simp [hx], .inl ⟨q, rfl, h⟩⟩
      · exact ⟨1 :: q, by simp [hx], .inr ⟨q, rfl, h⟩⟩
    · rintro ⟨_, hx, ⟨q, rfl, h⟩ | ⟨q, rfl, h⟩⟩
      · exact .inl ⟨q, by simp [hx], h⟩
      · exact .inr ⟨q, by simp [hx], h⟩

/-! ## Regrouping -/

/-- Whether the second predicate is the first with a part that is reached through `AND`, `OR` and
parentheses put into parentheses, with another `AND` or `OR` in the place of one, or with two of
them associated the other way. -/
inductive Regroups : Expr → Expr → Prop where
  | wrap (e : Expr) (span : Span) : Regroups e ⟨.nested e, span⟩
  | replace {op op' : BinaryOperator} (hop : IsConnective op) (hop' : IsConnective op')
    (left right : Expr) (span span' : Span) :
    Regroups ⟨.binary left op right, span⟩ ⟨.binary left op' right, span'⟩
  | associate {op op' : BinaryOperator} (hop : IsConnective op) (hop' : IsConnective op')
    (a b c : Expr) (span inner span' inner' : Span) :
    Regroups ⟨.binary ⟨.binary a op b, inner⟩ op' c, span⟩
      ⟨.binary a op ⟨.binary b op' c, inner'⟩, span'⟩
  | nested {e e' : Expr} (span : Span) (h : Regroups e e') :
    Regroups ⟨.nested e, span⟩ ⟨.nested e', span⟩
  | left {left left' : Expr} {op : BinaryOperator} (hop : IsConnective op) (right : Expr)
    (span : Span) (h : Regroups left left') :
    Regroups ⟨.binary left op right, span⟩ ⟨.binary left' op right, span⟩
  | right {right right' : Expr} {op : BinaryOperator} (hop : IsConnective op) (left : Expr)
    (span : Span) (h : Regroups right right') :
    Regroups ⟨.binary left op right, span⟩ ⟨.binary left op right', span⟩

theorem Regroups.conditions_eq (h : Regroups e e') : conditions e = conditions e' := by
  induction h with
  | wrap e span => rfl
  | replace hop hop' left right span span' =>
    rw [conditions_connective hop, conditions_connective hop']
  | associate hop hop' a b c span inner span' inner' =>
    rw [conditions_connective hop', conditions_connective hop, conditions_connective hop,
      conditions_connective hop', List.append_assoc]
  | nested span h ih => exact ih
  | left hop right span h ih => rw [conditions_connective hop, conditions_connective hop, ih]
  | right hop left span h ih => rw [conditions_connective hop, conditions_connective hop, ih]

/-- The conditions joined by `AND`, from the left. -/
def chain (first : Expr) (rest : List Expr) : Expr :=
  rest.foldl (fun left right => ⟨.binary left .and right, .empty⟩) first

theorem eqvGen_chain_cons {op : BinaryOperator} (hop : IsConnective op) (left first : Expr)
    (rest : List Expr) (span : Span) :
    EqvGen Regroups ⟨.binary left op (chain first rest), span⟩ (chain left (first :: rest)) := by
  have hand : IsConnective .and := .inl rfl
  have hjoin := eqvGen_join_foldl (r := Regroups)
    (fun left right => ⟨.binary left .and right, .empty⟩)
    (fun a b c => .associate hand hand a b c .empty .empty .empty .empty)
    (fun _ _ b h => .left hand b .empty h) left first rest
  have hreplace := Regroups.replace hop hand left (chain first rest) span .empty
  exact .trans _ _ _ (.rel _ _ hreplace) hjoin

theorem exists_chain (e : Expr) :
    ∃ first rest, conditions e = first :: rest ∧ EqvGen Regroups e (chain first rest) := by
  induction e using induction_conditions with
  | elementary e he => exact ⟨e, [], conditions_of_isElementary he, .refl e⟩
  | nested inner span ih =>
    obtain ⟨first, rest, hconditions, hchain⟩ := ih
    exact ⟨first, rest, hconditions,
      .trans _ _ _ (.symm _ _ (.rel _ _ (.wrap inner span))) hchain⟩
  | connective left op right span hop ihl ihr =>
    obtain ⟨first, rest, hleft, hl⟩ := ihl
    obtain ⟨first', rest', hright, hr⟩ := ihr
    refine ⟨first, rest ++ first' :: rest', ?_, ?_⟩
    · rw [conditions_connective hop, hleft, hright, List.cons_append]
    · have hl' := eqvGen_map (g := fun l => ⟨.binary l op right, span⟩)
        (fun _ _ h => Regroups.left hop right span h) hl
      have hr' := eqvGen_map (g := fun r => ⟨.binary (chain first rest) op r, span⟩)
        (fun _ _ h => Regroups.right hop (chain first rest) span h) hr
      have hchain := eqvGen_chain_cons hop (chain first rest) first' rest' span
      have happend : chain (chain first rest) (first' :: rest')
          = chain first (rest ++ first' :: rest') := (List.foldl_append ..).symm
      rw [happend] at hchain
      exact .trans _ _ _ hl' (.trans _ _ _ hr' hchain)

theorem eqvGen_regroups_iff : EqvGen Regroups e e' ↔ conditions e = conditions e' :=
  eqvGen_iff_of_row (fun _ _ h => h.conditions_eq) exists_chain

/-! ## What is reported -/

/-- Whether a condition is constant, and the message that says so. -/
def Complains (c : Expr) (text : String) : Prop :=
  (∃ l, c.literal? = some l
    ∧ (l.kind = .boolean ∨ l.kind = .number ∧ (l.value = "1" ∨ l.value = "0"))
    ∧ text = s!"Constant condition in WHERE clause: {render l} used as a predicate.")
  ∨ ∃ left right l, c.kind = .binary left .eq right ∧ left.literal? = some l
    ∧ right.literal? = some l ∧ l.kind ≠ .null
    ∧ text = s!"Constant condition in WHERE clause: {render l} = {render l} is always true."

theorem isConstant_iff (l : Literal) : isConstant l = true
    ↔ l.kind = .boolean ∨ l.kind = .number ∧ (l.value = "1" ∨ l.value = "0") := by
  obtain ⟨kind, value⟩ := l
  cases kind <;> simp [isConstant]

theorem complaint?_literal_eq_some_iff {l : Literal} :
    complaint? (.literal l) = some text
      ↔ (l.kind = .boolean ∨ l.kind = .number ∧ (l.value = "1" ∨ l.value = "0"))
        ∧ text = s!"Constant condition in WHERE clause: {render l} used as a predicate." := by
  rw [← isConstant_iff]
  unfold complaint?
  by_cases h : isConstant l = true
  · simp [h, eq_comm]
  · simp [h]

theorem complaint?_equality_eq_some_iff {left right : Expr} :
    complaint? (.binary left .eq right) = some text
      ↔ ∃ l, left.literal? = some l ∧ right.literal? = some l ∧ l.kind ≠ .null
        ∧ text
          = s!"Constant condition in WHERE clause: {render l} = {render l} is always true." := by
  change (selfEquality? (.binary left .eq right)).map _ = some text ↔ _
  simp only [Option.map_eq_some_iff, selfEquality?_eq_some_iff, and_assoc]
  simp only [eq_comm]

theorem selfEquality?_eq_none (h : ¬ IsEquality c) : selfEquality? c.kind = none := by
  unfold selfEquality?
  split
  · next hkind => exact absurd ⟨_, _, hkind⟩ h
  · rfl

theorem complaint?_eq_none (hliteral : c.literal? = none) (h : ¬ IsEquality c) :
    complaint? c.kind = none := by
  unfold complaint?
  split
  · next l hkind => simp [Expr.literal?, hkind] at hliteral
  · rw [selfEquality?_eq_none h, Option.map_none]

theorem complaint?_eq_some_iff : complaint? c.kind = some text ↔ Complains c text := by
  unfold Complains
  cases hliteral : c.literal? with
  | some l =>
    obtain ⟨kind, span⟩ := c
    obtain rfl : kind = .literal l := by
      cases kind <;> cases hliteral
      rfl
    simp [complaint?_literal_eq_some_iff]
  | none =>
    by_cases h : IsEquality c
    · obtain ⟨left, right, hkind⟩ := h
      simp [hkind, complaint?_equality_eq_some_iff]
    · rw [complaint?_eq_none hliteral h]
      simp only [reduceCtorEq, false_and, exists_false, false_or, false_iff]
      rintro ⟨left, right, l, hkind, -⟩
      exact h ⟨left, right, hkind⟩

/-- A condition that is reported: the place of its core, its own place in the predicate of the core,
and the message. -/
structure Finding where
  core : Place
  place : Place
  condition : Expr
  text : String

/-- The predicates of a tree in walk order, each with the place of its core. -/
def predicatesAt (root : Node) : List (Place × Expr) :=
  root.places.filterMap fun x => (x.2.core? >>= Core.condition).map (x.1, ·)

def findingsIn (core : Place) (predicate : Expr) : List Finding :=
  (conditionsFrom [] predicate).filterMap fun x =>
    (complaint? x.2.kind).map fun text => ⟨core, x.1, x.2, text⟩

def findings (root : Node) : List Finding :=
  (predicatesAt root).flatMap fun x => findingsIn x.1 x.2

theorem map_findingsIn (ctx : Context) (core : Place) (predicate : Expr) :
    (findingsIn core predicate).map (fun f => ctx.report f.text f.condition.span)
      = checkPredicate ctx predicate := by
  unfold findingsIn checkPredicate
  rw [← map_snd_conditionsFrom [], List.filterMap_map, List.map_filterMap]
  refine List.filterMap_congr fun x _ => ?_
  simp [Function.comp_def]

theorem check_eq_map_findings (s : Statement) (ctx : Context) :
    check s ctx = (findings (.statement s)).map fun f => ctx.report f.text f.condition.span := by
  unfold findings check
  rw [List.map_flatMap, Node.cores, Node.flatMap_collect, ← Node.map_snd_places, List.flatMap_map]
  simp only [map_findingsIn]
  unfold predicatesAt
  rw [List.filterMap_eq_flatMap_toList, List.flatMap_assoc]
  refine List.flatMap_congr ?_
  rintro ⟨p, n⟩ -
  cases hcore : n.core? with
  | none => simp
  | some core => cases hcondition : core.condition <;> simp [hcondition]

theorem mem_predicatesAt_iff {root : Node} {p : Place} :
    (p, e) ∈ predicatesAt root
      ↔ ∃ core, root.at? p = some (.core core) ∧ core.condition = some e := by
  unfold predicatesAt
  simp only [List.mem_filterMap, Option.map_eq_some_iff, Option.bind_eq_bind,
    Option.bind_eq_some_iff, Prod.mk.injEq]
  constructor
  · rintro ⟨⟨q, n⟩, hn, _, ⟨core, hcore, hcondition⟩, rfl, rfl⟩
    obtain rfl := Node.eq_of_core? hcore
    exact ⟨core, (root.mem_places_iff _ _).mp hn, hcondition⟩
  · rintro ⟨core, hcore, hcondition⟩
    exact ⟨(p, .core core), (root.mem_places_iff _ _).mpr hcore, e, ⟨core, rfl, hcondition⟩, rfl,
      rfl⟩

theorem mem_findingsIn_iff {p : Place} {f : Finding} :
    f ∈ findingsIn p e
      ↔ f.core = p ∧ StandsIn e f.place f.condition ∧ Complains f.condition f.text := by
  unfold findingsIn
  simp only [List.mem_filterMap, Option.map_eq_some_iff, mem_conditionsFrom_iff,
    complaint?_eq_some_iff, List.nil_append]
  constructor
  · rintro ⟨⟨q, c⟩, ⟨_, rfl, hstands⟩, text, htext, rfl⟩
    exact ⟨rfl, hstands, htext⟩
  · rintro ⟨rfl, hstands, htext⟩
    exact ⟨(f.place, f.condition), ⟨f.place, rfl, hstands⟩, f.text, htext, rfl⟩

theorem mem_findings_iff {root : Node} {f : Finding} :
    f ∈ findings root ↔ ∃ core e, root.at? f.core = some (.core core) ∧ core.condition = some e
      ∧ StandsIn e f.place f.condition ∧ Complains f.condition f.text := by
  unfold findings
  simp only [List.mem_flatMap, mem_findingsIn_iff, Prod.exists, mem_predicatesAt_iff]
  constructor
  · rintro ⟨p, e, ⟨core, hcore, hcondition⟩, rfl, h⟩
    exact ⟨core, e, hcore, hcondition, h⟩
  · rintro ⟨core, e, hcore, hcondition, h⟩
    exact ⟨f.core, e, ⟨core, hcore, hcondition⟩, rfl, h⟩

/-- Cores are gone through in walk order, and the conditions of each in source order. -/
def Finding.Before (f g : Finding) : Prop :=
  f.core < g.core ∨ f.core = g.core ∧ f.place < g.place

theorem pairwise_predicatesAt (root : Node) :
    (predicatesAt root).Pairwise fun x y => x.1 < y.1 := by
  unfold predicatesAt
  refine (root.pairwise_places).filterMap _ ?_
  intro x y hlt a ha b hb
  obtain ⟨_, -, rfl⟩ := Option.map_eq_some_iff.mp ha
  obtain ⟨_, -, rfl⟩ := Option.map_eq_some_iff.mp hb
  exact hlt

theorem pairwise_findings (root : Node) : (findings root).Pairwise Finding.Before := by
  unfold findings
  rw [List.pairwise_flatMap]
  constructor
  · rintro ⟨p, e⟩ -
    refine (pairwise_conditionsFrom [] e).filterMap _ ?_
    intro x y hlt f hf g hg
    obtain ⟨_, -, rfl⟩ := Option.map_eq_some_iff.mp hf
    obtain ⟨_, -, rfl⟩ := Option.map_eq_some_iff.mp hg
    exact .inr ⟨rfl, hlt⟩
  · refine (pairwise_predicatesAt root).imp ?_
    intro x y hlt f hf g hg
    rw [mem_findingsIn_iff] at hf hg
    rw [Finding.Before, hf.1, hg.1]
    exact .inl hlt

/-! ## Regrouping in a statement -/

/-- Whether the second node is the first, a core, with its `WHERE` predicate regrouped. -/
def RegroupsWhere (n n' : Node) : Prop :=
  ∃ core e e', n = .core core ∧ core.condition = some e ∧ Regroups e e'
    ∧ n' = .core { core with condition := some e' }

/-- Whether predicates of a statement are regrouped, at any depth and any number of times. -/
abbrev SameRows (s t : Statement) : Prop :=
  EqvGen (Node.Edited RegroupsWhere) (.statement s) (.statement t)

theorem not_regroupsWhere_expr (e : Expr) (n : Node) : ¬ RegroupsWhere (.expr e) n := by
  rintro ⟨_, _, _, heq, -⟩
  cases heq

theorem checkPredicate_of_isElementary (ctx : Context) (h : IsElementary e) :
    checkPredicate ctx e = ((complaint? e.kind).map (ctx.report · e.span)).toList := by
  unfold checkPredicate
  rw [conditions_of_isElementary h, List.filterMap_cons, List.filterMap_nil]
  cases complaint? e.kind <;> rfl

theorem checkPredicate_connective (ctx : Context) {left right : Expr} {op : BinaryOperator}
    (h : IsConnective op) :
    checkPredicate ctx ⟨.binary left op right, span⟩
      = checkPredicate ctx left ++ checkPredicate ctx right := by
  unfold checkPredicate
  rw [conditions_connective h, List.filterMap_append]

theorem complaint?_equality_eq_none {left right : Expr}
    (h : left.literal? = none ∨ right.literal? = none) :
    complaint? (.binary left .eq right) = none := by
  rw [Option.eq_none_iff_forall_ne_some]
  intro text htext
  obtain ⟨l, hleft, hright, -⟩ := complaint?_equality_eq_some_iff.mp htext
  rcases h with h | h
  · rw [hleft] at h
    cases h
  · rw [hright] at h
    cases h

theorem isElementary_shell {kind : ExprKind} :
    IsElementary ⟨kind.shell, span⟩ ↔ IsElementary ⟨kind, span⟩ := by
  cases kind <;> rfl

/-- Nothing is said of a condition with a subquery in it that is edited, before or after. -/
theorem complaint?_of_edited (he : IsElementary e) {n : Node}
    (h : Node.Edited RegroupsWhere (.expr e) n) :
    complaint? e.kind = none
      ∧ ∃ e', n = .expr e' ∧ IsElementary e' ∧ complaint? e'.kind = none := by
  obtain ⟨kind', rfl, hshell, -⟩ := h.of_expr not_regroupsWhere_expr
  obtain ⟨hliteral, hliteral'⟩ := h.literal?_eq_none not_regroupsWhere_expr
  by_cases hequality : IsEquality e
  · -- The side with the edit is no literal.
    obtain ⟨kind, span⟩ := e
    obtain ⟨left, right, rfl⟩ := hequality
    obtain ⟨left', right', heq, hside⟩ := h.of_binary not_regroupsWhere_expr
    cases heq
    have hnone : (left.literal? = none ∨ right.literal? = none)
        ∧ (left'.literal? = none ∨ right'.literal? = none) := by
      rcases hside with ⟨hleft, -⟩ | ⟨-, hright⟩
      · obtain ⟨hbefore, hafter⟩ := hleft.literal?_eq_none not_regroupsWhere_expr
        exact ⟨.inl hbefore, .inl hafter⟩
      · obtain ⟨hbefore, hafter⟩ := hright.literal?_eq_none not_regroupsWhere_expr
        exact ⟨.inr hbefore, .inr hafter⟩
    exact ⟨complaint?_equality_eq_none hnone.1, _, rfl, isElementary_equality left' right' span,
      complaint?_equality_eq_none hnone.2⟩
  · have hequality' : ¬ IsEquality ⟨kind', e.span⟩ := by
      rintro ⟨left', right', rfl⟩
      obtain ⟨kind, span⟩ := e
      cases kind <;> cases hshell
      exact hequality ⟨_, _, rfl⟩
    have he' : IsElementary ⟨kind', e.span⟩ := by
      rw [← isElementary_shell, hshell, isElementary_shell]
      exact he
    exact ⟨complaint?_eq_none hliteral hequality, _, rfl, he',
      complaint?_eq_none hliteral' hequality'⟩

theorem checkPredicate_of_edited (ctx : Context) {n : Node}
    (h : Node.Edited RegroupsWhere (.expr e) n) :
    ∃ e', n = .expr e' ∧ checkPredicate ctx e' = checkPredicate ctx e := by
  induction e using induction_conditions generalizing n with
  | elementary e he =>
    obtain ⟨hnone, e', rfl, he', hnone'⟩ := complaint?_of_edited he h
    refine ⟨e', rfl, ?_⟩
    rw [checkPredicate_of_isElementary ctx he, checkPredicate_of_isElementary ctx he',
      hnone, hnone']
    rfl
  | nested inner span ih =>
    obtain ⟨inner', rfl, hinner⟩ := h.of_nested not_regroupsWhere_expr
    obtain ⟨_, heq, hcheck⟩ := ih hinner
    cases heq
    exact ⟨_, rfl, hcheck⟩
  | connective left op right span hop ihl ihr =>
    obtain ⟨left', right', rfl, hside⟩ := h.of_binary not_regroupsWhere_expr
    refine ⟨_, rfl, ?_⟩
    rw [checkPredicate_connective ctx hop, checkPredicate_connective ctx hop]
    rcases hside with ⟨hleft, rfl⟩ | ⟨rfl, hright⟩
    · obtain ⟨_, heq, hcheck⟩ := ihl hleft
      cases heq
      rw [hcheck]
    · obtain ⟨_, heq, hcheck⟩ := ihr hright
      cases heq
      rw [hcheck]

/-- The findings for the predicates of a node and of what is below it. -/
def checkNode (ctx : Context) (n : Node) : List Diagnostic :=
  n.cores.flatMap fun core => core.condition.elim [] (checkPredicate ctx)

theorem checkNode_eq (ctx : Context) (n : Node) :
    checkNode ctx n
      = n.core?.toList.flatMap (fun core => core.condition.elim [] (checkPredicate ctx))
        ++ n.children.flatMap (checkNode ctx) := by
  unfold checkNode
  rw [cores_eq, List.flatMap_append, List.flatMap_assoc]

theorem cores_conditions (e : Expr) :
    (Node.expr e).cores = (conditions e).flatMap fun c => (Node.expr c).cores := by
  induction e using induction_conditions with
  | elementary e he => rw [conditions_of_isElementary he, List.flatMap_singleton]
  | nested inner span ih => rw [cores_nested, ih]; rfl
  | connective left op right span hop ihl ihr =>
    rw [cores_binary, conditions_connective hop, List.flatMap_append, ihl, ihr]

theorem checkNode_regrouped (ctx : Context) {core : Core} (hcondition : core.condition = some e)
    (h : Regroups e e') :
    checkNode ctx (.core { core with condition := some e' }) = checkNode ctx (.core core) := by
  have hpredicate : checkPredicate ctx e' = checkPredicate ctx e := by
    unfold checkPredicate
    rw [h.conditions_eq]
  have hbelow : checkNode ctx (.expr e') = checkNode ctx (.expr e) := by
    unfold checkNode
    rw [cores_conditions, cores_conditions e, h.conditions_eq]
  rw [checkNode_eq, checkNode_eq]
  simp [Node.core?, Node.children, hcondition, hpredicate, hbelow]

theorem checkNode_of_edited (ctx : Context) {n n' : Node} (h : Node.Edited RegroupsWhere n n') :
    checkNode ctx n' = checkNode ctx n := by
  induction h with
  | here h =>
    obtain ⟨core, e, e', rfl, hcondition, h, rfl⟩ := h
    exact checkNode_regrouped ctx hcondition h
  | @inside n n' m m' i hshell hm hchildren h ih =>
    rw [checkNode_eq, checkNode_eq, hchildren, flatMap_set hm ih]
    congr 1
    cases hcore : n.core? with
    | some core =>
      obtain rfl := Node.eq_of_core? hcore
      obtain ⟨core', rfl, heq | ⟨e, e', hcondition, hcondition', rfl, rfl⟩⟩ :=
        Node.exists_core_of_shell hshell hm hchildren
      · simp [Node.core?, heq]
      · obtain ⟨_, heq, hcheck⟩ := checkPredicate_of_edited ctx h
        cases heq
        simp [Node.core?, hcondition, hcondition', hcheck]
    | none => rw [Node.core?_eq_none_of_shell hshell hcore]

theorem SameRows.check_eq {s t : Statement} (ctx : Context) (h : SameRows s t) :
    check t ctx = check s ctx :=
  (eq_of_eqvGen (g := checkNode ctx) (fun _ _ h => (checkNode_of_edited ctx h).symm) h).symm

/-- The findings depend on nothing but the row of elementary conditions. -/
theorem check_sequence (s : Statement) (ctx : Context) :
    (∃ found : List Finding,
      check s ctx = found.map (fun f => ctx.report f.text f.condition.span)
      ∧ found.Pairwise Finding.Before
      ∧ ∀ f, f ∈ found ↔ ∃ core e, (Node.statement s).at? f.core = some (.core core)
          ∧ core.condition = some e ∧ StandsIn e f.place f.condition ∧ Complains f.condition f.text)
    ∧ (∀ e, ∃ row : List (Place × Expr), row.map Prod.snd = conditions e
      ∧ row.Pairwise (fun x y => x.1 < y.1)
      ∧ ∀ place c, (place, c) ∈ row ↔ StandsIn e place c)
    ∧ (∀ e e', EqvGen Regroups e e' ↔ conditions e = conditions e')
    ∧ ∀ t, SameRows s t → check t ctx = check s ctx := by
  refine ⟨⟨findings (.statement s), check_eq_map_findings s ctx, pairwise_findings _, fun f =>
    mem_findings_iff⟩, fun e => ?_, fun e e' => eqvGen_regroups_iff, fun t h => h.check_eq ctx⟩
  refine ⟨conditionsFrom [] e, map_snd_conditionsFrom [] e, pairwise_conditionsFrom [] e,
    fun place c => ?_⟩
  rw [mem_conditionsFrom_iff]
  simp

/-- `(SELECT x WHERE predicate)` -/
def subqueryWhere (predicate : Expr) : Query :=
  .ofCore { selecting (bareColumn "x") with condition := some predicate }

/-- `SELECT x WHERE EXISTS (SELECT x WHERE predicate)` -/
def inExists (predicate : Expr) : Statement :=
  .query (subqueryWhere ⟨.existsIn (subqueryWhere predicate) false, .empty⟩)

def isTrue : Expr := ⟨.literal ⟨.boolean, "true"⟩, .empty⟩

/-- `TRUE AND a OR b` -/
def conjunctionFirst : Expr :=
  ⟨.binary ⟨.binary isTrue .and (bareColumn "a"), .empty⟩ .or (bareColumn "b"), .empty⟩

/-- `TRUE AND (a OR b)`, with no node for the parentheses -/
def disjunctionInside : Expr :=
  ⟨.binary isTrue .and ⟨.binary (bareColumn "a") .or (bareColumn "b"), .empty⟩, .empty⟩

theorem check_inExists_conjunctionFirst :
    SameRows (inExists conjunctionFirst) (inExists disjunctionInside)
    ∧ check (inExists disjunctionInside) plainContext
      = check (inExists conjunctionFirst) plainContext
    ∧ (check (inExists conjunctionFirst) plainContext).map Diagnostic.message
      = ["Constant condition in WHERE clause: TRUE used as a predicate."] := by
  have hregroups : Regroups conjunctionFirst disjunctionInside :=
    .associate (.inl rfl) (.inr rfl) isTrue (bareColumn "a") (bareColumn "b") .empty .empty .empty
      .empty
  have hsubquery : Node.Edited RegroupsWhere (.query (subqueryWhere conjunctionFirst))
      (.query (subqueryWhere disjunctionInside)) :=
    .inside 0 rfl rfl rfl (.inside 0 rfl rfl rfl (.here ⟨_, _, _, rfl, rfl, hregroups, rfl⟩))
  have hpredicate : Node.Edited RegroupsWhere
      (.expr ⟨.existsIn (subqueryWhere conjunctionFirst) false, .empty⟩)
      (.expr ⟨.existsIn (subqueryWhere disjunctionInside) false, .empty⟩) :=
    .inside 0 rfl rfl rfl hsubquery
  have hsame : SameRows (inExists conjunctionFirst) (inExists disjunctionInside) :=
    .rel _ _ (.inside 0 rfl rfl rfl (.inside 0 rfl rfl rfl (.inside 0 rfl rfl rfl
      (.inside 1 rfl rfl rfl hpredicate))))
  exact ⟨hsame, (check_sequence _ plainContext).2.2.2 _ hsame, rfl⟩

end SqlLint.Rules.ConstantExpression
