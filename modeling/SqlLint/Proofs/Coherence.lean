import Mathlib.Data.List.Perm.Basic
import SqlLint.Proofs.Registry

/-! # The indexes of a registry

A registry is filled by calls that may fail. After any calls its three indexes describe the rules
whose calls succeeded, and a call that fails changes none of them. Main statement:
`after_coherent`. -/

namespace SqlLint

/-! ## Items sorted by a key -/

theorem perm_flatMap_filter {α κ : Type} [DecidableEq κ] (key : α → κ) {keys : List κ}
    {items : List α} (hnodup : keys.Nodup) (hall : ∀ x ∈ items, key x ∈ keys) :
    (keys.flatMap fun k => items.filter (key · = k)).Perm items := by
  induction keys generalizing items with
  | nil =>
    have hnone : items = [] := List.eq_nil_iff_forall_not_mem.2 fun x hx => by simpa using hall x hx
    rw [hnone]
    rfl
  | cons k keys ih =>
    have ⟨hk, hkeys⟩ := List.nodup_cons.1 hnodup
    let others := items.filter fun x => !decide (key x = k)
    have hothers : ∀ x ∈ others, key x ∈ keys := by
      intro x hx
      obtain ⟨hmem, hne⟩ := List.mem_filter.1 hx
      exact (List.mem_cons.1 (hall x hmem)).resolve_left (by simpa using hne)
    -- The items of the other keys are not touched when those of the first are taken away.
    have hrest : ∀ j ∈ keys, items.filter (key · = j) = others.filter (key · = j) := by
      intro j hj
      rw [List.filter_filter]
      refine List.filter_congr fun x _ => ?_
      by_cases hx : key x = j
      · have hne : key x ≠ k := fun hxk => hk (hxk ▸ hx ▸ hj)
        simp [hx, hx ▸ hne]
      · simp [hx]
    have hsplit : (items.filter (key · = k) ++ others).Perm items :=
      List.filter_append_perm _ items
    rw [List.flatMap_cons, List.flatMap_congr hrest]
    exact ((ih hkeys hothers).append_left _).trans hsplit

namespace Registry

variable {r t : Registry} {rule : Rule}

def ofGroup (r : Registry) (g : RuleGroup) : List Rule := r.rules.filter (·.info.group = g)

/-- Whether the index by group has the codes of each group that has a rule, in their order. -/
structure IndexesGroups (r : Registry) : Prop where
  keys : (r.groups.map Prod.fst).Nodup
  codes : ∀ g, r.groups.lookup g =
    if r.ofGroup g = [] then none else some ((r.ofGroup g).map Rule.code)

/-- Whether the rules differ in codes and in names, and both indexes describe them. -/
structure Coherent (r : Registry) : Prop where
  distinct : Rule.Distinct r.rules
  names : r.IndexesNames
  groups : r.IndexesGroups

theorem coherent_empty : empty.Coherent :=
  ⟨⟨List.nodup_nil, List.nodup_nil⟩, rfl, ⟨List.nodup_nil, fun _ => rfl⟩⟩

/-! ## One rule more -/

theorem map_fst_addToGroup (g : RuleGroup) (code : String)
    (groups : List (RuleGroup × List String)) :
    (addToGroup g code groups).map Prod.fst
      = if g ∈ groups.map Prod.fst then groups.map Prod.fst else groups.map Prod.fst ++ [g] := by
  induction groups with
  | nil => rfl
  | cons entry rest ih =>
    obtain ⟨h, codes⟩ := entry
    by_cases heq : h = g
    · simp [addToGroup, heq]
    · have hne : g ≠ h := Ne.symm heq
      simp only [addToGroup, heq, if_false, List.map_cons, ih, List.mem_cons, hne, false_or]
      split <;> rfl

theorem lookup_addToGroup (g : RuleGroup) (code : String) (groups : List (RuleGroup × List String))
    (other : RuleGroup) :
    (addToGroup g code groups).lookup other
      = if other = g then some ((groups.lookup g).getD [] ++ [code]) else groups.lookup other := by
  induction groups with
  | nil =>
    by_cases ho : other = g
    · simp [addToGroup, ho]
    · simp [addToGroup, List.lookup_cons, ho, beq_false_of_ne ho]
  | cons entry rest ih =>
    obtain ⟨h, codes⟩ := entry
    by_cases hg : h = g
    · subst hg
      by_cases ho : other = h
      · simp [addToGroup, ho]
      · simp [addToGroup, List.lookup_cons, ho, beq_false_of_ne ho]
    · have hgh : g ≠ h := Ne.symm hg
      by_cases ho : other = h
      · subst ho
        simp [addToGroup, hg]
      · simp [addToGroup, List.lookup_cons, hg, ih, beq_false_of_ne ho, beq_false_of_ne hgh]

theorem IndexesGroups.getD_lookup (h : r.IndexesGroups) (g : RuleGroup) :
    (r.groups.lookup g).getD [] = (r.ofGroup g).map Rule.code := by
  rw [h.codes]
  by_cases hnone : r.ofGroup g = []
  · rw [if_pos hnone, hnone]
    rfl
  · rw [if_neg hnone]
    rfl

theorem IndexesGroups.extended (h : r.IndexesGroups) (rule : Rule) :
    (r.extended rule).IndexesGroups := by
  refine ⟨?_, fun g => ?_⟩
  · change ((addToGroup _ _ _).map Prod.fst).Nodup
    rw [map_fst_addToGroup]
    split
    case isTrue => exact h.keys
    case isFalse hnew =>
      rw [← List.concat_eq_append, List.nodup_concat]
      exact ⟨hnew, h.keys⟩
  · have hgroup : (r.extended rule).ofGroup g
        = r.ofGroup g ++ if rule.info.group = g then [rule] else [] := by
      simp [ofGroup, Registry.extended, List.filter_append, List.filter_cons]
    change (addToGroup _ _ _).lookup g = _
    rw [lookup_addToGroup, hgroup]
    by_cases hg : g = rule.info.group
    · subst hg
      rw [if_pos rfl, if_pos rfl, if_neg (by simp), h.getD_lookup, List.map_append]
      rfl
    · rw [if_neg hg, if_neg (Ne.symm hg), List.append_nil, h.codes]

theorem Coherent.extended (h : r.Coherent) (hcode : rule.code ∉ r.rules.map Rule.code)
    (hname : rule.nameKey ∉ r.names.map Prod.fst) : (r.extended rule).Coherent := by
  rw [h.names.map_fst] at hname
  exact ⟨(Rule.distinct_concat_iff h.distinct).2 ⟨hcode, hname⟩, h.names.extended rule,
    h.groups.extended rule⟩

/-! ## Many calls -/

def succeeded (calls : List Rule) (outcomes : List (Except RegistryError Unit)) : List Rule :=
  ((calls.zip outcomes).filter (·.2.isOk)).map Prod.fst

/-- What the calls return, one after the other, when there is no rule at first. -/
def outcomes (calls : List Rule) : List (Except RegistryError Unit) := ((addEach calls).run empty).1

def after (calls : List Rule) : Registry := ((addEach calls).run empty).2

/-- The rules that these calls have registered. -/
def registered (calls : List Rule) : List Rule := succeeded calls (outcomes calls)

/-- A call keeps the registry coherent and adds the rule exactly if it succeeds. -/
theorem Coherent.add (h : r.Coherent) (rule : Rule) :
    ((add rule).run r).2.Coherent
      ∧ ((add rule).run r).2.rules = r.rules ++ succeeded [rule] [((add rule).run r).1] := by
  rw [run_add]
  rcases register_cases r rule with ⟨-, hr⟩ | ⟨-, existing, -, hr⟩ | ⟨hcode, hname, hr⟩
  · rw [hr]
    exact ⟨h, (List.append_nil _).symm⟩
  · rw [hr]
    exact ⟨h, (List.append_nil _).symm⟩
  · rw [hr]
    exact ⟨h.extended hcode hname, rfl⟩

theorem run_addEach_cons (r : Registry) (rule : Rule) (rest : List Rule) :
    (addEach (rule :: rest)).run r
      = (((Registry.add rule).run r).1 :: ((addEach rest).run ((Registry.add rule).run r).2).1,
        ((addEach rest).run ((Registry.add rule).run r).2).2) := by
  unfold addEach
  rw [List.mapM_cons]
  rfl

theorem Coherent.addEach (h : r.Coherent) (calls : List Rule) :
    ((addEach calls).run r).2.Coherent
      ∧ ((addEach calls).run r).1.length = calls.length
      ∧ ((addEach calls).run r).2.rules
        = r.rules ++ succeeded calls ((addEach calls).run r).1 := by
  induction calls generalizing r with
  | nil => exact ⟨h, rfl, (List.append_nil _).symm⟩
  | cons rule rest ih =>
    obtain ⟨hstep, hadded⟩ := h.add rule
    obtain ⟨hlast, hlength, hrules⟩ := ih hstep
    rw [run_addEach_cons]
    refine ⟨hlast, by rw [List.length_cons, hlength, List.length_cons], ?_⟩
    rw [hrules, hadded, List.append_assoc]
    congr 1
    simp only [succeeded, List.zip_cons_cons, List.filter_cons]
    split <;> rfl

/-! ## What a coherent registry answers -/

theorem find?_code (h : Rule.Distinct r.rules) (hrule : rule ∈ r.rules) :
    r.find? rule.code = some rule := by
  cases hfound : r.find? rule.code with
  | none =>
    have hsome := isSome_find?_iff.2 (List.mem_map_of_mem hrule)
    rw [hfound] at hsome
    cases hsome
  | some other =>
    have hother : other ∈ r.rules := List.mem_of_find?_eq_some hfound
    have hcode : other.code = rule.code := by simpa [Rule.code] using List.find?_some hfound
    rw [List.inj_on_of_nodup_map h.codes hother hrule hcode]

theorem Coherent.group_eq (h : r.Coherent) (g : RuleGroup) : r.group g = r.ofGroup g := by
  have hfind : ∀ rule ∈ r.ofGroup g, (r.find? ∘ Rule.code) rule = some rule :=
    fun rule hrule => find?_code h.distinct (List.mem_of_mem_filter hrule)
  unfold group
  rw [h.groups.getD_lookup, List.filterMap_map, List.filterMap_congr hfind, List.filterMap_some]

theorem Coherent.perm_groups (h : r.Coherent) : (RuleGroup.all.flatMap r.group).Perm r.rules := by
  have hall : ∀ rule ∈ r.rules, rule.info.group ∈ RuleGroup.all := by
    intro rule _
    cases rule.info.group <;> decide
  rw [funext h.group_eq]
  exact perm_flatMap_filter (fun rule : Rule => rule.info.group) (by decide) hall

theorem Coherent.disjoint_groups (h : r.Coherent) {g other : RuleGroup} (hne : g ≠ other) :
    List.Disjoint (r.group g) (r.group other) := by
  rw [h.group_eq, h.group_eq]
  intro rule hg hother
  have hgroup : rule.info.group = g := by simpa using (List.mem_filter.1 hg).2
  have hgroup' : rule.info.group = other := by simpa using (List.mem_filter.1 hother).2
  exact hne (hgroup.symm.trans hgroup')

/-- What a call returns, and what it leaves behind. -/
structure Answered (r : Registry) (rule : Rule) (outcome : Except RegistryError Unit)
    (t : Registry) : Prop where
  /-- A call that fails changes no index. -/
  unchanged : ∀ e, outcome = .error e → t.rules = r.rules ∧ t.names = r.names ∧ t.groups = r.groups
  /-- A code that is a key already is refused first. -/
  duplicateRule : ∀ code, outcome = .error (.duplicateRule code)
    ↔ code = rule.code ∧ rule.code ∈ r.rules.map Rule.code
  /-- A name that is indexed already is refused next, with the code that it leads to. -/
  duplicateName : ∀ name existing, outcome = .error (.duplicateName name existing)
    ↔ name = rule.info.name ∧ rule.code ∉ r.rules.map Rule.code ∧ (rule.nameKey, existing) ∈ r.names

theorem Coherent.existing_unique (h : r.Coherent) {key code other : String}
    (hcode : (key, code) ∈ r.names) (hother : (key, other) ∈ r.names) : code = other := by
  have hkeys : (r.names.map Prod.fst).Nodup := h.names.map_fst ▸ h.distinct.names
  exact congrArg Prod.snd (List.inj_on_of_nodup_map hkeys hcode hother rfl)

theorem Coherent.answered (h : r.Coherent) (rule : Rule) :
    r.Answered rule ((Registry.add rule).run r).1 ((Registry.add rule).run r).2 := by
  rw [run_add]
  rcases register_cases r rule with ⟨hcode, hr⟩ | ⟨hcode, existing, hname, hr⟩ | ⟨hcode, hname, hr⟩
  · rw [hr]
    refine ⟨fun _ _ => ⟨rfl, rfl, rfl⟩, fun code => ?_, fun name existing => ?_⟩
    · simp [hcode, eq_comm]
    · simp [hcode]
  · rw [hr]
    refine ⟨fun _ _ => ⟨rfl, rfl, rfl⟩, fun code => ?_, fun name other => ?_⟩
    · simp [hcode]
    · constructor
      · intro heq
        cases heq
        exact ⟨rfl, hcode, hname⟩
      · rintro ⟨rfl, -, hother⟩
        rw [h.existing_unique hname hother]
  · rw [hr]
    refine ⟨nofun, fun code => ?_, fun name existing => ?_⟩
    · simp [hcode]
    · have hnone : (rule.nameKey, existing) ∉ r.names := fun hmem =>
        hname (List.mem_map_of_mem hmem)
      simp [hnone]

theorem coherent_after (calls : List Rule) : (after calls).Coherent :=
  (coherent_empty.addEach calls).1

theorem rules_after (calls : List Rule) : (after calls).rules = registered calls :=
  (coherent_empty.addEach calls).2.2

theorem addEach_concat (calls : List Rule) (rule : Rule) :
    outcomes (calls ++ [rule]) = outcomes calls ++ [((add rule).run (after calls)).1]
      ∧ after (calls ++ [rule]) = ((add rule).run (after calls)).2 := by
  unfold outcomes after addEach
  rw [List.mapM_append, List.mapM_cons, List.mapM_nil]
  exact ⟨rfl, rfl⟩

/-- After any calls the indexes describe the rules whose calls succeeded. -/
theorem after_coherent (calls : List Rule) :
    ((outcomes calls).length = calls.length ∧ (after calls).rules = registered calls)
      ∧ (after calls).Coherent
      ∧ (∀ g, (after calls).group g = (after calls).rules.filter (·.info.group = g))
      ∧ (RuleGroup.all.flatMap (after calls).group).Perm (after calls).rules
      ∧ (∀ g other, g ≠ other → List.Disjoint ((after calls).group g) ((after calls).group other))
      ∧ ∀ rule, ∃ outcome, outcomes (calls ++ [rule]) = outcomes calls ++ [outcome]
        ∧ (after calls).Answered rule outcome (after (calls ++ [rule])) := by
  have hcoherent := coherent_after calls
  refine ⟨⟨(coherent_empty.addEach calls).2.1, rules_after calls⟩, hcoherent, hcoherent.group_eq,
    hcoherent.perm_groups, fun _ _ => hcoherent.disjoint_groups, fun rule => ?_⟩
  obtain ⟨houtcomes, hafter⟩ := addEach_concat calls rule
  rw [hafter]
  exact ⟨_, houtcomes, hcoherent.answered rule⟩

end Registry
end SqlLint
