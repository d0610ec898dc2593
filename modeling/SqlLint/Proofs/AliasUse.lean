import SqlLint.Proofs.Lists
import SqlLint.Proofs.Tables
import SqlLint.Rules.Aliasing

/-! # The use of table aliases

The rule takes the last part of a qualifier for the table that it names. An alias can also stand in
front, as in `alias.record.field`. Main statement: `check_unnamed`, the rule reports the aliases
that no qualifier has, and besides these the aliases that stand in front only. -/

namespace SqlLint

/-- The qualifier of a column reference or of a qualified star. -/
def Node.qualifier : Node → List Ident
  | .item (.qualifiedWildcard qualifier _) => qualifier.parts
  | .expr ⟨.column ref, _⟩ => ref.qualifier
  | .expr ⟨.star (some qualifier), _⟩ => qualifier.parts
  | _ => []

namespace Rules.UnusedAlias

/-! ## Uses of an alias -/

/-- Whether some node under the core, nested queries included, shows the alias to a view, in any
letter case. -/
def Shown (view : Node → List Ident) (core : Core) (label : Ident) : Prop :=
  ∃ n part, Relation.ReflTransGen Node.Holds (.core core) n ∧ part ∈ view n
    ∧ Text.same part.value label.value = true

/-- Whether some qualifier under the core has the alias as one of its parts. -/
def Used (core : Core) (label : Ident) : Prop := Shown Node.qualifier core label

/-- Whether some qualifier under the core has the alias as its last part. -/
def UsedLast (core : Core) (label : Ident) : Prop :=
  Shown (fun n => n.qualifier.getLast?.toList) core label

/-- Whether the alias is a part of qualifiers, but the last part of none. -/
def OnlyInFront (core : Core) (label : Ident) : Prop := Used core label ∧ ¬ UsedLast core label

theorem key_mem_iff (view : Node → List Ident) (core : Core) (label : Ident) :
    label.key ∈ ((Node.core core).preorder.flatMap view).map Ident.key ↔ Shown view core label := by
  unfold Shown
  simp only [List.mem_map, List.mem_flatMap, Node.mem_preorder_iff, Text.same_iff]
  constructor
  · rintro ⟨part, ⟨n, hn, hpart⟩, hkey⟩
    exact ⟨n, part, hn, hpart, hkey⟩
  · rintro ⟨n, part, hn, hpart, hkey⟩
    exact ⟨part, ⟨n, hn, hpart⟩, hkey⟩

instance (view : Node → List Ident) (core : Core) (label : Ident) :
    Decidable (Shown view core label) :=
  decidable_of_iff _ (key_mem_iff view core label)

instance (core : Core) (label : Ident) : Decidable (Used core label) :=
  inferInstanceAs (Decidable (Shown _ _ _))

instance (core : Core) (label : Ident) : Decidable (UsedLast core label) :=
  inferInstanceAs (Decidable (Shown _ _ _))

instance (core : Core) (label : Ident) : Decidable (OnlyInFront core label) :=
  inferInstanceAs (Decidable (_ ∧ _))

theorem UsedLast.used {core : Core} {label : Ident} (h : UsedLast core label) :
    Used core label := by
  obtain ⟨n, part, hn, hpart, hsame⟩ := h
  exact ⟨n, part, hn, List.mem_of_getLast? (Option.mem_toList.mp hpart), hsame⟩

theorem qualifier?_eq (n : Node) : qualifier? n = n.qualifier.getLast? := by
  cases n with
  | item i => cases i <;> rfl
  | expr e =>
    obtain ⟨kind, span⟩ := e
    cases kind with
    | star qualifier => cases qualifier <;> rfl
    | _ => rfl
  | _ => rfl

theorem contains_usedQualifiers_iff (core : Core) (label : Ident) :
    (usedQualifiers core).contains label.key = true ↔ UsedLast core label := by
  have hview : (Node.core core).collect qualifier?
      = (Node.core core).preorder.flatMap fun n => n.qualifier.getLast?.toList := by
    rw [Node.collect_eq, List.filterMap_eq_flatMap_toList]
    simp only [qualifier?_eq]
  unfold usedQualifiers UsedLast
  rw [List.contains_iff_mem, hview, key_mem_iff]

/-! ## What is reported -/

def finding (ctx : Context) (label : Ident) : Diagnostic :=
  ctx.report s!"Table alias '{label.value}' is defined but never referenced." label.span

/-- The aliases of the named tables of a core, each with the place of its table. -/
def aliasesAt (p : Place) (core : Core) : List (Place × Ident) :=
  (Node.tablesAt p core).filterMap fun x => (namedAlias? x.2).map (x.1, ·)

/-- The findings for the aliases with a property, core after core and table after table, each with
the place of its table. -/
def findings (s : Statement) (ctx : Context) (test : Core → Ident → Bool) :
    List (Place × Diagnostic) :=
  (Node.statement s).places.flatMap fun x =>
    x.2.core?.elim [] fun core =>
      ((aliasesAt x.1 core).filter (test core ·.2)).map fun y => (y.1, finding ctx y.2)

theorem map_snd_aliasesAt (p : Place) (core : Core) :
    (aliasesAt p core).map Prod.snd = core.tables.filterMap namedAlias? := by
  unfold aliasesAt
  rw [← Node.map_snd_tablesAt p core, List.map_filterMap, List.filterMap_map]
  simp [Function.comp_def]

theorem map_snd_findings (s : Statement) (ctx : Context) (test : Core → Ident → Bool) :
    (findings s ctx test).map Prod.snd
      = (Node.statement s).cores.flatMap fun core =>
        ((core.tables.filterMap namedAlias?).filter (test core)).map (finding ctx) := by
  unfold findings
  rw [List.map_flatMap, Node.cores, Node.flatMap_collect, ← Node.map_snd_places, List.flatMap_map]
  refine List.flatMap_congr fun x _ => ?_
  cases x.2.core? with
  | none => rfl
  | some core =>
    simp only [Option.elim_some]
    rw [← map_snd_aliasesAt x.1 core, List.filter_map, List.map_map, List.map_map]
    rfl

theorem mem_aliasesAt_iff {p place : Place} {core : Core} {label : Ident} :
    (place, label) ∈ aliasesAt p core
      ↔ ∃ name span, (place, .named name (some label) span) ∈ Node.tablesAt p core := by
  unfold aliasesAt
  rw [List.mem_filterMap]
  constructor
  · rintro ⟨⟨q, t⟩, ht, hlabel⟩
    obtain ⟨label', hlabel', hpair⟩ := Option.map_eq_some_iff.mp hlabel
    obtain ⟨rfl, rfl⟩ := Prod.mk.inj hpair
    cases t with
    | named name label'' span =>
      obtain rfl : label'' = some label' := hlabel'
      exact ⟨name, span, ht⟩
    | _ => cases hlabel'
  · rintro ⟨name, span, ht⟩
    exact ⟨_, ht, rfl⟩

theorem mem_findings_iff {s : Statement} {ctx : Context} {test : Core → Ident → Bool}
    {place : Place} {d : Diagnostic} :
    (place, d) ∈ findings s ctx test
      ↔ ∃ p core name label span, (Node.statement s).at? p = some (.core core)
        ∧ (place, .named name (some label) span) ∈ Node.tablesAt p core
        ∧ test core label = true ∧ d = finding ctx label := by
  unfold findings
  rw [List.mem_flatMap]
  constructor
  · rintro ⟨⟨p, n⟩, hn, hd⟩
    cases hcore : n.core? with
    | none => simp [hcore] at hd
    | some core =>
      obtain rfl := Node.eq_of_core? hcore
      obtain ⟨⟨q, label⟩, hmem, hpair⟩ := List.mem_map.mp hd
      obtain ⟨rfl, rfl⟩ := Prod.mk.inj hpair
      obtain ⟨halias, htest⟩ := List.mem_filter.mp hmem
      obtain ⟨name, span, ht⟩ := mem_aliasesAt_iff.mp halias
      exact ⟨p, core, name, label, span, (Node.mem_places_iff ..).mp hn, ht, htest, rfl⟩
  · rintro ⟨p, core, name, label, span, hcore, ht, htest, rfl⟩
    refine ⟨(p, .core core), (Node.mem_places_iff ..).mpr hcore, ?_⟩
    refine List.mem_map.mpr ⟨(place, label), List.mem_filter.mpr ⟨?_, htest⟩, rfl⟩
    exact mem_aliasesAt_iff.mpr ⟨name, span, ht⟩

theorem nodup_aliasesAt (p : Place) (core : Core) : ((aliasesAt p core).map Prod.fst).Nodup := by
  have hplaces := (Node.core core).tree.nodup_fst_placesFrom p
  have houtside := hplaces.sublist ((Rose.outsideFrom_sublist (·.query?.isSome) p _).map Prod.fst)
  have htables : ((Node.tablesAt p core).map Prod.fst).Nodup := by
    refine houtside.sublist (map_filterMap_sublist (fun x y h => ?_) _)
    obtain ⟨t, -, rfl⟩ := Option.map_eq_some_iff.mp h
    rfl
  refine htables.sublist (map_filterMap_sublist (fun x y h => ?_) _)
  obtain ⟨label, -, rfl⟩ := Option.map_eq_some_iff.mp h
  rfl

theorem within_of_mem {root : Node} {p place : Place} {core : Core}
    (hcore : root.at? p = some (.core core)) (h : place ∈ (aliasesAt p core).map Prod.fst) :
    root.Within p place := by
  obtain ⟨⟨q, label⟩, hmem, rfl⟩ := List.mem_map.mp h
  obtain ⟨name, span, ht⟩ := mem_aliasesAt_iff.mp hmem
  exact ((Node.mem_tablesAt_iff hcore).mp ht).1

theorem nodup_findings (s : Statement) (ctx : Context) (test : Core → Ident → Bool) :
    ((findings s ctx test).map Prod.fst).Nodup := by
  have hpart : ∀ p core, ((((aliasesAt p core).filter (test core ·.2)).map
      fun y => (y.1, finding ctx y.2)).map Prod.fst).Sublist ((aliasesAt p core).map Prod.fst) := by
    intro p core
    rw [List.map_map]
    exact List.filter_sublist.map _
  unfold findings
  rw [List.map_flatMap, List.nodup_flatMap]
  constructor
  · rintro ⟨p, n⟩ -
    cases n.core? with
    | none => exact .nil
    | some core => exact (nodup_aliasesAt p core).sublist (hpart p core)
  · refine (Node.statement s).pairwise_places.imp_of_mem ?_
    rintro ⟨p, n⟩ ⟨q, m⟩ hn hm hlt place hplace hplace'
    cases hcore : n.core? with
    | none => simp [hcore] at hplace
    | some core =>
      cases hother : m.core? with
      | none => simp [hother] at hplace'
      | some other =>
        obtain rfl := Node.eq_of_core? hcore
        obtain rfl := Node.eq_of_core? hother
        have hp := (Node.mem_places_iff ..).mp hn
        have hq := (Node.mem_places_iff ..).mp hm
        have hwithin := within_of_mem hp ((hpart p core).subset hplace)
        have hwithin' := within_of_mem hq ((hpart q other).subset hplace')
        obtain rfl := Node.core_unique hp hq hwithin hwithin'
        exact List.lt_irrefl p hlt

/-! ## The aliases that are reported -/

theorem not_usedLast_iff (core : Core) (label : Ident) :
    ¬ UsedLast core label ↔ ¬ Used core label ∨ OnlyInFront core label := by
  constructor
  · intro hlast
    by_cases hused : Used core label
    · exact .inr ⟨hused, hlast⟩
    · exact .inl hused
  · rintro (hfree | hfront) hlast
    · exact hfree hlast.used
    · exact hfront.2 hlast

theorem check_eq_map_findings (s : Statement) (ctx : Context) :
    check s ctx
      = (findings s ctx fun core label => ¬ Used core label ∨ OnlyInFront core label).map
        Prod.snd := by
  have hused : ∀ core label, (!(usedQualifiers core).contains label.key)
      = decide (¬ Used core label ∨ OnlyInFront core label) := by
    intro core label
    rw [Bool.eq_iff_iff, Bool.not_eq_true', ← Bool.not_eq_true, contains_usedQualifiers_iff,
      decide_eq_true_iff, not_usedLast_iff]
  rw [map_snd_findings]
  unfold check
  simp only [hused]
  rfl

theorem findings_eq_iff (s : Statement) (ctx : Context) {test test' : Core → Ident → Bool}
    (h : ∀ core label, test core label = true → test' core label = true) :
    (findings s ctx test).map Prod.snd = (findings s ctx test').map Prod.snd
      ↔ ∀ core ∈ (Node.statement s).cores, ∀ label ∈ core.tables.filterMap namedAlias?,
        test' core label = true → test core label = true := by
  rw [map_snd_findings, map_snd_findings, flatMap_map_filter_eq_iff (finding ctx) h]

/-- An alias is reported if no qualifier ends with it, even if it stands in front of one. -/
theorem check_unnamed (s : Statement) (ctx : Context) :
    check s ctx
        = (findings s ctx fun core label => ¬ Used core label ∨ OnlyInFront core label).map Prod.snd
    ∧ (check s ctx = (findings s ctx fun core label => ¬ Used core label).map Prod.snd
      ↔ ∀ core ∈ (Node.statement s).cores, ∀ label ∈ core.tables.filterMap namedAlias?,
        ¬ OnlyInFront core label)
    ∧ ∀ test : Core → Ident → Bool,
      ((findings s ctx test).map Prod.fst).Nodup
      ∧ ∀ place d, (place, d) ∈ findings s ctx test
        ↔ ∃ p core name label span, (Node.statement s).at? p = some (.core core)
          ∧ (place, .named name (some label) span) ∈ Node.tablesAt p core
          ∧ test core label = true ∧ d = finding ctx label := by
  have hmore : ∀ core label, decide (¬ Used core label) = true →
      decide (¬ Used core label ∨ OnlyInFront core label) = true := by
    intro core label
    rw [decide_eq_true_iff, decide_eq_true_iff]
    exact .inl
  refine ⟨check_eq_map_findings s ctx, ?_, fun test => ⟨nodup_findings s ctx test,
    fun place d => mem_findings_iff⟩⟩
  rw [check_eq_map_findings, eq_comm, findings_eq_iff s ctx hmore]
  simp only [decide_eq_true_iff]
  refine forall₂_congr fun core _ => forall₂_congr fun label _ => ?_
  constructor
  · intro h hfront
    exact h (.inr hfront) hfront.1
  · rintro h (hfree | hfront)
    · exact hfree
    · exact absurd hfront h

/-! ## Access to a record -/

def plainContext : Context := ⟨info, .generic, info.defaultSeverity, none⟩

/-- `SELECT a.record.field FROM users AS a` -/
def fieldOfRecord : Core :=
  let field : Expr :=
    ⟨.column ⟨[{ value := "a" }, { value := "record" }], { value := "field" }⟩, .empty⟩
  { selecting field with
    source := some ⟨.named ⟨[{ value := "users" }]⟩ (some { value := "a" }) .empty, []⟩ }

/-- The column is qualified with the alias, and yet the alias is reported. -/
theorem check_fieldOfRecord :
    Used fieldOfRecord { value := "a" }
      ∧ check (.query (.ofCore fieldOfRecord)) plainContext
        = [finding plainContext { value := "a" }]
      ∧ (findings (.query (.ofCore fieldOfRecord)) plainContext fun core label =>
        ¬ Used core label) = [] := by
  refine ⟨by decide, by rfl, by decide⟩

end Rules.UnusedAlias
end SqlLint
