import SqlLint.Proofs.Lists
import SqlLint.Proofs.Scopes
import SqlLint.Rules.Ambiguous
import SqlLint.Rules.Convention

/-! # Rules with a choice of two styles

A style rule goes through the items of each scope, and asks for one of two styles or for consistency
with the first item. Main statement: `check_styles`, the two styles share out the items, and
consistency is lost where both of them are violated. -/

namespace SqlLint

/-! ## Settings -/

/-- Whether the options give a word, in any letter case, as the value of a key. -/
def Sets (options : Option (List (String × Json))) (key word : String) : Prop :=
  ∃ members value, options = some members ∧ members.lookup key = some (.string value)
    ∧ Text.lower value = word

theorem choice_of_sets {α : Type} (ctx : Context) {key word : String} {default choice : α}
    {choices : List (String × α)} (hkey : ctx.info.configKeys.contains key = true)
    (h : Sets ctx.options key word) (hchoice : choices.lookup word = some choice) :
    ctx.choice key default choices = choice := by
  obtain ⟨members, value, hoptions, hvalue, rfl⟩ := h
  have hoption : ctx.option? key = some (.string value) := by
    unfold Context.option?
    rw [if_pos hkey, hoptions]
    exact hvalue
  unfold Context.choice Context.string?
  rw [hoption]
  simp [Json.string?, hchoice]

/-- The settings of a style rule: two fixed styles, and consistency. -/
inductive Setting where
  | first
  | second
  | consistent

def Setting.value {α : Type} (first second consistent : α) : Setting → α
  | .first => first
  | .second => second
  | .consistent => consistent

/-- Whether the options ask for the fixed styles by two words. -/
def Asked (options : Setting → Option (List (String × Json))) (key first second : String) : Prop :=
  Sets (options .first) key first ∧ Sets (options .second) key second

theorem choice_of_asked {α : Type} {ctx : Context}
    {options : Setting → Option (List (String × Json))} {key word word' : String}
    {first second consistent : α} {choices : List (String × α)}
    (hkey : ctx.info.configKeys.contains key = true) (hasked : Asked options key word word')
    (hfirst : choices.lookup word = some first) (hsecond : choices.lookup word' = some second)
    (hconsistent : Context.choice { ctx with options := options .consistent } key consistent choices
      = consistent) (setting : Setting) :
    Context.choice { ctx with options := options setting } key consistent choices
      = setting.value first second consistent := by
  cases setting with
  | first => exact choice_of_sets { ctx with options := options .first } hkey hasked.1 hfirst
  | second => exact choice_of_sets { ctx with options := options .second } hkey hasked.2 hsecond
  | consistent => exact hconsistent

/-- The items of a scope that are reported in each setting. -/
abbrev Picks (ι : Type) := Setting → List ι → List ι

section

variable {ι : Type}

/-- Whether the fixed styles share out the items of a scope, each of the two picking what is in the
other, and consistency asks for less than either of them. -/
structure Balanced (picks : Picks ι) (style : ι → Setting) (items : List ι) : Prop where
  nodup : items.Nodup
  fixed : ∀ x ∈ items, (x ∈ picks .first items ↔ style x = .second)
    ∧ (x ∈ picks .second items ↔ style x = .first)
  sublist : ∀ setting, (picks setting items).Sublist items
  disjoint : (picks .first items).Disjoint (picks .second items)
  all : (picks .first items ++ picks .second items).Perm items
  nothing : picks .consistent items = [] ↔ picks .first items = [] ∨ picks .second items = []

/-- Whether a rule finds what is picked in its scopes, setting by setting, and all scopes are
balanced. -/
def Divides (scopes : List (List ι)) (report : Setting → ι → Diagnostic)
    (found : Setting → List Diagnostic) (picks : Picks ι) (style : ι → Setting) : Prop :=
  (∀ setting, found setting
    = scopes.flatMap fun items => (picks setting items).map (report setting))
  ∧ ∀ items ∈ scopes, Balanced picks style items

/-- Whether consistency asks for the style of the first item. -/
def FollowsFirst (picks : Picks ι) (style : ι → Setting) (items : List ι) : Prop :=
  ∀ x, items.head? = some x → picks .consistent items = picks (style x) items

/-- The items that pass a test are not in the first style, and the others are not in the second. -/
def byTest (p : ι → Bool) : Picks ι
  | .first, items => items.filter p
  | .second, items => items.filter (!p ·)
  | .consistent, items => items.filter fun x => items.head?.any (p · != p x)

def styleOf (p : ι → Bool) (x : ι) : Setting := if p x then .second else .first

variable {p : ι → Bool} {items : List ι}

theorem filter_ne_eq (p : ι → Bool) (x : ι) (items : List ι) :
    items.filter (fun y => p x != p y) = byTest p (styleOf p x) items := by
  unfold styleOf byTest
  cases p x <;> simp

theorem followsFirst_byTest : FollowsFirst (byTest p) (styleOf p) items := by
  intro x hx
  rw [← filter_ne_eq]
  simp [byTest, hx]

theorem filter_ne_eq_nil_iff {x : ι} (hx : items.head? = some x) :
    items.filter (fun y => p x != p y) = []
      ↔ items.filter p = [] ∨ items.filter (!p ·) = [] := by
  have hmem : x ∈ items := List.mem_of_mem_head? hx
  rw [filter_ne_eq]
  unfold styleOf byTest
  -- The first item is missing in one of the two lists, and the other list has it.
  cases hp : p x with
  | true =>
    have hfirst : items.filter p ≠ [] := List.ne_nil_of_mem (List.mem_filter.mpr ⟨hmem, hp⟩)
    simp only [hfirst, false_or]
    rfl
  | false =>
    have hsecond : items.filter (!p ·) ≠ [] :=
      List.ne_nil_of_mem (List.mem_filter.mpr ⟨hmem, by rw [hp]; rfl⟩)
    simp only [hsecond, or_false]
    rfl

theorem balanced_of_byTest {picks : Picks ι} (hnodup : items.Nodup)
    (hfirst : picks .first items = items.filter p)
    (hsecond : picks .second items = items.filter (!p ·))
    (hsublist : (picks .consistent items).Sublist items)
    (hnothing : ∀ x, items.head? = some x →
      (picks .consistent items = [] ↔ items.filter (fun y => p x != p y) = [])) :
    Balanced picks (styleOf p) items where
  nodup := hnodup
  fixed x hx := by
    rw [hfirst, hsecond]
    unfold styleOf
    cases hp : p x <;> simp [hx, hp]
  sublist setting := by
    cases setting with
    | first => exact hfirst ▸ List.filter_sublist
    | second => exact hsecond ▸ List.filter_sublist
    | consistent => exact hsublist
  disjoint := by
    rw [hfirst, hsecond]
    intro x hx hx'
    have hp := (List.mem_filter.mp hx).2
    have hp' := (List.mem_filter.mp hx').2
    rw [hp] at hp'
    cases hp'
  all := by
    rw [hfirst, hsecond]
    exact List.filter_append_perm p items
  nothing := by
    rw [hfirst, hsecond]
    cases hx : items.head? with
    | none =>
      rw [List.head?_eq_none_iff] at hx
      rw [hx] at hsublist
      simp [hx, List.sublist_nil.mp hsublist]
    | some x => rw [hnothing x hx, filter_ne_eq_nil_iff hx]

theorem balanced_byTest (hnodup : items.Nodup) : Balanced (byTest p) (styleOf p) items := by
  refine balanced_of_byTest hnodup rfl rfl List.filter_sublist fun x hx => ?_
  simp [byTest, hx]

end

namespace Rules

/-! ## Casts -/

namespace CastingStyle

/-- The casts of a statement that can be written in two ways, in walk order. -/
def casts (s : Statement) : List (Place × Located CastStyle) :=
  (Node.statement s).places.filterMap fun x => (cast? x.2).map (x.1, ·)

def isShorthand (x : Place × Located CastStyle) : Bool := x.2.value == .doubleColon

/-- The complaint about a cast that is written in the other style. -/
def complaint (c : CastStyle) : String :=
  let other : CastStyle := if c = .cast then .doubleColon else .cast
  s!"Use {describe other} instead of {describe c} for type casts."

theorem map_snd_casts (s : Statement) :
    (casts s).map Prod.snd = (Node.statement s).collect cast? := by
  rw [Node.collect_eq, ← Node.map_snd_places, casts, List.map_filterMap, List.filterMap_map]
  simp [Function.comp_def]

theorem nodup_casts (s : Statement) : (casts s).Nodup := by
  refine List.Nodup.of_map Prod.fst ?_
  refine (Node.statement s).nodup_fst_places.sublist (map_filterMap_sublist (fun x y hy => ?_) _)
  obtain ⟨c, -, rfl⟩ := Option.map_eq_some_iff.mp hy
  rfl

theorem style_of_mem_casts {s : Statement} {x : Place × Located CastStyle} (hx : x ∈ casts s) :
    x.2.value = .cast ∨ x.2.value = .doubleColon := by
  obtain ⟨⟨p, n⟩, -, h⟩ := List.mem_filterMap.mp hx
  obtain ⟨c, hc, rfl⟩ := Option.map_eq_some_iff.mp h
  unfold cast? at hc
  split at hc <;> cases hc
  · exact .inl rfl
  · exact .inr rfl

def preferred : Setting → Preference :=
  Setting.value (.fixed .cast) (.fixed .doubleColon) .consistent

/-- What is reported where one style is expected of all casts. -/
def checkAll (s : Statement) (ctx : Context) (expected : CastStyle) : List Diagnostic :=
  (((Node.statement s).collect cast?).filter (·.value != expected)).map fun c =>
    ctx.report s!"Use {describe expected} instead of {describe c.value} for type casts." c.span

theorem checkAll_eq (s : Statement) (ctx : Context) {setting : Setting} {expected : CastStyle}
    (h : setting = .first ∧ expected = .cast ∨ setting = .second ∧ expected = .doubleColon) :
    checkAll s ctx expected = (byTest isShorthand setting (casts s)).map fun x =>
      ctx.report (complaint x.2.value) x.2.span := by
  unfold checkAll
  rw [← map_snd_casts, List.filter_map, List.map_map]
  rcases h with ⟨rfl, rfl⟩ | ⟨rfl, rfl⟩
  · have hfilter : (casts s).filter ((fun c => c.value != CastStyle.cast) ∘ Prod.snd)
        = (casts s).filter isShorthand := by
      refine List.filter_congr fun x hx => ?_
      rcases style_of_mem_casts hx with h | h <;> simp [isShorthand, h]
    rw [hfilter]
    refine List.map_congr_left fun x hx => ?_
    have hstyle := eq_of_beq (List.mem_filter.mp hx).2
    simp [complaint, hstyle]
  · have hfilter : (casts s).filter ((fun c => c.value != CastStyle.doubleColon) ∘ Prod.snd)
        = (casts s).filter (!isShorthand ·) := rfl
    rw [hfilter]
    refine List.map_congr_left fun x hx => ?_
    obtain ⟨hmem, hlong⟩ := List.mem_filter.mp hx
    rcases style_of_mem_casts hmem with h | h
    · simp [complaint, h]
    · simp [isShorthand, h] at hlong

theorem check_eq_picks {s : Statement} {ctx : Context} {setting : Setting}
    (h : preference ctx = preferred setting) :
    check s ctx = (byTest isShorthand setting (casts s)).map fun x =>
      ctx.report (complaint x.2.value) x.2.span := by
  unfold check
  rw [h]
  cases setting with
  | first => exact checkAll_eq s ctx (.inl ⟨rfl, rfl⟩)
  | second => exact checkAll_eq s ctx (.inr ⟨rfl, rfl⟩)
  | consistent =>
    cases hcasts : casts s with
    | nil =>
      have hnone : (Node.statement s).collect cast? = [] := by
        rw [← map_snd_casts, hcasts, List.map_nil]
      rw [hnone]
      rfl
    | cons first rest =>
      have hhead : (casts s).head? = some first := by rw [hcasts, List.head?_cons]
      have hexpected : expected? .consistent ((Node.statement s).collect cast?)
          = some first.2.value := by
        rw [← map_snd_casts, hcasts]
        rfl
      have hcheck : checkAll s ctx first.2.value
          = (byTest isShorthand (styleOf isShorthand first) (casts s)).map fun x =>
              ctx.report (complaint x.2.value) x.2.span := by
        apply checkAll_eq
        rcases style_of_mem_casts (List.mem_of_mem_head? hhead) with h | h
        · exact .inl ⟨by simp [styleOf, isShorthand, h], h⟩
        · exact .inr ⟨by simp [styleOf, isShorthand, h], h⟩
      rw [← hcasts, followsFirst_byTest first hhead, ← hcheck]
      simp only [preferred, Setting.value, hexpected]
      rfl

end CastingStyle

/-! ## Columns by position and by name -/

namespace ColumnReferences

/-- The lists of items, each item with its number: those of cores, then those of queries. -/
def scopes (s : Statement) : List (List (Expr × Nat)) :=
  ((Node.statement s).cores.map (fun core => core.groupBy ++ core.orderBy.map OrderBy.expr)
    ++ (Node.statement s).queries.map fun query => query.orderBy.map OrderBy.expr).map List.zipIdx

def preferred : Setting → Style := Setting.value .explicit .implicit .consistent

theorem filter_expected (setting : Setting) (items : List Expr) :
    items.filter (isPositional · != expected (preferred setting) items)
      = (byTest (fun x => isPositional x.1) setting items.zipIdx).map Prod.fst := by
  have hfilter : ∀ p : Expr → Bool,
      (items.zipIdx.filter fun x => p x.1).map Prod.fst = items.filter p := by
    intro p
    conv_rhs => rw [← List.zipIdx_map_fst 0 items]
    rw [List.filter_map]
    rfl
  cases setting with
  | first => simp [byTest, preferred, Setting.value, expected, hfilter]
  | second => simp [byTest, preferred, Setting.value, expected, hfilter fun e => !isPositional e]
  | consistent =>
    cases items with
    | nil => rfl
    | cons first rest =>
      refine Eq.trans ?_ (hfilter fun e => isPositional first != isPositional e).symm
      exact List.filter_congr fun e _ => bne_comm

theorem checkItems_eq (ctx : Context) (setting : Setting) (items : List Expr) :
    checkItems ctx (preferred setting) items
      = (byTest (fun x => isPositional x.1) setting items.zipIdx).map fun x =>
          ctx.report (message (isPositional x.1)) x.1.span := by
  unfold checkItems
  rw [filter_expected, List.map_map]
  rfl

theorem check_eq_picks {s : Statement} {ctx : Context} {setting : Setting}
    (h : style ctx = preferred setting) :
    check s ctx = (scopes s).flatMap fun items =>
      (byTest (fun x => isPositional x.1) setting items).map fun x =>
        ctx.report (message (isPositional x.1)) x.1.span := by
  unfold check scopes
  rw [h]
  simp only [checkItems_eq, List.flatMap_map, List.flatMap_append, List.map_append]

end ColumnReferences

/-! ## References to a single table -/

namespace Consistency

/-- Whether no alias of an output column hides a reference. -/
def isVisible (core : Core) (x : Occurrence) : Bool :=
  x.2.value.isQualified || !((columnAliases core).map Ident.key).contains x.2.value.name.key

/-- The references of each core with a single table that can mean a column of it. -/
def scopes (s : Statement) : List (List Occurrence) :=
  (Node.statement s).places.filterMap fun x =>
    x.2.core?.bind fun core =>
      if core.tables.length = 1 then some ((Node.scope x).filter (isVisible core)) else none

def preferred : Setting → Style := Setting.value .qualified .unqualified .consistent

def isBare (x : Occurrence) : Bool := !x.2.value.isQualified

/-- In a fixed style all that are not in it, and for consistency the first alone that differs. -/
def picks : Picks Occurrence
  | .consistent, items => (items.find? fun x => items.head?.any (isBare · != isBare x)).toList
  | setting, items => byTest isBare setting items

theorem balanced_picks {items : List Occurrence} (hnodup : items.Nodup) :
    Balanced picks (styleOf isBare) items := by
  have hfirst : picks .first items = items.filter isBare := rfl
  refine balanced_of_byTest hnodup hfirst rfl ?_ fun x hx => ?_
  · change (items.find? fun x => items.head?.any (isBare · != isBare x)).toList.Sublist items
    cases hfind : items.find? fun x => items.head?.any (isBare · != isBare x) with
    | none => exact List.nil_sublist _
    | some x => exact List.singleton_sublist.mpr (List.mem_of_find?_eq_some hfind)
  · simp [picks, hx]

theorem map_snd_picks (setting : Setting) (items : List Occurrence) :
    (picks setting items).map Prod.snd = strays (preferred setting) (items.map Prod.snd) := by
  cases setting with
  | first =>
    simp only [strays, preferred, List.filter_map]
    rfl
  | second =>
    have hbare : (fun x : Occurrence => !isBare x) = fun x => x.2.value.isQualified :=
      funext fun x => Bool.not_not _
    simp only [picks, byTest, strays, preferred, List.filter_map, hbare]
    rfl
  | consistent =>
    cases items with
    | nil => rfl
    | cons first rest =>
      have htest : ∀ x : Occurrence, (isBare first != isBare x)
          = (x.2.value.isQualified != first.2.value.isQualified) := by
        intro x
        unfold isBare
        cases x.2.value.isQualified <;> cases first.2.value.isQualified <;> rfl
      simp only [picks, strays, preferred, List.head?_cons, Option.any_some, htest]
      change _ = (((first :: rest).map Prod.snd).find? fun c =>
        c.value.isQualified != first.2.value.isQualified).toList
      rw [List.find?_map]
      exact (Option.toList_map ..).symm

theorem check_eq_picks {s : Statement} {ctx : Context} {setting : Setting}
    (h : style ctx = preferred setting) :
    check s ctx = (scopes s).flatMap fun items => (picks setting items).map fun x =>
      ctx.report (complaint (preferred setting) x.2.value) x.2.span := by
  rw [check_eq, h, Node.cores, Node.flatMap_collect, ← Node.map_snd_places, List.flatMap_map,
    List.map_flatMap]
  unfold scopes
  rw [List.filterMap_eq_flatMap_toList, List.flatMap_assoc]
  refine List.flatMap_congr fun x _ => ?_
  cases hcore : x.2.core? with
  | none => rfl
  | some core =>
    have hscope : (Node.scope x).map Prod.snd = core.scopeColumns := by
      rw [Node.map_snd_scope, Node.eq_of_core? hcore, Node.scopeColumns_core]
    simp only [Option.elim_some, Option.bind_some, faults]
    split
    · simp only [Option.toList_some, List.flatMap_cons, List.flatMap_nil, List.append_nil]
      have hcolumns : tableColumns core
          = ((Node.scope x).filter (isVisible core)).map Prod.snd := by
        rw [tableColumns, ← hscope, List.filter_map]
        rfl
      rw [hcolumns, ← map_snd_picks, List.map_map]
      rfl
    · rfl

theorem nodup_scopes {s : Statement} {items : List Occurrence} (h : items ∈ scopes s) :
    items.Nodup := by
  obtain ⟨x, hx, hitems⟩ := List.mem_filterMap.mp h
  obtain ⟨core, -, hitems⟩ := Option.bind_eq_some_iff.mp hitems
  have hall : ((Node.statement s).places.flatMap Node.scope).Nodup := by
    rw [← (Node.perm_scopes s).nodup_iff]
    exact List.Nodup.of_map _ (Node.nodup_fst_occurrences _)
  have hscope : (Node.scope x).Nodup := (List.nodup_flatMap.mp hall).1 x hx
  split at hitems <;> cases hitems
  exact hscope.filter _

end Consistency

/-! ## All three rules -/

section

variable {ctx : Context} {options : Setting → Option (List (String × Json))}

theorem CastingStyle.preference_eq (hinfo : ctx.info = info)
    (hsupports : ctx.supports .doubleColonCast = true)
    (hasked : Asked options "preferred_type_casting_style" "cast" "shorthand")
    (hconsistent : preference { ctx with options := options .consistent } = .consistent)
    (setting : Setting) :
    preference { ctx with options := options setting } = preferred setting := by
  have hkey : ctx.info.configKeys.contains "preferred_type_casting_style" = true := by
    rw [hinfo]
    rfl
  have hshorthand : ∀ o, Context.supports { ctx with options := o } .doubleColonCast = true :=
    fun _ => hsupports
  unfold preference
  cases setting with
  | first =>
    rw [choice_of_sets { ctx with options := options .first } hkey hasked.1 rfl]
    rfl
  | second =>
    rw [choice_of_sets { ctx with options := options .second } hkey hasked.2 rfl]
    simp [hshorthand, preferred, Setting.value]
  | consistent => exact hconsistent

theorem ColumnReferences.style_eq (hinfo : ctx.info = info)
    (hasked : Asked options "group_by_and_order_by_style" "explicit" "implicit")
    (hconsistent : style { ctx with options := options .consistent } = .consistent)
    (setting : Setting) : style { ctx with options := options setting } = preferred setting :=
  choice_of_asked (by rw [hinfo]; rfl) hasked rfl rfl hconsistent setting

theorem Consistency.style_eq (hinfo : ctx.info = info)
    (hasked : Asked options "single_table_references" "qualified" "unqualified")
    (hconsistent : style { ctx with options := options .consistent } = .consistent)
    (setting : Setting) : style { ctx with options := options setting } = preferred setting :=
  choice_of_asked (by rw [hinfo]; rfl) hasked rfl rfl hconsistent setting

end

/-- The two styles share out the items, and consistency is lost where both are violated. -/
theorem check_styles (s : Statement) :
    (∀ (ctx : Context) (options : Setting → Option (List (String × Json))),
      ctx.info = CastingStyle.info → ctx.supports .doubleColonCast = true →
      Asked options "preferred_type_casting_style" "cast" "shorthand" →
      CastingStyle.preference { ctx with options := options .consistent } = .consistent →
      ∃ picks, Divides [CastingStyle.casts s]
          (fun _ x => ctx.report (CastingStyle.complaint x.2.value) x.2.span)
          (fun setting => CastingStyle.check s { ctx with options := options setting }) picks
          (styleOf CastingStyle.isShorthand)
        ∧ FollowsFirst picks (styleOf CastingStyle.isShorthand) (CastingStyle.casts s))
    ∧ (∀ (ctx : Context) (options : Setting → Option (List (String × Json))),
      ctx.info = ColumnReferences.info →
      Asked options "group_by_and_order_by_style" "explicit" "implicit" →
      ColumnReferences.style { ctx with options := options .consistent } = .consistent →
      ∃ picks, Divides (ColumnReferences.scopes s)
          (fun _ x => ctx.report (ColumnReferences.message (ColumnReferences.isPositional x.1))
            x.1.span)
          (fun setting => ColumnReferences.check s { ctx with options := options setting }) picks
          (styleOf fun x => ColumnReferences.isPositional x.1)
        ∧ ∀ items ∈ ColumnReferences.scopes s,
          FollowsFirst picks (styleOf fun x => ColumnReferences.isPositional x.1) items)
    ∧ ∀ (ctx : Context) (options : Setting → Option (List (String × Json))),
      ctx.info = Consistency.info →
      Asked options "single_table_references" "qualified" "unqualified" →
      Consistency.style { ctx with options := options .consistent } = .consistent →
      ∃ picks, Divides (Consistency.scopes s)
          (fun setting x => ctx.report
            (Consistency.complaint (Consistency.preferred setting) x.2.value) x.2.span)
          (fun setting => Consistency.check s { ctx with options := options setting }) picks
          (styleOf Consistency.isBare) := by
  refine ⟨?_, ?_, ?_⟩
  · intro ctx options hinfo hsupports hasked hconsistent
    refine ⟨byTest CastingStyle.isShorthand, ⟨fun setting => ?_, fun items hitems => ?_⟩,
      followsFirst_byTest⟩
    · have hpreference := CastingStyle.preference_eq hinfo hsupports hasked hconsistent setting
      rw [List.flatMap_singleton]
      exact CastingStyle.check_eq_picks hpreference
    · obtain rfl := List.mem_singleton.mp hitems
      exact balanced_byTest (CastingStyle.nodup_casts s)
  · intro ctx options hinfo hasked hconsistent
    refine ⟨byTest fun x => ColumnReferences.isPositional x.1,
      ⟨fun setting => ?_, fun items hitems => ?_⟩, fun items _ => followsFirst_byTest⟩
    · have hstyle := ColumnReferences.style_eq hinfo hasked hconsistent setting
      exact ColumnReferences.check_eq_picks hstyle
    · obtain ⟨_, -, rfl⟩ := List.mem_map.mp hitems
      exact balanced_byTest (nodup_zipIdx _)
  · intro ctx options hinfo hasked hconsistent
    refine ⟨Consistency.picks, fun setting => ?_, fun items hitems => ?_⟩
    · have hstyle := Consistency.style_eq hinfo hasked hconsistent setting
      exact Consistency.check_eq_picks hstyle
    · exact Consistency.balanced_picks (Consistency.nodup_scopes hitems)

/-- `SELECT CAST(x AS INT), t.x::INT FROM t GROUP BY x, 2` -/
def mixed : Statement :=
  let bare : Expr := ⟨.column ⟨[], { value := "x" }⟩, .empty⟩
  let qualified : Expr := ⟨.column ⟨[{ value := "t" }], { value := "x" }⟩, .empty⟩
  let core : Core :=
    { selecting ⟨.cast bare "INT" .cast, .empty⟩ with
      columns := [.expr ⟨.cast bare "INT" .cast, .empty⟩ none,
        .expr ⟨.cast qualified "INT" .doubleColon, .empty⟩ none]
      source := some ⟨.named ⟨[{ value := "t" }]⟩ none .empty, []⟩
      groupBy := [bare, ⟨.literal ⟨.number, "2"⟩, .empty⟩] }
  .query (.ofCore core)

/-- Two words for the fixed styles, and no option for consistency. -/
def words (key first second : String) : Setting → Option (List (String × Json)) :=
  Setting.value (some [(key, .string first)]) (some [(key, .string second)]) none

theorem asked_words {key first second : String} (hfirst : Text.lower first = first)
    (hsecond : Text.lower second = second) : Asked (words key first second) key first second :=
  ⟨⟨_, _, rfl, by simp, hfirst⟩, ⟨_, _, rfl, by simp, hsecond⟩⟩

def plainly (info : RuleInfo) : Context := ⟨info, .generic, info.defaultSeverity, none⟩

/-- What a rule finds in the statement above. -/
def foundMixed (check : Statement → Context → List Diagnostic) (info : RuleInfo)
    (options : Setting → Option (List (String × Json))) (setting : Setting) : List Diagnostic :=
  check mixed { plainly info with options := options setting }

theorem check_styles_mixed :
    (∃ picks, Divides [CastingStyle.casts mixed]
        (fun _ x => (plainly CastingStyle.info).report (CastingStyle.complaint x.2.value) x.2.span)
        (foundMixed CastingStyle.check CastingStyle.info
          (words "preferred_type_casting_style" "cast" "shorthand")) picks
        (styleOf CastingStyle.isShorthand)
      ∧ FollowsFirst picks (styleOf CastingStyle.isShorthand) (CastingStyle.casts mixed))
    ∧ (∃ picks, Divides (ColumnReferences.scopes mixed)
        (fun _ x => (plainly ColumnReferences.info).report
          (ColumnReferences.message (ColumnReferences.isPositional x.1)) x.1.span)
        (foundMixed ColumnReferences.check ColumnReferences.info
          (words "group_by_and_order_by_style" "explicit" "implicit")) picks
        (styleOf fun x => ColumnReferences.isPositional x.1)
      ∧ ∀ items ∈ ColumnReferences.scopes mixed,
        FollowsFirst picks (styleOf fun x => ColumnReferences.isPositional x.1) items)
    ∧ (∃ picks, Divides (Consistency.scopes mixed)
        (fun setting x => (plainly Consistency.info).report
          (Consistency.complaint (Consistency.preferred setting) x.2.value) x.2.span)
        (foundMixed Consistency.check Consistency.info
          (words "single_table_references" "qualified" "unqualified")) picks
        (styleOf Consistency.isBare))
    ∧ ∀ setting,
      (foundMixed CastingStyle.check CastingStyle.info
        (words "preferred_type_casting_style" "cast" "shorthand") setting).isEmpty = false
      ∧ (foundMixed ColumnReferences.check ColumnReferences.info
        (words "group_by_and_order_by_style" "explicit" "implicit") setting).isEmpty = false
      ∧ (foundMixed Consistency.check Consistency.info
        (words "single_table_references" "qualified" "unqualified") setting).isEmpty = false := by
  refine ⟨?_, ?_, ?_, ?_⟩
  · exact (check_styles mixed).1 (plainly CastingStyle.info) _ rfl rfl
      (asked_words (by decide) (by decide)) rfl
  · exact (check_styles mixed).2.1 (plainly ColumnReferences.info) _ rfl
      (asked_words (by decide) (by decide)) rfl
  · exact (check_styles mixed).2.2 (plainly Consistency.info) _ rfl
      (asked_words (by decide) (by decide)) rfl
  · intro setting
    cases setting <;> decide

end Rules
end SqlLint
