import SqlLint.Proofs.Levels
import SqlLint.Proofs.Lists
import SqlLint.Proofs.Scopes
import SqlLint.Proofs.Tables
import SqlLint.Rules.References

/-! # Identifiers that name something

The tree keeps the names of tables, columns, aliases and common table expressions in the nodes
themselves. Main statement: `check_examined`, a quoted name with a special character is reported
once if it is in a role that the rule examines, and not at all in any other. -/

namespace SqlLint

/-! ## Names in a node -/

/-- What an identifier names. -/
inductive Role where
  | cte
  | table
  | tableAlias
  /-- A column, or a table, schema or the like that qualifies it. -/
  | column
  | columnAlias
  /-- A column in the list of a `USING`. -/
  | usingColumn
  /-- A table whose columns a star stands for. -/
  | starQualifier
  /-- A table or view that the statement creates. -/
  | created
deriving DecidableEq, Repr

/-- An identifier in its role, with the place of its node and its number among the names of that
node. -/
structure Naming where
  place : Place
  number : Nat
  role : Role
  ident : Ident
deriving DecidableEq

namespace Node

/-- The names that are written in the node itself. -/
def named : Node → List (Role × Ident)
  | .statement (.createView name _ _) | .statement (.createTableAs name _ _) =>
    name.parts.map (.created, ·)
  | .cte c => [(.cte, c.name)]
  | .item (.expr _ label) => label.toList.map (.columnAlias, ·)
  | .item (.qualifiedWildcard qualifier _) => qualifier.parts.map (.starQualifier, ·)
  | .join j => j.usingColumns.map (.usingColumn, ·)
  | .table t =>
    (t.name?.elim [] ObjectName.parts).map (.table, ·) ++ t.alias?.toList.map (.tableAlias, ·)
  | .expr ⟨.column c, _⟩ => (c.qualifier ++ [c.name]).map (.column, ·)
  | .expr ⟨.star (some qualifier), _⟩ => qualifier.parts.map (.starQualifier, ·)
  | _ => []

/-- Whether the identifier stands where it is said to stand. -/
def Names (root : Node) (x : Naming) : Prop :=
  ∃ n, root.at? x.place = some n ∧ n.named[x.number]? = some (x.role, x.ident)

/-- Every name in the tree, in walk order. -/
def namings (root : Node) : List Naming :=
  root.places.flatMap fun (place, n) =>
    n.named.zipIdx.map fun ((role, ident), number) => ⟨place, number, role, ident⟩

theorem mem_namings_iff {root : Node} {x : Naming} : x ∈ root.namings ↔ root.Names x := by
  unfold namings Names
  simp only [List.mem_flatMap, List.mem_map, Prod.exists, mem_places_iff,
    List.mem_zipIdx_iff_getElem?]
  constructor
  · rintro ⟨place, n, hn, role, ident, number, hnamed, rfl⟩
    exact ⟨n, hn, hnamed⟩
  · rintro ⟨n, hn, hnamed⟩
    exact ⟨x.place, n, hn, x.role, x.ident, x.number, hnamed, rfl⟩

theorem nodup_namings (root : Node) : root.namings.Nodup := by
  unfold namings
  rw [List.nodup_flatMap]
  constructor
  · intro x _
    -- The names of one node have different numbers.
    refine (nodup_zipIdx x.2.named).map ?_
    rintro ⟨⟨role, ident⟩, number⟩ ⟨⟨role', ident'⟩, number'⟩ h
    cases h
    rfl
  · refine (List.pairwise_map.mp root.nodup_fst_places).imp fun {x y} hxy => ?_
    intro naming hx hy
    obtain ⟨_, -, rfl⟩ := List.mem_map.mp hx
    obtain ⟨_, -, hplace⟩ := List.mem_map.mp hy
    exact hxy (congrArg Naming.place hplace).symm

theorem map_ident_filter_namings (root : Node) (keep : Role → Bool) :
    (root.namings.filter (keep ·.role)).map Naming.ident
      = root.preorder.flatMap fun n => (n.named.filter (keep ·.1)).map Prod.snd := by
  unfold namings
  rw [List.filter_flatMap, List.map_flatMap, ← map_snd_places, List.flatMap_map]
  refine List.flatMap_congr fun x _ => ?_
  conv => rhs; rw [← List.zipIdx_map_fst 0 x.2.named]
  simp only [List.filter_map, List.map_map]
  rfl

/-! ## Aliases of output columns, core by core -/

def label? : Node → Option Ident
  | .item i => i.alias?
  | _ => none

theorem flatMap_label?_children (n : Node) :
    (n.children.flatMap fun m => m.label?.toList) = n.core?.toList.flatMap Rules.columnAliases := by
  cases hcore : n.core? with
  | some c =>
    obtain rfl := eq_of_core? hcore
    have hitems : (c.columns.flatMap fun i => i.alias?.toList) = Rules.columnAliases c :=
      (List.filterMap_eq_flatMap_toList ..).symm
    simp [children, List.flatMap_map, label?, hitems]
  | none =>
    rw [Option.toList_none, List.flatMap_nil, List.flatMap_eq_nil_iff]
    intro m hm
    have hheld := (mem_children_iff n m).mp hm
    cases m with
    | item i =>
      exfalso
      cases n with
      | core c => cases hcore
      | body b => cases b <;> exact hheld
      | table t => cases t <;> exact hheld
      | _ => exact hheld
    | _ => rfl

theorem perm_labels (n : Node) :
    (n.collect label?).Perm (n.label?.toList ++ n.cores.flatMap Rules.columnAliases) := by
  induction n using induction_children with
  | h n ih =>
    have hcores : n.cores = n.core?.toList ++ n.children.flatMap cores := collect_children n
    have hbelow : (n.children.flatMap (·.collect label?)).Perm
        ((n.children.flatMap fun m => m.label?.toList)
          ++ (n.children.flatMap cores).flatMap Rules.columnAliases) := by
      rw [List.flatMap_assoc]
      exact (List.Perm.flatMap_left _ ih).trans (List.flatMap_append_perm ..).symm
    rw [collect_children, hcores, List.flatMap_append, ← flatMap_label?_children]
    exact hbelow.append_left _

end Node

namespace Rules.SpecialChars

/-! ## Roles that are examined -/

def isExamined : Role → Bool
  | .cte | .table | .tableAlias | .column | .columnAlias => true
  | .usingColumn | .starQualifier | .created => false

theorem map_snd_filter_role (r : Role) (is : List Ident) :
    ((is.map (r, ·)).filter (isExamined ·.1)).map Prod.snd = if isExamined r then is else [] := by
  rw [List.filter_map, List.map_map]
  by_cases h : isExamined r <;> simp [h, Function.comp_def]

theorem map_snd_examined (n : Node) :
    (n.named.filter (isExamined ·.1)).map Prod.snd
      = (n.cte?.elim [] fun c => [c.name])
        ++ (n.table?.elim [] fun t => t.name?.elim [] ObjectName.parts ++ t.alias?.toList)
        ++ (n.column?.elim [] fun c => c.value.qualifier ++ [c.value.name])
        ++ n.label?.toList := by
  cases n with
  | statement s =>
    cases s with
    | createView name q span => exact map_snd_filter_role .created name.parts
    | createTableAs name q span => exact map_snd_filter_role .created name.parts
    | _ => rfl
  | item i =>
    cases i with
    | expr e label => exact map_snd_filter_role .columnAlias label.toList
    | wildcard span => rfl
    | qualifiedWildcard qualifier span => exact map_snd_filter_role .starQualifier qualifier.parts
  | join j => exact map_snd_filter_role .usingColumn j.usingColumns
  | table t =>
    simp only [Node.named, List.filter_append, List.map_append, map_snd_filter_role]
    simp [isExamined, Node.cte?, Node.table?, Node.column?, Node.label?]
  | expr e =>
    obtain ⟨kind, span⟩ := e
    cases kind with
    | column c =>
      simp only [Node.named, map_snd_filter_role]
      simp [isExamined, Node.cte?, Node.table?, Node.column?, Node.label?]
    | star qualifier =>
      cases qualifier with
      | none => rfl
      | some name => exact map_snd_filter_role .starQualifier name.parts
    | _ => rfl
  | _ => rfl

theorem perm_identifiers (s : Statement) :
    (identifiers (.statement s)).Perm
      (((Node.statement s).namings.filter (isExamined ·.role)).map Naming.ident) := by
  have hlabels : (Node.statement s).preorder.flatMap (fun n => n.label?.toList)
      = (Node.statement s).collect Node.label? := by
    rw [Node.collect_eq, List.filterMap_eq_flatMap_toList]
  have hctes : (Node.statement s).cteNames
      = (Node.statement s).preorder.flatMap fun n => n.cte?.elim [] fun c => [c.name] := by
    rw [← Node.flatMap_collect, Node.cteNames, List.map_eq_flatMap]
  have haliases : ((Node.statement s).cores.flatMap columnAliases).Perm
      ((Node.statement s).preorder.flatMap fun n => n.label?.toList) := by
    rw [hlabels]
    exact (Node.perm_labels (.statement s)).symm
  unfold identifiers
  rw [Node.map_ident_filter_namings, List.flatMap_congr fun n _ => map_snd_examined n, hctes,
    Node.tables, Node.flatMap_collect, Node.columns, Node.flatMap_collect]
  refine (haliases.append_left _).trans ?_
  refine (((List.flatMap_append_perm ..).append_right _).append_right _).trans ?_
  exact ((List.flatMap_append_perm ..).append_right _).trans (List.flatMap_append_perm ..)

/-! ## Special characters -/

/-- Whether the character may stand in a quoted name. -/
def Plain (allowed : List Char) (c : Char) : Prop :=
  c ∈ allowed ∨ 'A' ≤ c ∧ c ≤ 'Z' ∨ 'a' ≤ c ∧ c ≤ 'z' ∨ '0' ≤ c ∧ c ≤ '9' ∨ c = '_'

def Special (allowed : List Char) (i : Ident) : Prop :=
  i.quoted = true ∧ ∃ c ∈ i.value.toList, ¬ Plain allowed c

/-- What the rule asks of an identifier. -/
def isSpecial (allowed : List Char) (i : Ident) : Bool := i.quoted && hasSpecial allowed i.value

theorem plain_iff (allowed : List Char) (c : Char) :
    (c.isAlphanum || c == '_' || allowed.contains c) = true ↔ Plain allowed c := by
  have hletters : c.isAlphanum = true
      ↔ ('A' ≤ c ∧ c ≤ 'Z' ∨ 'a' ≤ c ∧ c ≤ 'z') ∨ '0' ≤ c ∧ c ≤ '9' := by
    change ((decide ('A' ≤ c ∧ c ≤ 'Z') || decide ('a' ≤ c) && decide (c ≤ 'z'))
      || decide ('0' ≤ c) && decide (c ≤ '9')) = true ↔ _
    simp only [Bool.or_eq_true, Bool.and_eq_true, decide_eq_true_eq]
  unfold Plain
  rw [Bool.or_eq_true, or_comm, List.contains_iff_mem, Bool.or_eq_true, hletters, beq_iff_eq]
  simp only [or_assoc]

theorem isSpecial_iff (allowed : List Char) (i : Ident) :
    isSpecial allowed i = true ↔ Special allowed i := by
  unfold isSpecial hasSpecial Special
  simp only [Bool.and_eq_true, List.any_eq_true, Bool.not_eq_true', ← Bool.not_eq_true, plain_iff]

theorem Special.mono {allowed allowed' : List Char} (hsubset : allowed ⊆ allowed') {i : Ident}
    (hi : Special allowed' i) : Special allowed i := by
  obtain ⟨hquoted, c, hc, hspecial⟩ := hi
  refine ⟨hquoted, c, hc, fun hplain => hspecial ?_⟩
  exact hplain.imp_left fun hallowed => hsubset hallowed

/-! ## What is reported -/

def finding (ctx : Context) (i : Ident) : Diagnostic :=
  ctx.report s!"Identifier '{i.value}' contains special characters." i.span

/-- Whether findings are those of the special names in some roles, one for each. -/
def ReportsEach (s : Statement) (ctx : Context) (roles : Role → Prop) (found : List Diagnostic) :
    Prop :=
  ∃ reported : List Naming, found = reported.map (fun x => finding ctx x.ident) ∧ reported.Nodup
    ∧ ∀ x, x ∈ reported
      ↔ (Node.statement s).Names x ∧ roles x.role ∧ Special (allowed ctx) x.ident

theorem check_eq (s : Statement) (ctx : Context) :
    check s ctx = ((identifiers (.statement s)).filter (isSpecial (allowed ctx))).map (finding ctx) :=
  rfl

theorem reportsEach_examined (s : Statement) (ctx : Context) :
    ReportsEach s ctx (fun r => isExamined r = true) (check s ctx) := by
  have hspecial := (perm_identifiers s).filter (isSpecial (allowed ctx))
  rw [List.filter_map] at hspecial
  obtain ⟨reported, hperm, hidents⟩ := exists_map_of_perm hspecial
  refine ⟨reported, ?_, ?_, fun x => ?_⟩
  · rw [check_eq, ← hidents, List.map_map]
    rfl
  · exact hperm.nodup_iff.mpr (((Node.nodup_namings _).filter _).filter _)
  · rw [hperm.mem_iff, List.mem_filter, List.mem_filter, Node.mem_namings_iff, and_assoc,
      Function.comp_apply, isSpecial_iff]

theorem reportsEach_iff {s : Statement} {ctx : Context} {roles roles' : Role → Prop}
    {found : List Diagnostic} (h : ReportsEach s ctx roles found) (hroles : ∀ r, roles r → roles' r) :
    ReportsEach s ctx roles' found
      ↔ ∀ x, (Node.statement s).Names x → roles' x.role → Special (allowed ctx) x.ident →
        roles x.role := by
  obtain ⟨reported, hfound, hnodup, hmem⟩ := h
  constructor
  · rintro ⟨reported', hfound', hnodup', hmem'⟩ x hx hrole hspecial
    have hlength : reported'.length = reported.length := by
      have hsame := congrArg List.length (hfound'.symm.trans hfound)
      simpa using hsame
    have hsub : reported ⊆ reported' := fun y hy =>
      (hmem' y).mpr ⟨((hmem y).mp hy).1, hroles _ ((hmem y).mp hy).2.1, ((hmem y).mp hy).2.2⟩
    have hperm := (hnodup.subperm hsub).perm_of_length_le (Nat.le_of_eq hlength)
    exact ((hmem x).mp (hperm.mem_iff.mpr ((hmem' x).mpr ⟨hx, hrole, hspecial⟩))).2.1
  · intro hnone
    refine ⟨reported, hfound, hnodup, fun x => (hmem x).trans ⟨?_, ?_⟩⟩
    · rintro ⟨hx, hrole, hspecial⟩
      exact ⟨hx, hroles _ hrole, hspecial⟩
    · rintro ⟨hx, hrole, hspecial⟩
      exact ⟨hx, hnone x hx hrole hspecial, hspecial⟩

/-! ## The option -/

theorem exists_allowed (ctx : Context) (hinfo : ctx.info = info) (chars : List Char) :
    ∃ options, allowed { ctx with options := options } = chars := by
  refine ⟨some [("additional_allowed_characters", .array [.string (.ofList chars)])], ?_⟩
  simp [allowed, Context.option?, hinfo, info, allowedBy, Json.string?]

theorem check_sublist_of_subset (s : Statement) {ctx : Context}
    {options : Option (List (String × Json))}
    (h : allowed ctx ⊆ allowed { ctx with options := options }) :
    (check s { ctx with options := options }).Sublist (check s ctx) := by
  have hspecial : ∀ i, isSpecial (allowed { ctx with options := options }) i = true →
      isSpecial (allowed ctx) i = true := by
    intro i hi
    exact (isSpecial_iff ..).mpr (((isSpecial_iff ..).mp hi).mono h)
  exact (List.monotone_filter_right _ hspecial).map _

/-- A special name is reported once if its role is examined, and otherwise not at all. -/
theorem check_examined (s : Statement) (ctx : Context) :
    ReportsEach s ctx (fun r => isExamined r = true) (check s ctx)
    ∧ (∀ roles : Role → Prop, (∀ r, isExamined r = true → roles r) →
      (ReportsEach s ctx roles (check s ctx)
        ↔ ∀ x, (Node.statement s).Names x → roles x.role → Special (allowed ctx) x.ident →
          isExamined x.role = true))
    ∧ (∀ options, allowed ctx ⊆ allowed { ctx with options := options } →
      (check s { ctx with options := options }).Sublist (check s ctx))
    ∧ (ctx.info = info → ∀ chars, ∃ options, allowed { ctx with options := options } = chars) := by
  have hexamined := reportsEach_examined s ctx
  refine ⟨hexamined, ?_, ?_, exists_allowed ctx⟩
  · intro roles hroles
    exact reportsEach_iff hexamined hroles
  · intro options hallowed
    exact check_sublist_of_subset s hallowed

/-- The identifier in quotes. -/
def inQuotes (name : String) : Ident := { value := name, quoted := true }

/-- `SELECT item FROM table JOIN u USING (column)` -/
def joinedUsing (item table column : Ident) : Statement :=
  let joins : List Join := [⟨.plain, false, bareTable "u", none, [column], .empty⟩]
  .query (.ofCore
    { selecting ⟨.column ⟨[], item⟩, .empty⟩ with
      source := some ⟨.named ⟨[table]⟩ none .empty, joins⟩ })

theorem check_examined_plainUsing :
    let s := joinedUsing (inQuotes "a-b") (inQuotes "t t") { value := "id" }
    let ctx : Context := ⟨info, .generic, .info, none⟩
    let options := some [("additional_allowed_characters", Json.string "-")]
    ReportsEach s ctx (fun _ => True) (check s ctx)
    ∧ (check s ctx).map Diagnostic.message
      = ["Identifier 't t' contains special characters.",
        "Identifier 'a-b' contains special characters."]
    ∧ (check s { ctx with options := options }).map Diagnostic.message
      = ["Identifier 't t' contains special characters."]
    ∧ (check s { ctx with options := options }).Sublist (check s ctx)
    ∧ ∃ options, allowed { ctx with options := options } = ['é', ' '] := by
  intro s ctx options
  obtain ⟨-, hroles, hsublist, hallowed⟩ := check_examined s ctx
  refine ⟨(hroles _ fun _ _ => trivial).mpr ?_, by decide +kernel, by decide +kernel,
    hsublist options (List.nil_subset _), hallowed rfl _⟩
  intro x hx _ hspecial
  by_contra hrole
  have hmem : x ∈ (Node.statement s).namings.filter (!isExamined ·.role) :=
    List.mem_filter.mpr ⟨Node.mem_namings_iff.mpr hx, by simpa using hrole⟩
  have hothers : (Node.statement s).namings.filter (!isExamined ·.role)
      = [⟨[0, 0, 0, 1, 1], 0, .usingColumn, { value := "id" }⟩] := rfl
  rw [hothers, List.mem_singleton] at hmem
  rw [hmem] at hspecial
  exact absurd hspecial.1 Bool.false_ne_true

/-- In `SELECT a FROM t JOIN u USING ("the-id")` nothing is reported. -/
theorem check_specialUsing :
    let s := joinedUsing { value := "a" } { value := "t" } (inQuotes "the-id")
    let ctx : Context := ⟨info, .generic, .info, none⟩
    (Node.statement s).Names ⟨[0, 0, 0, 1, 1], 0, .usingColumn, inQuotes "the-id"⟩
    ∧ Special (allowed ctx) (inQuotes "the-id")
    ∧ check s ctx = []
    ∧ ∀ roles : Role → Prop, roles .usingColumn → ¬ ReportsEach s ctx roles (check s ctx) := by
  intro s ctx
  have hnames : (Node.statement s).Names
      ⟨[0, 0, 0, 1, 1], 0, .usingColumn, inQuotes "the-id"⟩ := ⟨_, rfl, rfl⟩
  have hspecial : Special (allowed ctx) (inQuotes "the-id") :=
    (isSpecial_iff ..).mp (by decide)
  have hnothing : check s ctx = [] := rfl
  refine ⟨hnames, hspecial, hnothing, ?_⟩
  rintro roles hrole ⟨reported, hfound, -, hmem⟩
  rw [hnothing] at hfound
  have hreported := (hmem _).mpr ⟨hnames, hrole, hspecial⟩
  rw [List.map_eq_nil_iff.mp hfound.symm] at hreported
  exact absurd hreported List.not_mem_nil

end Rules.SpecialChars
end SqlLint
