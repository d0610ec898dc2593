import SqlLint.Rules.Aliasing
import SqlLint.Text.Blank
import SqlLint.Tree.Reserved

/-! # Rules on references and identifiers -/

namespace SqlLint.Rules

/-! ## Qualifiers that name no table -/

namespace ReferencesFrom

def info : RuleInfo where
  code := "LINT_RF_001"
  name := "references.from"
  group := .references
  description := "Qualified references should refer to a table or alias in FROM."
  defaultSeverity := .warning
  configKeys := []

/-- The names by which tables can be reached: an alias does not hide the name of its table. -/
def knownNames (root : Node) : List String :=
  root.referenceNames.map Ident.key
    ++ (root.tables.filterMap fun t => t.name? >>= ObjectName.base?).map Ident.key

/-- Whether a reference has a qualifier of which no part is known. -/
def isDangling (known : List String) (c : ColumnRef) : Bool :=
  c.isQualified && !c.qualifier.any (known.contains ·.key)

def message (c : ColumnRef) : String :=
  let qualifier := c.table?.elim "" Ident.value
  s!"Reference '{c.text}' uses qualifier '{qualifier}', which matches no table or alias in the "
    ++ "statement."

def check (s : Statement) (ctx : Context) : List Diagnostic :=
  let root := Node.statement s
  if root.tables.isEmpty then []
  else
    let known := knownNames root
    (root.columns.filter (isDangling known ·.value)).map fun c =>
      ctx.report (message c.value) c.span

end ReferencesFrom

/-- The references of a core that can mean a column of its tables: a bare name that is also an alias
of an output column means that column. -/
def tableColumns (core : Core) : List (Located ColumnRef) :=
  let aliases := (columnAliases core).map Ident.key
  core.scopeColumns.filter fun c => c.value.isQualified || !aliases.contains c.value.name.key

/-! ## Bare names beside several tables -/

namespace Qualification

def info : RuleInfo where
  code := "LINT_RF_002"
  name := "references.qualification"
  group := .references
  description := "References should be qualified if select has more than one referenced table."
  defaultSeverity := .info
  configKeys := []

def message (c : ColumnRef) : String :=
  s!"Unqualified reference '{c.name.value}' found in a select with multiple tables."

def check (s : Statement) (ctx : Context) : List Diagnostic :=
  ((Node.statement s).cores.filter (1 < ·.tables.length)).flatMap fun core =>
    ((tableColumns core).filter (!·.value.isQualified)).map fun c =>
      ctx.report (message c.value) c.span

end Qualification

/-! ## Bare and qualified names beside one table -/

namespace Consistency

def info : RuleInfo where
  code := "LINT_RF_003"
  name := "references.consistent"
  group := .references
  description := "Avoid mixing qualified and unqualified references."
  defaultSeverity := .info
  configKeys := ["single_table_references"]

/-- How the columns of a single table have to be named. -/
inductive Style where
  /-- As the first of them is named. -/
  | consistent
  | qualified
  | unqualified
deriving DecidableEq, Repr

def style (ctx : Context) : Style :=
  ctx.choice "single_table_references" .consistent
    [("qualified", .qualified), ("unqualified", .unqualified)]

/-- A fixed style is asked of every reference; consistency is lost at the first that differs from
the first of all. -/
def checkColumns (ctx : Context) (style : Style) (columns : List (Located ColumnRef)) :
    List Diagnostic :=
  match style with
  | .consistent =>
    match columns with
    | [] => []
    | first :: _ =>
      (columns.find? (·.value.isQualified != first.value.isQualified)).toList.map fun c =>
        ctx.report "Avoid mixing qualified and unqualified references." c.span
  | .qualified =>
    (columns.filter (!·.value.isQualified)).map fun c =>
      ctx.report s!"Reference '{c.value.name.value}' should be qualified with its table name."
        c.span
  | .unqualified =>
    (columns.filter (·.value.isQualified)).map fun c =>
      ctx.report s!"Reference '{c.value.text}' should not be qualified in a single-table select."
        c.span

def check (s : Statement) (ctx : Context) : List Diagnostic :=
  let style := style ctx
  ((Node.statement s).cores.filter (·.tables.length == 1)).flatMap fun core =>
    checkColumns ctx style (tableColumns core)

end Consistency

/-! ## Reserved words as names -/

namespace Keywords

def info : RuleInfo where
  code := "LINT_RF_004"
  name := "references.keywords"
  group := .references
  description := "Avoid using SQL keywords as identifiers."
  defaultSeverity := .info
  configKeys := []

/-- The names that the statement gives, each with what it names. -/
def candidates (root : Node) : List (Ident × String) :=
  root.cteNames.map (·, "CTE name")
    ++ (root.tables.filterMap TableRef.alias?).map (·, "Table alias")
    ++ (root.cores.flatMap columnAliases).map (·, "Column alias")

def check (s : Statement) (ctx : Context) : List Diagnostic :=
  ((candidates (.statement s)).filter fun (i, _) => !i.quoted && isReserved i.value).map
    fun (i, kind) =>
      ctx.report s!"{kind} '{i.value}' is a reserved keyword; choose another name or quote it."
        i.span

end Keywords

/-! ## Special characters in quoted names -/

namespace SpecialChars

def info : RuleInfo where
  code := "LINT_RF_005"
  name := "references.special_chars"
  group := .references
  description := "Avoid special characters in identifiers."
  defaultSeverity := .info
  configKeys := ["additional_allowed_characters"]

/-- The characters that an option allows: the characters of the texts of a list, or those of a text,
where commas and the blanks around them only divide. -/
def allowedBy : Json → List Char
  | .string text => (Text.pieces (· == ',') text.toList).flatMap Text.trimmed
  | .array items => (items.filterMap Json.string?).flatMap String.toList
  | _ => []

def allowed (ctx : Context) : List Char :=
  (ctx.option? "additional_allowed_characters").elim [] allowedBy

/-- Whether a name has a character that is no ASCII letter or digit, no underscore, and not
allowed. -/
def hasSpecial (allowed : List Char) (name : String) : Bool :=
  name.toList.any fun c => !(c.isAlphanum || c == '_' || allowed.contains c)

/-- The identifiers that name a common table expression, a table, a column or an alias. -/
def identifiers (root : Node) : List Ident :=
  root.cteNames
    ++ root.tables.flatMap (fun t => t.name?.elim [] ObjectName.parts ++ t.alias?.toList)
    ++ root.columns.flatMap (fun c => c.value.qualifier ++ [c.value.name])
    ++ root.cores.flatMap columnAliases

def check (s : Statement) (ctx : Context) : List Diagnostic :=
  let allowed := allowed ctx
  ((identifiers (.statement s)).filter fun i => i.quoted && hasSpecial allowed i.value).map fun i =>
    ctx.report s!"Identifier '{i.value}' contains special characters." i.span

end SpecialChars

end SqlLint.Rules
