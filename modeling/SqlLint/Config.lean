import SqlLint.KeyMap
import SqlLint.Registry

/-! # Configurations

A configuration says which rules run, with which options and with which severity. Rules are named by
code or by name, in any letter case. -/

namespace SqlLint

/-- Which rules run, and how. -/
structure Config where
  /-- Whether anything runs at all. -/
  enabled : Bool
  /-- Rules that do not run, whatever else is said. -/
  disabledRules : List String
  /-- Rules that run even though their group is off. -/
  enabledRules : List String
  /-- Groups whose rules are off unless enabled one by one. -/
  disabledGroups : List RuleGroup
  ruleConfigs : KeyMap Json
  /-- The severities that replace the default of rules. -/
  ruleSeverities : KeyMap Severity

/-- Why a configuration is refused. -/
inductive ConfigError where
  /-- It names a rule that is not registered. -/
  | unknownRule (reference : String)
deriving DecidableEq, Repr

def ConfigError.message : ConfigError → String
  | .unknownRule reference => s!"unknown rule '{reference}' in lint configuration"

namespace Config

/-- Every rule runs as it is. -/
def standard : Config := ⟨true, [], [], [], .empty, .empty⟩

/-- Whether a configuration says nothing that the standard one does not say. -/
def isStandard (c : Config) : Bool :=
  c.enabled && c.disabledRules.isEmpty && c.enabledRules.isEmpty && c.disabledGroups.isEmpty
    && c.ruleConfigs.isEmpty && c.ruleSeverities.isEmpty

/-- Whether a rule runs: the main switch comes first, then the disabled rules, then the enabled
rules, then the groups. -/
def enables (c : Config) (info : RuleInfo) : Bool :=
  c.enabled && !c.disabledRules.any info.isNamedBy
    && (c.enabledRules.any info.isNamedBy || !c.disabledGroups.contains info.group)

/-- The options of a rule. Of several keys that name it the first in order counts, also if its value
is no object. -/
def optionsFor (c : Config) (info : RuleInfo) : Option (List (String × Json)) :=
  c.ruleConfigs.findKey? info.isNamedBy >>= Json.object?

/-- The severity of a rule: of several keys that name it the first in order counts. -/
def severityFor (c : Config) (info : RuleInfo) : Severity :=
  (c.ruleSeverities.findKey? info.isNamedBy).getD info.defaultSeverity

def contextFor (c : Config) (dialect : Dialect) (info : RuleInfo) : Context where
  info := info
  dialect := dialect
  severity := c.severityFor info
  options := c.optionsFor info

/-- Every reference to a rule, in the order in which they are looked up. -/
def references (c : Config) : List String :=
  c.disabledRules ++ c.enabledRules ++ c.ruleConfigs.keys ++ c.ruleSeverities.keys

/-- Refuses the first reference that names no rule of the registry. -/
def validate (c : Config) (registry : Registry) : Except ConfigError Unit :=
  match c.references.find? fun reference => (registry.get? reference).isNone with
  | some reference => .error (.unknownRule reference)
  | none => .ok ()

/-! ## JSON form -/

def decodeGroup : Document → Option RuleGroup :=
  Document.oneOf? (RuleGroup.all.map fun g => (g.name, g))

/-- The depth left for an option: two levels stand around it. -/
def optionDepth : Nat := depthLimit - 2

/-- The configuration that a document describes. Every field may be left out. -/
def decode (d : Document) : Option Config := do
  let fields ← d.record? ["enabled", "disabledRules", "enabledRules", "disabledGroups",
    "ruleConfigs", "ruleSeverities"]
  let texts := Document.listOf? Document.text?
  return {
    enabled := ← fields.default? "enabled" true Document.bool?
    disabledRules := ← fields.default? "disabledRules" [] texts
    enabledRules := ← fields.default? "enabledRules" [] texts
    disabledGroups := ← fields.default? "disabledGroups" [] (Document.listOf? decodeGroup)
    ruleConfigs := .ofList (← fields.default? "ruleConfigs" []
      (Document.membersOf? (Document.value optionDepth)))
    ruleSeverities := .ofList (← fields.default? "ruleSeverities" []
      (Document.membersOf? Severity.decode)) }

def parse? (text : String) : Option Config := do decode (← Document.parse? text)

/-- A member for a list that is not empty. -/
def listMember? (key : String) (f : α → Json) (items : List α) : List (String × Json) :=
  if items.isEmpty then [] else [(key, .array (items.map f))]

/-- A member for a map that is not empty. -/
def mapMember? (key : String) (f : α → Json) (map : KeyMap α) : List (String × Json) :=
  if map.isEmpty then [] else [(key, .object (map.entries.map fun e => (e.1, f e.2)))]

/-- The JSON form of a configuration. What is empty has no member. -/
def toJson (c : Config) : Json :=
  .object <| [("enabled", .bool c.enabled)]
    ++ listMember? "disabledRules" Json.string c.disabledRules
    ++ listMember? "enabledRules" Json.string c.enabledRules
    ++ listMember? "disabledGroups" (fun g : RuleGroup => .string g.name) c.disabledGroups
    ++ mapMember? "ruleConfigs" id c.ruleConfigs
    ++ mapMember? "ruleSeverities" (fun s : Severity => .string s.name) c.ruleSeverities

end Config
end SqlLint
