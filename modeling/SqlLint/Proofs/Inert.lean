import Mathlib.Logic.Relation
import SqlLint.Proofs.Options
import SqlLint.Proofs.Respelling

/-! # Entries of a configuration that nothing reads

An entry that names no rule is not heeded, and neither is an option that its rule does not declare.
Main statement: `check_inert`, any number of such changes leaves the findings as they are. -/

namespace SqlLint

/-! ## Inert changes -/

/-- One change of a configuration that concerns no built-in rule: an entry more that names none, or
an option object with the same values for all that its rule declares. -/
inductive Config.InertEdit (c : Config) : Config → Prop where
  | disabledRule {before after : List String} {reference : String}
      (hc : c.disabledRules = before ++ after) (hunknown : ¬Rule.Known builtinRules reference) :
      InertEdit c { c with disabledRules := before ++ reference :: after }
  | enabledRule {before after : List String} {reference : String}
      (hc : c.enabledRules = before ++ after) (hunknown : ¬Rule.Known builtinRules reference) :
      InertEdit c { c with enabledRules := before ++ reference :: after }
  | ruleConfig {key : String} (value : Json) (hunknown : ¬Rule.Known builtinRules key) :
      InertEdit c { c with ruleConfigs := c.ruleConfigs.insert key value }
  | ruleSeverity {key : String} (severity : Severity) (hunknown : ¬Rule.Known builtinRules key) :
      InertEdit c { c with ruleSeverities := c.ruleSeverities.insert key severity }
  | options {key : String} {rule : Rule} {members others : List (String × Json)}
      (hrule : rule ∈ builtinRules) (hnamed : rule.info.isNamedBy key = true)
      (hc : c.ruleConfigs.get? key = some (.object members))
      (hdeclared : ∀ option ∈ rule.info.configKeys, others.lookup option = members.lookup option) :
      InertEdit c { c with ruleConfigs := c.ruleConfigs.insert key (.object others) }

theorem Rule.isNamedBy_of_not_known {rule : Rule} {reference : String} (hrule : rule ∈ builtinRules)
    (hunknown : ¬Known builtinRules reference) : rule.info.isNamedBy reference = false :=
  Bool.eq_false_iff.2 fun hnamed => hunknown ⟨rule, hrule, hnamed⟩

namespace Config

variable {c d : Config} {rule : Rule}

theorem any_isNamedBy_of_not_known {before after : List String} {reference : String}
    (hrule : rule ∈ builtinRules) (hunknown : ¬Rule.Known builtinRules reference) :
    (before ++ reference :: after).any rule.info.isNamedBy
      = (before ++ after).any rule.info.isNamedBy := by
  rw [List.any_append, List.any_append, List.any_cons,
    Rule.isNamedBy_of_not_known hrule hunknown, Bool.false_or]

theorem InertEdit.enables (h : c.InertEdit d) (hrule : rule ∈ builtinRules) :
    d.enables rule.info = c.enables rule.info := by
  cases h with
  | disabledRule hc hunknown =>
    simp only [Config.enables, hc, any_isNamedBy_of_not_known hrule hunknown]
  | enabledRule hc hunknown =>
    simp only [Config.enables, hc, any_isNamedBy_of_not_known hrule hunknown]
  | ruleConfig value hunknown => rfl
  | ruleSeverity severity hunknown => rfl
  | options hnamedRule hnamed hc hdeclared => rfl

theorem InertEdit.severityFor (h : c.InertEdit d) (hrule : rule ∈ builtinRules) :
    d.severityFor rule.info = c.severityFor rule.info := by
  cases h with
  | ruleSeverity severity hunknown =>
    unfold Config.severityFor
    rw [KeyMap.findKey?_insert_of_not (Rule.isNamedBy_of_not_known hrule hunknown)]
  | disabledRule hc hunknown => rfl
  | enabledRule hc hunknown => rfl
  | ruleConfig value hunknown => rfl
  | options hnamedRule hnamed hc hdeclared => rfl

theorem InertEdit.optionsFor (h : c.InertEdit d) (hrule : rule ∈ builtinRules) :
    d.optionsFor rule.info = c.optionsFor rule.info
      ∨ ∃ members others, c.optionsFor rule.info = some members
        ∧ d.optionsFor rule.info = some others
        ∧ ∀ option ∈ rule.info.configKeys, others.lookup option = members.lookup option := by
  unfold Config.optionsFor
  cases h with
  | ruleConfig value hunknown =>
    rw [KeyMap.findKey?_insert_of_not (Rule.isNamedBy_of_not_known hrule hunknown)]
    exact .inl rfl
  | options hnamedRule hnamed hc hdeclared =>
    rename_i key named members others
    rcases KeyMap.findKey?_insert_of_get? rule.info.isNamedBy hc (.object others)
      with hsame | ⟨hkey, hold, hnew⟩
    · exact .inl (congrArg (· >>= Json.object?) hsame)
    · -- The key names one rule only.
      obtain rfl : rule = named :=
        Rule.unambiguous_builtinRules key rule hrule named hnamedRule hkey hnamed
      refine .inr ⟨members, others, ?_, ?_, hdeclared⟩
      · rw [hold]
        rfl
      · rw [hnew]
        rfl
  | disabledRule hc hunknown => exact .inl rfl
  | enabledRule hc hunknown => exact .inl rfl
  | ruleSeverity severity hunknown => exact .inl rfl

theorem InertEdit.agrees (h : c.InertEdit d) (hrule : rule ∈ builtinRules) (dialect : Dialect) :
    (d.contextFor dialect rule.info).Agrees (c.contextFor dialect rule.info) where
  info := rfl
  dialect := rfl
  severity := h.severityFor hrule
  option? := by
    funext option
    unfold Context.option? contextFor
    by_cases hmem : option ∈ rule.info.configKeys
    · rcases h.optionsFor hrule with hsame | ⟨members, others, hold, hnew, hdeclared⟩
      · simp only [hsame]
      · simp only [hold, hnew, Option.bind_eq_bind, Option.bind_some, hdeclared option hmem]
    · simp only [List.contains_eq_mem, hmem, decide_false, Bool.false_eq_true, if_false]

end Config

/-! ## The findings -/

namespace Linter

variable {config other : Config}

theorem check_inertEdit (h : config.InertEdit other) (s : Statement) (dialect : Dialect) :
    (Linter.builtin other).check s dialect = (Linter.builtin config).check s dialect := by
  unfold check
  rw [enabledRules_builtin, enabledRules_builtin,
    List.filter_congr fun rule hrule => h.enables hrule]
  refine List.flatMap_congr fun rule hrule => ?_
  have hmem : rule ∈ builtinRules := List.mem_of_mem_filter hrule
  have hcheck := Rules.heeds_builtinRules rule hmem s _ _ (h.agrees hmem dialect)
  exact congrArg (List.map Diagnostic.documented) hcheck

/-- Entries for no built-in rule and options that are not declared have no effect. -/
theorem check_inert (h : Relation.ReflTransGen Config.InertEdit config other) (s : Statement)
    (dialect : Dialect) :
    (Linter.builtin other).check s dialect = (Linter.builtin config).check s dialect := by
  induction h with
  | refl => rfl
  | tail _ hedit ih => rw [check_inertEdit hedit, ih]

end Linter

/-! ## A configuration with misspelled references -/

instance (reference : String) : Decidable (Rule.Known builtinRules reference) :=
  inferInstanceAs (Decidable (∃ rule ∈ builtinRules, _))

/-- Of the rules on aliases only one runs. -/
def aliasConfig (disabled enabled : List String) (configs : KeyMap Json)
    (severities : KeyMap Severity) : Config :=
  ⟨true, disabled, enabled, [.aliasing], configs, severities⟩

/-- Short aliases are errors. -/
def tidyConfig : Config :=
  aliasConfig [] ["lint_al_004"]
    (.ofList [("aliasing.length", .object [("min_alias_length", .nat 2)])])
    (.ofList [("aliasing.length", .error)])

/-- The same with an option that is not declared and with references that name no rule, two of which
come first in their maps. -/
def clutteredConfig : Config :=
  aliasConfig ["AL_004"] ["lint_al_004", "AL_004"]
    ((tidyConfig.ruleConfigs.insert "AL_004" .null).insert "aliasing.length"
      (.object (Json.put "minAliasLength" (.nat 0) [("min_alias_length", .nat 2)])))
    (tidyConfig.ruleSeverities.insert "AL_004" .hint)

theorem tidyConfig_inertEdits :
    Relation.ReflTransGen Config.InertEdit tidyConfig clutteredConfig := by
  have hunknown : ¬Rule.Known builtinRules "AL_004" := by decide +kernel
  have hdisabled : tidyConfig.InertEdit
      (aliasConfig ["AL_004"] ["lint_al_004"] tidyConfig.ruleConfigs tidyConfig.ruleSeverities) :=
    .disabledRule (show _ = [] ++ [] from rfl) hunknown
  have henabled : (aliasConfig ["AL_004"] ["lint_al_004"] tidyConfig.ruleConfigs
      tidyConfig.ruleSeverities).InertEdit (aliasConfig ["AL_004"] ["lint_al_004", "AL_004"]
        tidyConfig.ruleConfigs tidyConfig.ruleSeverities) :=
    .enabledRule (show _ = ["lint_al_004"] ++ [] from rfl) hunknown
  have hmember : .total Rules.AliasLength.info Rules.AliasLength.check ∈ builtinRules :=
    List.mem_of_getElem? (show builtinRules[3]? = _ from rfl)
  have hoptions : (tidyConfig.ruleConfigs.insert "AL_004" .null).get? "aliasing.length"
      = some (.object [("min_alias_length", .nat 2)]) := rfl
  refine .head hdisabled (.head henabled (.head (.ruleConfig .null hunknown)
    (.head (.ruleSeverity .hint hunknown) (.single (.options hmember ?_ hoptions ?_)))))
  · decide +kernel
  · intro option hdeclared
    refine Json.lookup_put_of_ne ?_ _ _
    rintro rfl
    exact absurd hdeclared (by decide)

theorem Linter.check_clutteredConfig :
    Relation.ReflTransGen Config.InertEdit tidyConfig clutteredConfig
      ∧ clutteredConfig.ruleSeverities.entries
        = [("AL_004", Severity.hint), ("aliasing.length", .error)]
      ∧ clutteredConfig.enables Rules.AliasLength.info = true
      ∧ clutteredConfig.severityFor Rules.AliasLength.info = .error
      ∧ (Linter.builtin clutteredConfig).check valuesUnion .generic
        = (Linter.builtin tidyConfig).check valuesUnion .generic :=
  ⟨tidyConfig_inertEdits, rfl, by decide +kernel, by decide +kernel,
    check_inert tidyConfig_inertEdits valuesUnion .generic⟩

end SqlLint
