import SqlLint.Catalog
import SqlLint.Proofs.Registry

/-! # The built-in rules form a registry

No two built-in rules share a code or a name, so the built-in registry holds all of them in their
order. -/

namespace SqlLint

theorem Rule.distinct_builtinRules : Rule.Distinct builtinRules where
  codes := by decide +kernel
  names := by decide +kernel

theorem Registry.rules_builtin : Registry.builtin.rules = builtinRules := by
  have h := isOk_ofRules_iff.2 Rule.distinct_builtinRules
  unfold builtin
  cases hr : Registry.ofRules builtinRules with
  | error e => rw [hr] at h; cases h
  | ok r => exact rules_ofRules hr

theorem Linter.enabledRules_builtin (config : Config) :
    (Linter.builtin config).enabledRules = builtinRules.filter (config.enables ·.info) := by
  unfold enabledRules builtin
  rw [Registry.rules_builtin]

end SqlLint
