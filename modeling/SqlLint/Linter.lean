import SqlLint.Config

/-! # The linter

A linter runs the enabled rules of a registry over a statement, one after the other, and puts their
findings together in the order of registration. A rule that fails adds nothing. -/

namespace SqlLint

/-- A registry of rules, and the configuration that selects from it. -/
structure Linter where
  registry : Registry
  config : Config

namespace Linter

/-- The rules that run, in the order of registration. -/
def enabledRules (l : Linter) : List Rule := l.registry.rules.filter (l.config.enables ·.info)

/-- The findings of one rule, each with a page that documents it. -/
def runRule (l : Linter) (statement : Statement) (dialect : Dialect) (rule : Rule) :
    List Diagnostic :=
  ((rule.check statement (l.config.contextFor dialect rule.info)).getD []).map
    Diagnostic.documented

/-- The findings of all enabled rules in a statement. -/
def check (l : Linter) (statement : Statement) (dialect : Dialect) : List Diagnostic :=
  l.enabledRules.flatMap (l.runRule statement dialect)

/-- The findings in several statements, each with the index of its statement. -/
def checkAll (l : Linter) (statements : List Statement) (dialect : Dialect) : List Diagnostic :=
  statements.zipIdx.flatMap fun (statement, index) =>
    (l.check statement dialect).map (·.withStatement index)

end Linter
end SqlLint
