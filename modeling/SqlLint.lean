import SqlLint.Binary64.Basic
import SqlLint.Binary64.Shortest
import SqlLint.Catalog
import SqlLint.Config
import SqlLint.Diagnostic
import SqlLint.Dialect
import SqlLint.Json.Basic
import SqlLint.Json.Decode
import SqlLint.Json.Document
import SqlLint.Json.Member
import SqlLint.Json.Numeral
import SqlLint.Json.Printer
import SqlLint.KeyMap
import SqlLint.LintSql
import SqlLint.Linter
import SqlLint.ParseError
import SqlLint.Parsed.Basic
import SqlLint.Parsed.Lower
import SqlLint.Parsed.Reader
import SqlLint.Proofs.Catalog
import SqlLint.Registry
import SqlLint.Rose
import SqlLint.Rule
import SqlLint.Rules.Aliasing
import SqlLint.Rules.Ambiguous
import SqlLint.Rules.Constant
import SqlLint.Rules.Convention
import SqlLint.Rules.JoinOrder
import SqlLint.Rules.References
import SqlLint.Rules.Structure
import SqlLint.Span
import SqlLint.Text.Blank
import SqlLint.Text.Capital
import SqlLint.Text.Digit
import SqlLint.Text.Letters
import SqlLint.Text.Search
import SqlLint.Tree.Access
import SqlLint.Tree.Basic
import SqlLint.Tree.Collect
import SqlLint.Tree.Equality
import SqlLint.Tree.Equivalence
import SqlLint.Tree.Name
import SqlLint.Tree.Node
import SqlLint.Tree.Reserved
import SqlLint.Proofs.Places
import SqlLint.Proofs.Walk
import SqlLint.Proofs.Chains
import SqlLint.Proofs.Operands
import SqlLint.Proofs.UnusedCte
import SqlLint.Proofs.Recast.Collect
import SqlLint.Proofs.Indifference.Lens
import SqlLint.Proofs.Indifference.Rules
import SqlLint.Proofs.Indifference.Findings
import SqlLint.Proofs.Registry
import SqlLint.Proofs.Restriction
import SqlLint.Proofs.Isolation
import SqlLint.Proofs.Coherence
import SqlLint.Proofs.Lookup
import SqlLint.Proofs.Respelling
import SqlLint.Proofs.Embedding
import SqlLint.Proofs.Options
import SqlLint.Proofs.Inert
import SqlLint.Proofs.Outside
import SqlLint.Proofs.Placement
import SqlLint.Proofs.Scopes
import SqlLint.Proofs.WellFormed
import SqlLint.Proofs.Levels
import SqlLint.Proofs.Tables
import SqlLint.Proofs.LoweredQueries
import SqlLint.Proofs.Flattening
import SqlLint.Proofs.Trailing
import SqlLint.Proofs.Aliases
import SqlLint.Proofs.JoinConditions
import SqlLint.Proofs.JoinSides
import SqlLint.Proofs.DerivedTables
import SqlLint.Proofs.Wildcards
import SqlLint.Proofs.Parentheses
import SqlLint.Proofs.StandAlone
import SqlLint.Proofs.CaseNesting
import SqlLint.Proofs.AliasUse
import SqlLint.Proofs.ConstantConditions
import SqlLint.Proofs.Shells
import SqlLint.Proofs.ConditionSequence
import SqlLint.Proofs.Equivalence
import SqlLint.Proofs.Styles
import SqlLint.Proofs.RepeatedNames
import SqlLint.Proofs.DanglingQualifiers
import SqlLint.Proofs.NamedIdentifiers
import SqlLint.Proofs.FirstFind
import SqlLint.Proofs.Branches
import SqlLint.Proofs.Positions
import SqlLint.Proofs.ErrorKinds
import SqlLint.Proofs.Numerals
import SqlLint.Proofs.JsonText
import SqlLint.Proofs.DiagnosticText
import SqlLint.Proofs.SpanUnion
