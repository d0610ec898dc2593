import SqlLint.Catalog
import SqlLint.ParseError
import SqlLint.Parsed.Lower

/-! # From SQL text to findings

The parser itself is given: it takes a dialect and answers for the text at hand with statements or
with a failure. -/

namespace SqlLint

/-- What a parser makes of one text in each dialect. -/
abbrev Parser := Dialect → Except Failure (List Parsed.Statement)

/-- Whether a text has an operator that the generic dialect lacks and Postgres has. -/
def looksLikePostgres (sql : String) : Bool :=
  ["::", "->", "?|", "?&"].any (Text.contains sql)

/-- The statements of a text. A generic text that fails and looks like Postgres is tried as such; if
that fails too, the first failure is reported. -/
def parseSql (parser : Parser) (sql : String) (dialect : Dialect) :
    Except ParseError (List Statement) :=
  match parser dialect with
  | .ok statements => .ok (statements.map Lower.statement)
  | .error failure =>
    let error := (ParseError.ofFailure failure).withDialect dialect
    if dialect == .generic && looksLikePostgres sql then
      match parser .postgres with
      | .ok statements => .ok (statements.map Lower.statement)
      | .error _ => .error error
    else .error error

/-- The findings of the built-in rules in all statements of a text. -/
def lintSql (parser : Parser) (sql : String) (dialect : Dialect) (config : Config) :
    Except ParseError (List Diagnostic) :=
  (parseSql parser sql dialect).map fun statements =>
    (Linter.builtin config).checkAll statements dialect

end SqlLint
