import SqlLint.Text.Letters

/-! # Reserved words -/

namespace SqlLint

/-- The keywords that should not name anything. -/
def reservedWords : List String :=
  ["ALL", "AND", "ANY", "AS", "ASC", "BETWEEN", "BY", "CASE", "CAST", "CHECK", "COLUMN",
    "CONSTRAINT", "CREATE", "CROSS", "CURRENT", "DATE", "DEFAULT", "DELETE", "DESC", "DISTINCT",
    "DROP", "ELSE", "END", "EXCEPT", "EXISTS", "FALSE", "FETCH", "FOR", "FOREIGN", "FROM", "FULL",
    "GRANT", "GROUP", "HAVING", "IN", "INNER", "INSERT", "INTERSECT", "INTERVAL", "INTO", "IS",
    "JOIN", "KEY", "LATERAL", "LEFT", "LIKE", "LIMIT", "NATURAL", "NOT", "NULL", "OFFSET", "ON",
    "OR", "ORDER", "OUTER", "OVER", "PARTITION", "PRIMARY", "QUALIFY", "REFERENCES", "RIGHT",
    "ROW", "ROWS", "SELECT", "SET", "TABLE", "THEN", "TIME", "TIMESTAMP", "TO", "TRUE", "UNION",
    "UNIQUE", "UPDATE", "USER", "USING", "VALUES", "WHEN", "WHERE", "WINDOW", "WITH"]

/-- Whether a word is reserved, in any letter case. -/
def isReserved (word : String) : Bool := reservedWords.contains (Text.upper word)

end SqlLint
