/-! # Dialects of SQL

The dialects a statement may be written in, and which constructs each of them accepts. -/

namespace SqlLint

inductive Dialect where
  | generic
  | ansi
  | bigquery
  | clickhouse
  | databricks
  | duckdb
  | hive
  | mssql
  | mysql
  | postgres
  | redshift
  | snowflake
  | sqlite
deriving DecidableEq, Repr, Inhabited

/-- A construct that only some dialects have. -/
inductive Feature where
  /-- A cast written `expr::type`. -/
  | doubleColonCast
  /-- A cast written `TRY_CAST(expr AS type)`. -/
  | tryCast
  /-- A cast written `SAFE_CAST(expr AS type)`. -/
  | safeCast
  /-- The `QUALIFY` clause. -/
  | qualify
  /-- Derived tables marked `LATERAL`. -/
  | lateralJoin
  /-- The operator `ILIKE`. -/
  | ilike
  /-- An aggregate with `FILTER (WHERE ...)`. -/
  | aggregateFilter
  /-- A function written `x -> expr`. -/
  | lambda
  /-- A literal written `STRUCT(...)`. -/
  | structLiteral
deriving DecidableEq, Repr, Inhabited

namespace Feature

def name : Feature → String
  | .doubleColonCast => "double_colon_cast"
  | .tryCast => "try_cast"
  | .safeCast => "safe_cast"
  | .qualify => "qualify"
  | .lateralJoin => "lateral_join"
  | .ilike => "ilike"
  | .aggregateFilter => "aggregate_filter"
  | .lambda => "lambda"
  | .structLiteral => "struct_literal"

def all : List Feature :=
  [.doubleColonCast, .tryCast, .safeCast, .qualify, .lateralJoin, .ilike, .aggregateFilter,
    .lambda, .structLiteral]

def ofName? (name : String) : Option Feature := all.find? (·.name == name)

end Feature

namespace Dialect

def all : List Dialect :=
  [.generic, .ansi, .bigquery, .clickhouse, .databricks, .duckdb, .hive, .mssql, .mysql, .postgres,
    .redshift, .snowflake, .sqlite]

/-- The name in configurations and requests. -/
def name : Dialect → String
  | .generic => "generic"
  | .ansi => "ansi"
  | .bigquery => "bigquery"
  | .clickhouse => "clickhouse"
  | .databricks => "databricks"
  | .duckdb => "duckdb"
  | .hive => "hive"
  | .mssql => "mssql"
  | .mysql => "mysql"
  | .postgres => "postgres"
  | .redshift => "redshift"
  | .snowflake => "snowflake"
  | .sqlite => "sqlite"

/-- The name in the text of an error. -/
def title : Dialect → String
  | .generic => "Generic"
  | .ansi => "Ansi"
  | .bigquery => "Bigquery"
  | .clickhouse => "Clickhouse"
  | .databricks => "Databricks"
  | .duckdb => "Duckdb"
  | .hive => "Hive"
  | .mssql => "Mssql"
  | .mysql => "Mysql"
  | .postgres => "Postgres"
  | .redshift => "Redshift"
  | .snowflake => "Snowflake"
  | .sqlite => "Sqlite"

def ofName? (name : String) : Option Dialect := all.find? (·.name == name)

/-- The dialects that have a construct, besides the generic one. -/
def withFeature : Feature → List Dialect
  | .doubleColonCast => [.postgres, .redshift, .snowflake, .duckdb, .databricks, .clickhouse]
  | .tryCast => [.mssql, .snowflake, .duckdb, .databricks]
  | .safeCast => [.bigquery]
  | .qualify => [.snowflake, .bigquery, .databricks, .duckdb]
  | .lateralJoin => [.postgres, .snowflake, .mysql, .duckdb, .databricks]
  | .ilike => [.postgres, .snowflake, .duckdb, .redshift, .clickhouse]
  | .aggregateFilter => [.postgres, .sqlite, .duckdb]
  | .lambda => [.duckdb, .databricks, .clickhouse]
  | .structLiteral => [.bigquery, .duckdb, .databricks]

/-- Whether the dialect has a construct. The generic dialect has them all. -/
def supports (d : Dialect) (f : Feature) : Bool := d == .generic || (withFeature f).contains d

theorem ofName?_name (d : Dialect) : ofName? d.name = some d := by
  cases d <;> decide

end Dialect
end SqlLint
