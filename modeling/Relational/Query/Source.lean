import Relational.Table

/-!
# Sources

A query refers to a table, under an alias or under the table's own name. The rows of a query are
rows of several tables at once: for each table the name in use and the row.
-/

namespace Relational

/-- A row of each table, under the names in use. -/
abbrev JoinedRow := SortedMap String Row

/-- Rows of a query under their identities. -/
abbrev JoinedRows := SortedMap RowId JoinedRow

/-- A table that a query refers to. -/
structure Source where
  table : Table
  nickname : Option String
  /-- Whether every row is looked at, even where the primary key or an index has the answer. -/
  scanned : Bool
deriving DecidableEq

namespace Source

/-- The name in use: the alias, or else the table's own name. -/
def name (source : Source) : String :=
  source.nickname.getD source.table.schema.name

def column? (source : Source) (column : String) : Option Column :=
  source.table.schema.column? column

def hasColumn (source : Source) (column : String) : Bool :=
  (source.column? column).isSome

/-- Rows of the table as rows of a query. -/
def group (source : Source) (rows : SortedMap RowId Row) : JoinedRows :=
  rows.map fun _ row => SortedMap.empty.insert source.name row

/-- All rows of the table as rows of a query. -/
def rows (source : Source) : JoinedRows :=
  source.group source.table.rows

end Source

end Relational
