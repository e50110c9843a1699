import Relational.Row
import Relational.Schema.ColumnType

/-!
# Schemas

The columns of a table, its primary key and its indexes, and what they make of a row that is to be
stored (`Schema.validate`).
-/

namespace Relational

structure Column where
  name : String
  type : ColumnType
  nullable : Bool
  primaryKey : Bool
  unique : Bool
deriving DecidableEq

structure IndexDefinition where
  name : String
  columns : List String
  unique : Bool
deriving DecidableEq

structure Schema where
  name : String
  columns : List Column
  primaryKeys : List String
  indexes : List IndexDefinition
deriving DecidableEq

namespace Schema

/-- The column of a name; of several, the first. -/
def column? (schema : Schema) (name : String) : Option Column :=
  schema.columns.find? (·.name == name)

def columnNames (schema : Schema) : List String :=
  schema.columns.map (·.name)

/-- The columns with an index of their own, each with the last such index. -/
def indexedColumns (schema : Schema) : SortedMap String String :=
  .ofList <| schema.indexes.filterMap fun index =>
    match index.columns with
    | [column] => some (column, index.name)
    | _ => none

/-- What a row is known by: the key of its primary key values, or nothing if one of them is a
null. -/
def rowId (schema : Schema) (row : Row) : RowId :=
  .ofKey ((row.key? schema.primaryKeys).getD "")

/-- The values of a row as the columns store them; each column takes its value out of the row. -/
def storeCells : List Column → Row → Row → Except Error Row
  | [], _, stored => .ok stored
  | column :: columns, row, stored => do
    let value ← column.type.coerce column.name (row.cell column.name)
    if value.isNull && (!column.nullable || column.primaryKey) then
      .error (.constraint (.nullNotAllowed column.name))
    storeCells columns (row.erase column.name) (stored.insert column.name value)

/-- The row as it is stored: every column has a value that it takes, and there are no others. -/
def validate (schema : Schema) (row : Row) : Except Error Row :=
  match row.keys.find? fun name => (schema.column? name).isNone with
  | some name => .error (.unknownColumn name)
  | none => storeCells schema.columns row .empty

end Schema

end Relational
