import Relational.Table
import Relational.Text.Bytes
import Relational.Value.Json

/-!
# Table files

A table is stored as a JSON object of its schema and its rows, each row with its identity. Reading
follows the names of the fields: others are passed over, a missing or repeated one is an error.
Indexes are in files of their own.
-/

namespace Relational

open Json (ofTexts)

/-- The schema and the rows of a stored table. -/
structure TableFile where
  schema : Schema
  rows : SortedMap RowId Row
deriving DecidableEq

namespace ColumnType

def toJson : ColumnType → Json
  | int => .ofText "Int"
  | float => .ofText "Float"
  | varchar limit => .ofCase "Varchar" (.ofNat limit)
  | date => .ofText "Date"
  | bit => .ofText "Bit"

def ofJson? (json : Json) : Option ColumnType := do
  let (kind, content) ← json.case?
  match kind with
  | "Varchar" => content.nat?.map varchar
  | "Int" => if content.isNull then some int else none
  | "Float" => if content.isNull then some float else none
  | "Date" => if content.isNull then some date else none
  | "Bit" => if content.isNull then some bit else none
  | _ => none

end ColumnType

namespace Column

def toJson (column : Column) : Json :=
  .ofFields [("name", .ofText column.name), ("data_type", column.type.toJson),
    ("nullable", .bool column.nullable), ("primary_key", .bool column.primaryKey),
    ("unique", .bool column.unique)]

def ofJson? (json : Json) : Option Column := do
  match ← json.record? ["name", "data_type", "nullable", "primary_key", "unique"] with
  | [name, type, nullable, primaryKey, unique] =>
    return ⟨← name.string?, ← ColumnType.ofJson? type, ← nullable.bool?, ← primaryKey.bool?,
      ← unique.bool?⟩
  | _ => none

end Column

namespace IndexDefinition

def toJson (definition : IndexDefinition) : Json :=
  .ofFields [("name", .ofText definition.name), ("columns", ofTexts definition.columns),
    ("unique", .bool definition.unique)]

def ofJson? (json : Json) : Option IndexDefinition := do
  match ← json.record? ["name", "columns", "unique"] with
  | [name, columns, unique] =>
    return ⟨← name.string?, ← columns.list? Json.string?, ← unique.bool?⟩
  | _ => none

end IndexDefinition

namespace Schema

def toJson (schema : Schema) : Json :=
  .ofFields [("name", .ofText schema.name), ("columns", .array (schema.columns.map Column.toJson)),
    ("primary_keys", ofTexts schema.primaryKeys),
    ("indexes", .array (schema.indexes.map IndexDefinition.toJson))]

def ofJson? (json : Json) : Option Schema := do
  match ← json.record? ["name", "columns", "primary_keys", "indexes"] with
  | [name, columns, primaryKeys, indexes] =>
    return ⟨← name.string?, ← columns.list? Column.ofJson?, ← primaryKeys.list? Json.string?,
      ← indexes.list? IndexDefinition.ofJson?⟩
  | _ => none

end Schema

namespace Row

def toJson (row : Row) : Json :=
  .ofFields (row.entries.map fun (column, value) => (column, value.toJson))

def ofJson? (json : Json) : Option Row := do
  let fields ← json.fields?
  let cells ← fields.mapM fun (column, value) => do return (column, ← Value.ofJson? value)
  return .ofList cells

end Row

namespace TableFile

/-- A row with its identity. -/
def rowToJson (id : RowId) (row : Row) : Json :=
  .ofFields [("id", ofTexts id.parts), ("values", row.toJson)]

def rowOfJson? (json : Json) : Option (RowId × Row) := do
  match ← json.record? ["id", "values"] with
  | [id, values] => return (⟨← id.list? Json.string?⟩, ← Row.ofJson? values)
  | _ => none

def toJson (file : TableFile) : Json :=
  .ofFields [("schema", file.schema.toJson),
    ("rows", .array (file.rows.entries.map fun (id, row) => rowToJson id row))]

def ofJson? (json : Json) : Option TableFile := do
  match ← json.record? ["schema", "rows"] with
  | [schema, rows] => return ⟨← Schema.ofJson? schema, .ofList (← rows.list? rowOfJson?)⟩
  | _ => none

/-- The content of the file. -/
def encode (file : TableFile) : List UInt8 :=
  Text.toBytes file.toJson.pretty

/-- Reads the content of a file. Bytes that are no text cannot be read at all. -/
def decode (bytes : List UInt8) : Except Error TableFile :=
  match Text.ofBytes? bytes with
  | none => .error .io
  | some s =>
    match (Json.read? s).bind ofJson? with
    | none => .error .serialization
    | some file => .ok file

end TableFile

end Relational
