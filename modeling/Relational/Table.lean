import Relational.Ordered.Search
import Relational.Table.Index

/-!
# Tables

A table holds its rows under their identities, and an index for each of its index definitions.
-/

namespace Relational

structure Table where
  schema : Schema
  rows : SortedMap RowId Row
  indexes : SortedMap String Index
deriving DecidableEq

namespace Table

/-- The table with an index over its rows. -/
def buildIndex (table : Table) (definition : IndexDefinition) : Table :=
  { table with
    indexes := table.indexes.insert definition.name (.build definition table.rows) }

/-- A table without rows, with its indexes. -/
def ofSchema (schema : Schema) : Table :=
  schema.indexes.foldl buildIndex ⟨schema, .empty, .empty⟩

/-! ## Inserting -/

/-- Whether one of the stored rows holds a value under a column. Every stored row has to have the
column. -/
def holdsValue (column : String) (value : Value) : List Row → Except Failure Bool
  | [] => .ok false
  | row :: rows =>
    match row.get? column with
    | none => .error (.missingCell column)
    | some cell => do
      if ← Failure.lift (cell.equal value) then return true
      holdsValue column value rows

/-- Refuses a row that repeats a value of a unique column. -/
def checkUniqueColumns (table : Table) (row : Row) : List Column → Except Failure Unit
  | [] => .ok ()
  | column :: columns => do
    let value := row.cell column.name
    if column.unique && !value.isNull then
      if ← holdsValue column.name value table.rows.values then
        .error (.error (.constraint (.repeatedValue column.name value.shown)))
    checkUniqueColumns table row columns

/-- The first unique index that already has the key of a row, and the key. -/
def repeatedKey? (table : Table) (row : Row) : Option (String × String) :=
  table.indexes.entries.findSome? fun (name, index) =>
    if index.unique then
      (index.key? row).bind fun key => if index.entries.contains key then some (name, key) else none
    else none

/-- The table with a row more, and what the row is known by. -/
def insert (table : Table) (row : Row) : Except Failure (RowId × Table) := do
  let row ← Failure.lift (table.schema.validate row)
  let id := table.schema.rowId row
  if table.rows.contains id then
    .error (.error (.constraint (.repeatedKey table.schema.name id.shown)))
  checkUniqueColumns table row table.schema.columns
  match table.repeatedKey? row with
  | some (name, key) => .error (.error (.constraint (.repeatedIndexKey name key)))
  | none =>
    return (id, { table with
      rows := table.rows.insert id row
      indexes := table.indexes.map fun _ index => index.add id row })

/-! ## Deleting -/

/-- The table without some rows, and how many of them it had. -/
def delete (table : Table) (ids : SortedSet RowId) : Nat × Table :=
  let gone := table.rows.restrict ids
  (gone.size, { table with
    rows := table.rows.without ids
    indexes := table.indexes.map fun _ index => index.removeAll gone })

/-! ## Indexes -/

/-- The table with an index more. A unique index needs rows without duplicates. -/
def createIndex (table : Table) (definition : IndexDefinition) : Except Error Table := do
  if table.indexes.contains definition.name then
    .error (.table (.indexExists definition.name))
  match definition.columns.find? fun name => (table.schema.column? name).isNone with
  | some name => .error (.unknownColumn name)
  | none =>
    let index := Index.build definition table.rows
    if definition.unique && index.hasDuplicates then
      .error (.constraint (.duplicatesUnderIndex definition.name))
    return { table with
      schema.indexes := table.schema.indexes ++ [definition]
      indexes := table.indexes.insert definition.name index }

/-- The steps by which an index is created on a table that changes under them, and the table that they
leave. The index is built among those of the table before it is looked at; a unique one with duplicates
is taken away again. -/
def createIndexInPlace (table : Table) (definition : IndexDefinition) : Except Error Unit × Table :=
  if table.indexes.contains definition.name then
    (.error (.table (.indexExists definition.name)), table)
  else match definition.columns.find? fun name => (table.schema.column? name).isNone with
    | some name => (.error (.unknownColumn name), table)
    | none =>
      let built := table.buildIndex definition
      if definition.unique && (built.indexes.get? definition.name).any Index.hasDuplicates then
        (.error (.constraint (.duplicatesUnderIndex definition.name)),
          { built with indexes := built.indexes.erase definition.name })
      else (.ok (), { built with schema.indexes := built.schema.indexes ++ [definition] })

/-! ## Reading -/

/-- The rows of some identities, or all rows, under some columns. -/
def select (table : Table) (ids : Option (SortedSet RowId)) (columns : List String) :
    SortedMap RowId Row :=
  let rows := match ids with
    | none => table.rows
    | some ids => table.rows.restrict ids
  rows.map fun _ row => row.project columns

/-- The rows whose indexed column holds a value. -/
def findByIndex (table : Table) (index : String) (value : Value) :
    Except Error (SortedSet RowId) :=
  match table.indexes.get? index with
  | none => .error (.table (.indexMissing index))
  | some index => .ok <|
    match Key.ofValues? [value] with
    | none => .empty
    | some key => index.lookup key

/-- The rows that hold a value in the primary key column at a position. -/
def findByPrimaryKey (table : Table) (position : Nat) (value : Value) :
    Except Error (SortedSet RowId) :=
  match table.schema.primaryKeys[position]? with
  | none => .error (.table (.keyPosition position))
  | some column => .ok <|
    match Key.ofValues? [value] with
    | none => .empty
    | some key =>
      if table.schema.primaryKeys.length = 1 then
        let id := RowId.ofKey key
        if table.rows.contains id then SortedSet.add .empty id else .empty
      else
        .ofKeys <| table.rows.filter fun _ row => (row.get? column).bind Value.key? = value.key?

end Table

end Relational
