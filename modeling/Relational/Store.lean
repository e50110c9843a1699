import Relational.Table

/-!
# Stores

The databases of a store and their tables, in memory. An operation that fails leaves the store as it
was: it returns an error and no store.
-/

namespace Relational

/-- The tables of a database under their names. -/
abbrev Database := SortedMap String Table

structure Store where
  databases : SortedMap String Database
deriving DecidableEq

namespace Store

def empty : Store := ⟨.empty⟩

def database (store : Store) (name : String) : Except Error Database :=
  match store.databases.get? name with
  | some database => .ok database
  | none => .error (.table (.databaseMissing name))

def table (store : Store) (database table : String) : Except Error Table := do
  match (← store.database database).get? table with
  | some table => .ok table
  | none => .error (.table (.tableMissing table))

/-- The store with a table put into a database, in place of one of the same name. -/
def put (store : Store) (database : String) (table : Table) : Store :=
  let tables := (store.databases.get? database).getD .empty
  ⟨store.databases.insert database (tables.insert table.schema.name table)⟩

def createDatabase (store : Store) (name : String) : Except Error Store :=
  if store.databases.contains name then .error (.table (.databaseExists name))
  else .ok ⟨store.databases.insert name .empty⟩

def dropDatabase (store : Store) (name : String) : Except Error Store := do
  let _ ← store.database name
  return ⟨store.databases.erase name⟩

def databaseNames (store : Store) : List String :=
  store.databases.keys

def createTable (store : Store) (database : String) (schema : Schema) : Except Error Store := do
  let tables ← store.database database
  if tables.contains schema.name then .error (.table (.tableExists schema.name))
  if schema.primaryKeys.isEmpty then .error (.table (.noPrimaryKey schema.name))
  match schema.primaryKeys.find? fun name => (schema.column? name).isNone with
  | some name => .error (.unknownColumn name)
  | none => return store.put database (.ofSchema schema)

def dropTable (store : Store) (database table : String) : Except Error Store := do
  let tables ← store.database database
  if tables.contains table then
    return ⟨store.databases.insert database (tables.erase table)⟩
  else .error (.table (.tableMissing table))

def tableNames (store : Store) (database : String) : Except Error (List String) := do
  return (← store.database database).keys

def createIndex (store : Store) (database table : String) (definition : IndexDefinition) :
    Except Error Store := do
  let stored ← store.table database table
  return store.put database (← stored.createIndex definition)

def insertRow (store : Store) (database table : String) (row : Row) :
    Except Failure (RowId × Store) := do
  let stored ← Failure.lift (store.table database table)
  let (id, stored) ← stored.insert row
  return (id, store.put database stored)

def deleteRows (store : Store) (database table : String) (ids : SortedSet RowId) :
    Except Error (Nat × Store) := do
  let stored ← store.table database table
  let (count, stored) := stored.delete ids
  return (count, store.put database stored)

end Store

end Relational
