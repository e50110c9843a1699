import Relational.Disk
import Relational.Storage.IndexFile
import Relational.Storage.TableFile
import Relational.Store

/-!
# Storages

A storage is a store that may be kept on a disk too. An operation is first done on the store; then
the disk is changed, file by file, and stops at the first change that cannot be made
(`Storage.perform`). Each database has a directory; a table has a file `TABLE.json` in it and a file
`TABLE.INDEX.idx` for each of its indexes.

* `Storage.ofDirectory`: the storage of what a directory holds;
* the operations of stores, with the changes of the disk that each entails.
-/

namespace Relational

/-- A directory of a disk in which databases are kept. -/
structure DataDirectory where
  disk : Disk
  path : Path
deriving DecidableEq

structure Storage where
  store : Store
  directory : Option DataDirectory
deriving DecidableEq

namespace DataDirectory

/-! ## Where files are -/

def databasePath (directory : DataDirectory) (database : String) : Path :=
  directory.path.join (.ofText database)

def tableFileName (table : String) : String :=
  table ++ ".json"

def indexFileName (table index : String) : String :=
  table ++ "." ++ index ++ ".idx"

def tablePath (directory : DataDirectory) (database table : String) : Path :=
  (directory.databasePath database).join (.ofText (tableFileName table))

def indexPath (directory : DataDirectory) (database table index : String) : Path :=
  (directory.databasePath database).join (.ofText (indexFileName table index))

/-- Whether a file is one of a table. -/
def isFileOf (table name : String) : Bool :=
  name == tableFileName table ||
    ((table ++ ".").toList.isPrefixOf name.toList && ".idx".toList.isSuffixOf name.toList)

/-- Whether a file is the file of some table: its name ends in `.json` and has more before it. -/
def isTableFile (name : String) : Bool :=
  ".json".toList.isSuffixOf name.toList && ".json".length < name.length

/-! ## Writing -/

/-- The changes that write a table: its own file, and then those of its indexes. -/
def writeTable (directory : DataDirectory) (database : String) (table : Table) : List DiskChange :=
  .write (directory.tablePath database table.schema.name)
      ⟨fun _ => TableFile.encode ⟨table.schema, table.rows⟩⟩ ::
    table.indexes.entries.map fun (name, index) =>
      .write (directory.indexPath database table.schema.name name) ⟨fun _ => IndexFile.encode index⟩

/-- The changes that remove the files of a table. -/
def removeTable (directory : DataDirectory) (database table : String) : List DiskChange :=
  let path := directory.databasePath database
  if directory.disk.hasEntry path then
    .readDirectory path ::
      ((directory.disk.children? path).getD []).filterMap fun (name, _) =>
        if isFileOf table name then some (.removeFile (path.join (.ofText name))) else none
  else []

/-- The changes that remove a database. -/
def removeDatabase (directory : DataDirectory) (database : String) : List DiskChange :=
  let path := directory.databasePath database
  if directory.disk.hasEntry path then [.removeTree path] else []

/-- The changes that write a database. -/
def writeDatabase (directory : DataDirectory) (database : String) (tables : Database) :
    List DiskChange :=
  .makeDirectory (directory.databasePath database) ::
    tables.values.flatMap (directory.writeTable database)

/-! ## Reading -/

/-- The table with an index from its file; the index is built from the rows, if there is no file or
if it cannot be read. -/
def readIndex (directory : DataDirectory) (database : String) (table : Table)
    (definition : IndexDefinition) : Table :=
  let path := directory.indexPath database table.schema.name definition.name
  match (directory.disk.file? path).bind IndexFile.decode? with
  | some index => { table with indexes := table.indexes.insert definition.name index }
  | none => table.buildIndex definition

/-- The table that the content of a file holds. -/
def readTable (directory : DataDirectory) (database : String) (content : List UInt8) :
    Except Error Table := do
  let file ← TableFile.decode content
  return file.schema.indexes.foldl (directory.readIndex database) ⟨file.schema, file.rows, .empty⟩

/-- Reads the tables of a database into a store, up to the first that cannot be read. -/
def readTables (directory : DataDirectory) (database : String) (store : Store) :
    List (String × DiskEntry) → Except Error Unit × Store
  | [] => (.ok (), store)
  | (name, .file content) :: entries =>
    if isTableFile name then
      match directory.readTable database (content.bytes ()) with
      | .ok table => directory.readTables database (store.put database table) entries
      | .error e => (.error e, store)
    else directory.readTables database store entries
  | (_, .directory) :: entries => directory.readTables database store entries

/-- Reads databases into a store, up to the first that cannot be read whole. -/
def readDatabases (directory : DataDirectory) (store : Store) :
    List (String × DiskEntry) → Except Error Unit × Store
  | [] => (.ok (), store)
  | (name, .directory) :: entries =>
    let store := ⟨store.databases.insert name .empty⟩
    let files := (directory.disk.children? (directory.databasePath name)).getD []
    match directory.readTables name store files with
    | (.ok (), store) => directory.readDatabases store entries
    | (.error e, store) => (.error e, store)
  | (_, .file _) :: entries => directory.readDatabases store entries

/-- Reads all databases; without the directory there are none. -/
def read (directory : DataDirectory) : Except Error Unit × Store :=
  if !directory.disk.hasEntry directory.path then (.ok (), .empty)
  else match directory.disk.children? directory.path with
    | none => (.error .io, .empty)
    | some entries => directory.readDatabases .empty entries

end DataDirectory

namespace Storage

/-! ## Opening -/

/-- A storage in memory, without databases. -/
def inMemory : Storage := ⟨.empty, none⟩

/-- Reads the storage's directory anew. What cannot be read is left out with all that comes after
it. -/
def load (storage : Storage) : Except Failure Unit × Storage :=
  match storage.directory with
  | none => (.ok (), storage)
  | some directory =>
    let (result, store) := directory.read
    (Failure.lift result, ⟨store, directory⟩)

/-- The storage of a directory of a disk, which is made if it is missing. -/
def ofDirectory (disk : Disk) (path : Path) : Storage :=
  let disk := if disk.hasEntry path then disk else (disk.apply (.makeDirectory path)).2
  (load ⟨.empty, some ⟨disk, path⟩⟩).2

/-! ## Operations -/

/-- Carries out an operation that has a result, the store behind it and changes of the disk. -/
def perform {α : Type} (storage : Storage) (result : Except Failure (α × Store))
    (changes : DataDirectory → Store → List DiskChange) : Except Failure α × Storage :=
  match result with
  | .error e => (.error e, storage)
  | .ok (a, store) =>
    match storage.directory with
    | none => (.ok a, ⟨store, none⟩)
    | some directory =>
      match directory.disk.applyAll (changes directory store) with
      | (true, disk) => (.ok a, ⟨store, some { directory with disk }⟩)
      | (false, disk) => (.error (.error .io), ⟨store, some { directory with disk }⟩)

/-- The result of an operation on stores that returns the store only. -/
def unitResult (result : Except Error Store) : Except Failure (Unit × Store) :=
  (Failure.lift result).map fun store => ((), store)

/-- The changes that write a table of the store. -/
def writeTable (database table : String) (directory : DataDirectory) (store : Store) :
    List DiskChange :=
  match store.table database table with
  | .ok stored => directory.writeTable database stored
  | .error _ => []

def createDatabase (storage : Storage) (name : String) : Except Failure Unit × Storage :=
  storage.perform (unitResult (storage.store.createDatabase name)) fun directory _ =>
    [.makeDirectory (directory.databasePath name)]

def dropDatabase (storage : Storage) (name : String) : Except Failure Unit × Storage :=
  storage.perform (unitResult (storage.store.dropDatabase name)) fun directory _ =>
    directory.removeDatabase name

def createTable (storage : Storage) (database : String) (schema : Schema) :
    Except Failure Unit × Storage :=
  storage.perform (unitResult (storage.store.createTable database schema))
    (writeTable database schema.name)

def dropTable (storage : Storage) (database table : String) : Except Failure Unit × Storage :=
  storage.perform (unitResult (storage.store.dropTable database table)) fun directory _ =>
    directory.removeTable database table

def createIndex (storage : Storage) (database table : String) (definition : IndexDefinition) :
    Except Failure Unit × Storage :=
  storage.perform (unitResult (storage.store.createIndex database table definition))
    (writeTable database table)

def insertRow (storage : Storage) (database table : String) (row : Row) :
    Except Failure RowId × Storage :=
  storage.perform (storage.store.insertRow database table row) (writeTable database table)

/-- Deletes rows; nothing is written if there are none of them. -/
def deleteRows (storage : Storage) (database table : String) (ids : SortedSet RowId) :
    Except Failure Nat × Storage :=
  let result := storage.store.deleteRows database table ids
  let count := match result with
    | .ok (count, _) => count
    | .error _ => 0
  storage.perform (Failure.lift result) fun directory store =>
    if 0 < count then writeTable database table directory store else []

/-- Writes all databases. -/
def save (storage : Storage) : Except Failure Unit × Storage :=
  storage.perform (.ok ((), storage.store)) fun directory store =>
    store.databases.entries.flatMap fun (name, tables) => directory.writeDatabase name tables

end Storage

end Relational
