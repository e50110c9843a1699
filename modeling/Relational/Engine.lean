import Relational.Condition.Parser
import Relational.Query.Projection
import Relational.Schema.Definition
import Relational.Script
import Relational.Session
import Relational.Storage

/-!
# Engines

An engine carries out scripts: it holds a storage and the databases that sessions use. A script is
read as a whole before any of its statements is carried out; a statement that fails is answered with
its error, and the next one goes on.
-/

namespace Relational

structure Engine where
  storage : Storage
  sessions : Sessions
  /-- How many sessions have been opened. -/
  opened : Nat
  mode : ErrorMode
deriving DecidableEq

/-- Work of an engine, which can fail halfway. -/
abbrev Work := ExceptT Failure (StateM Engine)

namespace Engine

/-- The session that is there from the start. -/
def defaultSession : SessionId := 0

/-- An engine over a storage, with the default session open. -/
def new (storage : Storage) : Engine :=
  ⟨storage, .empty, 1, .brief⟩

/-! ## Sessions and modes -/

def openSession (engine : Engine) : SessionId × Engine :=
  (engine.opened, { engine with opened := engine.opened + 1 })

def closeSession (engine : Engine) (session : SessionId) : Engine :=
  { engine with sessions := engine.sessions.close session }

def currentDatabase? (engine : Engine) (session : SessionId) : Option String :=
  engine.sessions.database? session

def setMode (engine : Engine) (mode : ErrorMode) : Engine :=
  { engine with mode }

def toggleMode (engine : Engine) : Engine :=
  engine.setMode <|
    match engine.mode with
    | .brief => .detailed
    | .detailed => .brief

/-- The tables of the database that a session uses. -/
def tableNames (engine : Engine) (session : SessionId) : Except Error (List String) :=
  match engine.currentDatabase? session with
  | some database => engine.storage.store.tableNames database
  | none => .error .noDatabase

def save (engine : Engine) : Except Failure Unit × Engine :=
  let (result, storage) := engine.storage.save
  (result, { engine with storage })

def load (engine : Engine) : Except Failure Unit × Engine :=
  let (result, storage) := engine.storage.load
  (result, { engine with storage })

end Engine

namespace Work

/-- An operation of the storage. -/
def storage {α : Type} (operation : Storage → Except Failure α × Storage) : Work α :=
  fun engine =>
    let (result, storage) := operation engine.storage
    (result, { engine with storage })

def sessions (f : Sessions → Sessions) : Work Unit :=
  modify fun engine => { engine with sessions := f engine.sessions }

/-- What a question to the engine answers. -/
def ask {α : Type} (question : Engine → Except Error α) : Work α := do
  match question (← get) with
  | .ok a => return a
  | .error e => throw (.error e)

/-- The database that a session uses. -/
def database (session : SessionId) : Work String :=
  ask fun engine =>
    match engine.currentDatabase? session with
    | some database => .ok database
    | none => .error .noDatabase

end Work

/-! ## Statements -/

namespace Selection

/-- The rows that a query picks: those of its condition, if it has one. -/
def rows (condition : Option (List Char)) (query : Query) : Except Error JoinedRows := do
  match condition with
  | some text => query.evaluate (← Condition.read text)
  | none => query.rows

/-- The table of values that a selection asks for. -/
def answer (selection : Selection) (tables : Database) : Except Error Answer := do
  match tables.get? selection.table with
  | none => .error (.table (.tableMissing selection.table))
  | some table =>
    let query ← Query.build tables ⟨table, selection.nickname, false⟩ selection.joins
    let projection ← Projection.read selection.columns query.scope
    let rows ← rows selection.condition query
    return .ofRows projection.fields (← projection.apply rows)

end Selection

/-- The rows of a table that a condition picks. -/
def Table.matching (table : Table) (condition : Option (List Char)) :
    Except Error (SortedSet RowId) := do
  match condition with
  | none => return .ofKeys table.rows
  | some text =>
    let condition ← Condition.read text
    let source : Source := ⟨table, none, false⟩
    return .ofKeys (← (⟨source, [], ⟨[source]⟩⟩ : Query).evaluate condition)

/-- Reads the values of rows, which have to be as many as the columns. -/
def Row.readAll (columns : List String) : List (List Char) → Except Error (List Row)
  | [] => .ok []
  | text :: texts => do
    let values ← Value.readList text
    if values.length ≠ columns.length then
      .error (.syntaxError (.valueCount columns.length values.length))
    let rows ← readAll columns texts
    return .ofList (columns.zip values) :: rows

/-- The answer to a statement that changed so many rows. -/
def Answer.ofCount (count : Nat) : Answer :=
  .ofMessage (toString count ++ " row(s) affected")

/-- Inserts rows, up to the first that cannot be inserted. -/
def Work.insertRows (database table : String) : List Row → Work Unit
  | [] => return ()
  | row :: rows => do
    let _ ← Work.storage fun storage => storage.insertRow database table row
    insertRows database table rows

namespace Statement

/-- Carries out a statement of a session. -/
def perform (session : SessionId) : Statement → Work Answer
  | createDatabase name => do
    Work.storage fun storage => storage.createDatabase name
    return .ofMessage ("Database " ++ name ++ " created")
  | dropDatabase name => do
    Work.storage fun storage => storage.dropDatabase name
    Work.sessions fun sessions => sessions.forget name
    return .ofMessage ("Database " ++ name ++ " dropped")
  | use name => do
    let _ ← Work.ask fun engine => engine.storage.store.database name
    Work.sessions fun sessions => sessions.use session name
    return .ofMessage ("Using database " ++ name)
  | createTable name definition => do
    let database ← Work.database session
    let schema ← Work.ask fun _ => Schema.ofDefinition name definition
    Work.storage fun storage => storage.createTable database schema
    return .ofMessage ("Table " ++ name ++ " created")
  | dropTable name => do
    let database ← Work.database session
    Work.storage fun storage => storage.dropTable database name
    return .ofMessage ("Table " ++ name ++ " dropped")
  | createIndex definition table => do
    let database ← Work.database session
    Work.storage fun storage => storage.createIndex database table definition
    return .ofMessage ("Index " ++ definition.name ++ " created on " ++ table)
  | insert table columns texts => do
    let database ← Work.database session
    let columns ← match columns with
      | some columns => pure columns
      | none => Work.ask fun engine => do
        return (← engine.storage.store.table database table).schema.columnNames
    let rows ← Work.ask fun _ => Row.readAll columns texts
    Work.insertRows database table rows
    return .ofCount rows.length
  | delete table condition => do
    let database ← Work.database session
    let ids ← Work.ask fun engine => do
      (← engine.storage.store.table database table).matching condition
    let count ← Work.storage fun storage => storage.deleteRows database table ids
    return .ofCount count
  | select selection => do
    let database ← Work.database session
    Work.ask fun engine => do selection.answer (← engine.storage.store.database database)
  | faulty _ fault => throw (.error (.syntaxError fault))

end Statement

/-! ## Scripts -/

namespace Engine

/-- The answer to a statement of a session: what it gives back, or its error in words. A row that
lacks a cell ends the work. -/
def answer (engine : Engine) (session : SessionId) (statement : Statement) :
    Except Failure Answer × Engine :=
  match (statement.perform session).run.run engine with
  | (.ok answer, engine) => (.ok answer, engine)
  | (.error (.error e), engine) => (.ok (.ofError (e.message engine.mode)), engine)
  | (.error failure, engine) => (.error failure, engine)

/-- The answers to statements of a session. -/
def answerAll (engine : Engine) (session : SessionId) :
    List Statement → Except Failure (List Answer) × Engine
  | [] => (.ok [], engine)
  | statement :: statements =>
    match engine.answer session statement with
    | (.ok answer, engine) =>
      let (answers, engine) := engine.answerAll session statements
      (answers.map (answer :: ·), engine)
    | (.error failure, engine) => (.error failure, engine)

/-- Carries out a script of a session; nothing is done if one of its statements cannot be read. -/
def execute (engine : Engine) (session : SessionId) (script : List Char) :
    Except Failure (List Answer) × Engine :=
  match Script.batches script with
  | .ok batches => engine.answerAll session batches.flatten
  | .error e => (.error (.error e), engine)

end Engine

end Relational
