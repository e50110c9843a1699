import Relational.Proofs.Engine.Failure
import Relational.Proofs.Storage.Opened

/-!
# Calls that return

An insertion compares the values of a unique column with those of every stored row, and ends the
program where a stored row has no cell for the column (`Table.Lacks`). Nothing else ends it
(`Work.accounts_perform`), and the rows that insertions store have a cell for every column, so
a table that lacks one comes from a table that did when the store was opened (`Store.lacks_run`).
Tables are opened as their files are, so every call returns but where a file lacks a cell
(`Engine.execute_returns`), and always in memory (`Engine.Reaches.execute_ne_missingCell`).
-/

namespace Relational

open Store (Operation)

/-! ## Rows with all cells -/

namespace Schema

/-- Every column leaves a cell in the row that is stored, also one of several with the same name. -/
theorem contains_storeCells {columns : List Column} {row stored result : Row}
    (h : storeCells columns row stored = .ok result) {name : String}
    (hname : stored.contains name = true ∨ name ∈ columns.map (·.name)) :
    result.contains name = true := by
  induction columns generalizing row stored with
  | nil =>
    obtain rfl := Except.ok.inj h
    exact hname.resolve_right List.not_mem_nil
  | cons column columns ih =>
    simp only [storeCells, bind_eq_ok_iff, guard_eq_ok_iff] at h
    obtain ⟨value, -, -, h⟩ := h
    refine ih h ?_
    rw [SortedMap.contains_insert, Bool.or_eq_true, decide_eq_true_iff]
    rw [List.map_cons, List.mem_cons] at hname
    rcases hname with hname | hname | hname
    · exact .inl (.inr hname)
    · exact .inl (.inl hname)
    · exact .inr hname

theorem contains_of_validate {schema : Schema} {row stored : Row}
    (h : schema.validate row = .ok stored) {column : Column} (hcolumn : column ∈ schema.columns) :
    stored.contains column.name = true :=
  contains_storeCells (validate_eq_ok_iff.mp h).2 (.inr (List.mem_map_of_mem hcolumn))

end Schema

/-! ## Tables that lack a cell -/

/-- A row of a table file has no cell for a unique column. -/
def TableFile.Lacks (file : TableFile) (name : String) : Prop :=
  (∃ column ∈ file.schema.columns, column.unique = true ∧ column.name = name) ∧
    ∃ id row, file.rows.get? id = some row ∧ row.contains name = false

namespace Table

variable {table table' : Table} {name : String} {row : Row}

/-- A stored row of the table has no cell for a unique column. -/
def Lacks (table : Table) (name : String) : Prop :=
  TableFile.Lacks ⟨table.schema, table.rows⟩ name

theorem exists_of_holdsValue {column : String} {value : Value} {rows : List Row}
    (h : holdsValue column value rows = .error (.missingCell name)) :
    name = column ∧ ∃ row ∈ rows, row.contains column = false := by
  induction rows with
  | nil => nomatch h
  | cons row rows ih =>
    rw [holdsValue] at h
    split at h
    · rename_i hcell
      cases h
      exact ⟨rfl, row, List.mem_cons_self, SortedMap.contains_eq_false_iff.mpr hcell⟩
    · rename_i cell _
      cases hequal : cell.equal value with
      | error e =>
        rw [hequal] at h
        nomatch h
      | ok same =>
        rw [hequal] at h
        cases same with
        | true => nomatch h
        | false =>
          obtain ⟨hname, stored, hmem, hcell⟩ := ih h
          exact ⟨hname, stored, List.mem_cons_of_mem _ hmem, hcell⟩

theorem exists_of_checkUniqueColumns {columns : List Column}
    (h : table.checkUniqueColumns row columns = .error (.missingCell name)) :
    (∃ column ∈ columns, column.unique = true ∧ column.name = name) ∧
      ∃ stored ∈ table.rows.values, stored.contains name = false := by
  induction columns with
  | nil => nomatch h
  | cons column columns ih =>
    have hrest (h : table.checkUniqueColumns row columns = .error (.missingCell name)) :
        (∃ c ∈ column :: columns, c.unique = true ∧ c.name = name) ∧
          ∃ stored ∈ table.rows.values, stored.contains name = false :=
      (ih h).imp_left fun ⟨c, hmem, hc⟩ => ⟨c, List.mem_cons_of_mem _ hmem, hc⟩
    rw [checkUniqueColumns] at h
    dsimp only at h
    split at h
    · rename_i hunique
      rcases bind_eq_error_iff.mp h with hholds | ⟨holds, -, hafter⟩
      · obtain ⟨rfl, hlacks⟩ := exists_of_holdsValue hholds
        exact ⟨⟨column, List.mem_cons_self, (Bool.and_eq_true_iff.mp hunique).1, rfl⟩, hlacks⟩
      · cases holds with
        | true => nomatch hafter
        | false => exact hrest hafter
    · exact hrest h

/-- Where an insertion ends the program, the table lacks the cell. -/
theorem lacks_of_insert (h : table.insert row = .error (.missingCell name)) : table.Lacks name := by
  rw [insert] at h
  cases hvalidate : table.schema.validate row with
  | error e =>
    rw [hvalidate] at h
    cases h
  | ok stored =>
    rw [hvalidate] at h
    change (if table.rows.contains (table.schema.rowId stored) = true then _ else _) = _ at h
    split at h
    · cases h
    · rcases bind_eq_error_iff.mp h with hcheck | ⟨_, -, hkey⟩
      · obtain ⟨hcolumn, lacking, hmem, hcell⟩ := exists_of_checkUniqueColumns hcheck
        obtain ⟨⟨id, _⟩, hentry, rfl⟩ := List.mem_map.mp hmem
        exact ⟨hcolumn, id, _, SortedMap.mem_entries_iff.mp hentry, hcell⟩
      · split at hkey
        all_goals cases hkey

theorem not_lacks_ofSchema (schema : Schema) (name : String) : ¬(ofSchema schema).Lacks name := by
  rintro ⟨-, id, row, hrow, -⟩
  rw [rows_ofSchema, SortedMap.get?_empty] at hrow
  nomatch hrow

/-- A table lacks no more cells than the one it is made of. -/
theorem lacks_of_changes {op : Operation} (h : op.Changes table table') (hlacks : table'.Lacks name) :
    table.Lacks name := by
  obtain ⟨⟨column, hcolumn, hunique, rfl⟩, id, row, hrow, hcell⟩ := hlacks
  rw [h.columns] at hcolumn
  refine ⟨⟨column, hcolumn, hunique, rfl⟩, id, row, ?_, hcell⟩
  cases h with
  | createIndex _ _ h =>
    obtain ⟨-, -, -, rfl⟩ := createIndex_eq_ok_iff.mp h
    exact hrow
  | insertRow _ _ h =>
    obtain ⟨stored, hstored, -, -, -, -, rfl⟩ := insert_eq_ok_iff.mp h
    rw [SortedMap.get?_insert] at hrow
    split at hrow
    · have hfull := Schema.contains_of_validate hstored hcolumn
      rw [Option.some.inj hrow, hcell] at hfull
      nomatch hfull
    · exact hrow
  | deleteRows _ _ ids => exact (get?_delete.mp hrow).1

end Table

namespace Store

variable {store : Store} {name : String}

/-- A table of the store lacks a cell. -/
def Lacks (store : Store) (name : String) : Prop :=
  ∃ database table stored, store.Holds database table stored ∧ stored.Lacks name

/-- Operations bring no table that lacks a cell. -/
theorem lacks_run {ops : List Operation} (h : (store.run ops).Lacks name) : store.Lacks name := by
  have hall : (store.run ops).All fun stored => stored.Lacks name → store.Lacks name :=
    All.run (fun database table stored hholds hlacks => ⟨database, table, stored, hholds, hlacks⟩)
      (fun op _ stored hmakes hlacks => by
        cases hmakes with
        | createTable => exact absurd hlacks (Table.not_lacks_ofSchema _ name))
      fun op _ old new hold hchanges hlacks => hold (Table.lacks_of_changes hchanges hlacks)
  obtain ⟨database, table, stored, hholds, hlacks⟩ := h
  exact hall database table stored hholds hlacks

theorem lacks_of_insertRow {database table : String} {row : Row}
    (h : store.insertRow database table row = .error (.missingCell name)) : store.Lacks name := by
  rw [insertRow] at h
  cases htable : store.table database table with
  | error e =>
    rw [htable] at h
    cases h
  | ok stored =>
    refine ⟨database, table, stored, table_eq_ok_iff.mp htable, ?_⟩
    rw [htable] at h
    change (stored.insert row >>= _) = _ at h
    rcases bind_eq_error_iff.mp h with hinsert | ⟨⟨id, next⟩, -, hput⟩
    · exact Table.lacks_of_insert hinsert
    · cases hput

end Store

/-! ## Work of several steps -/

/-- The operations of storages that statements carry out. -/
inductive Storage.IsOperation : {α : Type} → (Storage → Except Failure α × Storage) → Prop
  | createDatabase (name : String) : IsOperation fun storage => storage.createDatabase name
  | dropDatabase (name : String) : IsOperation fun storage => storage.dropDatabase name
  | createTable (database : String) (schema : Schema) :
    IsOperation fun storage => storage.createTable database schema
  | dropTable (database name : String) : IsOperation fun storage => storage.dropTable database name
  | createIndex (database table : String) (definition : IndexDefinition) :
    IsOperation fun storage => storage.createIndex database table definition
  | insertRow (database table : String) (row : Row) :
    IsOperation fun storage => storage.insertRow database table row
  | deleteRows (database table : String) (ids : SortedSet RowId) :
    IsOperation fun storage => storage.deleteRows database table ids

/-- A property of work that each step has, and that work of several steps has if the steps do. -/
structure Work.Composes (P : {α : Type} → Work α → Prop) : Prop where
  pure {α : Type} (a : α) : P (pure a : Work α)
  fail {α : Type} (e : Error) : P (throw (.error e) : Work α)
  ask {α : Type} (question : Engine → Except Error α) : P (Work.ask question)
  operation {α : Type} {operation : Storage → Except Failure α × Storage} :
    Storage.IsOperation operation → P (Work.storage operation)
  bind {α β : Type} {work : Work α} {f : α → Work β} : P work → (∀ a, P (f a)) → P (work >>= f)

namespace Statement

/-- Whether the statement sets which databases sessions use. -/
def setsSessions : Statement → Bool
  | use _ | dropDatabase _ => true
  | _ => false

variable {P : {α : Type} → Work α → Prop}

theorem insertRows_of_composes (h : Work.Composes P) (database table : String) (rows : List Row) :
    P (Work.insertRows database table rows) := by
  induction rows with
  | nil => exact h.pure _
  | cons row rows ih => exact h.bind (h.operation (.insertRow database table row)) fun _ => ih

/-- What the steps have is had by every statement. -/
theorem perform_of_composes (h : Work.Composes P) (session : SessionId) {statement : Statement}
    (hsessions : statement.setsSessions = true → ∀ f, P (Work.sessions f)) :
    P (statement.perform session) := by
  cases statement with
  | createDatabase name => exact h.bind (h.operation (.createDatabase name)) fun _ => h.pure _
  | dropDatabase name =>
    exact h.bind (h.operation (.dropDatabase name)) fun _ => h.bind (hsessions rfl _) fun _ =>
      h.pure _
  | use name => exact h.bind (h.ask _) fun _ => h.bind (hsessions rfl _) fun _ => h.pure _
  | createTable name definition =>
    exact h.bind (h.ask _) fun database => h.bind (h.ask _) fun schema =>
      h.bind (h.operation (.createTable database schema)) fun _ => h.pure _
  | dropTable name =>
    exact h.bind (h.ask _) fun database =>
      h.bind (h.operation (.dropTable database name)) fun _ => h.pure _
  | createIndex definition table =>
    exact h.bind (h.ask _) fun database =>
      h.bind (h.operation (.createIndex database table definition)) fun _ => h.pure _
  | insert table columns texts =>
    refine h.bind (h.ask _) fun database => ?_
    have hrows (names : List String) : P (do
        let rows ← Work.ask fun _ => Row.readAll names texts
        Work.insertRows database table rows
        return Answer.ofCount rows.length : Work Answer) :=
      h.bind (h.ask _) fun rows =>
        h.bind (insertRows_of_composes h database table rows) fun _ => h.pure _
    cases columns with
    | some names => exact hrows names
    | none => exact h.bind (h.ask _) hrows
  | delete table condition =>
    exact h.bind (h.ask _) fun database => h.bind (h.ask _) fun ids =>
      h.bind (h.operation (.deleteRows database table ids)) fun _ => h.pure _
  | select selection => exact h.bind (h.ask _) fun _ => h.ask _
  | faulty kind fault => exact h.fail _

end Statement

/-! ## Work that ends the program -/

theorem lift_ne_missingCell {α : Type} (x : Except Error α) (name : String) :
    Failure.lift x ≠ .error (.missingCell name) := by
  cases x <;> nofun

namespace Storage

/-- Changes of the disk do not end the program. -/
theorem perform_eq_missingCell {α : Type} {storage storage' : Storage} {name : String}
    {result : Except Failure (α × Store)} {changes : DataDirectory → Store → List DiskChange}
    (h : storage.perform result changes = (.error (.missingCell name), storage')) :
    result = .error (.missingCell name) ∧ storage' = storage := by
  unfold perform at h
  split at h
  · cases h
    exact ⟨rfl, rfl⟩
  · split at h
    · nomatch h
    · split at h
      all_goals nomatch h

theorem perform_unitResult_ne {storage storage' : Storage} {name : String}
    {result : Except Error Store} {changes : DataDirectory → Store → List DiskChange} :
    storage.perform (unitResult result) changes ≠ (.error (.missingCell name), storage') := by
  intro h
  obtain ⟨hunit, -⟩ := perform_eq_missingCell h
  cases result <;> nomatch hunit

/-- An operation that ends the program is an insertion into a table that lacks the cell. -/
theorem IsOperation.lacks {α : Type} {operation : Storage → Except Failure α × Storage}
    (h : IsOperation operation) {storage storage' : Storage} {name : String}
    (hends : operation storage = (.error (.missingCell name), storage')) :
    storage'.store.Lacks name := by
  cases h with
  | insertRow database table row =>
    obtain ⟨hinsert, rfl⟩ := perform_eq_missingCell hends
    exact Store.lacks_of_insertRow hinsert
  | deleteRows database table ids =>
    exact absurd (perform_eq_missingCell hends).1 (lift_ne_missingCell _ name)
  | _ => exact absurd hends perform_unitResult_ne

end Storage

namespace Work

/-- Where the work ends the program, a table lacks the cell. -/
def Accounts {α : Type} (work : Work α) : Prop :=
  ∀ engine engine' name, work engine = (.error (.missingCell name), engine') →
    engine'.storage.store.Lacks name

theorem composes_accounts : Composes Accounts where
  pure a engine engine' name hwork := nomatch hwork
  fail e engine engine' name hwork := nomatch hwork
  ask question engine engine' name hwork := by
    rw [ask_run] at hwork
    exact absurd (Prod.mk.inj hwork).1 (lift_ne_missingCell _ name)
  operation h engine engine' name hwork := by
    obtain ⟨hfailure, hengine⟩ := Prod.mk.inj hwork
    rw [← hengine]
    exact h.lacks (Prod.ext hfailure rfl)
  bind h hf engine engine' name hwork := by
    rcases bind_eq_error_iff.mp hwork with hfirst | ⟨a, between, -, hsecond⟩
    · exact h engine engine' name hfirst
    · exact hf a between engine' name hsecond

/-- No statement ends the program but by a table that lacks a cell. -/
theorem accounts_perform (session : SessionId) (statement : Statement) :
    (statement.perform session).Accounts :=
  Statement.perform_of_composes composes_accounts session fun _ _ _ _ _ hwork => nomatch hwork

end Work

/-! ## Engines -/

namespace Engine

variable {start engine engine' : Engine} {session : SessionId} {name : String}

theorem answer_eq_error {statement : Statement} {failure : Failure}
    (h : engine.answer session statement = (.error failure, engine')) :
    ∃ name, failure = .missingCell name ∧
      statement.perform session engine = (.error (.missingCell name), engine') := by
  rw [answer_eq] at h
  split at h
  · nomatch h
  · nomatch h
  · rename_i failure' engine'' hne hperform
    cases h
    cases failure with
    | error e => exact absurd rfl (hne e)
    | missingCell name => exact ⟨name, rfl, hperform⟩

/-- Where statements end the program, a table lacks the cell. -/
theorem lacks_of_answerAll {statements : List Statement} {failure : Failure}
    (h : engine.answerAll session statements = (.error failure, engine')) :
    ∃ name, failure = .missingCell name ∧ engine'.storage.store.Lacks name := by
  induction statements generalizing engine with
  | nil => cases h
  | cons statement statements ih =>
    rw [answerAll] at h
    split at h
    · rename_i answer between _
      cases hrest : between.answerAll session statements with
      | mk answers last =>
        rw [hrest] at h
        cases answers with
        | ok answers => cases h
        | error failure' =>
          cases h
          exact ih hrest
    · rename_i hanswer
      cases h
      obtain ⟨name, rfl, hperform⟩ := answer_eq_error hanswer
      exact ⟨name, rfl, Work.accounts_perform session statement engine _ name hperform⟩

/-- A call fails where the script cannot be read, or where a table lacks a cell. -/
theorem lacks_of_execute {script : List Char} {failure : Failure}
    (h : engine.execute session script = (.error failure, engine')) :
    (∃ e, failure = .error e) ∨
      ∃ name, failure = .missingCell name ∧ engine'.storage.store.Lacks name := by
  unfold execute at h
  split at h
  · exact .inr (lacks_of_answerAll h)
  · rename_i e _
    cases h
    exact .inl ⟨e, rfl⟩

/-- Every call returns with answers or with an error, for all that scripts and sessions did to the
engine before it; or it ends the program, and then a table lacked the cell from the start. -/
theorem Reaches.returns (h : start.Reaches engine) (session : SessionId) (script : List Char) :
    (∃ answers, (engine.execute session script).1 = .ok answers) ∨
      (∃ e, (engine.execute session script).1 = .error (.error e)) ∨
      ∃ name, (engine.execute session script).1 = .error (.missingCell name) ∧
        start.storage.store.Lacks name := by
  obtain ⟨ops, -, hstore⟩ := (h.execute session script).store
  cases hrun : engine.execute session script with
  | mk result last =>
    rw [hrun] at hstore
    cases result with
    | ok answers => exact .inl ⟨answers, rfl⟩
    | error failure =>
      refine .inr ?_
      obtain ⟨e, rfl⟩ | ⟨name, rfl, hlacks⟩ := lacks_of_execute hrun
      · exact .inl ⟨e, rfl⟩
      · exact .inr ⟨name, rfl, Store.lacks_run (hstore ▸ hlacks)⟩

/-- In memory, every call returns. -/
theorem Reaches.execute_ne_missingCell (h : (new .inMemory).Reaches engine) (session : SessionId)
    (script : List Char) (name : String) :
    (engine.execute session script).1 ≠ .error (.missingCell name) := by
  intro hends
  obtain ⟨answers, hreturns⟩ | ⟨e, hreturns⟩ | ⟨name', -, hlacks⟩ := h.returns session script
  · rw [hreturns] at hends
    nomatch hends
  · rw [hreturns] at hends
    nomatch hends
  · obtain ⟨database, table, stored, hholds, -⟩ := hlacks
    have hnone : Store.empty.All fun _ => False := Store.all_empty
    exact hnone database table stored hholds

/-- Whatever the disk holds that an engine is opened on, and whatever scripts and sessions did to the
engine: every call returns with answers or with an error; or it ends the program, and then a table
file on the disk had a row without a cell for a unique column. -/
theorem execute_returns {disk : Disk} {path : Path}
    (h : (new (.ofDirectory disk path)).Reaches engine) (session : SessionId) (script : List Char) :
    (∃ answers, (engine.execute session script).1 = .ok answers) ∨
      (∃ e, (engine.execute session script).1 = .error (.error e)) ∨
      ∃ name place content file, (engine.execute session script).1 = .error (.missingCell name) ∧
        disk.entries.get? place = some (.file content) ∧
        TableFile.decode (content.bytes ()) = .ok file ∧ file.Lacks name := by
  refine (h.returns session script).imp_right fun hfails => hfails.imp_right ?_
  rintro ⟨name, hends, database, table, stored, hholds, hlacks⟩
  obtain ⟨place, content, hplace, hfile⟩ := Storage.exists_file_of_holds hholds
  exact ⟨name, place, content, _, hends, hplace, hfile, hlacks⟩

/-- A table file with a unique column, for which its row has no cell. -/
def lackingFile : TableFile where
  schema := ⟨"t", [⟨"id", .int, false, true, false⟩, ⟨"n", .int, true, false, true⟩], ["id"], []⟩
  rows := SortedMap.empty.insert (.ofKey "1") (.ofList [("id", .int 1)])

/-- A disk with the file in a database. -/
def lackingDisk : Disk :=
  ⟨((SortedMap.empty.insert ["data"] .directory).insert ["data", "d"] .directory).insert
    ["data", "d", "t.json"] (.file (.ofBytes lackingFile.encode))⟩

/-- The engine that is opened on the disk. -/
def lackingEngine : Engine :=
  new (.ofDirectory lackingDisk ⟨["data"]⟩)

/-- An insertion into the table of the file. -/
def lackingScript : List Char :=
  "USE d; INSERT INTO t VALUES (2, 1)".toList

theorem execute_lackingScript :
    (lackingEngine.execute defaultSession lackingScript).1 = .error (.missingCell "n") := by
  decide +kernel

theorem execute_returns_lackingScript : ∃ place content file,
    (lackingEngine.execute defaultSession lackingScript).1 = .error (.missingCell "n") ∧
      lackingDisk.entries.get? place = some (.file content) ∧
      TableFile.decode (content.bytes ()) = .ok file ∧ file.Lacks "n" := by
  have hends := execute_lackingScript
  have hreaches : (new (.ofDirectory lackingDisk ⟨["data"]⟩)).Reaches lackingEngine := .refl
  obtain ⟨answers, h⟩ | ⟨e, h⟩ | ⟨name, place, content, file, h, hplace, hfile, hlacks⟩ :=
    execute_returns hreaches defaultSession lackingScript
  all_goals
    rw [hends] at h
    cases h
  exact ⟨place, content, file, hends, hplace, hfile, hlacks⟩

/-- Not every call returns. -/
theorem not_execute_returns : ¬∀ (disk : Disk) (path : Path) (engine : Engine),
    (new (.ofDirectory disk path)).Reaches engine → ∀ (session : SessionId) (script : List Char),
      (∃ answers, (engine.execute session script).1 = .ok answers) ∨
        ∃ e, (engine.execute session script).1 = .error (.error e) := by
  intro h
  have hends := execute_lackingScript
  obtain ⟨answers, hreturns⟩ | ⟨e, hreturns⟩ :=
    h lackingDisk ⟨["data"]⟩ lackingEngine .refl defaultSession lackingScript
  · rw [hends] at hreturns
    nomatch hreturns
  · rw [hends] at hreturns
    nomatch hreturns

end Engine

end Relational
