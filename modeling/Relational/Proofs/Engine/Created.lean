import Relational.Proofs.Engine.CreateIndex
import Relational.Proofs.Schema.Written
import Relational.Proofs.Script.Joined

/-!
# Created tables

Carrying out the written definition of a table makes a table with the schema that is meant
(`Engine.execute_definition`). It can fail only where the files of the table cannot be written, and
the table is there even then.
-/

namespace Relational

variable {database : String}

/-- An operation that has a result fails only where the disk does. -/
theorem Storage.perform_ok {α : Type} (storage : Storage) (a : α) (store : Store)
    (changes : DataDirectory → Store → List DiskChange) :
    (storage.perform (.ok (a, store)) changes).2.store = store ∧
      ((storage.perform (.ok (a, store)) changes).1 = .ok a ∨
        (storage.perform (.ok (a, store)) changes).1 = .error (.error .io) ∧
          ∃ directory, storage.directory = some directory ∧
            (directory.disk.applyAll (changes directory store)).1 = false) := by
  cases hdirectory : storage.directory with
  | none => simp [perform, hdirectory]
  | some directory =>
    cases happly : directory.disk.applyAll (changes directory store) with
    | mk all disk => cases all <;> simp [perform, hdirectory, happly]

theorem Store.createTable_definition {store : Store} {tables : Database}
    (definition : Written.Definition) (hdatabase : store.database database = .ok tables)
    (hmissing : tables.contains definition.table = false) :
    store.createTable database definition.schema =
      .ok (store.put database (.ofSchema definition.schema)) := by
  refine createTable_eq_ok_iff.mpr
    ⟨⟨tables, database_eq_ok_iff.mp hdatabase, hmissing⟩, definition.primaryKey_ne_nil, ?_, rfl⟩
  intro name hname
  rw [Schema.columnNames, definition.map_name_schema]
  exact definition.primaryKey_known name hname

namespace Engine

/-- What is left to do for a definition is an operation of the storage. -/
theorem perform_definition {engine : Engine} {session : SessionId} (definition : Written.Definition)
    (hcurrent : engine.currentDatabase? session = some database) :
    (Statement.createTable definition.table (Written.commas definition.items)).perform session engine =
      ((engine.storage.createTable database definition.schema).1.map fun _ =>
          .ofMessage ("Table " ++ definition.table ++ " created"),
        { engine with storage := (engine.storage.createTable database definition.schema).2 }) := by
  have hschema : (Work.ask fun _ => Schema.ofDefinition definition.table
      (Written.commas definition.items)) engine = (.ok definition.schema, engine) := by
    rw [Work.ask_run, definition.ofDefinition_text]
    rfl
  rw [Statement.perform, Work.bind_run, database_run, hcurrent]
  dsimp only
  rw [Work.bind_run, hschema]
  dsimp only
  rw [Work.bind_run, Work.storage]
  dsimp only
  cases (engine.storage.createTable database definition.schema).1 <;> rfl

/-- The definition of a table, carried out on a database without that table, makes a table with the
schema that is meant. The answer says so, unless the files of the table cannot be written. -/
theorem execute_definition {engine : Engine} {session : SessionId} {tables : Database}
    (definition : Written.Definition) (hcurrent : engine.currentDatabase? session = some database)
    (hdatabase : engine.storage.store.database database = .ok tables)
    (hmissing : tables.contains definition.table = false) :
    ∃ stored, (engine.execute session definition.text).2.storage.store.table database
        definition.table = .ok stored ∧
      stored.schema = definition.schema ∧
      ((engine.execute session definition.text).1 =
          .ok [{ fields := [], rows := [], messages := ["Table " ++ definition.table ++ " created"],
                 error := none }] ∨
        (engine.execute session definition.text).1 =
          .ok [{ fields := [], rows := [], messages := [],
                 error := some (Error.io.message engine.mode) }] ∧
          ∃ directory, engine.storage.directory = some directory ∧
            (directory.disk.applyAll (directory.writeTable database stored)).1 = false) := by
  have hcreate := Store.createTable_definition definition hdatabase hmissing
  have hholds : (engine.storage.store.put database (.ofSchema definition.schema)).table database
      definition.table = .ok (.ofSchema definition.schema) :=
    Store.table_eq_ok_iff.mpr (Store.holds_put_iff.mpr
      (.inl ⟨rfl, by rw [Table.schema_ofSchema]; rfl, rfl⟩))
  have hstorage : engine.storage.createTable database definition.schema =
      engine.storage.perform
        (.ok ((), engine.storage.store.put database (.ofSchema definition.schema)))
        (Storage.writeTable database definition.table) := by
    rw [Storage.createTable, hcreate]
    rfl
  obtain ⟨hstore, hresult⟩ := Storage.perform_ok engine.storage ()
    (engine.storage.store.put database (.ofSchema definition.schema))
    (Storage.writeTable database definition.table)
  rw [← hstorage] at hstore hresult
  have hscript := Script.batches_definition definition
  have hperform := perform_definition definition hcurrent
  cases hrun : engine.storage.createTable database definition.schema with
  | mk result storage =>
    rw [hrun] at hstore hresult hperform
    refine ⟨.ofSchema definition.schema, ?_⟩
    rcases hresult with rfl | ⟨rfl, directory, hdirectory, hfailed⟩
    · have hanswer : engine.execute session definition.text =
          (.ok [.ofMessage ("Table " ++ definition.table ++ " created")], { engine with storage }) :=
        (execute_single_iff hscript).mpr ⟨_, by rw [answer_eq, hperform]; rfl, rfl⟩
      rw [hanswer]
      exact ⟨hstore ▸ hholds, Table.schema_ofSchema _, .inl rfl⟩
    · have hanswer : engine.execute session definition.text =
          (.ok [.ofError (Error.io.message engine.mode)], { engine with storage }) :=
        (execute_single_iff hscript).mpr ⟨_, by rw [answer_eq, hperform]; rfl, rfl⟩
      rw [Storage.writeTable, hholds] at hfailed
      rw [hanswer]
      exact ⟨hstore ▸ hholds, Table.schema_ofSchema _, .inr ⟨rfl, directory, hdirectory, hfailed⟩⟩

end Engine

/-- A table whose name and columns are all named like keywords of its definition. -/
def Written.keywordDefinition : Definition where
  table := "TABLE"
  isWord := ⟨by decide, List.all_eq_true.mp (by decide +kernel)⟩
  fields :=
    [⟨"UNIQUE", ⟨by decide, List.all_eq_true.mp (by decide +kernel)⟩, .int, trivial, [.notNull]⟩,
      ⟨"PRIMARY", ⟨by decide, List.all_eq_true.mp (by decide +kernel)⟩, .varchar 40,
        (by decide : 40 < 18446744073709551616), [.unique, .notNull]⟩,
      ⟨"KEY", ⟨by decide, List.all_eq_true.mp (by decide +kernel)⟩, .date, trivial, []⟩]
  nodup := by decide
  primaryKey := ["KEY", "UNIQUE"]
  primaryKey_ne_nil := by simp
  primaryKey_known := by simp
  uniqueKeys := [["PRIMARY", "KEY"]]
  uniqueKeys_several := by simp
  uniqueKeys_known := by simp

namespace Engine

/-- An engine in memory whose default session uses a database without tables. -/
def blankEngine : Engine :=
  ((new .inMemory).execute defaultSession "CREATE DATABASE d; USE d".toList).2

/-- What the definition is written as. -/
def keywordScript : List Char :=
  "CREATE TABLE TABLE (UNIQUE INT NOT NULL, PRIMARY VARCHAR(40) UNIQUE NOT NULL, KEY DATE, ".toList ++
    "PRIMARY KEY (KEY, UNIQUE), UNIQUE (PRIMARY, KEY))".toList

/-- Names like keywords are taken for nothing else. -/
theorem execute_keywordDefinition :
    Written.keywordDefinition.text = keywordScript ∧
      ∃ stored, (blankEngine.execute defaultSession
          Written.keywordDefinition.text).2.storage.store.table "d" "TABLE" = .ok stored ∧
        stored.schema = ⟨"TABLE",
          [⟨"UNIQUE", .int, false, true, false⟩, ⟨"PRIMARY", .varchar 40, false, false, true⟩,
            ⟨"KEY", .date, false, true, false⟩],
          ["KEY", "UNIQUE"], [⟨"uq_TABLE_PRIMARY_KEY", ["PRIMARY", "KEY"], true⟩]⟩ ∧
        (blankEngine.execute defaultSession Written.keywordDefinition.text).1 =
          .ok [{ fields := [], rows := [], messages := ["Table TABLE created"], error := none }] := by
  have hscript : keywordScript = _ ++ _ :=
    congrArg₂ (· ++ ·) String.toList_ofList String.toList_ofList
  have htext : Written.keywordDefinition.text = keywordScript := by
    rewrite [hscript]
    decide +kernel
  have hdirectory : blankEngine.storage.directory.isSome = false := by decide +kernel
  obtain ⟨stored, hstored, hschema, hanswer⟩ := @execute_definition "d" blankEngine defaultSession .empty
    Written.keywordDefinition (by decide +kernel) (by decide +kernel) (by decide +kernel)
  refine ⟨htext, stored, hstored, hschema.trans (by decide +kernel), ?_⟩
  rcases hanswer with hanswer | ⟨-, directory, hsome, -⟩
  · exact hanswer
  · rw [hsome] at hdirectory
    cases hdirectory

end Engine

end Relational
