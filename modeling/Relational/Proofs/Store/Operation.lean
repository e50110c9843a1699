import Relational.Proofs.Table.Coherent
import Relational.Store

/-!
# Runs of stores

A store changes by operations (`Store.Operation`), in any order and with any arguments; one that
fails leaves it as it was, and `Store.Step` says what one that succeeds makes of it
(`Store.step_of_result`). `Store.holds_after` says once where the tables of a store come from after
an operation: they were there, they are new (`Operation.Makes`), or the operation changed one
(`Operation.Changes`). What new tables have and what changes keep is had by all tables of a run
(`Store.All.run`).
-/

namespace Relational.Store

open Std

/-- What changes a store, with all that it is given. -/
inductive Operation where
  | createDatabase (name : String)
  | dropDatabase (name : String)
  | createTable (database : String) (schema : Schema)
  | dropTable (database table : String)
  | createIndex (database table : String) (definition : IndexDefinition)
  | insertRow (database table : String) (row : Row)
  | deleteRows (database table : String) (ids : SortedSet RowId)

/-- The store that an operation returns, if it succeeds. -/
def result (store : Store) : Operation → Except Failure Store
  | .createDatabase name => Failure.lift (store.createDatabase name)
  | .dropDatabase name => Failure.lift (store.dropDatabase name)
  | .createTable database schema => Failure.lift (store.createTable database schema)
  | .dropTable database table => Failure.lift (store.dropTable database table)
  | .createIndex database table definition =>
    Failure.lift (store.createIndex database table definition)
  | .insertRow database table row => (store.insertRow database table row).map (·.2)
  | .deleteRows database table ids =>
    Failure.lift ((store.deleteRows database table ids).map (·.2))

/-- The store behind an operation, which may have failed. -/
def after (store : Store) (op : Operation) : Store :=
  match store.result op with
  | .ok store => store
  | .error _ => store

/-- The store behind operations, one after the other. -/
def run (store : Store) (ops : List Operation) : Store :=
  ops.foldl after store

/-- A database of the store has a table under a name. -/
def Holds (store : Store) (database name : String) (table : Table) : Prop :=
  ∃ tables, store.databases.get? database = some tables ∧ tables.get? name = some table

variable {store : Store} {database name : String} {table : Table}

theorem database_eq_ok_iff {tables : Database} :
    store.database name = .ok tables ↔ store.databases.get? name = some tables := by
  unfold Store.database
  split
  · rename_i tables' h
    rw [h, Except.ok.injEq, Option.some.injEq]
  · rename_i h
    simp [h]

theorem table_eq_ok_iff : store.table database name = .ok table ↔ store.Holds database name table := by
  rw [Store.table, bind_eq_ok_iff]
  refine exists_congr fun tables => and_congr database_eq_ok_iff ?_
  split
  · rename_i table' h
    rw [h, Except.ok.injEq, Option.some.injEq]
  · rename_i h
    simp [h]

theorem Holds.unique {table' : Table} (h : store.Holds database name table)
    (h' : store.Holds database name table') : table = table' := by
  obtain ⟨tables, htables, htable⟩ := h
  obtain ⟨tables', htables', htable'⟩ := h'
  rw [htables, Option.some.injEq] at htables'
  rw [← htables', htable] at htable'
  exact Option.some.inj htable'

theorem Holds.contains (h : store.Holds database name table) :
    store.databases.contains database = true := by
  obtain ⟨tables, htables, -⟩ := h
  exact SortedMap.contains_of_get? htables

/-- A database that is missing has no tables. -/
theorem holds_iff_getD : store.Holds database name table ↔
    ((store.databases.get? database).getD .empty).get? name = some table := by
  unfold Holds
  cases store.databases.get? database with
  | none => simp [SortedMap.get?_empty]
  | some tables => simp

theorem holds_put_iff {database' : String} {put : Table} :
    (store.put database put).Holds database' name table ↔
      database' = database ∧ name = put.schema.name ∧ table = put ∨
      ¬(database' = database ∧ name = put.schema.name) ∧ store.Holds database' name table := by
  rw [holds_iff_getD, holds_iff_getD, Store.put, SortedMap.get?_insert]
  split
  · rename_i hd
    rw [Option.getD_some, SortedMap.get?_insert, hd]
    split
    · rename_i hn
      simp [hn, eq_comm]
    · rename_i hn
      simp [hn]
  · rename_i hd
    simp [hd]

theorem holds_put {database' : String} {put : Table}
    (h : (store.put database put).Holds database' name table) :
    store.Holds database' name table ∨ name = put.schema.name ∧ table = put :=
  (holds_put_iff.mp h).elim (fun h => .inr h.2) (fun h => .inl h.2)

/-- A table that is held already is not changed by putting it there. -/
theorem put_of_holds (h : store.Holds database table.schema.name table) :
    store.put database table = store := by
  obtain ⟨tables, htables, htable⟩ := h
  rw [Store.put, htables, Option.getD_some, SortedMap.insert_of_get? htable,
    SortedMap.insert_of_get? htables]

theorem contains_put {database' : String} :
    (store.put database table).databases.contains database' = true ↔
      database' = database ∨ store.databases.contains database' = true := by
  rw [put, SortedMap.contains_insert, Bool.or_eq_true, decide_eq_true_iff]

theorem holds_insert_iff {new : String} :
    (Store.mk (store.databases.insert new .empty)).Holds database name table ↔
      database ≠ new ∧ store.Holds database name table := by
  rw [holds_iff_getD, holds_iff_getD, SortedMap.get?_insert]
  split <;> simp_all [SortedMap.get?_empty]

theorem holds_erase_iff {old : String} :
    (Store.mk (store.databases.erase old)).Holds database name table ↔
      database ≠ old ∧ store.Holds database name table := by
  rw [Holds, SortedMap.get?_erase]
  split <;> simp_all [Holds]

theorem holds_eraseTable_iff {database' old : String} {tables : Database}
    (htables : store.databases.get? database' = some tables) :
    (Store.mk (store.databases.insert database' (tables.erase old))).Holds database name table ↔
      ¬(database = database' ∧ name = old) ∧ store.Holds database name table := by
  rw [holds_iff_getD, holds_iff_getD, SortedMap.get?_insert]
  split
  · rename_i hd
    rw [Option.getD_some, SortedMap.get?_erase, hd, htables]
    split <;> simp_all
  · rename_i hd
    simp [hd]

/-! ## What operations do to tables -/

/-- The operation makes a table. -/
inductive Operation.Makes : Operation → Table → Prop
  | createTable (database : String) {schema : Schema} :
    schema.primaryKeys ≠ [] → (∀ name ∈ schema.primaryKeys, name ∈ schema.columnNames) →
      Makes (.createTable database schema) (.ofSchema schema)

/-- The operation makes a table of another. -/
inductive Operation.Changes : Operation → Table → Table → Prop
  | createIndex (database name : String) {definition : IndexDefinition} {table table' : Table} :
    table.createIndex definition = .ok table' →
      Changes (.createIndex database name definition) table table'
  | insertRow (database name : String) {row : Row} {id : RowId} {table table' : Table} :
    table.insert row = .ok (id, table') → Changes (.insertRow database name row) table table'
  | deleteRows (database name : String) (ids : SortedSet RowId) (table : Table) :
    Changes (.deleteRows database name ids) table (table.delete ids).2

/-- Of its schema, a table changes no more than the indexes. -/
theorem Operation.Changes.exists_schema {op : Operation} {table' : Table}
    (h : op.Changes table table') : ∃ indexes, table'.schema = { table.schema with indexes } := by
  cases h with
  | createIndex database name h =>
    obtain ⟨-, -, -, rfl⟩ := Table.createIndex_eq_ok_iff.mp h
    exact ⟨_, rfl⟩
  | insertRow database name h =>
    obtain ⟨-, -, -, -, -, -, rfl⟩ := Table.insert_eq_ok_iff.mp h
    exact ⟨_, rfl⟩
  | deleteRows => exact ⟨_, rfl⟩

theorem Operation.Changes.schema_name {op : Operation} {table' : Table} (h : op.Changes table table') :
    table'.schema.name = table.schema.name := by
  obtain ⟨indexes, hschema⟩ := h.exists_schema
  rw [hschema]

theorem Operation.Changes.columns {op : Operation} {table' : Table} (h : op.Changes table table') :
    table'.schema.columns = table.schema.columns := by
  obtain ⟨indexes, hschema⟩ := h.exists_schema
  rw [hschema]

/-- The table keeps the indexes that it has. -/
theorem Operation.Changes.contains {op : Operation} {table' : Table} (h : op.Changes table table')
    {index : String} (hindex : table.indexes.contains index = true) :
    table'.indexes.contains index = true := by
  cases h with
  | createIndex database name h =>
    obtain ⟨-, -, -, rfl⟩ := Table.createIndex_eq_ok_iff.mp h
    rw [SortedMap.contains_insert, hindex, Bool.or_true]
  | insertRow database name h =>
    obtain ⟨-, -, -, -, -, -, rfl⟩ := Table.insert_eq_ok_iff.mp h
    rw [SortedMap.contains_map, hindex]
  | deleteRows => rw [Table.delete, SortedMap.contains_map, hindex]

theorem createTable_eq_ok_iff {schema : Schema} {store' : Store} :
    store.createTable database schema = .ok store' ↔
      (∃ tables, store.databases.get? database = some tables ∧
        tables.contains schema.name = false) ∧
      schema.primaryKeys ≠ [] ∧ (∀ name ∈ schema.primaryKeys, name ∈ schema.columnNames) ∧
      store' = store.put database (.ofSchema schema) := by
  simp only [createTable, bind_eq_ok_iff, guard_eq_ok_iff, database_eq_ok_iff,
    Bool.not_eq_true, List.isEmpty_eq_false_iff]
  constructor
  · rintro ⟨tables, htables, hname, hkeys, h⟩
    refine ⟨⟨tables, htables, hname⟩, hkeys, ?_⟩
    split at h
    · simp at h
    · rename_i hfound
      exact ⟨Schema.find?_missing_eq_none_iff.mp hfound, (Except.ok.inj h).symm⟩
  · rintro ⟨⟨tables, htables, hname⟩, hkeys, hfound, rfl⟩
    refine ⟨tables, htables, hname, hkeys, ?_⟩
    rw [Schema.find?_missing_eq_none_iff.mpr hfound]
    rfl

theorem dropTable_eq_ok_iff {store' : Store} :
    store.dropTable database name = .ok store' ↔
      ∃ tables, store.databases.get? database = some tables ∧ tables.contains name = true ∧
        store' = ⟨store.databases.insert database (tables.erase name)⟩ := by
  simp only [dropTable, bind_eq_ok_iff, database_eq_ok_iff]
  refine exists_congr fun tables => and_congr_right fun _ => ?_
  split
  · rename_i h
    exact ⟨fun h' => ⟨h, (Except.ok.inj h').symm⟩, fun h' => h'.2 ▸ rfl⟩
  · rename_i h
    exact ⟨by rintro ⟨⟩, fun h' => absurd h'.1 h⟩

/-- The operation changes a table of a database. -/
inductive Operation.Targets : Operation → String → String → Prop
  | createIndex (database name : String) (definition : IndexDefinition) :
    Targets (.createIndex database name definition) database name
  | insertRow (database name : String) (row : Row) :
    Targets (.insertRow database name row) database name
  | deleteRows (database name : String) (ids : SortedSet RowId) :
    Targets (.deleteRows database name ids) database name

theorem result_of_targets {op : Operation} {store' : Store} (htargets : op.Targets database name)
    (hop : store.result op = .ok store') :
    ∃ old new, store.Holds database name old ∧ op.Changes old new ∧
      store' = store.put database new := by
  cases htargets with
  | createIndex _ _ definition =>
    rw [result, lift_eq_ok_iff, createIndex, bind_eq_ok_iff] at hop
    obtain ⟨old, hold, hop⟩ := hop
    obtain ⟨new, hnew, hop⟩ := bind_eq_ok_iff.mp hop
    exact ⟨old, new, table_eq_ok_iff.mp hold, .createIndex _ _ hnew, (Except.ok.inj hop).symm⟩
  | insertRow _ _ row =>
    rw [result, map_eq_ok_iff] at hop
    obtain ⟨⟨id, _⟩, hop, rfl⟩ := hop
    simp only [insertRow, bind_eq_ok_iff, lift_eq_ok_iff] at hop
    obtain ⟨old, hold, ⟨id', new⟩, hnew, hop⟩ := hop
    obtain ⟨-, rfl⟩ := Prod.mk.inj (Except.ok.inj hop)
    exact ⟨old, new, table_eq_ok_iff.mp hold, .insertRow _ _ hnew, rfl⟩
  | deleteRows _ _ ids =>
    rw [result, lift_eq_ok_iff, map_eq_ok_iff] at hop
    obtain ⟨⟨count, _⟩, hop, rfl⟩ := hop
    simp only [deleteRows, bind_eq_ok_iff] at hop
    obtain ⟨old, hold, hop⟩ := hop
    obtain ⟨-, rfl⟩ := Prod.mk.inj (Except.ok.inj hop)
    exact ⟨old, _, table_eq_ok_iff.mp hold, .deleteRows _ _ ids old, rfl⟩

/-- What an operation that succeeds makes of a store. -/
inductive Step (store : Store) : Operation → Store → Prop
  | createDatabase {name : String} (hnew : store.databases.contains name = false) :
    Step store (.createDatabase name) ⟨store.databases.insert name .empty⟩
  | dropDatabase {name : String} (hold : store.databases.contains name = true) :
    Step store (.dropDatabase name) ⟨store.databases.erase name⟩
  | createTable {database : String} {schema : Schema} {tables : Database}
    (htables : store.databases.get? database = some tables)
    (hnew : tables.contains schema.name = false)
    (hmakes : Operation.Makes (.createTable database schema) (.ofSchema schema)) :
    Step store (.createTable database schema) (store.put database (.ofSchema schema))
  | dropTable {database name : String} {tables : Database}
    (htables : store.databases.get? database = some tables) (hold : tables.contains name = true) :
    Step store (.dropTable database name) ⟨store.databases.insert database (tables.erase name)⟩
  | change {op : Operation} {database name : String} {old new : Table}
    (htargets : op.Targets database name) (hold : store.Holds database name old)
    (hchanges : op.Changes old new) : Step store op (store.put database new)

theorem step_of_result {op : Operation} {store' : Store} (hop : store.result op = .ok store') :
    store.Step op store' := by
  have htarget {database name : String} (htargets : op.Targets database name) :
      store.Step op store' := by
    obtain ⟨old, new, hold, hchanges, rfl⟩ := result_of_targets htargets hop
    exact .change htargets hold hchanges
  cases op with
  | createDatabase name =>
    rw [result, lift_eq_ok_iff, createDatabase] at hop
    split at hop
    · cases hop
    · rename_i hnew
      cases hop
      exact .createDatabase (Bool.eq_false_iff.mpr hnew)
  | dropDatabase name =>
    rw [result, lift_eq_ok_iff, dropDatabase, bind_eq_ok_iff] at hop
    obtain ⟨tables, htables, hop⟩ := hop
    cases hop
    exact .dropDatabase (SortedMap.contains_of_get? (database_eq_ok_iff.mp htables))
  | createTable database schema =>
    rw [result, lift_eq_ok_iff, createTable_eq_ok_iff] at hop
    obtain ⟨⟨tables, htables, hnew⟩, hkeys, hcolumns, rfl⟩ := hop
    exact .createTable htables hnew (.createTable database hkeys hcolumns)
  | dropTable database name =>
    rw [result, lift_eq_ok_iff, dropTable_eq_ok_iff] at hop
    obtain ⟨tables, htables, hold, rfl⟩ := hop
    exact .dropTable htables hold
  | createIndex => exact htarget (.createIndex ..)
  | insertRow => exact htarget (.insertRow ..)
  | deleteRows => exact htarget (.deleteRows ..)

/-- Where the tables behind an operation come from. -/
theorem holds_result {op : Operation} {store' : Store} (hop : store.result op = .ok store')
    (h : store'.Holds database name table) :
    store.Holds database name table ∨ op.Makes table ∧ name = table.schema.name ∨
      ∃ database' name' table', store.Holds database' name' table' ∧ op.Changes table' table ∧
        name = table.schema.name := by
  cases step_of_result hop with
  | createDatabase => exact .inl (holds_insert_iff.mp h).2
  | dropDatabase => exact .inl (holds_erase_iff.mp h).2
  | createTable _ _ hmakes =>
    obtain hheld | ⟨hname, rfl⟩ := holds_put h
    · exact .inl hheld
    · exact .inr (.inl ⟨hmakes, hname⟩)
  | dropTable htables => exact .inl ((holds_eraseTable_iff htables).mp h).2
  | change _ hold hchanges =>
    obtain hheld | ⟨hname, rfl⟩ := holds_put h
    · exact .inl hheld
    · exact .inr (.inr ⟨_, _, _, hold, hchanges, hname⟩)

theorem holds_after {op : Operation} (h : (store.after op).Holds database name table) :
    store.Holds database name table ∨ op.Makes table ∧ name = table.schema.name ∨
      ∃ database' name' table', store.Holds database' name' table' ∧ op.Changes table' table ∧
        name = table.schema.name := by
  unfold after at h
  split at h
  · rename_i store' hop
    exact holds_result hop h
  · exact .inl h

/-! ## What all tables have -/

/-- Every table of the store has a property. -/
def All (P : Table → Prop) (store : Store) : Prop :=
  ∀ database name table, store.Holds database name table → P table

variable {P : Table → Prop}

instance [DecidablePred P] : Decidable (store.All P) :=
  decidable_of_iff (∀ tables ∈ store.databases.values, ∀ table ∈ tables.values, P table) <| by
    simp only [SortedMap.forall_mem_values]
    exact ⟨fun h database name table ⟨tables, htables, htable⟩ =>
        h database tables htables name table htable,
      fun h database tables htables name table htable =>
        h database name table ⟨tables, htables, htable⟩⟩

theorem all_empty : All P empty := by
  rintro database name table ⟨tables, htables, -⟩
  rw [empty, SortedMap.get?_empty] at htables
  simp at htables

theorem All.after {op : Operation} (h : All P store) (hmakes : ∀ table, op.Makes table → P table)
    (hchanges : ∀ table table', P table → op.Changes table table' → P table') :
    All P (store.after op) := by
  intro database name table htable
  rcases holds_after htable with htable | ⟨htable, -⟩ | ⟨database', name', old, hold, htable, -⟩
  · exact h database name table htable
  · exact hmakes table htable
  · exact hchanges old table (h database' name' old hold) htable

/-- What new tables have and changes keep is had by all tables of a run. -/
theorem All.run {ops : List Operation} (h : All P store)
    (hmakes : ∀ op ∈ ops, ∀ table, op.Makes table → P table)
    (hchanges : ∀ op ∈ ops, ∀ table table', P table → op.Changes table table' → P table') :
    All P (store.run ops) := by
  induction ops generalizing store with
  | nil => exact h
  | cons op ops ih =>
    have hop := h.after (hmakes op List.mem_cons_self) (hchanges op List.mem_cons_self)
    exact ih hop (fun op' hop' => hmakes op' (List.mem_cons_of_mem _ hop'))
      fun op' hop' => hchanges op' (List.mem_cons_of_mem _ hop')

theorem Operation.Makes.coherent {op : Operation} (h : op.Makes table) : table.Coherent := by
  cases h with
  | createTable database hkeys hfound => exact Table.coherent_ofSchema _

theorem Operation.Changes.coherent {op : Operation} {table' : Table} (h : op.Changes table table')
    (hcoherent : table.Coherent) : table'.Coherent := by
  cases h with
  | createIndex database name h => exact hcoherent.createIndex h
  | insertRow database name h => exact hcoherent.insert h
  | deleteRows database name ids table => exact hcoherent.delete ids

/-- Every table is held under its own name. -/
def Named (store : Store) : Prop :=
  ∀ database name table, store.Holds database name table → name = table.schema.name

theorem named_empty : Named empty := by
  rintro database name table ⟨tables, htables, -⟩
  rw [empty, SortedMap.get?_empty] at htables
  simp at htables

theorem Named.run (h : store.Named) (ops : List Operation) : (store.run ops).Named := by
  induction ops generalizing store with
  | nil => exact h
  | cons op ops ih =>
    have hop : (store.after op).Named := by
      intro database name table htable
      rcases holds_after htable with htable | ⟨-, hname⟩ | ⟨-, -, -, -, -, hname⟩
      · exact h database name table htable
      · exact hname
      · exact hname
    exact ih hop

/-- In every state of a store, whatever was asked of it, every table has its rows under their
identities, and each of its indexes leads every key to the rows that have it and to no others,
without an entry that has no rows and without rows that have a null under an indexed column; a
unique index leads a key to one row at most. -/
theorem coherent_of_run (ops : List Operation) (database name : String) (table : Table)
    (h : (empty.run ops).Holds database name table) : table.Coherent :=
  all_empty.run (fun _ _ _ => Operation.Makes.coherent)
    (fun _ _ _ _ hcoherent hchanges => hchanges.coherent hcoherent) database name table h

/-- A run whose last insertion is refused by a unique index, beside a row with a null in it. -/
def refusedRun : List Operation :=
  [.createDatabase "d",
    .createTable "d"
      ⟨"t", [⟨"id", .int, false, true, false⟩, ⟨"n", .int, true, false, false⟩], ["id"], []⟩,
    .createIndex "d" "t" ⟨"i", ["n"], true⟩,
    .insertRow "d" "t" (.ofList [("id", .int 0), ("n", .null)]),
    .insertRow "d" "t" (.ofList [("id", .int ⟨1, by decide, by decide⟩), ("n", .int 0)]),
    .insertRow "d" "t" (.ofList [("id", .int ⟨2, by decide, by decide⟩), ("n", .int 0)])]

theorem coherent_of_refusedRun :
    ∃ table, (empty.run refusedRun).Holds "d" "t" table ∧ table.rows.size = 2 ∧ table.Coherent :=
  ⟨_, ⟨_, rfl, rfl⟩, by decide, coherent_of_run refusedRun "d" "t" _ ⟨_, rfl, rfl⟩⟩

end Relational.Store
