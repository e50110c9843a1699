import Relational.Proofs.Table.Sound

/-!
# Histories of tables

Where a table comes from (`Table.MadeBy`): a definition made it, and since then rows were inserted
and deleted, and indexes were created on it. Every table of a store that scripts made has a history
(`Store.All.isMade_run`), and keeps the columns that it began with (`MadeBy.schema`).
-/

namespace Relational

namespace Table

/-- The table was made under a name by a definition, and the indexes were created on it since then. -/
inductive MadeBy (name : String) (definition : List Char) : List IndexDefinition → Table → Prop
  | create {schema : Schema} : Schema.ofDefinition name definition = .ok schema →
    MadeBy name definition [] (.ofSchema schema)
  | insert {created : List IndexDefinition} {table table' : Table} {row : Row} {id : RowId} :
    MadeBy name definition created table → table.insert row = .ok (id, table') →
      MadeBy name definition created table'
  | delete {created : List IndexDefinition} {table : Table} (ids : SortedSet RowId) :
    MadeBy name definition created table → MadeBy name definition created (table.delete ids).2
  | createIndex {created : List IndexDefinition} {table table' : Table} {index : IndexDefinition} :
    MadeBy name definition created table → table.createIndex index = .ok table' →
      MadeBy name definition (created ++ [index]) table'

variable {name : String} {definition : List Char} {created : List IndexDefinition} {table : Table}

theorem MadeBy.sound (h : table.MadeBy name definition created) : table.Sound := by
  induction h with
  | create hschema => exact sound_ofSchema (Schema.defined_of_ofDefinition hschema).1
  | insert _ hinsert ih => exact ih.insert hinsert
  | delete ids _ ih => exact ih.delete ids
  | createIndex _ hcreate ih => exact ih.createIndex hcreate

/-- The schema is the one that the definition makes, but for the indexes that were created. -/
theorem MadeBy.schema (h : table.MadeBy name definition created) :
    ∃ schema, Schema.ofDefinition name definition = .ok schema ∧
      table.schema = { schema with indexes := schema.indexes ++ created } := by
  induction h with
  | @create schema hschema =>
    refine ⟨schema, hschema, ?_⟩
    rw [schema_ofSchema, List.append_nil]
  | insert _ hinsert ih =>
    obtain ⟨stored, -, -, -, -, -, rfl⟩ := insert_eq_ok_iff.mp hinsert
    exact ih
  | delete ids _ ih => exact ih
  | createIndex _ hcreate ih =>
    obtain ⟨schema, hschema, hsame⟩ := ih
    obtain ⟨-, -, -, rfl⟩ := createIndex_eq_ok_iff.mp hcreate
    refine ⟨schema, hschema, ?_⟩
    rw [hsame, List.append_assoc]

/-- The table has a history, under the name that it has. -/
def IsMade (table : Table) : Prop :=
  ∃ definition created, table.MadeBy table.schema.name definition created

end Table

namespace Store

/-- The tables that the operation makes are made by definitions. -/
def Operation.IsRead (op : Operation) : Prop :=
  ∀ database schema, op = .createTable database schema →
    ∃ definition, Schema.ofDefinition schema.name definition = .ok schema

theorem Operation.Makes.isMade {op : Operation} {table : Table} (h : op.Makes table)
    (hop : op.IsRead) : table.IsMade := by
  cases h with
  | createTable database hkeys hfound =>
    obtain ⟨definition, hschema⟩ := hop database _ rfl
    refine ⟨definition, [], ?_⟩
    rw [Table.schema_ofSchema]
    exact .create hschema

theorem Operation.Changes.isMade {op : Operation} {table table' : Table}
    (h : op.Changes table table') (hmade : table.IsMade) : table'.IsMade := by
  obtain ⟨definition, created, hmade⟩ := hmade
  cases h with
  | createIndex database name h =>
    have hnext := hmade.createIndex h
    obtain ⟨-, -, -, rfl⟩ := Table.createIndex_eq_ok_iff.mp h
    exact ⟨definition, _, hnext⟩
  | insertRow database name h =>
    have hnext := hmade.insert h
    obtain ⟨stored, -, -, -, -, -, rfl⟩ := Table.insert_eq_ok_iff.mp h
    exact ⟨definition, _, hnext⟩
  | deleteRows database name ids table => exact ⟨definition, created, hmade.delete ids⟩

theorem All.isMade_run {store : Store} {ops : List Operation} (h : store.All Table.IsMade)
    (hops : ∀ op ∈ ops, op.IsRead) : (store.run ops).All Table.IsMade :=
  h.run (fun op hop _ hmakes => hmakes.isMade (hops op hop))
    fun _ _ _ _ hmade hchanges => hchanges.isMade hmade

end Store

end Relational
