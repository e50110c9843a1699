import Relational.Proofs.Store.Operation

/-!
# Indexes built anew

An index is at any time what would be built from the rows that the table has, by the definition that
the schema has for it (`Store.rebuilt_of_run`). Several definitions of a schema can share a name; the
index is that of the last of them (`Schema.definition?`), and it keeps its columns and whether it is
unique (`Table.Shaped`). So it is the one that is built: both know the same rows by the same columns.
-/

namespace Relational

open Store (Operation)

/-- The definition of an index: the last under its name. -/
def Schema.definition? (schema : Schema) (name : String) : Option IndexDefinition :=
  schema.indexes.reverse.find? (·.name = name)

theorem Index.knows_build (definition : IndexDefinition) (rows : SortedMap RowId Row) :
    (build definition rows).Knows fun id row => rows.get? id = some row :=
  ((knows_ofDefinition definition).foldl_add rows.entries).congr fun id row => by
    rw [false_or, SortedMap.mem_entries_iff]

namespace Table

variable {table table' : Table}

/-- The table with its indexes built from its rows, as the schema defines them. -/
def rebuilt (table : Table) : Table :=
  table.schema.indexes.foldl buildIndex ⟨table.schema, table.rows, .empty⟩

theorem foldl_buildIndex (definitions : List IndexDefinition) :
    definitions.foldl buildIndex table = { table with
      indexes := definitions.foldl (fun indexes d => indexes.insert d.name (.build d table.rows))
        table.indexes } := by
  induction definitions generalizing table with
  | nil => rfl
  | cons d definitions ih =>
    rw [List.foldl_cons, ih]
    rfl

theorem get?_rebuilt (table : Table) (name : String) :
    table.rebuilt.indexes.get? name =
      (table.schema.definition? name).map fun d => .build d table.rows := by
  rw [rebuilt, foldl_buildIndex]
  dsimp only
  rw [SortedMap.get?_foldl_insert, SortedMap.get?_empty, Option.or_none]
  rfl

/-- Nothing but the schema and the rows is looked at. -/
theorem rebuilt_congr (hschema : table'.schema = table.schema) (hrows : table'.rows = table.rows) :
    table'.rebuilt = table.rebuilt := by
  rw [rebuilt, hschema, hrows, rebuilt]

/-! ## Columns of indexes -/

/-- What an index keeps as rows come and go. -/
def shape (table : Table) (name : String) : Option (List String × Bool) :=
  (table.indexes.get? name).map fun index => (index.columns, index.unique)

/-- The indexes of the table are those that the schema defines. -/
def Shaped (table : Table) : Prop :=
  ∀ name, table.shape name =
    (table.schema.definition? name).map fun d => (d.columns, d.unique)

theorem shaped_rebuilt (table : Table) : table.rebuilt.Shaped := by
  intro name
  have hschema : table.rebuilt.schema = table.schema := schema_foldl_buildIndex _
  rw [shape, get?_rebuilt, Option.map_map, hschema]
  congr 1
  funext d
  rw [Function.comp_apply, Index.columns_build, Index.unique_build]

theorem shaped_ofSchema (schema : Schema) : (ofSchema schema).Shaped :=
  shaped_rebuilt ⟨schema, .empty, .empty⟩

theorem Shaped.insert (h : table.Shaped) {row : Row} {id : RowId}
    (hinsert : table.insert row = .ok (id, table')) : table'.Shaped := by
  obtain ⟨stored, -, -, -, -, -, rfl⟩ := insert_eq_ok_iff.mp hinsert
  intro name
  rw [← h name, shape, shape, SortedMap.get?_map, Option.map_map]
  congr 1
  funext index
  rw [Function.comp_apply, Index.columns_add, Index.unique_add]

theorem Shaped.delete (h : table.Shaped) (ids : SortedSet RowId) :
    (table.delete ids).2.Shaped := by
  intro name
  rw [Table.delete, shape, SortedMap.get?_map, Option.map_map, ← h name, shape]
  congr 1
  funext index
  rw [Function.comp_apply, Index.columns_removeAll, Index.unique_removeAll]

theorem Shaped.createIndex (h : table.Shaped) {definition : IndexDefinition}
    (hcreate : table.createIndex definition = .ok table') : table'.Shaped := by
  obtain ⟨-, -, -, rfl⟩ := createIndex_eq_ok_iff.mp hcreate
  intro name
  have hold := h name
  rw [shape, Schema.definition?] at hold
  rw [shape, SortedMap.get?_insert, Schema.definition?, List.reverse_append, List.reverse_singleton,
    List.singleton_append, List.find?_cons]
  by_cases hname : name = definition.name
  · rw [if_pos hname, decide_eq_true hname.symm, Option.map_some, Option.map_some,
      Index.columns_build, Index.unique_build]
  · rw [if_neg hname, hold, decide_eq_false (Ne.symm hname)]

/-- An index of the table is the one that is built anew. -/
theorem Coherent.rebuilt_eq (h : table.Coherent) (hshaped : table.Shaped) :
    table.rebuilt = table := by
  have hindexes : table.rebuilt.indexes = table.indexes := by
    refine SortedMap.ext fun name => ?_
    have hshape := hshaped name
    rw [shape] at hshape
    rw [get?_rebuilt]
    cases hindex : table.indexes.get? name with
    | none =>
      rw [hindex, Option.map_none, eq_comm, Option.map_eq_none_iff] at hshape
      rw [hshape, Option.map_none]
    | some index =>
      rw [hindex, Option.map_some, eq_comm, Option.map_eq_some_iff] at hshape
      obtain ⟨d, hd, hcolumns⟩ := hshape
      obtain ⟨hcolumns, hunique⟩ := Prod.mk.inj hcolumns
      rw [hd, Option.map_some, Option.some.injEq]
      refine (Index.knows_build d table.rows).ext (h.describes name index hindex).knows ?_ ?_
      · rw [Index.columns_build, hcolumns]
      · rw [Index.unique_build, hunique]
  have hschema : table.rebuilt.schema = table.schema := schema_foldl_buildIndex _
  have hrows : table.rebuilt.rows = table.rows := rows_foldl_buildIndex _
  calc table.rebuilt
      = ⟨table.rebuilt.schema, table.rebuilt.rows, table.rebuilt.indexes⟩ := rfl
    _ = table := by rw [hschema, hrows, hindexes]

end Table

namespace Store

theorem Operation.Makes.shaped {op : Operation} {table : Table} (h : op.Makes table) :
    table.Shaped := by
  cases h with
  | createTable database hkeys hfound => exact Table.shaped_ofSchema _

theorem Operation.Changes.shaped {op : Operation} {table table' : Table}
    (h : op.Changes table table') (hshaped : table.Shaped) : table'.Shaped := by
  cases h with
  | createIndex database name h => exact hshaped.createIndex h
  | insertRow database name h => exact hshaped.insert h
  | deleteRows database name ids table => exact hshaped.delete ids

/-- In every state of a store, whatever was asked of it, every index is the one that would be built
from the rows. -/
theorem rebuilt_of_run (ops : List Operation) :
    (empty.run ops).All fun table => table.rebuilt = table := by
  have hshaped : (empty.run ops).All Table.Shaped :=
    all_empty.run (fun _ _ _ => Operation.Makes.shaped)
      fun _ _ _ _ hshaped hchanges => hchanges.shaped hshaped
  have hcoherent : (empty.run ops).All Table.Coherent :=
    all_empty.run (fun _ _ _ => Operation.Makes.coherent)
      fun _ _ _ _ hcoherent hchanges => hchanges.coherent hcoherent
  exact fun database name table h => (hcoherent _ _ _ h).rebuilt_eq (hshaped _ _ _ h)

end Store

end Relational
