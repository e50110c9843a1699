import Relational.Proofs.Schema.Definition
import Relational.Proofs.Store.Operation

/-!
# Sound tables

What is true of every table that scripts can make (`Table.Sound`), beyond being coherent: its schema
is one that a definition can have, but for indexes that were created later; its rows fit the
columns; and its indexes are those that the schema names, each over the columns that the schema
gives it, where that is one column. Several unique keys of a definition can share a name, so nothing
of the kind is true of indexes over several columns.
-/

namespace Relational

open Std

/-- What a table has that scripts can make. -/
structure Table.Sound (table : Table) : Prop where
  coherent : table.Coherent
  nodup : table.schema.columnNames.Nodup
  marked (name : String) : name ∈ table.schema.primaryKeys →
    Schema.IsMarked table.schema.columns name
  fits (column : Column) : column ∈ table.schema.columns → column.Fits
  rowFits (id : RowId) (row : Row) :
    table.rows.get? id = some row → row.Fits table.schema.columns
  index (definition : IndexDefinition) : definition ∈ table.schema.indexes →
    ∃ index, table.indexes.get? definition.name = some index ∧
      (definition.columns.length = 1 → index.columns = definition.columns)
  defined (name : String) : table.indexes.contains name = true →
    ∃ definition ∈ table.schema.indexes, definition.name = name

namespace Table

variable {table table' : Table}

/-! ## New tables -/

theorem contains_indexes_foldl_buildIndex (definitions : List IndexDefinition) (name : String) :
    (definitions.foldl buildIndex table).indexes.contains name = true ↔
      table.indexes.contains name = true ∨ ∃ d ∈ definitions, d.name = name := by
  induction definitions generalizing table with
  | nil => simp
  | cons d definitions ih =>
    rw [List.foldl_cons, ih, buildIndex, SortedMap.contains_insert]
    simp only [Bool.or_eq_true, decide_eq_true_eq, List.mem_cons, exists_eq_or_imp]
    rw [@eq_comm _ name, or_comm (a := d.name = name), or_assoc]

theorem sound_ofSchema {schema : Schema} (h : schema.Defined) : (ofSchema schema).Sound := by
  have hcontains (name : String) : (ofSchema schema).indexes.contains name = true ↔
      ∃ d ∈ schema.indexes, d.name = name := by
    rw [ofSchema, contains_indexes_foldl_buildIndex]
    simp [SortedMap.contains, SortedMap.get?_empty]
  refine ⟨coherent_ofSchema schema, ?_, ?_, ?_, fun id row hrow => ?_, fun d hd => ?_, ?_⟩
  · rw [schema_ofSchema]
    exact h.nodup
  · rw [schema_ofSchema]
    exact h.marked
  · rw [schema_ofSchema]
    exact h.fits
  · rw [rows_ofSchema, SortedMap.get?_empty] at hrow
    simp at hrow
  · rw [schema_ofSchema] at hd
    obtain ⟨index, hindex⟩ := SortedMap.contains_iff.mp ((hcontains d.name).mpr ⟨d, hd, rfl⟩)
    exact ⟨index, hindex, fun hone => absurd hone (h.indexes d hd).1⟩
  · intro name hname
    rw [schema_ofSchema]
    exact (hcontains name).mp hname

/-! ## Changed tables -/

theorem Sound.insert (h : table.Sound) {row : Row} {id : RowId}
    (hinsert : table.insert row = .ok (id, table')) : table'.Sound := by
  have hcoherent := h.coherent.insert hinsert
  obtain ⟨stored, hstored, -, -, -, -, rfl⟩ := insert_eq_ok_iff.mp hinsert
  refine ⟨hcoherent, h.nodup, h.marked, h.fits, fun i r hr => ?_, fun d hd => ?_,
    fun name hname => ?_⟩
  · rw [SortedMap.get?_insert] at hr
    split at hr
    · rw [← Option.some.inj hr]
      exact Schema.fits_of_validate h.nodup hstored
    · exact h.rowFits i r hr
  · obtain ⟨index, hindex, hcolumns⟩ := h.index d hd
    refine ⟨index.add id stored, ?_, fun hone => ?_⟩
    · rw [SortedMap.get?_map, hindex, Option.map_some]
    · rw [Index.columns_add, hcolumns hone]
  · rw [SortedMap.contains_map] at hname
    exact h.defined name hname

theorem Sound.delete (h : table.Sound) (ids : SortedSet RowId) : (table.delete ids).2.Sound := by
  refine ⟨h.coherent.delete ids, h.nodup, h.marked, h.fits, fun i r hr => ?_,
    fun d hd => ?_, fun name hname => ?_⟩
  · exact h.rowFits i r (get?_delete.mp hr).1
  · obtain ⟨index, hindex, hcolumns⟩ := h.index d hd
    refine ⟨index.removeAll (table.rows.restrict ids), ?_, fun hone => ?_⟩
    · rw [Table.delete, SortedMap.get?_map, hindex, Option.map_some]
    · rw [Index.columns_removeAll, hcolumns hone]
  · rw [Table.delete, SortedMap.contains_map] at hname
    exact h.defined name hname

theorem Sound.createIndex (h : table.Sound) {definition : IndexDefinition}
    (hcreate : table.createIndex definition = .ok table') : table'.Sound := by
  have hcoherent := h.coherent.createIndex hcreate
  obtain ⟨hnew, -, -, rfl⟩ := createIndex_eq_ok_iff.mp hcreate
  refine ⟨hcoherent, h.nodup, h.marked, h.fits, h.rowFits, fun d hd => ?_, fun name hname => ?_⟩
  · rw [SortedMap.get?_insert]
    rcases List.mem_append.mp hd with hd | hd
    · obtain ⟨index, hindex, hcolumns⟩ := h.index d hd
      have hne : d.name ≠ definition.name := by
        intro he
        rw [← he, SortedMap.contains_of_get? hindex] at hnew
        simp at hnew
      exact ⟨index, by rw [if_neg hne, hindex], hcolumns⟩
    · rw [List.mem_singleton.mp hd, if_pos rfl]
      exact ⟨_, rfl, fun _ => Index.columns_build _ _⟩
  · rw [SortedMap.contains_insert, Bool.or_eq_true, decide_eq_true_iff] at hname
    rcases hname with rfl | hname
    · exact ⟨definition, List.mem_append_right _ List.mem_cons_self, rfl⟩
    · obtain ⟨d, hd, hdname⟩ := h.defined name hname
      exact ⟨d, List.mem_append_left _ hd, hdname⟩

/-! ## Rows -/

/-- Every stored row is known by one key. -/
theorem Coherent.parts (h : table.Coherent) {id : RowId} {row : Row}
    (hrow : table.rows.get? id = some row) : ∃ key, id = .ofKey key :=
  ⟨_, h.rowId id row hrow⟩

/-- Every column has a cell of its kind in every stored row. -/
theorem Sound.cell (h : table.Sound) {id : RowId} {row : Row} {name : String} {column : Column}
    (hrow : table.rows.get? id = some row) (hcolumn : table.schema.column? name = some column) :
    row.get? name = some (row.cell name) ∧ column.type.Has (row.cell name) := by
  obtain ⟨hmem, rfl⟩ := (Schema.column?_eq_some_iff h.nodup).mp hcolumn
  obtain ⟨value, hvalue, htakes⟩ := (h.rowFits id row hrow).cell column hmem
  rw [Row.cell, hvalue]
  exact ⟨rfl, htakes.has⟩

/-- No stored row has a null under a column of the primary key. -/
theorem Sound.cell_ne_null (h : table.Sound) {id : RowId} {row : Row} {name : String}
    (hrow : table.rows.get? id = some row) (hname : name ∈ table.schema.primaryKeys) :
    row.cell name ≠ .null := by
  obtain ⟨column, hmem, rfl, hkey⟩ := h.marked name hname
  obtain ⟨value, hvalue, htakes⟩ := (h.rowFits id row hrow).cell column hmem
  rw [Row.cell, hvalue]
  exact htakes.ne_null (.inr hkey)

end Table

namespace Store

/-- Operations that scripts ask for make tables of definitions. -/
def Operation.IsDefined (op : Operation) : Prop :=
  ∀ database schema, op = .createTable database schema → schema.Defined

theorem Operation.Makes.sound {op : Operation} {table : Table} (h : op.Makes table)
    (hop : op.IsDefined) : table.Sound := by
  cases h with
  | createTable database hkeys hfound => exact Table.sound_ofSchema (hop database _ rfl)

theorem Operation.Changes.sound {op : Operation} {table table' : Table}
    (h : op.Changes table table') (hsound : table.Sound) : table'.Sound := by
  cases h with
  | createIndex database name h => exact hsound.createIndex h
  | insertRow database name h => exact hsound.insert h
  | deleteRows database name ids table => exact hsound.delete ids

theorem All.sound_run {store : Store} {ops : List Operation} (h : store.All Table.Sound)
    (hops : ∀ op ∈ ops, op.IsDefined) : (store.run ops).All Table.Sound :=
  h.run (fun op hop _ hmakes => hmakes.sound (hops op hop))
    fun _ _ _ _ hsound hchanges => hchanges.sound hsound

end Store

end Relational
