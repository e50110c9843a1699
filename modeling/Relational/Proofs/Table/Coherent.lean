import Relational.Proofs.Schema
import Relational.Proofs.Table.Index
import Relational.Table

/-!
# Coherent tables

A table is coherent (`Table.Coherent`) where every row is under its identity and every index
describes the rows. What an operation on a table can do is said once, by `insert_eq_ok_iff` and
`createIndex_eq_ok_iff`; from that, each operation leaves a coherent table coherent. An index may as
well be built in the table and taken away again if it is refused (`createIndexInPlace_eq`).
-/

namespace Relational.Table

open Std

/-- Every row is under its identity, and every index describes the rows. -/
structure Coherent (table : Table) : Prop where
  rowId (id : RowId) (row : Row) : table.rows.get? id = some row → id = table.schema.rowId row
  describes (name : String) (index : Index) :
    table.indexes.get? name = some index → index.Describes table.rows

variable {table : Table}

/-! ## Without rows -/

theorem schema_foldl_buildIndex (definitions : List IndexDefinition) :
    (definitions.foldl buildIndex table).schema = table.schema := by
  induction definitions generalizing table with
  | nil => rfl
  | cons d definitions ih => rw [List.foldl_cons, ih, buildIndex]

theorem rows_foldl_buildIndex (definitions : List IndexDefinition) :
    (definitions.foldl buildIndex table).rows = table.rows := by
  induction definitions generalizing table with
  | nil => rfl
  | cons d definitions ih => rw [List.foldl_cons, ih, buildIndex]

@[simp] theorem schema_ofSchema (schema : Schema) : (ofSchema schema).schema = schema :=
  schema_foldl_buildIndex _

@[simp] theorem rows_ofSchema (schema : Schema) : (ofSchema schema).rows = .empty :=
  rows_foldl_buildIndex _

/-- An index of a table without rows has no entries. -/
theorem hasDuplicates_build_empty (definition : IndexDefinition) :
    (Index.build definition .empty).hasDuplicates = false := rfl

theorem describes_foldl_buildIndex (definitions : List IndexDefinition)
    (hrows : table.rows = .empty)
    (h : ∀ name index, table.indexes.get? name = some index → index.Describes table.rows) :
    ∀ name index, (definitions.foldl buildIndex table).indexes.get? name = some index →
      index.Describes (definitions.foldl buildIndex table).rows := by
  induction definitions generalizing table with
  | nil => exact h
  | cons d definitions ih =>
    refine ih hrows fun name index hindex => ?_
    rw [buildIndex, SortedMap.get?_insert] at hindex
    split at hindex
    · rw [← Option.some.inj hindex]
      refine Index.describes_build fun _ => ?_
      rw [hrows]
      exact hasDuplicates_build_empty d
    · exact h name index hindex

theorem coherent_ofSchema (schema : Schema) : (ofSchema schema).Coherent where
  rowId id row h := by
    rw [rows_ofSchema, SortedMap.get?_empty] at h
    simp at h
  describes := by
    refine describes_foldl_buildIndex schema.indexes rfl fun name index h => ?_
    rw [SortedMap.get?_empty] at h
    simp at h

/-! ## Inserting -/

/-- What inserting does: the row is stored as the schema makes it, under a new identity, where no
unique column and no unique index has its values. -/
theorem insert_eq_ok_iff {row : Row} {id : RowId} {table' : Table} :
    table.insert row = .ok (id, table') ↔ ∃ stored, table.schema.validate row = .ok stored ∧
      id = table.schema.rowId stored ∧ table.rows.contains id = false ∧
      table.checkUniqueColumns stored table.schema.columns = .ok () ∧
      table.repeatedKey? stored = none ∧
      table' = { table with
        rows := table.rows.insert id stored
        indexes := table.indexes.map fun _ index => index.add id stored } := by
  simp only [insert, bind_eq_ok_iff, guard_eq_ok_iff, lift_eq_ok_iff]
  refine exists_congr fun stored => and_congr_right fun _ => ?_
  constructor
  · rintro ⟨hid, ⟨⟩, hunique, h⟩
    split at h
    · simp at h
    · rename_i hkey
      obtain ⟨rfl, rfl⟩ := Prod.mk.inj (Except.ok.inj h)
      exact ⟨rfl, Bool.eq_false_iff.mpr hid, hunique, hkey, rfl⟩
  · rintro ⟨rfl, hid, hunique, hkey, rfl⟩
    refine ⟨Bool.eq_false_iff.mp hid, (), hunique, ?_⟩
    rw [hkey]
    rfl

/-- No unique index has the key of a row that repeats none. -/
theorem contains_eq_false_of_repeatedKey? {row : Row} (h : table.repeatedKey? row = none)
    {name : String} {index : Index} (hindex : table.indexes.get? name = some index)
    (hunique : index.unique = true) {key : String} (hkey : index.key? row = some key) :
    index.entries.contains key = false := by
  have hnone := List.findSome?_eq_none_iff.mp h (name, index) (SortedMap.mem_entries_iff.mpr hindex)
  simpa [hunique, hkey] using hnone

theorem Coherent.insert (h : table.Coherent) {row : Row} {id : RowId} {table' : Table}
    (hinsert : table.insert row = .ok (id, table')) : table'.Coherent := by
  obtain ⟨stored, -, hrowId, hid, -, hkey, rfl⟩ := insert_eq_ok_iff.mp hinsert
  refine ⟨fun i r hr => ?_, fun name index hindex => ?_⟩
  · rw [SortedMap.get?_insert] at hr
    split at hr
    · rename_i hi
      rw [hi, hrowId, Option.some.inj hr]
    · exact h.rowId i r hr
  · rw [SortedMap.get?_map] at hindex
    obtain ⟨index, hold, rfl⟩ := Option.map_eq_some_iff.mp hindex
    exact (h.describes name index hold).insert hid fun hunique key hk =>
      contains_eq_false_of_repeatedKey? hkey hold hunique hk

/-! ## Deleting -/

theorem get?_delete {ids : SortedSet RowId} {id : RowId} {row : Row} :
    (table.delete ids).2.rows.get? id = some row ↔
      table.rows.get? id = some row ∧ SortedMap.contains ids id = false := by
  rw [delete, SortedMap.get?_without]
  cases SortedMap.contains ids id <;> simp

theorem Coherent.delete (h : table.Coherent) (ids : SortedSet RowId) :
    (table.delete ids).2.Coherent := by
  refine ⟨fun i r hr => ?_, fun name index hindex => ?_⟩
  · exact h.rowId i r (get?_delete.mp hr).1
  · rw [Table.delete, SortedMap.get?_map] at hindex
    obtain ⟨index, hold, rfl⟩ := Option.map_eq_some_iff.mp hindex
    exact (h.describes name index hold).without ids

/-- A table that has none of the rows is not changed by deleting them. -/
theorem delete_of_none {ids : SortedSet RowId} (h : (table.delete ids).1 = 0) :
    (table.delete ids).2 = table := by
  have hgone : (table.rows.restrict ids).entries = [] := List.length_eq_zero_iff.mp h
  have hrows : table.rows.without ids = table.rows := by
    refine SortedMap.ext fun id => ?_
    rw [SortedMap.get?_without]
    split
    · rename_i hid
      have hnone := SortedMap.isEmpty_iff_get?.mp (SortedMap.isEmpty_iff.mpr hgone) id
      rw [SortedMap.get?_restrict, if_pos hid] at hnone
      exact hnone.symm
    · rfl
  have hindexes : (table.indexes.map fun _ index =>
      index.removeAll (table.rows.restrict ids)) = table.indexes := by
    refine SortedMap.ext fun name => ?_
    rw [SortedMap.get?_map]
    simp [Index.removeAll, hgone]
  dsimp only [delete]
  rw [hrows, hindexes]

/-! ## Creating indexes -/

/-- What creating an index does: the name is new, the columns are there, and the index is built
over the rows; a unique one finds no duplicates. -/
theorem createIndex_eq_ok_iff {definition : IndexDefinition} {table' : Table} :
    table.createIndex definition = .ok table' ↔
      table.indexes.contains definition.name = false ∧
      (∀ name ∈ definition.columns, name ∈ table.schema.columnNames) ∧
      (definition.unique = true → (Index.build definition table.rows).hasDuplicates = false) ∧
      table' = { table with
        schema.indexes := table.schema.indexes ++ [definition]
        indexes := table.indexes.insert definition.name (.build definition table.rows) } := by
  simp only [createIndex, guard_eq_ok_iff, ← Bool.eq_false_iff]
  refine and_congr_right fun _ => ?_
  split
  · rename_i name hname
    exact ⟨by rintro ⟨⟩, fun h => absurd h.1 (Schema.find?_missing_eq_some hname)⟩
  · rename_i hfound
    have hcolumns := Schema.find?_missing_eq_none_iff.mp hfound
    rw [guard_eq_ok_iff]
    simp only [Bool.and_eq_true, not_and, Bool.not_eq_true]
    exact ⟨fun h => ⟨hcolumns, h.1, (Except.ok.inj h.2).symm⟩, fun h => ⟨h.2.1, h.2.2 ▸ rfl⟩⟩

theorem Coherent.createIndex (h : table.Coherent) {definition : IndexDefinition} {table' : Table}
    (hcreate : table.createIndex definition = .ok table') : table'.Coherent := by
  obtain ⟨-, -, hunique, rfl⟩ := createIndex_eq_ok_iff.mp hcreate
  refine ⟨h.rowId, fun name index hindex => ?_⟩
  rw [SortedMap.get?_insert] at hindex
  split at hindex
  · rw [← Option.some.inj hindex]
    exact Index.describes_build hunique
  · exact h.describes name index hindex

/-- An index under a new name that is built and taken away again leaves the table as it was. -/
theorem erase_indexes_buildIndex {definition : IndexDefinition}
    (h : table.indexes.contains definition.name = false) :
    { table.buildIndex definition with
      indexes := (table.buildIndex definition).indexes.erase definition.name } = table := by
  have hindexes : (table.buildIndex definition).indexes.erase definition.name = table.indexes :=
    SortedMap.ext fun name => by
      rw [SortedMap.get?_erase, buildIndex, SortedMap.get?_insert]
      split
      · rename_i hname
        rw [hname, SortedMap.contains_eq_false_iff.mp h]
      · rfl
  rw [hindexes, buildIndex]

/-- Whether an index is created in place or not, the table is the same: the one with the index, or the
one before if the index is refused. -/
theorem createIndexInPlace_eq (table : Table) (definition : IndexDefinition) :
    table.createIndexInPlace definition =
      match table.createIndex definition with
      | .ok table' => (.ok (), table')
      | .error e => (.error e, table) := by
  have hbuilt : (table.buildIndex definition).indexes.get? definition.name =
      some (.build definition table.rows) :=
    SortedMap.get?_insert_self _ _ _
  rw [createIndexInPlace, createIndex]
  by_cases hname : table.indexes.contains definition.name = true
  · rw [if_pos hname, if_pos hname]
    rfl
  · rw [if_neg hname, if_neg hname]
    cases definition.columns.find? fun name => (table.schema.column? name).isNone with
    | some name => rfl
    | none =>
      dsimp only
      rw [hbuilt, Option.any_some]
      by_cases hrefused :
          (definition.unique && (Index.build definition table.rows).hasDuplicates) = true
      · rw [if_pos hrefused, if_pos hrefused,
          erase_indexes_buildIndex (Bool.eq_false_iff.mpr hname)]
        rfl
      · rw [if_neg hrefused, if_neg hrefused]
        rfl

end Relational.Table
