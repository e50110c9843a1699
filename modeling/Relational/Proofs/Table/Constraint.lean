import Relational.Proofs.Table.History
import Relational.Proofs.Value.Key

/-!
# Constraints of tables

When no two rows of a table agree in a key (`Table.IsUnique`). A unique column sees to it by a look
at every row (`IsUnique.insert_column`), a unique index by the key of the row (`Has.isUnique`). An
index stays on a table; of the indexes that a definition asks for under one name, the last one is on
the table (`has_ofSchema`).

* `MadeBy.isUnique`: the keys of a definition in which no two rows of its table agree;
* `MadeBy.isUnique_created`: the keys of the indexes that were created since then;
* `MadeBy.rows`: what every row has, and that two rows differ in the primary key.
-/

namespace Relational

open Std

/-- The rows have values under some columns that are no nulls and are equal. -/
def Row.Agree (row row' : Row) (columns : List String) : Prop :=
  ∀ column ∈ columns, row.cell column ≠ .null ∧ row'.cell column ≠ .null ∧
    (row.cell column).equal (row'.cell column) = .ok true

theorem Row.Agree.symm {row row' : Row} {columns : List String} (h : row.Agree row' columns) :
    row'.Agree row columns := by
  intro column hcolumn
  obtain ⟨hleft, hright, hequal⟩ := h column hcolumn
  exact ⟨hright, hleft, Value.equal_swap hequal⟩

/-- Values with the same keys have one key together. -/
theorem Key.ofValues?_congr {values values' : List Value}
    (h : values.map Value.key? = values'.map Value.key?) : ofValues? values = ofValues? values' := by
  have hkeys (values : List Value) : values.mapM Value.key? = (values.map Value.key?).mapM id := by
    rw [List.mapM_map]
    rfl
  rw [ofValues?, hkeys, h, ← hkeys, ← ofValues?]

namespace Table

variable {table table' : Table} {columns : List String} {id : RowId} {row row' : Row}

/-- No two rows agree in the columns. -/
def IsUnique (table : Table) (columns : List String) : Prop :=
  ∀ id row id' row', table.rows.get? id = some row → table.rows.get? id' = some row' →
    row.Agree row' columns → id = id'

theorem IsUnique.delete (h : table.IsUnique columns) (ids : SortedSet RowId) :
    (table.delete ids).2.IsUnique columns := fun id row id' row' hrow hrow' =>
  h id row id' row' (get?_delete.mp hrow).1 (get?_delete.mp hrow').1

/-! ## Cells -/

/-- What is not a null stands under a column. -/
theorem Sound.column_of_ne_null (h : table.Sound) (hrow : table.rows.get? id = some row)
    {name : String} (hcell : row.cell name ≠ .null) :
    ∃ column, table.schema.column? name = some column := by
  cases hvalue : row.get? name with
  | none =>
    rw [Row.cell, hvalue] at hcell
    exact absurd rfl hcell
  | some value =>
    have hname := (h.rowFits id row hrow).only name (SortedMap.contains_of_get? hvalue)
    exact Option.isSome_iff_exists.mp (Schema.column?_isSome_iff.mpr hname)

/-- Two cells of one column can be compared, and have one key if they are equal. -/
theorem Sound.equal_cell (h : table.Sound) {id' : RowId} (hrow : table.rows.get? id = some row)
    (hrow' : table.rows.get? id' = some row') {name : String} {column : Column}
    (hcolumn : table.schema.column? name = some column) :
    ∃ b, (row.cell name).equal (row'.cell name) = .ok b ∧
      (b = true → (row.cell name).key? = (row'.cell name).key?) :=
  ColumnType.equal_of_has (h.cell hrow hcolumn).2 (h.cell hrow' hcolumn).2

/-- Rows that agree in columns have one key under them. -/
theorem Sound.key?_of_agree (h : table.Sound) {id' : RowId} (hrow : table.rows.get? id = some row)
    (hrow' : table.rows.get? id' = some row') (hagree : row.Agree row' columns) :
    ∃ key, row.key? columns = some key ∧ row'.key? columns = some key := by
  have hsame : row.key? columns = row'.key? columns := by
    refine Key.ofValues?_congr ?_
    rw [List.map_map, List.map_map]
    refine List.map_congr_left fun name hname => ?_
    obtain ⟨hcell, -, hequal⟩ := hagree name hname
    obtain ⟨column, hcolumn⟩ := h.column_of_ne_null hrow hcell
    obtain ⟨b, hb, hkey⟩ := h.equal_cell hrow hrow' hcolumn
    exact hkey (Except.ok.inj (hb.symm.trans hequal))
  cases hkey : row.key? columns with
  | none =>
    obtain ⟨name, hname, hnull⟩ := Row.key?_eq_none_iff.mp hkey
    exact absurd hnull (hagree name hname).1
  | some key => exact ⟨key, rfl, by rw [← hsame, hkey]⟩

/-! ## Unique indexes -/

/-- The table has an index as it is defined. -/
def Has (table : Table) (definition : IndexDefinition) : Prop :=
  ∃ index, table.indexes.get? definition.name = some index ∧
    index.columns = definition.columns ∧ index.unique = definition.unique

variable {definition : IndexDefinition}

theorem Has.insert (h : table.Has definition) (hinsert : table.insert row = .ok (id, table')) :
    table'.Has definition := by
  obtain ⟨index, hindex, hcolumns, hunique⟩ := h
  obtain ⟨stored, -, -, -, -, -, rfl⟩ := insert_eq_ok_iff.mp hinsert
  refine ⟨index.add id stored, ?_, ?_, ?_⟩
  · rw [SortedMap.get?_map, hindex, Option.map_some]
  · rw [Index.columns_add, hcolumns]
  · rw [Index.unique_add, hunique]

theorem Has.delete (h : table.Has definition) (ids : SortedSet RowId) :
    (table.delete ids).2.Has definition := by
  obtain ⟨index, hindex, hcolumns, hunique⟩ := h
  refine ⟨index.removeAll (table.rows.restrict ids), ?_, ?_, ?_⟩
  · rw [Table.delete, SortedMap.get?_map, hindex, Option.map_some]
  · rw [Index.columns_removeAll, hcolumns]
  · rw [Index.unique_removeAll, hunique]

theorem has_createIndex (hcreate : table.createIndex definition = .ok table') :
    table'.Has definition := by
  obtain ⟨-, -, -, rfl⟩ := createIndex_eq_ok_iff.mp hcreate
  exact ⟨_, SortedMap.get?_insert_self _ _ _, Index.columns_build _ _, Index.unique_build _ _⟩

/-- An index that is created has a new name. -/
theorem Has.createIndex (h : table.Has definition) {other : IndexDefinition}
    (hcreate : table.createIndex other = .ok table') : table'.Has definition := by
  obtain ⟨index, hindex, hsame⟩ := h
  obtain ⟨hnew, -, -, rfl⟩ := createIndex_eq_ok_iff.mp hcreate
  have hne : definition.name ≠ other.name := by
    intro he
    rw [← he, SortedMap.contains_of_get? hindex] at hnew
    simp at hnew
  exact ⟨index, by rw [SortedMap.get?_insert, if_neg hne, hindex], hsame⟩

theorem has_buildIndex : (table.buildIndex definition).Has definition :=
  ⟨_, SortedMap.get?_insert_self _ _ _, Index.columns_build _ _, Index.unique_build _ _⟩

theorem Has.foldl_buildIndex (h : table.Has definition) {definitions : List IndexDefinition}
    (hlast : ∀ other ∈ definitions, other.name = definition.name → other = definition) :
    (definitions.foldl buildIndex table).Has definition := by
  induction definitions generalizing table with
  | nil => exact h
  | cons other definitions ih =>
    refine ih ?_ fun o ho => hlast o (List.mem_cons_of_mem _ ho)
    by_cases hname : other.name = definition.name
    · rw [hlast other List.mem_cons_self hname]
      exact has_buildIndex
    · obtain ⟨index, hindex, hsame⟩ := h
      refine ⟨index, ?_, hsame⟩
      rw [buildIndex, SortedMap.get?_insert, if_neg (Ne.symm hname), hindex]

/-- A new table has the last index of a name that its schema asks for. -/
theorem has_ofSchema {schema : Schema} {before after : List IndexDefinition}
    (hindexes : schema.indexes = before ++ definition :: after)
    (hlast : ∀ other ∈ after, other.name = definition.name → other = definition) :
    (ofSchema schema).Has definition := by
  rw [ofSchema, hindexes, List.foldl_append, List.foldl_cons]
  exact has_buildIndex.foldl_buildIndex hlast

/-- A unique index leads the key of rows that agree to one row. -/
theorem Has.isUnique (h : table.Has definition) (hsound : table.Sound)
    (hunique : definition.unique = true) : table.IsUnique definition.columns := by
  obtain ⟨index, hindex, hcolumns, hindexUnique⟩ := h
  have hdescribes := hsound.coherent.describes definition.name index hindex
  intro id row id' row' hrow hrow' hagree
  obtain ⟨key, hkey, hkey'⟩ := hsound.key?_of_agree hrow hrow' hagree
  rw [← hcolumns] at hkey hkey'
  have hone := SortedMap.size_le_one_iff.mp (hdescribes.unique key (hindexUnique.trans hunique))
  exact hone id id' ((hdescribes.mem key id).mpr ⟨row, hrow, hkey⟩)
    ((hdescribes.mem key id').mpr ⟨row', hrow', hkey'⟩)

/-! ## Unique columns -/

/-- Where a value is not held, no row has one that equals it. -/
theorem equal_ne_of_holdsValue {name : String} {value : Value} {rows : List Row}
    (h : holdsValue name value rows = .ok false) :
    ∀ row ∈ rows, (row.cell name).equal value ≠ .ok true := by
  induction rows with
  | nil => simp
  | cons row rows ih =>
    rw [holdsValue] at h
    split at h
    · simp at h
    · rename_i cell hcell
      simp only [bind_eq_ok_iff, lift_eq_ok_iff] at h
      obtain ⟨b, hb, h⟩ := h
      cases b with
      | true => cases h
      | false =>
        intro other hother
        rcases List.mem_cons.mp hother with rfl | hother
        · rw [Row.cell, hcell, Option.getD_some, hb]
          simp
        · exact ih h other hother

/-- A row that repeats no value of a unique column has no value there that a stored row has. -/
theorem equal_ne_of_checkUniqueColumns {columns : List Column}
    (h : table.checkUniqueColumns row columns = .ok ()) {column : Column}
    (hcolumn : column ∈ columns) (hunique : column.unique = true)
    (hcell : row.cell column.name ≠ .null) (hstored : table.rows.get? id = some row') :
    (row'.cell column.name).equal (row.cell column.name) ≠ .ok true := by
  induction columns with
  | nil => simp at hcolumn
  | cons c columns ih =>
    rw [checkUniqueColumns] at h
    dsimp only at h
    rcases List.mem_cons.mp hcolumn with rfl | hcolumn
    · have hnull : (row.cell column.name).isNull = false := by
        cases hvalue : row.cell column.name with
        | null => exact absurd hvalue hcell
        | _ => rfl
      rw [if_pos (by rw [hunique, hnull]; rfl), bind_eq_ok_iff] at h
      obtain ⟨held, hheld, h⟩ := h
      cases held with
      | true => cases h
      | false =>
        refine equal_ne_of_holdsValue hheld row' ?_
        exact List.mem_map.mpr ⟨(id, row'), SortedMap.mem_entries_iff.mpr hstored, rfl⟩
    · split at h
      · obtain ⟨held, -, h⟩ := bind_eq_ok_iff.mp h
        cases held with
        | true => cases h
        | false => exact ih h hcolumn
      · exact ih h hcolumn

/-- Inserting leaves no two rows that agree in a unique column. -/
theorem IsUnique.insert_column {column : Column} (h : table.IsUnique [column.name])
    (hcolumn : column ∈ table.schema.columns) (hunique : column.unique = true)
    (hinsert : table.insert row = .ok (id, table')) : table'.IsUnique [column.name] := by
  obtain ⟨stored, -, -, -, hcheck, -, rfl⟩ := insert_eq_ok_iff.mp hinsert
  have hnew {i : RowId} {r : Row} (hr : table.rows.get? i = some r) :
      ¬r.Agree stored [column.name] := by
    intro hagree
    obtain ⟨-, hcell, hequal⟩ := hagree column.name List.mem_cons_self
    exact equal_ne_of_checkUniqueColumns hcheck hcolumn hunique hcell hr hequal
  intro i r j r' hr hr' hagree
  rw [SortedMap.get?_insert] at hr hr'
  split at hr
  · rename_i hi
    split at hr'
    · rename_i hj
      rw [hi, hj]
    · rw [← Option.some.inj hr] at hagree
      exact absurd hagree.symm (hnew hr')
  · split at hr'
    · rw [← Option.some.inj hr'] at hagree
      exact absurd hagree (hnew hr)
    · exact h i r j r' hr hr' hagree

end Table

/-! ## Keys of definitions -/

namespace Schema

/-- The outline asks that no two rows agree in a key, which is listed or is a column of its own. -/
def Outline.Declares (outline : Outline) (key : List String) : Prop :=
  key ∈ outline.uniqueKeys ∨ ∃ column ∈ outline.columns, column.unique = true ∧ key = [column.name]

/-- The index of a key is not replaced by one of a later key, which has the same name. -/
def Outline.Keeps (outline : Outline) (table : String) (key : List String) : Prop :=
  key.length ≠ 1 → ∃ before after, outline.uniqueKeys = before ++ key :: after ∧
    ∀ other ∈ after, other.length ≠ 1 →
      uniqueIndexName table other = uniqueIndexName table key → other = key

variable {name : String} {definition : List Char} {schema : Schema} {outline : Outline}
  {key : List String}

/-- A key of one column marks the column. -/
theorem Outline.Declares.exists_column (hdeclared : outline.Declares key) (hone : key.length = 1)
    (houtline : Outline.read definition = .ok outline)
    (hschema : ofDefinition name definition = .ok schema) :
    ∃ column ∈ schema.columns, column.unique = true ∧ key = [column.name] := by
  obtain ⟨outline', houtline', -, -, hrefines, -, -, -, hmarked⟩ := ofDefinition_spec hschema
  obtain rfl := Except.ok.inj (houtline.symm.trans houtline')
  rcases hdeclared with hkey | ⟨column, hcolumn, hunique, rfl⟩
  · obtain ⟨single, rfl⟩ := List.length_eq_one_iff.mp hone
    obtain ⟨column, hcolumn, rfl, hunique⟩ := hmarked single hkey
    exact ⟨column, hcolumn, hunique, rfl⟩
  · obtain ⟨column', hcolumn', hsame⟩ := hrefines.stored column hcolumn
    exact ⟨column', hcolumn', hsame.unique hunique, by rw [hsame.name]⟩

/-- A key of several columns that is kept has its index in a new table. -/
theorem Outline.Keeps.has (hkept : outline.Keeps name key) (hseveral : key.length ≠ 1)
    (houtline : Outline.read definition = .ok outline)
    (hschema : ofDefinition name definition = .ok schema) :
    (Table.ofSchema schema).Has (uniqueIndex name key) := by
  obtain ⟨outline', houtline', -, -, -, -, hindexes, -, -⟩ := ofDefinition_spec hschema
  obtain rfl := Except.ok.inj (houtline.symm.trans houtline')
  obtain ⟨before, after, hkeys, hlast⟩ := hkept hseveral
  rw [hkeys, List.filter_append, List.filter_cons_of_pos (by simpa using hseveral),
    List.map_append, List.map_cons] at hindexes
  refine Table.has_ofSchema hindexes fun other hother hname => ?_
  obtain ⟨key', hkey', rfl⟩ := List.mem_map.mp hother
  obtain ⟨hmem, hseveral'⟩ := List.mem_filter.mp hkey'
  rw [hlast key' hmem (by simpa using hseveral') hname]

end Schema

namespace Table

variable {table : Table} {name : String} {definition : List Char} {created : List IndexDefinition}
  {outline : Schema.Outline}

/-- No two rows agree in a unique column. -/
theorem MadeBy.isUnique_column (h : table.MadeBy name definition created) {column : Column}
    (hcolumn : column ∈ table.schema.columns) (hunique : column.unique = true) :
    table.IsUnique [column.name] := by
  induction h with
  | @create schema hschema =>
    intro id row id' row' hrow
    rw [rows_ofSchema, SortedMap.get?_empty] at hrow
    cases hrow
  | insert _ hinsert ih =>
    have hinsert' := hinsert
    obtain ⟨stored, -, -, -, -, -, rfl⟩ := insert_eq_ok_iff.mp hinsert'
    exact (ih hcolumn).insert_column hcolumn hunique hinsert
  | delete ids _ ih => exact (ih hcolumn).delete ids
  | createIndex _ hcreate ih =>
    obtain ⟨-, -, -, rfl⟩ := createIndex_eq_ok_iff.mp hcreate
    exact ih hcolumn

/-- An index that a table had when it was made stays on it. -/
theorem MadeBy.has (h : table.MadeBy name definition created) {index : IndexDefinition}
    (hnew : ∀ schema, Schema.ofDefinition name definition = .ok schema →
      (ofSchema schema).Has index) : table.Has index := by
  induction h with
  | create hschema => exact hnew _ hschema
  | insert _ hinsert ih => exact ih.insert hinsert
  | delete ids _ ih => exact ih.delete ids
  | createIndex _ hcreate ih => exact ih.createIndex hcreate

/-- An index that was created stays on the table. -/
theorem MadeBy.has_created (h : table.MadeBy name definition created) {index : IndexDefinition}
    (hindex : index ∈ created) : table.Has index := by
  induction h with
  | create => simp at hindex
  | insert _ hinsert ih => exact (ih hindex).insert hinsert
  | delete ids _ ih => exact (ih hindex).delete ids
  | createIndex _ hcreate ih =>
    rcases List.mem_append.mp hindex with hindex | hindex
    · exact (ih hindex).createIndex hcreate
    · rw [List.mem_singleton.mp hindex]
      exact has_createIndex hcreate

theorem MadeBy.isUnique (h : table.MadeBy name definition created)
    (houtline : Schema.Outline.read definition = .ok outline) {key : List String}
    (hdeclared : outline.Declares key) (hkept : outline.Keeps name key) : table.IsUnique key := by
  by_cases hone : key.length = 1
  · obtain ⟨schema, hschema, hsame⟩ := h.schema
    obtain ⟨column, hcolumn, hunique, rfl⟩ := hdeclared.exists_column hone houtline hschema
    exact h.isUnique_column (by rw [hsame]; exact hcolumn) hunique
  · have hhas : table.Has (Schema.uniqueIndex name key) :=
      h.has fun schema hschema => hkept.has hone houtline hschema
    exact hhas.isUnique h.sound rfl

theorem MadeBy.isUnique_created (h : table.MadeBy name definition created)
    {index : IndexDefinition} (hindex : index ∈ created) (hunique : index.unique = true) :
    table.IsUnique index.columns :=
  (h.has_created hindex).isUnique h.sound hunique

end Table

/-! ## Rows of definitions -/

/-- A row as columns and a primary key ask for it: it has these columns and no others; the type of
each column leaves its cell as it is; and the cells that must not be nulls are none. -/
structure Row.IsOf (row : Row) (columns : List Column) (keys : List String) : Prop where
  contains (name : String) : row.contains name = true ↔ name ∈ columns.map (·.name)
  coerce (column : Column) : column ∈ columns →
    column.type.coerce column.name (row.cell column.name) = .ok (row.cell column.name) ∧
      column.type.Admits (row.cell column.name)
  ne_null (column : Column) : column ∈ columns → column.nullable = false ∨ column.name ∈ keys →
    row.cell column.name ≠ .null

namespace Table

variable {table : Table} {name : String} {definition : List Char} {created : List IndexDefinition}
  {id id' : RowId} {row row' : Row}

/-- Rows that are not one have different values under a column of the primary key. -/
theorem Sound.equal_primaryKey (h : table.Sound) (hrow : table.rows.get? id = some row)
    (hrow' : table.rows.get? id' = some row') (hne : id ≠ id') :
    ∃ key ∈ table.schema.primaryKeys, (row.cell key).equal (row'.cell key) = .ok false := by
  have hagree : ¬row.Agree row' table.schema.primaryKeys := by
    intro hagree
    obtain ⟨key, hkey, hkey'⟩ := h.key?_of_agree hrow hrow' hagree
    refine hne ?_
    rw [h.coherent.rowId id row hrow, h.coherent.rowId id' row' hrow', Schema.rowId,
      Schema.rowId, hkey, hkey']
  obtain ⟨key, hkey⟩ := Classical.not_forall.mp hagree
  obtain ⟨hmem, hdiffer⟩ := Classical.not_imp.mp hkey
  obtain ⟨column, hcolumn⟩ := h.column_of_ne_null hrow (h.cell_ne_null hrow hmem)
  obtain ⟨b, hb, -⟩ := h.equal_cell hrow hrow' hcolumn
  cases b with
  | false => exact ⟨key, hmem, hb⟩
  | true => exact absurd ⟨h.cell_ne_null hrow hmem, h.cell_ne_null hrow' hmem, hb⟩ hdiffer

theorem MadeBy.rows (h : table.MadeBy name definition created) :
    ∃ outline keys, Schema.Outline.read definition = .ok outline ∧
      outline.primaryKeys = .ok keys ∧
      (∀ id row, table.rows.get? id = some row → row.IsOf outline.columns keys) ∧
      ∀ id row id' row', table.rows.get? id = some row → table.rows.get? id' = some row' →
        id ≠ id' → ∃ key ∈ keys, (row.cell key).equal (row'.cell key) = .ok false := by
  obtain ⟨schema, hschema, hsame⟩ := h.schema
  obtain ⟨outline, houtline, -, hkeys, hrefines, hmarked, -, -, -⟩ := Schema.ofDefinition_spec hschema
  have hcolumns : table.schema.columns = schema.columns := by rw [hsame]
  have hprimary : table.schema.primaryKeys = schema.primaryKeys := by rw [hsame]
  refine ⟨outline, schema.primaryKeys, houtline, hkeys, fun id row hrow => ?_,
    fun id row id' row' hrow hrow' hne => ?_⟩
  · have hfits := h.sound.rowFits id row hrow
    rw [hcolumns] at hfits
    have hcell {column : Column} (hcolumn : column ∈ outline.columns) :
        ∃ column' ∈ schema.columns, column.Refines column' ∧
          column'.Takes (row.cell column.name) := by
      obtain ⟨column', hcolumn', hversion⟩ := hrefines.stored column hcolumn
      obtain ⟨value, hvalue, htakes⟩ := hfits.cell column' hcolumn'
      rw [hversion.name] at hvalue
      refine ⟨column', hcolumn', hversion, ?_⟩
      rwa [Row.cell, hvalue, Option.getD_some]
    refine ⟨fun name => ?_, fun column hcolumn => ?_, fun column hcolumn hmust => ?_⟩
    · refine ⟨fun hname => hrefines.names ▸ hfits.only name hname, fun hname => ?_⟩
      rw [← hrefines.names, List.mem_map] at hname
      obtain ⟨column', hcolumn', rfl⟩ := hname
      obtain ⟨value, hvalue, -⟩ := hfits.cell column' hcolumn'
      exact SortedMap.contains_of_get? hvalue
    · obtain ⟨column', -, hversion, htakes⟩ := hcell hcolumn
      have hfixed := htakes.coerce
      rw [hversion.type, hversion.name] at hfixed
      exact ⟨hfixed, ColumnType.coerce_eq_self_iff.mp hfixed⟩
    · rcases hmust with hnullable | hkey
      · obtain ⟨column', -, hversion, htakes⟩ := hcell hcolumn
        exact htakes.ne_null (.inl (hversion.nullable hnullable))
      · exact h.sound.cell_ne_null hrow (hprimary ▸ hkey)
  · obtain ⟨key, hkey, hdiffer⟩ := h.sound.equal_primaryKey hrow hrow' hne
    exact ⟨key, hprimary ▸ hkey, hdiffer⟩

end Table

end Relational
