import Relational.Proofs.Table.Sound
import Relational.Proofs.Value.Key
import Relational.Query.Evaluation

/-!
# Ways of finding rows

Rows whose column equals a constant are found by an index, by the primary key or by looking at every
row. In a sound table all ways find the same (`Source.find_eq_findAll`), for every constant but one
that is not a number: an index and the primary key go by keys, and these decide
(`ColumnType.decides_of_has`).
-/

namespace Relational

open Std

/-! ## Looking at every row -/

namespace Row

theorem key?_singleton (row : Row) (column : String) :
    row.key? [column] = Key.ofValues? [row.cell column] := rfl

variable {test : Row → Except Error Bool} {rows : SortedMap RowId Row} {ids : SortedSet RowId}

theorem contains_findAll (h : findAll test rows.entries = .ok ids) (id : RowId) :
    SortedMap.contains ids id = true ↔ ∃ row, rows.get? id = some row ∧ test row = .ok true := by
  rw [findAll, bind_eq_ok_iff] at h
  obtain ⟨found, hfound, h⟩ := h
  obtain ⟨hall, rfl⟩ := filterM_eq_ok_iff.mp hfound
  rw [← Except.ok.inj h, SortedSet.contains_ofElements]
  simp only [List.mem_map, List.mem_filter, Prod.exists, exists_and_right, exists_eq_right]
  refine exists_congr fun row => ?_
  rw [SortedMap.mem_entries_iff]
  refine and_congr_right fun hrow => ?_
  obtain ⟨b, hb⟩ := hall (id, row) (SortedMap.mem_entries_iff.mpr hrow)
  have hb : test row = .ok b := hb
  rw [hb, gain_ok, Except.ok.injEq]

theorem test_of_findAll (h : findAll test rows.entries = .ok ids) {id : RowId} {row : Row}
    (hrow : rows.get? id = some row) : test row = .ok (SortedMap.contains ids id) := by
  have hcontains := contains_findAll h id
  rw [findAll, bind_eq_ok_iff] at h
  obtain ⟨found, hfound, -⟩ := h
  obtain ⟨b, hb⟩ := (filterM_eq_ok_iff.mp hfound).1 (id, row) (SortedMap.mem_entries_iff.mpr hrow)
  have hb : test row = .ok b := hb
  rw [hb, Except.ok.injEq, Bool.eq_iff_iff, hcontains]
  constructor
  · rintro rfl
    exact ⟨row, hrow, hb⟩
  · rintro ⟨row', hrow', htest⟩
    rw [← Option.some.inj (hrow.symm.trans hrow'), hb] at htest
    exact Except.ok.inj htest

/-- Identities of rows that are found otherwise are the ones that a look at every row finds, if they
pass the test and no others do. -/
theorem findAll_eq (htest : ∀ id row, rows.get? id = some row →
      test row = .ok (SortedMap.contains ids id))
    (hids : ∀ id, SortedMap.contains ids id = true → rows.contains id = true) :
    findAll test rows.entries = .ok ids := by
  have hall : ∀ e ∈ rows.entries, ∃ b, test e.2 = .ok b := fun e he =>
    ⟨_, htest e.1 e.2 (SortedMap.mem_entries_iff.mp he)⟩
  have hfound := filterM_eq_ok_iff.mpr ⟨hall, rfl⟩
  obtain ⟨ids', hids'⟩ : ∃ ids', findAll test rows.entries = .ok ids' :=
    ⟨_, bind_eq_ok_iff.mpr ⟨_, hfound, rfl⟩⟩
  rw [hids', Except.ok.injEq]
  refine SortedSet.ext_contains fun id => Bool.eq_iff_iff.mpr ?_
  rw [contains_findAll hids']
  constructor
  · rintro ⟨row, hrow, hpass⟩
    exact Except.ok.inj ((htest id row hrow).symm.trans hpass)
  · intro hid
    obtain ⟨row, hrow⟩ := SortedMap.contains_iff.mp (hids id hid)
    exact ⟨row, hrow, hid ▸ htest id row hrow⟩

end Row

/-! ## Going by keys -/

namespace Table

variable {table : Table} {column : String} {key : Value}

/-- The identities are those of the rows whose cell has a key. -/
def HasKey (table : Table) (column : String) (key : Value) (ids : SortedSet RowId) : Prop :=
  ∀ id, SortedMap.contains ids id = true ↔
    ∃ row, table.rows.get? id = some row ∧ (row.cell column).key? = key.key?

theorem ofValues?_eq_some_of_ne_null (h : key ≠ .null) : ∃ k, Key.ofValues? [key] = some k := by
  refine Option.ne_none_iff_exists'.mp ?_
  rw [ne_eq, Key.ofValues?_eq_none_iff, List.mem_singleton]
  exact Ne.symm h

theorem hasKey_findByIndex (h : table.Coherent) {name : String} {index : Index}
    (hindex : table.indexes.get? name = some index) (hcolumns : index.columns = [column])
    (hkey : key ≠ .null) :
    ∃ ids, table.findByIndex name key = .ok ids ∧ table.HasKey column key ids := by
  obtain ⟨k, hk⟩ := ofValues?_eq_some_of_ne_null hkey
  refine ⟨index.lookup k, ?_, fun id => ?_⟩
  · rw [findByIndex, hindex, hk]
  · rw [(h.describes name index hindex).mem, hcolumns]
    simp only [Row.key?_singleton, ← hk, Key.ofValues?_singleton_eq_iff]

theorem hasKey_primaryKey (h : table.Sound) (hkeys : table.schema.primaryKeys = [column])
    {k : String} (hk : Key.ofValues? [key] = some k) :
    table.HasKey column key
      (if table.rows.contains (.ofKey k) then SortedSet.add .empty (.ofKey k) else .empty) := by
  have hrowId (id : RowId) (row : Row) (hrow : table.rows.get? id = some row) :
      id = .ofKey k ↔ (row.cell column).key? = key.key? := by
    have hne := h.cell_ne_null hrow (hkeys ▸ List.mem_cons_self)
    obtain ⟨k', hk'⟩ := ofValues?_eq_some_of_ne_null hne
    have hid := h.coherent.rowId id row hrow
    rw [Schema.rowId, hkeys, Row.key?_singleton, hk', Option.getD_some] at hid
    rw [← Key.ofValues?_singleton_eq_iff, hk, hk', hid, RowId.ofKey, RowId.ofKey]
    simp
  intro id
  split
  · rename_i hcontains
    rw [SortedSet.contains_add]
    constructor
    · rintro (rfl | hempty)
      · obtain ⟨row, hrow⟩ := SortedMap.contains_iff.mp hcontains
        exact ⟨row, hrow, (hrowId _ row hrow).mp rfl⟩
      · simp [SortedMap.contains, SortedMap.get?_empty] at hempty
    · rintro ⟨row, hrow, hcell⟩
      exact .inl ((hrowId id row hrow).mpr hcell)
  · rename_i hcontains
    refine iff_of_false (by simp [SortedMap.contains, SortedMap.get?_empty]) ?_
    rintro ⟨row, hrow, hcell⟩
    rw [← (hrowId id row hrow).mpr hcell, SortedMap.contains_of_get? hrow] at hcontains
    exact hcontains rfl

theorem hasKey_cells (h : table.Sound) {c : Column} (hcolumn : table.schema.column? column = some c) :
    table.HasKey column key
      (.ofKeys <| table.rows.filter fun _ row => (row.get? column).bind Value.key? = key.key?) := by
  intro id
  rw [SortedSet.contains_ofKeys, SortedMap.contains_iff]
  simp only [SortedMap.get?_filter, Option.filter_eq_some_iff, decide_eq_true_iff]
  refine exists_congr fun row => and_congr_right fun hrow => ?_
  rw [(h.cell hrow hcolumn).1, Option.bind_some]

theorem hasKey_findByPrimaryKey (h : table.Sound) {position : Nat} {c : Column}
    (hposition : table.schema.primaryKeys[position]? = some column)
    (hcolumn : table.schema.column? column = some c) (hkey : key ≠ .null) :
    ∃ ids, table.findByPrimaryKey position key = .ok ids ∧ table.HasKey column key ids := by
  obtain ⟨k, hk⟩ := ofValues?_eq_some_of_ne_null hkey
  rw [findByPrimaryKey, hposition]
  simp only [hk]
  refine ⟨_, rfl, ?_⟩
  split
  · rename_i hone
    obtain ⟨name, hname⟩ := List.length_eq_one_iff.mp hone
    have hcolumn : name = column := by
      rw [hname] at hposition
      cases position with
      | zero => simpa using hposition
      | succ n => simp at hposition
    exact hasKey_primaryKey h (hcolumn ▸ hname) hk
  · exact hasKey_cells h hcolumn

end Table

/-! ## All ways -/

/-- A column that can be searched by keys: it has an index of its own, or is part of the primary
key. -/
def Schema.IsKeyed (schema : Schema) (column : String) : Prop :=
  (∃ d ∈ schema.indexes, d.columns = [column]) ∨ column ∈ schema.primaryKeys

/-- The indexes of a schema over one column each. -/
theorem Schema.mem_indexedColumns {schema : Schema} {column name : String} :
    (column, name) ∈ (schema.indexes.filterMap fun index =>
      match index.columns with
      | [column] => some (column, index.name)
      | _ => none) ↔ ∃ d ∈ schema.indexes, d.columns = [column] ∧ d.name = name := by
  rw [List.mem_filterMap]
  refine exists_congr fun d => and_congr_right fun _ => ?_
  split
  · rename_i c hc
    simp [hc]
  · rename_i hcolumns
    exact ⟨nofun, fun h => absurd h.1 (hcolumns column)⟩

theorem Schema.contains_indexedColumns {schema : Schema} {column : String} :
    schema.indexedColumns.contains column = true ↔ ∃ d ∈ schema.indexes, d.columns = [column] := by
  rw [indexedColumns, SortedMap.contains_ofList]
  constructor
  · rintro ⟨name, hname⟩
    obtain ⟨d, hd, hcolumns, -⟩ := mem_indexedColumns.mp hname
    exact ⟨d, hd, hcolumns⟩
  · rintro ⟨d, hd, hcolumns⟩
    exact ⟨d.name, mem_indexedColumns.mpr ⟨d, hd, hcolumns, rfl⟩⟩

namespace Source

variable {source : Source} {op : Operator} {column : Column} {value : Value}

/-- Every row is looked at, but for an equality with a value on a column that has keys. -/
theorem lookup_eq_scan_iff {column : String} :
    source.lookup op column value = .scan ↔
      (op ≠ .comparison .eq ∨ value.isNull = true ∨ source.scanned = true) ∨
        ¬ source.table.schema.IsKeyed column := by
  unfold lookup Schema.IsKeyed
  rw [← Schema.contains_indexedColumns]
  split
  · rename_i h
    exact iff_of_true rfl (.inl h)
  · rename_i h
    rw [or_iff_right h]
    split
    · rename_i hindexed
      simp [SortedMap.contains_of_get? hindexed]
    · rename_i hindexed
      rw [SortedMap.contains, hindexed]
      split
      · rename_i hposition
        obtain ⟨hlt, hname, -⟩ := List.findIdx?_eq_some_iff_getElem.mp hposition
        simp [← beq_iff_eq.mp hname]
      · rename_i hposition
        have hmissing := List.findIdx?_eq_none_iff.mp hposition
        refine iff_of_true rfl ?_
        rintro (hsome | hkey)
        · simp at hsome
        · simpa using hmissing _ hkey

theorem find_scan (h : source.lookup op column.name value = .scan) :
    source.find op column value =
      Row.findAll (fun row => op.holds (row.cell column.name) value) source.table.rows.entries := by
  rw [find, h]

/-- The identities are those of the rows whose cell has the key of a constant, as the column stores
it, if it stores one. -/
def Keyed (source : Source) (column : Column) (value : Value) (ids : SortedSet RowId) : Prop :=
  ∀ id, SortedMap.contains ids id = true ↔ ∃ row, source.table.rows.get? id = some row ∧
    ∃ key, column.type.stored? value = some key ∧ key.key? = (row.cell column.name).key?

theorem keyed_of_hasKey {byKey : Value → Except Error (SortedSet RowId)}
    (hbyKey : ∀ key, key ≠ .null →
      ∃ ids, byKey key = .ok ids ∧ source.table.HasKey column.name key ids) :
    ∃ ids, (match column.type.stored? value with
      | some key => byKey key
      | none => .ok .empty) = .ok ids ∧ source.Keyed column value ids := by
  split
  · rename_i key hkey
    have hne : key ≠ .null := by
      rintro rfl
      cases htype : column.type <;> cases value <;> simp [htype, ColumnType.stored?] at hkey
    obtain ⟨ids, hids, hmem⟩ := hbyKey key hne
    refine ⟨ids, hids, fun id => (hmem id).trans ?_⟩
    simp only [hkey, Option.some.injEq, exists_eq_left', eq_comm]
  · rename_i hkey
    refine ⟨.empty, rfl, fun id => ?_⟩
    simp [hkey, SortedMap.contains, SortedMap.get?_empty]

/-- A source that does not look at every row finds by keys. -/
theorem exists_keyed (h : source.table.Sound)
    (hcolumn : source.column? column.name = some column)
    (hlookup : source.lookup op column.name value ≠ .scan) :
    ∃ ids, source.find op column value = .ok ids ∧ source.Keyed column value ids := by
  unfold find
  split
  · rename_i name hname
    unfold lookup at hname
    split at hname
    · simp at hname
    · split at hname
      · rename_i index hindexed
        cases hname
        obtain ⟨d, hd, hcolumns, rfl⟩ :=
          Schema.mem_indexedColumns.mp (SortedMap.mem_of_get?_ofList hindexed)
        obtain ⟨index, hindex, hone⟩ := h.index d hd
        rw [hcolumns] at hone
        exact keyed_of_hasKey fun key hkey =>
          Table.hasKey_findByIndex h.coherent hindex (hone rfl) hkey
      · split at hname <;> simp at hname
  · rename_i position hposition
    unfold lookup at hposition
    split at hposition
    · simp at hposition
    · split at hposition
      · simp at hposition
      · split at hposition
        · rename_i place hplace
          cases hposition
          obtain ⟨hlt, hname, -⟩ := List.findIdx?_eq_some_iff_getElem.mp hplace
          have hget : source.table.schema.primaryKeys[position]? = some column.name := by
            rw [List.getElem?_eq_getElem hlt, beq_iff_eq.mp hname]
          exact keyed_of_hasKey fun key hkey => Table.hasKey_findByPrimaryKey h hget hcolumn hkey
        · simp at hposition
  · rename_i hscan
    exact absurd hscan hlookup

/-- Identities that are found by keys are those that a look at every row finds. -/
theorem findAll_of_keyed (h : source.table.Sound)
    (hcolumn : source.column? column.name = some column)
    (hvalue : column.type.checkComparable value = .ok ()) (hnull : value ≠ .null)
    (hnan : value ≠ .float .nan) {ids : SortedSet RowId} (hids : source.Keyed column value ids) :
    Row.findAll (fun row => (row.cell column.name).equal value) source.table.rows.entries =
      .ok ids := by
  refine Row.findAll_eq (fun id row hrow => ?_) fun id hid => ?_
  · obtain ⟨b, hb, hiff⟩ :=
      ColumnType.decides_of_has (h.cell hrow hcolumn).2 hvalue hnull hnan
    rw [hb, Except.ok.injEq, Bool.eq_iff_iff, hiff, hids]
    constructor
    · exact fun hkey => ⟨row, hrow, hkey⟩
    · rintro ⟨row', hrow', hkey⟩
      rwa [← Option.some.inj (hrow.symm.trans hrow')] at hkey
  · obtain ⟨row, hrow, -⟩ := (hids id).mp hid
    exact SortedMap.contains_of_get? hrow

/-- Every way of finding rows finds the ones that a look at every row finds. -/
theorem find_eq_findAll (h : source.table.Sound)
    (hcolumn : source.column? column.name = some column)
    (hvalue : column.type.checkComparable value = .ok ()) (hnan : value ≠ .float .nan) :
    source.find op column value =
      Row.findAll (fun row => op.holds (row.cell column.name) value) source.table.rows.entries := by
  by_cases hlookup : source.lookup op column.name value = .scan
  · exact find_scan hlookup
  · obtain ⟨ids, hfind, hids⟩ := exists_keyed h hcolumn hlookup
    simp only [lookup_eq_scan_iff, not_or, ne_eq, Decidable.not_not] at hlookup
    obtain ⟨⟨rfl, hnull, -⟩, -⟩ := hlookup
    have hnull : value ≠ .null := by
      rintro rfl
      exact hnull rfl
    rw [hfind]
    exact (findAll_of_keyed h hcolumn hvalue hnull hnan hids).symm

end Source

end Relational
