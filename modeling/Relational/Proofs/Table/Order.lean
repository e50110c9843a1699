import Relational.Proofs.Store.Insertion
import Relational.Proofs.Table.Constraint

/-!
# Insertions in any order

Whether a row can be inserted is a matter of the row and of each of the stored rows on its own: the
two have to be apart (`Table.Apart`), which goes both ways and does not change as rows come
(`Apart.symm`, `apart_added_iff`). So two insertions can change places (`Sound.insert_swap`), and
therewith the rows of a list (`Sound.insertAll_perm`): the table is the same, with its indexes.
-/

namespace Relational

/-! ## Entries of indexes -/

/-- Rows are added to an index in any order. -/
theorem Index.add_add_comm (index : Index) (id id' : RowId) (row row' : Row) :
    (index.add id row).add id' row' = (index.add id' row').add id row := by
  have hentries : ((index.add id row).add id' row').entries =
      ((index.add id' row').add id row).entries := by
    refine SortedMap.ext fun key => ?_
    have hids : (((index.lookup key).add id).add id' : SortedSet RowId) =
        ((index.lookup key).add id').add id := by
      refine SortedSet.ext_contains fun other => Bool.eq_iff_iff.mpr ?_
      rw [SortedSet.contains_add, SortedSet.contains_add, SortedSet.contains_add,
        SortedSet.contains_add]
      exact or_left_comm
    simp only [get?_add, lookup, key?_add]
    by_cases hkey : index.key? row = some key <;> by_cases hkey' : index.key? row' = some key <;>
      simp only [hkey, hkey', if_true, if_false, Option.getD_some, Option.some.injEq]
    exact hids
  have hcolumns : ((index.add id row).add id' row').columns =
      ((index.add id' row').add id row).columns := by
    simp only [columns_add]
  have hunique : ((index.add id row).add id' row').unique =
      ((index.add id' row').add id row).unique := by
    simp only [unique_add]
  calc (index.add id row).add id' row'
      = ⟨((index.add id row).add id' row').columns, ((index.add id row).add id' row').unique,
          ((index.add id row).add id' row').entries⟩ := rfl
    _ = (index.add id' row').add id row := by rw [hentries, hcolumns, hunique]

/-- An index has an entry under a key where a stored row has the key. -/
theorem Index.Describes.contains_iff {index : Index} {rows : SortedMap RowId Row}
    (h : index.Describes rows) {key : String} :
    index.entries.contains key = true ↔
      ∃ id row, rows.get? id = some row ∧ index.key? row = some key := by
  rw [SortedMap.contains_iff]
  constructor
  · rintro ⟨ids, hids⟩
    obtain ⟨id, hid⟩ := SortedMap.isEmpty_eq_false_iff.mp (h.nonempty key ids hids)
    have hlookup : (index.lookup key).contains id = true := by rwa [Index.lookup, hids]
    exact ⟨id, (h.mem key id).mp hlookup⟩
  · rintro ⟨id, row, hrow⟩
    have hlookup := (h.mem key id).mpr ⟨row, hrow⟩
    cases hids : index.entries.get? key with
    | none =>
      rw [Index.lookup, hids] at hlookup
      exact absurd hlookup Bool.false_ne_true
    | some ids => exact ⟨ids, rfl⟩

namespace Table

variable {table table' next : Table} {row row' stored : Row} {id id' : RowId}

/-! ## Rows that are apart -/

/-- Two rows can be in the table together: they are not known by the same, agree in no unique column,
and have no key together under a unique index. -/
structure Apart (table : Table) (row row' : Row) : Prop where
  rowId : table.schema.rowId row ≠ table.schema.rowId row'
  column (column : Column) : column ∈ table.schema.columns → column.unique = true →
    ¬row.Agree row' [column.name]
  index (name : String) (index : Index) : table.indexes.get? name = some index →
    index.unique = true → ∀ key, index.key? row = some key → index.key? row' ≠ some key

theorem Apart.symm (h : table.Apart row row') : table.Apart row' row where
  rowId := h.rowId.symm
  column column hcolumn hunique hagree := h.column column hcolumn hunique hagree.symm
  index name index hindex hunique key hkey hkey' := h.index name index hindex hunique key hkey' hkey

/-- The table with a row as it is to be stored. -/
def added (table : Table) (stored : Row) : Table :=
  let id := table.schema.rowId stored
  { table with
    rows := table.rows.insert id stored
    indexes := table.indexes.map fun _ index => index.add id stored }

theorem schema_added : (table.added stored).schema = table.schema := rfl

theorem get?_added (id : RowId) : (table.added stored).rows.get? id =
    if id = table.schema.rowId stored then some stored else table.rows.get? id :=
  SortedMap.get?_insert _ _ _ _

/-- What is in the table does not matter to whether two rows are apart. -/
theorem apart_added_iff : (table.added stored).Apart row row' ↔ table.Apart row row' := by
  constructor
  · refine fun h => ⟨h.rowId, h.column, fun name index hindex hunique key hkey => ?_⟩
    have hnext : (table.added stored).indexes.get? name =
        some (index.add (table.schema.rowId stored) stored) := by
      rw [added, SortedMap.get?_map, hindex, Option.map_some]
    have hapart := h.index name _ hnext (Index.unique_add.trans hunique) key
    rw [Index.key?_add, Index.key?_add] at hapart
    exact hapart hkey
  · refine fun h => ⟨h.rowId, h.column, fun name index hindex hunique key hkey => ?_⟩
    rw [added, SortedMap.get?_map] at hindex
    obtain ⟨index, hold, rfl⟩ := Option.map_eq_some_iff.mp hindex
    rw [Index.key?_add] at hkey ⊢
    exact h.index name index hold (Index.unique_add.symm.trans hunique) key hkey

theorem added_added_comm (h : table.Apart row row') :
    (table.added row).added row' = (table.added row').added row := by
  have hrows : ((table.added row).added row').rows = ((table.added row').added row).rows := by
    refine SortedMap.ext fun id => ?_
    simp only [get?_added, schema_added]
    by_cases hid : id = table.schema.rowId row
    · rw [if_neg fun hid' => h.rowId (hid.symm.trans hid'), if_pos hid, if_pos hid]
    · simp only [if_neg hid]
  have hindexes : ((table.added row).added row').indexes = ((table.added row').added row).indexes := by
    refine SortedMap.ext fun name => ?_
    simp only [added, SortedMap.get?_map, Option.map_map]
    congr 1
    exact funext fun index => Index.add_add_comm index _ _ _ _
  calc (table.added row).added row'
      = ⟨table.schema, ((table.added row).added row').rows, ((table.added row).added row').indexes⟩ :=
        rfl
    _ = (table.added row').added row := by rw [hrows, hindexes]; rfl

/-! ## What an insertion checks -/

theorem holdsValue_eq_false {name : String} {value : Value} {rows : List Row}
    (h : ∀ row ∈ rows, ∃ cell, row.get? name = some cell ∧ cell.equal value = .ok false) :
    holdsValue name value rows = .ok false := by
  induction rows with
  | nil => rfl
  | cons row rows ih =>
    obtain ⟨cell, hcell, hequal⟩ := h row List.mem_cons_self
    rw [holdsValue, hcell]
    dsimp only
    rw [hequal]
    exact ih fun other hother => h other (List.mem_cons_of_mem _ hother)

theorem checkUniqueColumns_eq_ok {columns : List Column}
    (h : ∀ column ∈ columns, column.unique = true → row.cell column.name ≠ .null →
      holdsValue column.name (row.cell column.name) table.rows.values = .ok false) :
    table.checkUniqueColumns row columns = .ok () := by
  induction columns with
  | nil => rfl
  | cons column columns ih =>
    have hrest := ih fun c hc => h c (List.mem_cons_of_mem _ hc)
    rw [checkUniqueColumns]
    dsimp only
    split
    · rename_i hasked
      rw [Bool.and_eq_true] at hasked
      have hcell : row.cell column.name ≠ .null := by
        intro hnull
        rw [hnull] at hasked
        exact absurd hasked.2 Bool.false_ne_true
      rw [h column List.mem_cons_self hasked.1 hcell]
      exact hrest
    · exact hrest

theorem repeatedKey?_eq_none_iff : table.repeatedKey? row = none ↔
    ∀ name index, table.indexes.get? name = some index → index.unique = true →
      ∀ key, index.key? row = some key → index.entries.contains key = false := by
  constructor
  · intro h name index hindex hunique key hkey
    exact contains_eq_false_of_repeatedKey? h hindex hunique hkey
  · intro h
    refine List.findSome?_eq_none_iff.mpr fun (name, index) hmem => ?_
    have hindex := SortedMap.mem_entries_iff.mp hmem
    dsimp only
    split
    · rename_i hunique
      cases hkey : index.key? row with
      | none => rfl
      | some key =>
        have hnew := h name index hindex hunique key hkey
        rw [Option.bind_some, hnew, if_neg Bool.false_ne_true]
    · rfl

/-- Cells of one column compare, so where rows do not agree in it, their cells are not equal. -/
theorem Sound.equal_eq_false_of_not_agree (h : table.Sound) (hfits : row.Fits table.schema.columns)
    (hrow' : table.rows.get? id' = some row') {column : Column}
    (hcolumn : column ∈ table.schema.columns) (hcell : row.cell column.name ≠ .null)
    (hdiffer : ¬row.Agree row' [column.name]) :
    ∃ cell, row'.get? column.name = some cell ∧
      cell.equal (row.cell column.name) = .ok false := by
  obtain ⟨value, hvalue, htakes⟩ := hfits.cell column hcolumn
  obtain ⟨cell, hget, htakes'⟩ := (h.rowFits id' row' hrow').cell column hcolumn
  have hvalue' : row.cell column.name = value := by rw [Row.cell, hvalue, Option.getD_some]
  have hcell' : row'.cell column.name = cell := by rw [Row.cell, hget, Option.getD_some]
  obtain ⟨b, hequal, -⟩ := ColumnType.equal_of_has htakes'.has htakes.has
  rw [hvalue'] at hcell ⊢
  refine ⟨cell, hget, ?_⟩
  cases b with
  | false => exact hequal
  | true =>
    refine absurd (fun name hname => ?_) hdiffer
    rw [List.mem_singleton.mp hname, hvalue', hcell']
    refine ⟨hcell, fun hnull => ?_, Value.equal_swap hequal⟩
    rw [hnull] at hequal
    cases value with
    | null => exact hcell rfl
    | _ => cases hequal

/-- A row can be inserted where it is apart from each of the stored rows. -/
theorem Sound.insert_eq_ok_iff_apart (h : table.Sound) :
    table.insert row = .ok (id, table') ↔ ∃ stored, table.schema.validate row = .ok stored ∧
      id = table.schema.rowId stored ∧
      (∀ id' row', table.rows.get? id' = some row' → table.Apart stored row') ∧
      table' = table.added stored := by
  rw [insert_eq_ok_iff]
  refine exists_congr fun stored => and_congr_right fun hstored => ?_
  have hfits := Schema.fits_of_validate h.nodup hstored
  constructor
  · rintro ⟨rfl, hnew, hcheck, hkeys, rfl⟩
    refine ⟨rfl, fun id' row' hrow' => ⟨fun hid => ?_, fun column hcolumn hunique hagree => ?_,
      fun name index hindex hunique key hkey hkey' => ?_⟩, rfl⟩
    · rw [hid, ← h.coherent.rowId id' row' hrow', SortedMap.contains_of_get? hrow'] at hnew
      exact absurd hnew Bool.true_eq_false.mp
    · obtain ⟨hcell, -, hequal⟩ := hagree column.name List.mem_cons_self
      exact equal_ne_of_checkUniqueColumns hcheck hcolumn hunique hcell hrow'
        (Value.equal_swap hequal)
    · have hentry := repeatedKey?_eq_none_iff.mp hkeys name index hindex hunique key hkey
      have hdescribes := h.coherent.describes name index hindex
      rw [hdescribes.contains_iff.mpr ⟨id', row', hrow', hkey'⟩] at hentry
      exact absurd hentry Bool.true_eq_false.mp
  · rintro ⟨rfl, hapart, rfl⟩
    refine ⟨rfl, ?_, checkUniqueColumns_eq_ok fun column hcolumn hunique hcell =>
      holdsValue_eq_false fun row' hmem => ?_, ?_, rfl⟩
    · refine SortedMap.contains_eq_false_iff.mpr (Option.eq_none_iff_forall_ne_some.mpr ?_)
      intro row' hrow'
      exact (hapart _ row' hrow').rowId (h.coherent.rowId _ row' hrow')
    · obtain ⟨⟨id', row'⟩, hentry, rfl⟩ := List.mem_map.mp hmem
      have hrow' := SortedMap.mem_entries_iff.mp hentry
      have hdiffer := (hapart id' row' hrow').column column hcolumn hunique
      exact h.equal_eq_false_of_not_agree hfits hrow' hcolumn hcell hdiffer
    · refine repeatedKey?_eq_none_iff.mpr fun name index hindex hunique key hkey => ?_
      rw [← Bool.not_eq_true, (h.coherent.describes name index hindex).contains_iff]
      rintro ⟨id', row', hrow', hkey'⟩
      exact (hapart id' row' hrow').index name index hindex hunique key hkey hkey'

/-! ## Changing places -/

/-- Two insertions one after the other can be made the other way round. -/
theorem Sound.insert_swap (h : table.Sound) (hinsert : table.insert row = .ok (id, next))
    (hinsert' : next.insert row' = .ok (id', table')) :
    ∃ next', table.insert row' = .ok (id', next') ∧ next'.insert row = .ok (id, table') := by
  have hnext := h.insert hinsert
  obtain ⟨stored, hstored, rfl, hapart, rfl⟩ := h.insert_eq_ok_iff_apart.mp hinsert
  obtain ⟨stored', hstored', rfl, hapart', rfl⟩ := hnext.insert_eq_ok_iff_apart.mp hinsert'
  have hdiffer : table.Apart stored' stored :=
    apart_added_iff.mp (hapart' _ stored (by rw [get?_added, if_pos rfl]))
  have hold (id : RowId) (r : Row) (hr : table.rows.get? id = some r) : table.Apart stored' r := by
    have hne : id ≠ table.schema.rowId stored := by
      rw [h.coherent.rowId id r hr]
      exact (hapart id r hr).rowId.symm
    exact apart_added_iff.mp (hapart' id r (by rw [get?_added, if_neg hne, hr]))
  have hfirst : table.insert row' = .ok (table.schema.rowId stored', table.added stored') :=
    h.insert_eq_ok_iff_apart.mpr ⟨stored', hstored', rfl, hold, rfl⟩
  refine ⟨table.added stored', hfirst, ?_⟩
  refine (h.insert hfirst).insert_eq_ok_iff_apart.mpr
    ⟨stored, hstored, rfl, fun id r hr => apart_added_iff.mpr ?_, added_added_comm hdiffer.symm⟩
  rw [get?_added] at hr
  split at hr
  · rw [← Option.some.inj hr]
    exact hdiffer.symm
  · exact hapart id r hr

/-- The rows of a list can be inserted in any order, and the table is the same. -/
theorem Sound.insertAll_perm (h : table.Sound) {rows rows' : List Row} (hperm : rows.Perm rows')
    (hrows : table.insertAll rows = .ok table') : table.insertAll rows' = .ok table' := by
  induction hperm generalizing table table' with
  | nil => exact hrows
  | cons row _ ih =>
    rw [insertAll, bind_eq_ok_iff] at hrows ⊢
    obtain ⟨⟨id, next⟩, hinsert, hrows⟩ := hrows
    exact ⟨(id, next), hinsert, ih (h.insert hinsert) hrows⟩
  | swap row row' rows =>
    simp only [insertAll, bind_eq_ok_iff] at hrows ⊢
    obtain ⟨⟨id', next⟩, hinsert', ⟨id, last⟩, hinsert, hrows⟩ := hrows
    obtain ⟨next', hfirst, hsecond⟩ := h.insert_swap hinsert' hinsert
    exact ⟨(id, next'), hfirst, (id', last), hsecond, hrows⟩
  | trans _ _ ih ih' => exact ih' h (ih h hrows)

end Table

end Relational
