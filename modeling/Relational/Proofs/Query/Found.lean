import Relational.Engine
import Relational.Proofs.Query.Reveal
import Relational.Proofs.Statement.Select

/-!
# Finding what a column stores

A column stores a value that is equal to the one it is given, but for two kinds of values
(`ColumnType.equal_of_coerce`): a whole number that is no float, and what is not a number
(`ColumnType.Keeps`). A comparison with the value then finds the row, in whatever way rows are found
(`Source.exists_found`), and so shows a selection of all columns (`Selection.answer_star`).
-/

namespace Relational

open Std

/-! ## Stored values -/

namespace ColumnType

variable {type : ColumnType} {column : String} {value stored : Value}

/-- The column stores the value as one that is equal to it: a whole number in a column of floats only if
it is a float, and what is not a number never. -/
def Keeps : ColumnType → Value → Prop
  | _, .float .nan => False
  | float, .int n => (Binary64.ofInt n.val).whole? = some n.val
  | _, _ => True

theorem keeps_float_iff {x : Binary64} : type.Keeps (.float x) ↔ x ≠ .nan := by
  cases x with
  | nan => exact iff_of_false id fun h => h rfl
  | _ => cases type <;> exact iff_of_true trivial nofun

/-- What a column takes in can be compared with it. -/
theorem checkComparable_of_coerce (h : type.coerce column value = .ok stored) :
    type.checkComparable value = .ok () := by
  cases coerce_eq_ok_iff.mp h <;> rfl

/-- What is not a number is stored as such. -/
theorem coerce_nan (h : type.coerce column (.float .nan) = .ok stored) : stored = .float .nan := by
  cases coerce_eq_ok_iff.mp h with
  | whole hwhole => cases hwhole
  | float => rfl

/-- The stored value is equal to the value exactly if the column keeps the value. -/
theorem equal_of_coerce (h : type.coerce column value = .ok stored) (hnull : value ≠ .null) :
    ∃ b, stored.equal value = .ok b ∧ (b = true ↔ type.Keeps value) := by
  cases coerce_eq_ok_iff.mp h with
  | null => exact absurd rfl hnull
  | int | bit => exact ⟨_, Value.equal_int _ _, iff_of_true (decide_eq_true rfl) trivial⟩
  | varchar | date => exact ⟨_, Value.equal_text _ _, iff_of_true (decide_eq_true rfl) trivial⟩
  | @whole x n hwhole =>
    refine ⟨_, Value.equal_int_float n x, ?_⟩
    have hnan : x ≠ .nan := by
      rintro rfl
      cases hwhole
    rw [decide_eq_true_iff, keeps_float_iff, ← wholeNumber?_eq_some_iff]
    exact iff_of_true hwhole hnan
  | @widened n =>
    refine ⟨_, Value.equal_float_int _ n, ?_⟩
    rw [decide_eq_true_iff, ← Binary64.whole?_eq_some_iff]
    rfl
  | @float x =>
    rw [keeps_float_iff]
    by_cases hnan : x = .nan
    · subst hnan
      exact ⟨false, rfl, by decide⟩
    · exact ⟨_, Value.equal_float x hnan, iff_of_true (decide_eq_true rfl) hnan⟩

end ColumnType

namespace Schema

variable {schema : Schema} {row stored : Row}

/-- Every column stores what it makes of its cell of the row. -/
theorem coerce_of_storeCells {columns : List Column} {before : Row}
    (hnodup : (columns.map (·.name)).Nodup) (h : storeCells columns row before = .ok stored) :
    ∀ column ∈ columns, column.type.coerce column.name (row.cell column.name) =
      .ok (stored.cell column.name) := by
  induction columns generalizing row before with
  | nil => nofun
  | cons c columns ih =>
    obtain ⟨hc, hcolumns⟩ := List.nodup_cons.mp hnodup
    simp only [storeCells, bind_eq_ok_iff, guard_eq_ok_iff] at h
    obtain ⟨value, hvalue, -, h⟩ := h
    intro column hcolumn
    rcases List.mem_cons.mp hcolumn with rfl | hcolumn
    · have hcell := (storeCells_spec hcolumns h).1 column.name hc
      rw [SortedMap.get?_insert, if_pos rfl] at hcell
      have hstored : stored.cell column.name = value := by
        rw [Row.cell, hcell, Option.getD_some]
      rw [hstored]
      exact hvalue
    · have hne : column.name ≠ c.name := fun he => hc (List.mem_map.mpr ⟨column, hcolumn, he⟩)
      have hcell : Row.cell (SortedMap.erase row c.name) column.name = row.cell column.name := by
        rw [Row.cell, SortedMap.get?_erase, if_neg hne, Row.cell]
      rw [← hcell]
      exact ih hcolumns h column hcolumn

theorem coerce_of_validate (hnodup : schema.columnNames.Nodup) (h : schema.validate row = .ok stored) :
    ∀ column ∈ schema.columns,
      column.type.coerce column.name (row.cell column.name) = .ok (stored.cell column.name) :=
  coerce_of_storeCells hnodup (validate_eq_ok_iff.mp h).2

/-- What a validated row was given is stored under the column of its name. -/
theorem exists_column_of_validate (hnodup : schema.columnNames.Nodup)
    (h : schema.validate row = .ok stored) {name : String} {value : Value}
    (hvalue : row.get? name = some value) :
    ∃ column, schema.column? name = some column ∧ column.name = name ∧
      column.type.coerce name value = .ok (stored.cell name) := by
  have hname : name ∈ row.keys :=
    SortedMap.mem_keys_iff.mpr (SortedMap.contains_of_get? hvalue)
  have hcolumn := (validate_eq_ok_iff.mp h).1 name hname
  obtain ⟨column, hcolumn⟩ := Option.isSome_iff_exists.mp (column?_isSome_iff.mpr hcolumn)
  obtain ⟨hmem, rfl⟩ := (column?_eq_some_iff hnodup).mp hcolumn
  refine ⟨column, hcolumn, rfl, ?_⟩
  have hcell := coerce_of_validate hnodup h column hmem
  rwa [Row.cell, hvalue, Option.getD_some] at hcell

end Schema

/-! ## Found rows -/

theorem Value.isNull_of_ne_null {value : Value} (hnull : value ≠ .null) : value.isNull = false := by
  cases value <;> first | rfl | exact absurd rfl hnull

namespace Source

variable {source : Source} {column : Column} {value : Value}

/-- A cell meets a constant: it equals the constant; or both are not a number, and rows are found by
keys. -/
def Meets (source : Source) (column : Column) (value cell : Value) : Prop :=
  cell.equal value = .ok true ∨
    value = .float .nan ∧ source.scanned = false ∧ source.table.schema.IsKeyed column.name ∧
      cell = .float .nan

/-- A scan finds the rows whose cell meets the constant. -/
theorem exists_found_scan (h : source.table.Sound) (hcolumn : source.column? column.name = some column)
    (hvalue : column.type.checkComparable value = .ok ()) (hnull : value ≠ .null)
    (hlookup : source.lookup (.comparison .eq) column.name value = .scan) :
    ∃ ids, source.find (.comparison .eq) column value = .ok ids ∧ ∀ id,
      SortedMap.contains ids id = true ↔ ∃ row, source.table.rows.get? id = some row ∧
        source.Meets column value (row.cell column.name) := by
  have hkeyed := lookup_eq_scan_iff.mp hlookup
  simp only [ne_eq, not_true_eq_false, Value.isNull_of_ne_null hnull, false_or,
    Bool.false_eq_true] at hkeyed
  have hmeets (cell : Value) : source.Meets column value cell ↔ cell.equal value = .ok true :=
    or_iff_left fun ⟨_, hscanned, hcolumn, _⟩ =>
      hkeyed.elim (by rw [hscanned]; nofun) fun hnot => hnot hcolumn
  have htest : ∀ e ∈ source.table.rows.entries,
      ∃ b, (e.2.cell column.name).equal value = .ok b := by
    rintro ⟨id, row⟩ hmem
    have hhas := (h.cell (SortedMap.mem_entries_iff.mp hmem) hcolumn).2
    by_cases hnan : value = .float .nan
    · subst hnan
      exact ⟨false, equal_nan hhas hvalue⟩
    · exact (ColumnType.decides_of_has hhas hvalue hnull hnan).imp fun _ => And.left
  have hfound := filterM_eq_ok_iff.mpr ⟨htest, rfl⟩
  obtain ⟨ids, hids⟩ : ∃ ids, Row.findAll (fun row => (row.cell column.name).equal value)
      source.table.rows.entries = .ok ids := ⟨_, bind_eq_ok_iff.mpr ⟨_, hfound, rfl⟩⟩
  refine ⟨ids, (find_scan hlookup).trans hids, fun id => ?_⟩
  simp only [Row.contains_findAll hids, hmeets]

/-- A look for a key finds the rows whose cell meets the constant. -/
theorem exists_found_keyed (h : source.table.Sound)
    (hcolumn : source.column? column.name = some column)
    (hvalue : column.type.checkComparable value = .ok ()) (hnull : value ≠ .null)
    (hlookup : source.lookup (.comparison .eq) column.name value ≠ .scan) :
    ∃ ids, source.find (.comparison .eq) column value = .ok ids ∧ ∀ id,
      SortedMap.contains ids id = true ↔ ∃ row, source.table.rows.get? id = some row ∧
        source.Meets column value (row.cell column.name) := by
  obtain ⟨ids, hfind, hids⟩ := exists_keyed h hcolumn hlookup
  refine ⟨ids, hfind, fun id => ?_⟩
  rw [ne_eq, lookup_eq_scan_iff] at hlookup
  simp only [not_or, ne_eq, not_true_eq_false, Value.isNull_of_ne_null hnull, not_false_eq_true,
    Classical.not_not, Bool.not_eq_true, true_and] at hlookup
  by_cases hnan : value = .float .nan
  · subst hnan
    rw [(keyed_nan_iff h hcolumn).mp hids]
    refine exists_congr fun row => and_congr_right fun hrow => ?_
    have hequal := equal_nan (h.cell hrow hcolumn).2 hvalue
    simp [Meets, hequal, hlookup]
  · rw [hids]
    refine exists_congr fun row => and_congr_right fun hrow => ?_
    obtain ⟨b, hb, hiff⟩ :=
      ColumnType.decides_of_has (h.cell hrow hcolumn).2 hvalue hnull hnan
    rw [← hiff, Meets, hb, Except.ok.injEq]
    simp [hnan]

/-- An equality with a constant finds the rows whose cell meets the constant. -/
theorem exists_found (h : source.table.Sound) (hcolumn : source.column? column.name = some column)
    (hvalue : column.type.checkComparable value = .ok ()) (hnull : value ≠ .null) :
    ∃ ids, source.find (.comparison .eq) column value = .ok ids ∧ ∀ id,
      SortedMap.contains ids id = true ↔ ∃ row, source.table.rows.get? id = some row ∧
        source.Meets column value (row.cell column.name) := by
  by_cases hlookup : source.lookup (.comparison .eq) column.name value = .scan
  · exact exists_found_scan h hcolumn hvalue hnull hlookup
  · exact exists_found_keyed h hcolumn hvalue hnull hlookup

/-- What a column stores meets the value that it was given, if the column keeps the value; what is not
a number, if rows are found by keys. -/
theorem meets_of_coerce (hscanned : source.scanned = false) {stored : Value}
    (hstored : column.type.coerce column.name value = .ok stored) (hnull : value ≠ .null) :
    source.Meets column value stored ↔ column.type.Keeps value ∨
      value = .float .nan ∧ source.table.schema.IsKeyed column.name := by
  obtain ⟨b, hb, hiff⟩ := ColumnType.equal_of_coerce hstored hnull
  rw [Meets, hb, Except.ok.injEq, hiff]
  refine or_congr_right (and_congr_right fun hnan => ?_)
  subst hnan
  rw [ColumnType.coerce_nan hstored]
  simp [hscanned]

end Source

/-! ## Shown rows -/

namespace Selection

/-- The rows that a selection of all columns shows of a table. -/
def shownRows (table : Table) (ids : SortedSet RowId) : List (List Value) :=
  (table.rows.restrict ids).values.map fun row => table.schema.columnNames.map row.cell

/-- The names over all columns of a table: each behind the name of the table and a dot. -/
def shownFields (table : Table) : List String :=
  table.schema.columnNames.map fun column => table.schema.name ++ "." ++ column

theorem mem_shownRows {table : Table} {ids : SortedSet RowId} {cells : List Value} :
    cells ∈ shownRows table ids ↔ ∃ id row, table.rows.get? id = some row ∧
      SortedMap.contains ids id = true ∧ table.schema.columnNames.map row.cell = cells := by
  rw [shownRows, List.mem_map]
  constructor
  · rintro ⟨row, hrow, rfl⟩
    obtain ⟨⟨id, _⟩, hentry, rfl⟩ := List.mem_map.mp hrow
    have hget := SortedMap.mem_entries_iff.mp hentry
    rw [SortedMap.get?_restrict] at hget
    split at hget
    · rename_i hid
      exact ⟨id, _, hget, hid, rfl⟩
    · nomatch hget
  · rintro ⟨id, row, hrow, hid, rfl⟩
    refine ⟨row, List.mem_map.mpr ⟨(id, row), SortedMap.mem_entries_iff.mpr ?_, rfl⟩, rfl⟩
    rw [SortedMap.get?_restrict, if_pos hid, hrow]

/-- A selection of one table shows what its list makes of the rows that its condition picks. -/
theorem answer_ofTable {tables : Database} {name : String} {table : Table} {columns text : List Char}
    {projection : Projection} (htable : tables.get? name = some table)
    (hprojection : Projection.read columns (Query.ofTable table).scope = .ok projection) :
    (⟨columns, name, none, [], some text⟩ : Selection).answer tables = (do
      let rows ← (Query.ofTable table).evaluate (← Condition.read text)
      return .ofRows projection.fields (← projection.apply rows)) := by
  have hbuild : Query.build tables ⟨table, none, false⟩ [] = .ok (Query.ofTable table) := by
    rw [Query.build, JoinClause.readAll_nil]
    rfl
  simp only [answer, htable, hbuild, ok_bind, hprojection, rows, bind_assoc]

/-- A selection of all columns of a table shows the rows that its condition picks. -/
theorem answer_star {tables : Database} {name : String} {table : Table} {text : List Char}
    {condition : Condition} {ids : SortedSet RowId} (htable : tables.get? name = some table)
    (hread : Condition.read text = .ok condition)
    (hpicked : (Query.ofTable table).evaluate condition =
      .ok ((⟨table, none, false⟩ : Source).group (table.select (some ids) []))) :
    (⟨['*'], name, none, [], some text⟩ : Selection).answer tables =
      .ok { fields := shownFields table, rows := shownRows table ids, messages := [],
            error := none } := by
  have hprojection : Projection.read ['*'] (Query.ofTable table).scope =
      .ok (.columns (Query.ofTable table).scope.columns) := rfl
  have hfields : (Projection.columns (Query.ofTable table).scope.columns).fields =
      shownFields table := by
    simp [Projection.fields, Query.ofTable, Scope.columns, Scope.qualified, shownFields, Source.name]
  have happly : (Projection.columns (Query.ofTable table).scope.columns).apply
      ((⟨table, none, false⟩ : Source).group (table.select (some ids) [])) =
        .ok (shownRows table ids) := by
    simp [Projection.apply, Projection.cell, Query.ofTable, Scope.columns, shownRows, Source.name,
      Source.group, Table.select, SortedMap.values, SortedMap.map, Row.project, Row.cell,
      SortedMap.get?_insert_self]
  simp only [answer_ofTable htable hprojection, hread, ok_bind, hpicked, happly, hfields,
    Answer.ofRows, pure_eq_ok]

theorem read_count (scope : Scope) :
    Projection.read "COUNT(*)".toList scope =
      .ok (.aggregates [⟨.count, "*", some .rows⟩]) := by
  have hitems : Text.splitCommas "COUNT(*)".toList = ["COUNT(*)".toList] := by decide +kernel
  have hread : Aggregate.read? "COUNT(*)".toList = some ⟨.count, "*", none⟩ := by decide +kernel
  have hstar : ["COUNT(*)".toList] ≠ [['*']] := by decide
  rw [Projection.read, hitems]
  simp only [if_neg hstar, Projection.readItems, hread]
  rfl

/-- A selection of the count of a table's rows answers with the number of those that its condition
picks, and with nothing else. -/
theorem answer_count_eq_ok_iff {tables : Database} {name : String} {table : Table}
    {text : List Char} {answer : Answer} (htable : tables.get? name = some table) :
    (⟨"COUNT(*)".toList, name, none, [], some text⟩ : Selection).answer tables = .ok answer ↔
      ∃ condition rows, Condition.read text = .ok condition ∧
        (Query.ofTable table).evaluate condition = .ok rows ∧
        answer = { fields := ["COUNT(*)"], rows := [[.int (.ofLength rows.size)]], messages := [],
                   error := none } := by
  have happly (rows : JoinedRows) :
      (Projection.aggregates [⟨.count, "*", some .rows⟩]).apply rows =
        .ok [[.int (.ofLength rows.size)]] := rfl
  simp only [answer_ofTable htable (read_count _), bind_eq_ok_iff, happly, ok_bind]
  constructor
  · rintro ⟨condition, hread, rows, hrows, h⟩
    exact ⟨condition, rows, hread, hrows, (Except.ok.inj h).symm⟩
  · rintro ⟨condition, rows, hread, hrows, rfl⟩
    exact ⟨condition, hread, rows, hrows, rfl⟩

end Selection

namespace Table

variable {table after : Table} {given row : Row} {id : RowId} {column : Column} {value : Value}

/-- What was inserted is stored as each column makes it of what it was given. -/
theorem exists_stored (h : table.Sound) (hinsert : table.insert given = .ok (id, after))
    {name : String} (hvalue : given.get? name = some value) :
    ∃ stored column, after.rows.get? id = some stored ∧
      after.schema.column? column.name = some column ∧ column.name = name ∧
      column.type.coerce column.name value = .ok (stored.cell column.name) := by
  obtain ⟨stored, hstored, rfl, -, -, -, rfl⟩ := insert_eq_ok_iff.mp hinsert
  obtain ⟨column, hcolumn, rfl, hcoerce⟩ := Schema.exists_column_of_validate h.nodup hstored hvalue
  exact ⟨stored, column, SortedMap.get?_insert_self _ _ _, hcolumn, rfl, hcoerce⟩

/-- An equality with a value that a column made a cell of shows the row of the cell exactly if the
column keeps the value, or if it is not a number and rows are found by keys. -/
theorem exists_shown (h : table.Sound) (hrow : table.rows.get? id = some row)
    (hcolumn : table.schema.column? column.name = some column)
    (hcoerce : column.type.coerce column.name value = .ok (row.cell column.name))
    (hnull : value ≠ .null) :
    ∃ ids, (⟨table, none, false⟩ : Source).find (.comparison .eq) column value = .ok ids ∧
      (table.schema.columnNames.map row.cell ∈ Selection.shownRows table ids ↔
        column.type.Keeps value ∨ value = .float .nan ∧ table.schema.IsKeyed column.name) := by
  have hsource : (⟨table, none, false⟩ : Source).table.Sound := h
  obtain ⟨ids, hfind, hids⟩ := Source.exists_found hsource hcolumn
    (ColumnType.checkComparable_of_coerce hcoerce) hnull
  have hmeets : (⟨table, none, false⟩ : Source).Meets column value (row.cell column.name) ↔ _ :=
    Source.meets_of_coerce rfl hcoerce hnull
  have hmem := ((Schema.column?_eq_some_iff h.nodup).mp hcolumn).1
  refine ⟨ids, hfind, ?_⟩
  rw [← hmeets, Selection.mem_shownRows]
  constructor
  · -- a row that is shown like it has the same cell under the column
    rintro ⟨id, other, hother, hid, hcells⟩
    obtain ⟨found, hfound, hmeets⟩ := (hids id).mp hid
    obtain rfl := Option.some.inj (hother.symm.trans hfound)
    have hcell := List.map_inj_left.mp hcells column.name (List.mem_map_of_mem hmem)
    rwa [hcell] at hmeets
  · intro hmeets
    exact ⟨id, row, hrow, (hids id).mpr ⟨row, hrow, hmeets⟩, rfl⟩

end Table

end Relational
