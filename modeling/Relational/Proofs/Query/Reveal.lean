import Relational.Proofs.Operand
import Relational.Proofs.Query.Bare

/-!
# Finding behind a new index

A new index can change only the way in which rows are found. Two ways that go by keys find the same
(`Source.Keyed.unique`), and so do a look at every row and a way by keys, but for one constant: what
is not a number equals no cell, yet its key is the key of the cells that are not a number. So what is
found changes exactly where an index is the first way by keys to a column with such a cell
(`Table.Reveals`), and then for this one constant (`find_createIndex`, `Source.keyed_nan_iff`).
-/

namespace Relational

open Std

/-- The index would be the first way by keys to a column in which a row has a cell that is not a
number. -/
def Table.Reveals (table : Table) (definition : IndexDefinition) : Prop :=
  ∃ column, definition.columns = [column] ∧ ¬ table.schema.IsKeyed column ∧
    ∃ id row, table.rows.get? id = some row ∧ row.cell column = .float .nan

namespace Source

variable {source source' : Source} {column : Column} {value : Value} {ids ids' : SortedSet RowId}

theorem Keyed.unique (h : source.Keyed column value ids) (h' : source'.Keyed column value ids')
    (hrows : source.table.rows = source'.table.rows) : ids = ids' :=
  SortedSet.ext_contains fun id => Bool.eq_iff_iff.mpr <| by rw [h, h', hrows]

/-- Nothing equals what is not a number. -/
theorem equal_nan {type : ColumnType} {cell : Value} (hcell : type.Has cell)
    (hvalue : type.checkComparable (.float .nan) = .ok ()) : cell.equal (.float .nan) = .ok false := by
  cases cell with
  | null => rfl
  | int n => rfl
  | float x => cases x <;> rfl
  | text s =>
    cases type with
    | varchar limit => simp [ColumnType.checkComparable, ColumnType.isTextual,
        ColumnType.isVarchar] at hvalue
    | date => simp [ColumnType.checkComparable, ColumnType.isTextual, ColumnType.isDate] at hvalue
    | _ => exact hcell.elim

theorem findAll_nan (h : source.table.Sound) (hcolumn : source.column? column.name = some column)
    (hvalue : column.type.checkComparable (.float .nan) = .ok ()) :
    Row.findAll (fun row => (row.cell column.name).equal (.float .nan))
      source.table.rows.entries = .ok .empty := by
  refine Row.findAll_eq (fun id row hrow => ?_) fun id hid => ?_
  · exact equal_nan (h.cell hrow hcolumn).2 hvalue
  · simp [SortedMap.contains, SortedMap.get?_empty] at hid

theorem key?_eq_nan_iff {type : ColumnType} {cell : Value} (hcell : type.Has cell) :
    (∃ key, type.stored? (.float .nan) = some key ∧ key.key? = cell.key?) ↔
      cell = .float .nan := by
  cases type with
  | float =>
    simp only [ColumnType.stored?, Option.some.injEq, exists_eq_left']
    cases cell with
    | float x =>
      rw [Value.key?_float_eq_iff, Value.float.injEq, eq_comm, Binary64.place?_eq_iff]
      simp [Binary64.isZero]
    | null => simp [Value.key?]
    | int n => exact hcell.elim
    | text s => exact hcell.elim
  | int =>
    refine iff_of_false (by simp [ColumnType.stored?, ColumnType.wholeNumber?, Binary64.whole?]) ?_
    rintro rfl
    exact hcell.elim
  | bit =>
    refine iff_of_false (by simp [ColumnType.stored?, ColumnType.wholeNumber?, Binary64.whole?]) ?_
    rintro rfl
    exact hcell.elim
  | varchar limit =>
    refine iff_of_false (by simp [ColumnType.stored?]) ?_
    rintro rfl
    exact hcell.elim
  | date =>
    refine iff_of_false (by simp [ColumnType.stored?]) ?_
    rintro rfl
    exact hcell.elim

/-- By the key of what is not a number, the rows are found whose cell is not a number. -/
theorem keyed_nan_iff (h : source.table.Sound) (hcolumn : source.column? column.name = some column) :
    source.Keyed column (.float .nan) ids ↔ ∀ id, SortedMap.contains ids id = true ↔
      ∃ row, source.table.rows.get? id = some row ∧ row.cell column.name = .float .nan := by
  refine forall_congr' fun id => iff_congr Iff.rfl ?_
  refine exists_congr fun row => and_congr_right fun hrow => ?_
  exact key?_eq_nan_iff (h.cell hrow hcolumn).2

end Source

/-! ## A new index -/

theorem Table.isKeyed_createIndex {table table' : Table} {definition : IndexDefinition}
    (h : table.createIndex definition = .ok table') {column : String} :
    table'.schema.IsKeyed column ↔ table.schema.IsKeyed column ∨ definition.columns = [column] := by
  obtain ⟨-, -, -, rfl⟩ := createIndex_eq_ok_iff.mp h
  simp only [Schema.IsKeyed, List.mem_append, List.mem_singleton, or_and_right, exists_or,
    exists_eq_left]
  rw [or_right_comm]

namespace Source

variable {source source' : Source} {definition : IndexDefinition} {op : Operator} {column : Column}
  {value : Value}

/-- An index that is the first way by keys to a column is over this column. -/
theorem columns_of_lookup (hcreate : source.table.createIndex definition = .ok source'.table)
    (hscanned : source.scanned = source'.scanned) {name : String}
    (hlookup : source.lookup op name value = .scan)
    (hlookup' : source'.lookup op name value ≠ .scan) :
    definition.columns = [name] ∧ ¬ source.table.schema.IsKeyed name ∧ op = .comparison .eq := by
  rw [ne_eq, lookup_eq_scan_iff, not_or, Classical.not_not] at hlookup'
  rw [lookup_eq_scan_iff, hscanned, or_iff_right hlookup'.1] at hlookup
  refine ⟨?_, hlookup, ?_⟩
  · exact ((Table.isKeyed_createIndex hcreate).mp hlookup'.2).resolve_left hlookup
  · exact Decidable.of_not_not fun hop => hlookup'.1 (.inl hop)

/-- What a source finds is not changed by a new index, but where the index reveals what is not a
number and this is looked for. -/
theorem find_createIndex (h : source.table.Sound)
    (hcreate : source.table.createIndex definition = .ok source'.table)
    (hscanned : source.scanned = source'.scanned)
    (hcolumn : source.column? column.name = some column)
    (hvalue : column.type.checkComparable value = .ok ())
    (hsafe : source.table.Reveals definition → value ≠ .float .nan) :
    source.find op column value = source'.find op column value := by
  have h' := h.createIndex hcreate
  obtain ⟨-, -, -, heq⟩ := Table.createIndex_eq_ok_iff.mp hcreate
  have hrows : source.table.rows = source'.table.rows := by rw [heq]
  have hcolumn' : source'.column? column.name = some column := by
    rw [column?, heq]
    exact hcolumn
  by_cases hlookup : source.lookup op column.name value = .scan
  · by_cases hlookup' : source'.lookup op column.name value = .scan
    · rw [find_scan hlookup, find_scan hlookup', hrows]
    · obtain ⟨hcolumns, hkeyed, rfl⟩ := columns_of_lookup hcreate hscanned hlookup hlookup'
      by_cases hnan : value = .float .nan
      · -- looking at every row finds nothing, and there is nothing under the key
        subst hnan
        obtain ⟨ids, hfind, hids⟩ := exists_keyed h' hcolumn' hlookup'
        rw [find_scan hlookup, hfind]
        refine (findAll_nan h hcolumn hvalue).trans (congrArg _ ?_)
        refine SortedSet.ext_contains fun id => Bool.eq_iff_iff.mpr ?_
        rw [(keyed_nan_iff h' hcolumn').mp hids]
        refine iff_of_false (by simp [SortedMap.contains, SortedMap.get?_empty]) ?_
        rintro ⟨row, hrow, hcell⟩
        exact hsafe ⟨column.name, hcolumns, hkeyed, id, row, hrows ▸ hrow, hcell⟩ rfl
      · rw [find_eq_findAll h hcolumn hvalue hnan, find_eq_findAll h' hcolumn' hvalue hnan, hrows]
  · have hlookup' : source'.lookup op column.name value ≠ .scan := by
      rw [lookup_eq_scan_iff, not_or, Classical.not_not] at hlookup
      rw [ne_eq, lookup_eq_scan_iff, not_or, Classical.not_not, ← hscanned]
      exact ⟨hlookup.1, (Table.isKeyed_createIndex hcreate).mpr (.inl hlookup.2)⟩
    obtain ⟨ids, hfind, hids⟩ := exists_keyed h hcolumn hlookup
    obtain ⟨ids', hfind', hids'⟩ := exists_keyed h' hcolumn' hlookup'
    rw [hfind, hfind', hids.unique hids' hrows]

/-- Where a new index reveals what is not a number, a look for it finds nothing before and a row
behind. -/
theorem find_nan_of_reveals (h : source.table.Sound)
    (hcreate : source.table.createIndex definition = .ok source'.table)
    (hscanned : source'.scanned = false) (hreveals : source.table.Reveals definition) :
    ∃ column ids id row, source.column? column.name = some column ∧
      column.type.checkComparable (.float .nan) = .ok () ∧
      source.find (.comparison .eq) column (.float .nan) = .ok .empty ∧
      source'.find (.comparison .eq) column (.float .nan) = .ok ids ∧
      SortedMap.contains ids id = true ∧ source.table.rows.get? id = some row := by
  have h' := h.createIndex hcreate
  have hkept (name : String) (hname : definition.columns = [name]) :
      source'.table.schema.IsKeyed name := (Table.isKeyed_createIndex hcreate).mpr (.inr hname)
  obtain ⟨-, hnames, -, heq⟩ := Table.createIndex_eq_ok_iff.mp hcreate
  obtain ⟨name, hcolumns, hkeyed, id, row, hrow, hcell⟩ := hreveals
  obtain ⟨column, hcolumn⟩ : ∃ column, source.table.schema.column? name = some column :=
    Option.isSome_iff_exists.mp
      (Schema.column?_isSome_iff.mpr (hnames name (hcolumns ▸ List.mem_singleton.mpr rfl)))
  obtain ⟨-, rfl⟩ := (Schema.column?_eq_some_iff h.nodup).mp hcolumn
  have hcolumn' : source'.column? column.name = some column := by
    rw [column?, heq]
    exact hcolumn
  have hfloat : column.type = .float := by
    have hhas := (h.cell hrow hcolumn).2
    rw [hcell] at hhas
    cases htype : column.type with
    | float => rfl
    | _ =>
      rw [htype] at hhas
      exact hhas.elim
  have hvalue : column.type.checkComparable (.float .nan) = .ok () := by
    rw [hfloat]
    rfl
  have hlookup : source.lookup (.comparison .eq) column.name (.float .nan) = .scan :=
    lookup_eq_scan_iff.mpr (.inr hkeyed)
  have hlookup' : source'.lookup (.comparison .eq) column.name (.float .nan) ≠ .scan := by
    rw [ne_eq, lookup_eq_scan_iff, not_or, Classical.not_not, hscanned]
    exact ⟨by simp [Value.isNull], hkept _ hcolumns⟩
  obtain ⟨ids, hfind, hids⟩ := exists_keyed h' hcolumn' hlookup'
  refine ⟨column, ids, id, row, hcolumn, hvalue, ?_, hfind, ?_, hrow⟩
  · rw [find_scan hlookup]
    exact findAll_nan h hcolumn hvalue
  · rw [(keyed_nan_iff h' hcolumn').mp hids]
    exact ⟨row, by rw [heq]; exact hrow, hcell⟩

end Source

/-! ## Conditions on one table -/

theorem IsWord.splitDot {s : String} (h : IsWord s) : Operand.splitDot s.toList = none :=
  Operand.splitDot_eq_none fun hmem => absurd (h.2 '.' hmem) (by decide)

namespace Query

/-- The query over a table alone. -/
def ofTable (table : Table) : Query :=
  ⟨⟨table, none, false⟩, [], ⟨[⟨table, none, false⟩]⟩⟩

/-- The condition that a column equals what is not a number. -/
def equalsNaN (column : String) : Condition :=
  .compare (.comparison .eq) (.column (.column column)) (.value (.constant (.float .nan)))

variable {table table' : Table} {definition : IndexDefinition}

/-- A comparison of a column with a constant picks the rows of a table that are found. -/
theorem evaluate_ofTable {column : Column} {ids : SortedSet RowId} {op : Comparison}
    {left right : Operand} {value : Value} (hword : IsWord column.name)
    (hcolumn : table.schema.column? column.name = some column)
    (hleft : left.columnName? = some column.name) (hright : right.value? = some value)
    (hcomparable : column.type.checkComparable value = .ok ())
    (hfind : (⟨table, none, false⟩ : Source).find (.comparison op) column value = .ok ids) :
    (ofTable table).evaluate (.compare (.comparison op) (.column left) (.value right)) =
      .ok ((⟨table, none, false⟩ : Source).group (table.select (some ids) [])) := by
  have hresolve : (ofTable table).resolve left = .ok (⟨table, none, false⟩, column.name) := by
    rw [resolve, hleft]
    change Scope.resolve ⟨[⟨table, none, false⟩]⟩ column.name = _
    have hhas : (⟨table, none, false⟩ : Source).hasColumn column.name = true := by
      rw [Source.hasColumn, Source.column?, hcolumn]
      rfl
    rw [Scope.resolve, hword.splitDot]
    simp only [List.filter_cons, hhas, if_true, List.filter_nil]
  have hconstant : constant right = .ok value := by rw [constant, hright]
  change (ofTable table).compareConstant (.comparison op) left right = _
  rw [compareConstant, hresolve, ok_bind]
  simp only [Source.column?, hcolumn]
  rw [hconstant, ok_bind]
  change (column.type.checkComparable value >>= fun _ =>
    (⟨table, none, false⟩ : Source).find (.comparison op) column value >>= fun ids =>
      (ofTable table).expand ⟨table, none, false⟩ ids) = _
  rw [hcomparable, ok_bind, hfind, ok_bind, expand]
  exact if_pos rfl

theorem get?_group_select {ids : SortedSet RowId} {id : RowId} :
    (((⟨table, none, false⟩ : Source).group (table.select (some ids) [])).get? id).isSome =
      (SortedMap.contains ids id && table.rows.contains id) := by
  rw [Source.group, SortedMap.get?_map, Option.isSome_map, Table.select, SortedMap.get?_map,
    Option.isSome_map, SortedMap.get?_restrict]
  split <;> simp_all [SortedMap.contains]

/-- Conditions on a table pick the same rows before and behind a new index exactly if the index
reveals nothing. -/
theorem evaluate_createIndex_iff (h : table.Sound)
    (hcreate : table.createIndex definition = .ok table') :
    (∀ condition, (ofTable table).evaluate condition = (ofTable table').evaluate condition) ↔
      ¬ table.Reveals definition := by
  constructor
  · intro hsame hreveals
    have hsource : (⟨table, none, false⟩ : Source).table.Sound := h
    have hscanned : (⟨table', none, false⟩ : Source).scanned = false := rfl
    obtain ⟨column, ids, id, row, hcolumn, hcomparable, hfind, hfind', hid, hrow⟩ :=
      Source.find_nan_of_reveals hsource hcreate hscanned hreveals
    have hword := (h.fits column ((Schema.column?_eq_some_iff h.nodup).mp hcolumn).1).1
    obtain ⟨-, -, -, heq⟩ := Table.createIndex_eq_ok_iff.mp hcreate
    have hcolumn' : table'.schema.column? column.name = some column := by
      rw [heq]
      exact hcolumn
    have hrow' : table'.rows.get? id = some row := by
      rw [heq]
      exact hrow
    have hpicked := hsame (equalsNaN column.name)
    rw [equalsNaN, evaluate_ofTable hword hcolumn rfl rfl hcomparable hfind,
      evaluate_ofTable hword hcolumn' rfl rfl hcomparable hfind', Except.ok.injEq] at hpicked
    have hfound := congrArg (fun rows : JoinedRows => (rows.get? id).isSome) hpicked
    simp only [get?_group_select, hid, SortedMap.contains_of_get? hrow'] at hfound
    simp [SortedMap.contains, SortedMap.get?_empty] at hfound
  · intro hsafe condition
    have hbare : table'.bare = table.bare := by
      obtain ⟨-, -, -, rfl⟩ := Table.createIndex_eq_ok_iff.mp hcreate
      rfl
    have hsame : (ofTable table).bare = (ofTable table').bare := by
      simp only [ofTable, Query.bare, Source.bare, Scope.bare, List.map_nil, List.map_cons, hbare]
    have hconstants : condition.AllConstants fun value =>
        table.Reveals definition → value ≠ .float .nan :=
      Condition.allConstants_imp fun hreveals => absurd hreveals hsafe
    refine evaluate_congr hsame ?_ hconstants
    intro source hsource source' hsource' _ op column value hvalue hcolumn hcomparable
    rw [List.mem_singleton.mp hsource] at hcolumn ⊢
    rw [List.mem_singleton.mp hsource']
    exact Source.find_createIndex h hcreate rfl hcolumn hcomparable hvalue

end Query

end Relational
