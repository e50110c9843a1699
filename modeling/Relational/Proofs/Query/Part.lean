import Relational.Proofs.Query.Reveal

/-!
# Conditions on a part of a table

A condition picks rows of a table one by one, whatever other rows the table has. Of a part of the
table (`Table.IsPartOf`) it picks those that it picks of the whole and that are there
(`Query.evaluate_of_isPartOf`): so does a look at every row, and so do an index and the primary key,
which go by the keys of the rows (`Source.find_of_isPartOf`).
-/

namespace Relational

open Std

/-- A table has some of the rows of another. -/
structure Table.IsPartOf (part table : Table) : Prop where
  schema : part.schema = table.schema
  rows (id : RowId) (row : Row) : part.rows.get? id = some row → table.rows.get? id = some row

theorem Table.isPartOf_delete (table : Table) (ids : SortedSet RowId) :
    (table.delete ids).2.IsPartOf table where
  schema := rfl
  rows _ _ hrow := (get?_delete.mp hrow).1

namespace SortedMap

variable {κ α β γ : Type} [Ord κ] [TransOrd κ] [LawfulEqOrd κ] (m : SortedMap κ α)

theorem contains_restrict (m' : SortedMap κ β) (k : κ) :
    (m.restrict m').contains k = (m'.contains k && m.contains k) := by
  rw [contains, get?_restrict]
  cases m'.contains k <;> rfl

theorem map_restrict (f : κ → α → β) (m' : SortedMap κ γ) :
    (m.restrict m').map f = (m.map f).restrict m' := by
  refine ext fun k => ?_
  simp only [get?_restrict, get?_map]
  split <;> rfl

theorem restrict_restrict (m' : SortedMap κ β) (m'' : SortedMap κ γ) :
    (m.restrict m'').restrict (m'.restrict m'') = (m.restrict m').restrict m'' := by
  refine ext fun k => ?_
  simp only [get?_restrict, contains_restrict, Bool.and_eq_true]
  split <;> simp_all

theorem union_restrict (m' : SortedMap κ α) (m'' : SortedMap κ β) :
    (m.restrict m'').union (m'.restrict m'') = (m.union m').restrict m'' := by
  refine ext fun k => ?_
  simp only [get?_restrict, get?_union]
  split <;> rfl

end SortedMap

namespace Table.IsPartOf

variable {table part : Table}

theorem rows_eq (h : part.IsPartOf table) : part.rows = table.rows.restrict part.rows := by
  refine SortedMap.ext fun id => ?_
  rw [SortedMap.get?_restrict]
  cases hrow : part.rows.get? id with
  | none => simp [SortedMap.contains, hrow]
  | some row => rw [if_pos (SortedMap.contains_of_get? hrow), h.rows id row hrow]

theorem select_eq (h : part.IsPartOf table) (ids : SortedSet RowId) :
    part.select (some (SortedMap.restrict ids part.rows)) [] =
      (table.select (some ids) []).restrict part.rows := by
  simp only [Table.select, ← SortedMap.map_restrict, ← SortedMap.restrict_restrict, ← h.rows_eq]

end Table.IsPartOf

/-! ## Finding rows -/

theorem Row.findAll_of_part {test : Row → Except Error Bool} {rows part : SortedMap RowId Row}
    (hpart : ∀ id row, part.get? id = some row → rows.get? id = some row) {ids : SortedSet RowId}
    (h : findAll test rows.entries = .ok ids) :
    findAll test part.entries = .ok (SortedMap.restrict ids part) := by
  refine findAll_eq (fun id row hrow => ?_) fun id hid => ?_
  · rw [SortedMap.contains_restrict, SortedMap.contains_of_get? hrow, Bool.true_and]
    exact test_of_findAll h (hpart id row hrow)
  · rw [SortedMap.contains_restrict, Bool.and_eq_true] at hid
    exact hid.1

namespace Source

variable {source part : Source} {op : Operator} {column : Column} {value : Value}
  {ids : SortedSet RowId}

theorem lookup_of_schema (hschema : part.table.schema = source.table.schema)
    (hscanned : part.scanned = source.scanned) (name : String) :
    part.lookup op name value = source.lookup op name value := by
  rw [lookup, lookup, hschema, hscanned]

/-- In a part of a table, the rows are found that are found in the table and that the part has. -/
theorem find_of_isPartOf (h : source.table.Sound) (hsound : part.table.Sound)
    (hpart : part.table.IsPartOf source.table) (hscanned : part.scanned = source.scanned)
    (hcolumn : source.column? column.name = some column)
    (hfind : source.find op column value = .ok ids) :
    part.find op column value = .ok (SortedMap.restrict ids part.table.rows) := by
  have hsame : part.lookup op column.name value = source.lookup op column.name value :=
    lookup_of_schema hpart.schema hscanned column.name
  by_cases hlookup : source.lookup op column.name value = .scan
  · rw [find_scan hlookup] at hfind
    rw [find_scan (hsame.trans hlookup)]
    exact Row.findAll_of_part hpart.rows hfind
  · have hcolumn' : part.column? column.name = some column := by
      rw [column?, hpart.schema]
      exact hcolumn
    obtain ⟨found, hfound, hkeyed⟩ := exists_keyed h hcolumn hlookup
    have hlookup' : part.lookup op column.name value ≠ .scan := hsame ▸ hlookup
    obtain ⟨ids', hfind', hkeyed'⟩ := exists_keyed hsound hcolumn' hlookup'
    obtain rfl := Except.ok.inj (hfound.symm.trans hfind)
    rw [hfind', Except.ok.injEq]
    refine SortedSet.ext_contains fun id => Bool.eq_iff_iff.mpr ?_
    rw [hkeyed', SortedMap.contains_restrict, Bool.and_eq_true, hkeyed, SortedMap.contains_iff]
    constructor
    · rintro ⟨row, hrow, hkey⟩
      exact ⟨⟨row, hrow⟩, row, hpart.rows id row hrow, hkey⟩
    · rintro ⟨⟨row, hrow⟩, row', hrow', hkey⟩
      rw [← Option.some.inj ((hpart.rows id row hrow).symm.trans hrow')] at hkey
      exact ⟨row, hrow, hkey⟩

end Source

/-! ## Names -/

namespace Scope

theorem source?_single (source : Source) (name : String) :
    (⟨[source]⟩ : Scope).source? name =
      if source.nickname == some name || source.table.schema.name == name then some source
      else none := by
  simp only [source?, List.find?_singleton]
  cases source.nickname == some name <;> cases source.table.schema.name == name <;> rfl

/-- A name stands for the same column of two sources, if their tables have one schema. -/
theorem resolve_single {source part : Source} (hschema : part.table.schema = source.table.schema)
    (hnickname : part.nickname = source.nickname) (reference : String) :
    (⟨[part]⟩ : Scope).resolve reference =
      ((⟨[source]⟩ : Scope).resolve reference).map fun p => (part, p.2) := by
  have hhas (name : String) : part.hasColumn name = source.hasColumn name := by
    rw [Source.hasColumn, Source.column?, hschema]
    rfl
  unfold resolve
  split
  · dsimp only
    rw [source?_single, source?_single, hschema, hnickname]
    cases source.nickname == some _ || source.table.schema.name == _ with
    | false => rfl
    | true =>
      simp only [if_true, hhas]
      split <;> rfl
  · simp only [List.filter_cons, List.filter_nil, hhas]
    cases source.hasColumn reference <;> rfl

end Scope

/-! ## Conditions -/

namespace Query

variable {table part : Table} {rows : JoinedRows}

theorem resolve_ofTable_eq_ok {operand : Operand} {source : Source} {column : String}
    (h : (ofTable table).resolve operand = .ok (source, column)) : source = ⟨table, none, false⟩ :=
  List.mem_singleton.mp (mem_of_resolve_operand h)

theorem resolve_ofTable_of_schema (hschema : part.schema = table.schema) {operand : Operand}
    {source : Source} {column : String}
    (h : (ofTable table).resolve operand = .ok (source, column)) :
    (ofTable part).resolve operand = .ok (⟨part, none, false⟩, column) := by
  unfold resolve at h ⊢
  split at h
  · have hsame := @Scope.resolve_single ⟨table, none, false⟩ ⟨part, none, false⟩ hschema rfl
    exact (hsame _).trans (map_eq_ok_iff.mpr ⟨_, h, rfl⟩)
  · nomatch h

theorem expand_ofTable (table : Table) (ids : SortedSet RowId) :
    (ofTable table).expand ⟨table, none, false⟩ ids =
      .ok ((⟨table, none, false⟩ : Source).group (table.select (some ids) [])) :=
  if_pos rfl

theorem group_of_isPartOf (hpart : part.IsPartOf table) (rows : SortedMap RowId Row) :
    (⟨part, none, false⟩ : Source).group (rows.restrict part.rows) =
      SortedMap.restrict ((⟨table, none, false⟩ : Source).group rows) part.rows := by
  simp only [Source.group, Source.name, hpart.schema, SortedMap.map_restrict]

/-! ### Comparisons -/

theorem compareColumns_of_isPartOf (hpart : part.IsPartOf table) {op : Operator}
    {left right : Operand} (hrows : (ofTable table).compareColumns op left right = .ok rows) :
    (ofTable part).compareColumns op left right = .ok (SortedMap.restrict rows part.rows) := by
  simp only [compareColumns, bind_eq_ok_iff] at hrows ⊢
  obtain ⟨⟨leftSource, leftColumn⟩, hleft, ⟨rightSource, rightColumn⟩, hright, hrows⟩ := hrows
  obtain rfl := resolve_ofTable_eq_ok hleft
  obtain rfl := resolve_ofTable_eq_ok hright
  rw [guard_eq_ok_iff] at hrows
  obtain ⟨ids, hids, hrows⟩ := bind_eq_ok_iff.mp hrows.2
  rw [expand_ofTable] at hrows
  refine ⟨_, resolve_ofTable_of_schema hpart.schema hleft,
    _, resolve_ofTable_of_schema hpart.schema hright, guard_eq_ok_iff.mpr ⟨Classical.not_not.mpr rfl, ?_⟩⟩
  rw [Row.findAll_of_part hpart.rows hids, ok_bind, expand_ofTable, hpart.select_eq,
    group_of_isPartOf hpart, Except.ok.inj hrows]

theorem compareConstant_of_isPartOf (h : table.Sound) (hsound : part.Sound)
    (hpart : part.IsPartOf table) {op : Operator} {left right : Operand}
    (hrows : (ofTable table).compareConstant op left right = .ok rows) :
    (ofTable part).compareConstant op left right = .ok (SortedMap.restrict rows part.rows) := by
  obtain ⟨source, column, value, ids, hleft, hcolumn, hvalue, hcheck, hids, hrows⟩ :=
    compareConstant_eq_ok hrows
  obtain rfl := resolve_ofTable_eq_ok hleft
  have hcolumn' : (⟨part, none, false⟩ : Source).column? column.name = some column := by
    rw [Source.column?, hpart.schema]
    exact hcolumn
  have hids' : (⟨part, none, false⟩ : Source).find op column value = _ :=
    @Source.find_of_isPartOf ⟨table, none, false⟩ ⟨part, none, false⟩ _ _ _ _ h hsound hpart rfl
      hcolumn hids
  rw [expand_ofTable] at hrows
  rw [compareConstant, resolve_ofTable_of_schema hpart.schema hleft, ok_bind]
  simp only [hcolumn', hvalue, ok_bind, hcheck, hids']
  rw [expand_ofTable, hpart.select_eq, group_of_isPartOf hpart, Except.ok.inj hrows]

theorem compareConstants_of_isPartOf (hpart : part.IsPartOf table) {op : Operator}
    {left right : Operand} (hrows : (ofTable table).compareConstants op left right = .ok rows) :
    (ofTable part).compareConstants op left right = .ok (SortedMap.restrict rows part.rows) := by
  simp only [compareConstants, bind_eq_ok_iff] at hrows ⊢
  obtain ⟨l, hl, r, hr, b, hb, hrows⟩ := hrows
  refine ⟨l, hl, r, hr, b, hb, ?_⟩
  cases b with
  | true =>
    rw [if_pos rfl] at hrows ⊢
    rw [← Except.ok.inj hrows]
    exact congrArg Except.ok ((congrArg _ hpart.rows_eq).trans (group_of_isPartOf hpart _))
  | false =>
    rw [if_neg (by decide)] at hrows ⊢
    rw [← Except.ok.inj hrows]
    refine congrArg Except.ok (SortedMap.ext fun id => ?_)
    simp only [SortedMap.get?_restrict, SortedMap.get?_empty, ite_self]

/-! ### Trees -/

/-- Of a part of a table, a condition picks the rows that it picks of the table and that are there. -/
theorem evaluate_of_isPartOf (h : table.Sound) (hsound : part.Sound) (hpart : part.IsPartOf table)
    {condition : Condition} (hrows : (ofTable table).evaluate condition = .ok rows) :
    (ofTable part).evaluate condition = .ok (SortedMap.restrict rows part.rows) := by
  induction condition generalizing rows with
  | and left right ihl ihr =>
    simp only [evaluate, bind_eq_ok_iff] at hrows ⊢
    obtain ⟨leftRows, hleft, rightRows, hright, hrows⟩ := hrows
    refine ⟨_, ihl hleft, _, ihr hright, ?_⟩
    rw [← Except.ok.inj hrows]
    exact congrArg _ (SortedMap.restrict_restrict _ _ _)
  | or left right ihl ihr =>
    simp only [evaluate, bind_eq_ok_iff] at hrows ⊢
    obtain ⟨leftRows, hleft, rightRows, hright, hrows⟩ := hrows
    refine ⟨_, ihl hleft, _, ihr hright, ?_⟩
    rw [← Except.ok.inj hrows]
    exact congrArg _ (SortedMap.union_restrict _ _ _)
  | compare op left right =>
    rw [evaluate_compare] at hrows ⊢
    split at hrows
    · cases hrows
    · rename_i hop
      rw [if_neg hop]
      split at hrows
      · exact compareColumns_of_isPartOf hpart hrows
      · exact compareConstant_of_isPartOf h hsound hpart hrows
      · exact compareConstant_of_isPartOf h hsound hpart hrows
      · exact compareConstants_of_isPartOf hpart hrows
      · cases hrows
  | column operand => cases hrows
  | value operand => cases hrows

/-! ## What is left behind a deletion -/

variable {condition : Condition}

/-- What a condition picks are rows of the query. -/
theorem get?_of_evaluate {query : Query} {all : JoinedRows} (h : query.Sound)
    (hall : query.rows = .ok all) (hrows : query.evaluate condition = .ok rows) {id : RowId}
    {row : JoinedRow} (hrow : rows.get? id = some row) : all.get? id = some row := by
  refine forall_of_evaluate (P := fun id row => all.get? id = some row) (fun rows hrows id row hrow => ?_)
    (fun source hsource ids rows hrows id row => (get?_expand h hall hsource hrows id row).2) hrows hrow
  rwa [Except.ok.inj (hall.symm.trans hrows)]

theorem sound_ofTable (h : table.Sound) : (ofTable table).Sound where
  sources := rfl
  nodup := by simp [ofTable]
  tables source hsource := by rwa [List.mem_singleton.mp hsource]

/-- What a condition picks of a table is what the table has under the identities picked. -/
theorem rows_of_evaluate (h : table.Sound) (hrows : (ofTable table).evaluate condition = .ok rows) :
    rows = (⟨table, none, false⟩ : Source).group (table.select (some (.ofKeys rows)) []) := by
  refine SortedMap.ext fun id => ?_
  rw [Source.group, SortedMap.get?_map, Table.select, SortedMap.get?_map, SortedMap.get?_restrict,
    SortedSet.contains_ofKeys]
  cases hrow : rows.get? id with
  | none => rw [if_neg (by simp [SortedMap.contains, hrow]), Option.map_none, Option.map_none]
  | some row =>
    have hall := get?_of_evaluate (sound_ofTable h) rfl hrows hrow
    rw [if_pos (SortedMap.contains_of_get? hrow), ← hall]
    rw [ofTable, Source.rows, Source.group, SortedMap.get?_map]
    cases table.rows.get? id <;> rfl

/-- Behind a deletion of the rows that a condition picks, it picks none. -/
theorem evaluate_delete (h : table.Sound) (hrows : (ofTable table).evaluate condition = .ok rows) :
    (ofTable (table.delete (.ofKeys rows)).2).evaluate condition = .ok .empty := by
  rw [evaluate_of_isPartOf h (h.delete _) (table.isPartOf_delete _) hrows]
  refine congrArg Except.ok (SortedMap.ext fun id => ?_)
  rw [SortedMap.get?_restrict, Table.delete, SortedMap.contains, SortedMap.get?_without,
    SortedSet.contains_ofKeys]
  cases hid : SortedMap.contains rows id with
  | true => simp [SortedMap.get?_empty]
  | false => simp [SortedMap.contains_eq_false_iff.mp hid, SortedMap.get?_empty]

end Query

end Relational
