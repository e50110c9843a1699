import Mathlib.Data.List.Nodup
import Relational.Proofs.Query.Find
import Relational.Proofs.Query.Join

/-!
# Conditions, row by row

A condition is read of one joined row by `Query.test`: connectives are boolean, and a comparison is
made of the cells and constants in the order in which they are written. Evaluating a condition picks
the rows of the query that pass (`Query.isPicked_evaluate`), whatever way each comparison went. A
comparison picks rows of one source; what it picks of the joined rows are those whose part of the
source was picked (`Query.get?_expand`). One with the constant first is made with the column first
(`Query.evaluate_of_columnFirst?`).
-/

namespace Relational

open Std

/-! ## Queries of sound tables -/

/-- The query names its sources differently, and all their tables are sound. -/
structure Query.Sound (query : Query) : Prop where
  sources : query.scope.sources = query.first :: query.joins.map (·.target)
  nodup : (query.scope.sources.map (·.name)).Nodup
  tables (source : Source) : source ∈ query.scope.sources → source.table.Sound

namespace JoinClause

variable {tables : Database}

theorem target_of_orient {clause : JoinClause} {scope : Scope} {target : Source} {join : Join}
    (h : clause.orient scope target = .ok join) : join.target = target := by
  obtain ⟨left, -, h⟩ := bind_eq_ok_iff.mp h
  obtain ⟨right, -, h⟩ := bind_eq_ok_iff.mp h
  dsimp only at h
  split at h
  · rw [← Except.ok.inj h]
  · split at h
    · rw [← Except.ok.inj h]
    · simp at h

theorem add_eq_ok_iff {scope scope' : Scope} {source : Source} :
    scope.add source = .ok scope' ↔
      source.name ∉ scope.sources.map (·.name) ∧ scope' = ⟨scope.sources ++ [source]⟩ := by
  have hany : (scope.sources.any fun other => other.name == source.name) = true ↔
      source.name ∈ scope.sources.map (·.name) := by simp
  rw [Scope.add, ← hany]
  split
  · rename_i h
    exact ⟨nofun, fun h' => absurd h h'.1⟩
  · rename_i h
    exact ⟨fun h' => ⟨h, (Except.ok.inj h').symm⟩, fun h' => h'.2 ▸ rfl⟩

/-- What joins add to a scope: their targets, each under a new name. -/
theorem sources_of_bind {scope scope' : Scope} {clauses : List JoinClause} {joins : List Join}
    (h : bind tables scope clauses = .ok (joins, scope')) :
    scope'.sources = scope.sources ++ joins.map (·.target) ∧
      ((scope.sources.map (·.name)).Nodup → (scope'.sources.map (·.name)).Nodup) ∧
      ∀ join ∈ joins, ∃ name, tables.get? name = some join.target.table := by
  induction clauses generalizing scope joins with
  | nil => cases h; simp
  | cons clause clauses ih =>
    rw [bind] at h
    split at h
    · simp at h
    · rename_i table htable
      simp only [bind_eq_ok_iff] at h
      obtain ⟨next, hnext, join, hjoin, ⟨more, _⟩, hmore, h⟩ := h
      obtain ⟨rfl, rfl⟩ := Prod.mk.inj (Except.ok.inj h)
      obtain ⟨hname, rfl⟩ := add_eq_ok_iff.mp hnext
      obtain ⟨hsources, hnodup, htables⟩ := ih hmore
      have htarget := target_of_orient hjoin
      refine ⟨?_, fun hscope => hnodup ?_, List.forall_mem_cons.mpr ⟨?_, htables⟩⟩
      · rw [hsources, List.map_cons, htarget, List.append_assoc, List.singleton_append]
      · rw [List.map_append, List.map_singleton, ← List.concat_eq_append]
        exact hscope.concat hname
      · exact ⟨clause.table, by rw [htarget, htable]⟩

end JoinClause

theorem Query.sound_of_bind {tables : Database} {first : Source} {clauses : List JoinClause}
    {joins : List Join} {scope : Scope}
    (htables : ∀ name table, tables.get? name = some table → table.Sound)
    (hfirst : first.table.Sound)
    (h : JoinClause.bind tables ⟨[first]⟩ clauses = .ok (joins, scope)) :
    (⟨first, joins, scope⟩ : Query).Sound := by
  obtain ⟨hsources, hnodup, hjoins⟩ := JoinClause.sources_of_bind h
  refine ⟨hsources, hnodup (by simp), fun source hsource => ?_⟩
  rw [hsources] at hsource
  rcases List.mem_cons.mp hsource with rfl | hsource
  · exact hfirst
  · obtain ⟨join, hjoin, rfl⟩ := List.mem_map.mp hsource
    obtain ⟨name, hname⟩ := hjoins join hjoin
    exact htables name _ hname

/-- The sources of a query refer to tables of the database. -/
theorem Query.table_of_build {tables : Database} {first : Source} {query : Query}
    {joins : List Char} (h : Query.build tables first joins = .ok query)
    (hfirst : ∃ name, tables.get? name = some first.table) :
    ∀ source ∈ query.scope.sources, ∃ name, tables.get? name = some source.table := by
  simp only [Query.build, bind_eq_ok_iff] at h
  obtain ⟨scope, hscope, clauses, -, ⟨bound, scope'⟩, hbind, h⟩ := h
  cases h
  obtain ⟨-, rfl⟩ := JoinClause.add_eq_ok_iff.mp hscope
  obtain ⟨hsources, -, hjoins⟩ := JoinClause.sources_of_bind hbind
  intro source hsource
  rw [hsources] at hsource
  rcases List.mem_append.mp hsource with hsource | hsource
  · rw [List.mem_singleton.mp hsource]
    exact hfirst
  · obtain ⟨join, hjoin, rfl⟩ := List.mem_map.mp hsource
    exact hjoins join hjoin

namespace Query

variable {query : Query} {all rows : JoinedRows} {source : Source}

theorem Sound.eq_of_name_eq (h : query.Sound) {other : Source}
    (hsource : source ∈ query.scope.sources) (hother : other ∈ query.scope.sources)
    (hname : source.name = other.name) : source = other :=
  List.inj_on_of_nodup_map h.nodup hsource hother hname

theorem Sound.first_mem (h : query.Sound) : query.first ∈ query.scope.sources := by
  rw [h.sources]
  exact List.mem_cons_self

theorem Sound.isJoined_extendAll (h : query.Sound) {firsts : JoinedRows}
    (hrows : Join.extendAll query.joins firsts = .ok rows)
    (hfirsts : ∀ id row, firsts.get? id = some row → query.first.rows.get? id = some row) {id : RowId}
    {row : JoinedRow} (hrow : rows.get? id = some row) :
    Join.IsJoined query.scope.sources id row := by
  rw [h.sources, ← List.singleton_append]
  refine Join.isJoined_extendAll hrows ?_ (fun join hjoin => ?_) (fun id row hrow => ?_) hrow
  · rw [List.singleton_append, ← h.sources]
    exact h.nodup
  · refine (h.tables join.target ?_).coherent
    rw [h.sources]
    exact List.mem_cons_of_mem _ (List.mem_map_of_mem hjoin)
  · exact Join.isJoined_rows (h.tables query.first h.first_mem).coherent (hfirsts id row hrow)

theorem Sound.isJoined (h : query.Sound) (hall : query.rows = .ok all) {id : RowId}
    {row : JoinedRow} (hrow : all.get? id = some row) :
    Join.IsJoined query.scope.sources id row :=
  h.isJoined_extendAll hall (fun _ _ hrow => hrow) hrow

/-! ## Picking rows of one source -/

theorem group_select (h : source.table.Coherent) (ids : SortedSet RowId) :
    source.group (source.table.select (some ids) []) =
      source.rows.filter fun id _ => (id.part? 0).any (SortedMap.contains ids) := by
  refine SortedMap.ext fun id => ?_
  simp only [Source.group, Source.rows, Table.select, SortedMap.get?_map, SortedMap.get?_filter,
    SortedMap.get?_restrict]
  cases hrow : source.table.rows.get? id with
  | none => simp
  | some row =>
    obtain ⟨key, rfl⟩ := h.parts hrow
    have hpart : (RowId.ofKey key).part? 0 = some (.ofKey key) := rfl
    rw [hpart, Option.any_some]
    cases SortedMap.contains ids (.ofKey key) <;> simp [Row.project, Option.filter]

/-- The position of a source that was joined. -/
theorem getElem?_of_position? (h : query.Sound) {position : Nat}
    (hsource : source ∈ query.scope.sources)
    (hposition : Join.position? query.joins source.name = some position) :
    query.scope.sources[position]? = some source := by
  obtain ⟨i, hi, rfl⟩ := Option.map_eq_some_iff.mp hposition
  obtain ⟨hlt, hname, -⟩ := List.findIdx?_eq_some_iff_getElem.mp hi
  have hget : query.scope.sources[i + 1]? = some query.joins[i].target := by
    rw [h.sources, List.getElem?_cons_succ, List.getElem?_map, List.getElem?_eq_getElem hlt]
    rfl
  rw [hget, h.eq_of_name_eq (List.mem_of_getElem? hget) hsource (beq_iff_eq.mp hname)]

/-- The rows in which a source contributes one of some rows are chosen by their parts. -/
theorem expand_eq_filter (h : query.Sound) (hall : query.rows = .ok all)
    (hsource : source ∈ query.scope.sources) {ids : SortedSet RowId}
    (hrows : query.expand source ids = .ok rows) :
    ∃ position, query.scope.sources[position]? = some source ∧
      rows = all.filter fun id _ => (id.part? position).any (SortedMap.contains ids) := by
  unfold expand at hrows
  split at hrows
  · rename_i hname
    obtain rfl := h.eq_of_name_eq hsource h.first_mem hname
    refine ⟨0, by rw [h.sources]; rfl, ?_⟩
    rw [group_select (h.tables _ hsource).coherent] at hrows
    have hfilter := Join.extendAll_filter (p := fun part => part.any (SortedMap.contains ids)) hall
      fun id hid => by
        obtain ⟨row, hrow⟩ := SortedMap.contains_iff.mp hid
        have hjoined := Join.isJoined_rows (h.tables _ hsource).coherent hrow
        exact List.ne_nil_of_length_eq_add_one hjoined.width
    exact Except.ok.inj (hrows.symm.trans hfilter)
  · split at hrows
    · simp at hrows
    · rename_i position hposition
      refine ⟨position, getElem?_of_position? h hsource hposition, ?_⟩
      rw [hall, ok_bind] at hrows
      rw [← Except.ok.inj hrows]
      have hcontains : (SortedMap.searchTree ids).contains = SortedMap.contains ids :=
        funext (SortedMap.contains_searchTree ids)
      rw [hcontains]

theorem Sound.isJoined_expand (h : query.Sound) (hsource : source ∈ query.scope.sources)
    {ids : SortedSet RowId} (hrows : query.expand source ids = .ok rows) {id : RowId} {row : JoinedRow}
    (hrow : rows.get? id = some row) : Join.IsJoined query.scope.sources id row := by
  unfold expand at hrows
  split at hrows
  · rename_i hname
    obtain rfl := h.eq_of_name_eq hsource h.first_mem hname
    rw [group_select (h.tables _ hsource).coherent] at hrows
    refine h.isJoined_extendAll hrows (fun id row hfirst => ?_) hrow
    rw [SortedMap.get?_filter, Option.filter_eq_some_iff] at hfirst
    exact hfirst.1
  · split at hrows
    · cases hrows
    · obtain ⟨all, hall, hrows⟩ := bind_eq_ok_iff.mp hrows
      rw [← Except.ok.inj hrows, SortedMap.get?_filter, Option.filter_eq_some_iff] at hrow
      exact h.isJoined hall hrow.1

/-- A joined row is picked if its part of the source is. -/
theorem get?_expand (h : query.Sound) (hall : query.rows = .ok all)
    (hsource : source ∈ query.scope.sources) {ids : SortedSet RowId}
    (hrows : query.expand source ids = .ok rows) (id : RowId) (row : JoinedRow) :
    (all.get? id = some row → ∃ part stored, source.table.rows.get? part = some stored ∧
      row.get? source.name = some stored ∧
      (rows.get? id = some row ↔ SortedMap.contains ids part = true)) ∧
    (rows.get? id = some row → all.get? id = some row) := by
  obtain ⟨position, hposition, rfl⟩ := expand_eq_filter h hall hsource hrows
  rw [SortedMap.get?_filter, Option.filter_eq_some_iff]
  refine ⟨fun hrow => ?_, fun hrow => hrow.1⟩
  obtain ⟨part, stored, hpart, hstored, hcell⟩ := (h.isJoined hall hrow).part position source hposition
  refine ⟨part, stored, hstored, hcell, ?_⟩
  rw [hpart, Option.any_some]
  exact and_iff_right hrow

/-! ## Reading a condition of one row -/

/-- The cell of a row that an operand stands for. -/
def cell (query : Query) (row : JoinedRow) (operand : Operand) : Except Error Value := do
  let (source, column) ← query.resolve operand
  return ((row.get? source.name).map (·.cell column)).getD .null

/-- What one side of a comparison stands for in a row. -/
def side (query : Query) (row : JoinedRow) : Condition → Except Error Value
  | .column operand => query.cell row operand
  | .value operand => constant operand
  | tree => .error (.tree (.misplaced tree.shown))

/-- Whether a row passes a condition. -/
def test (query : Query) (row : JoinedRow) : Condition → Except Error Bool
  | .and left right => do
    let left ← query.test row left
    let right ← query.test row right
    return left && right
  | .or left right => do
    let left ← query.test row left
    let right ← query.test row right
    return left || right
  | .compare op left right => do op.holds (← query.side row left) (← query.side row right)
  | tree => .error (.tree (.misplaced tree.shown))

/-- Rows are those of all that pass a condition, which every row either passes or does not. -/
def IsPicked (query : Query) (all rows : JoinedRows) (condition : Condition) : Prop :=
  (∀ id row, all.get? id = some row → ∃ b, query.test row condition = .ok b) ∧
    ∀ id row, rows.get? id = some row ↔
      all.get? id = some row ∧ query.test row condition = .ok true

theorem mem_of_source? {scope : Scope} {name : String} (h : scope.source? name = some source) :
    source ∈ scope.sources := by
  unfold Scope.source? at h
  split at h
  · rename_i found hfound
    exact Option.some.inj h ▸ List.mem_of_find?_eq_some hfound
  · exact List.mem_of_find?_eq_some h

theorem mem_of_resolve {scope : Scope} {reference column : String}
    (h : scope.resolve reference = .ok (source, column)) : source ∈ scope.sources := by
  unfold Scope.resolve at h
  split at h
  · dsimp only at h
    split at h
    · cases h
    · rename_i other hother
      split at h
      · cases h
        exact mem_of_source? hother
      · cases h
  · split at h
    · cases h
    · rename_i other hother
      cases h
      exact (List.mem_filter.mp (hother ▸ List.mem_cons_self)).1
    · cases h

theorem mem_of_resolve_operand {operand : Operand} {column : String}
    (h : query.resolve operand = .ok (source, column)) : source ∈ query.scope.sources := by
  unfold resolve at h
  split at h
  · exact mem_of_resolve h
  · simp at h

theorem cell_eq {operand : Operand} {column : String} {row : JoinedRow} {stored : Row}
    (h : query.resolve operand = .ok (source, column)) (hrow : row.get? source.name = some stored) :
    query.cell row operand = .ok (stored.cell column) := by
  rw [cell, h, ok_bind]
  simp only [hrow]
  rfl

/-- A comparison that picks rows of one source by a test of its stored rows. -/
theorem isPicked_of_expand (h : query.Sound) (hall : query.rows = .ok all)
    (hsource : source ∈ query.scope.sources) {pick : Row → Except Error Bool}
    {ids : SortedSet RowId} (hids : Row.findAll pick source.table.rows.entries = .ok ids)
    (hrows : query.expand source ids = .ok rows) {condition : Condition}
    (htest : ∀ row stored b, row.get? source.name = some stored → pick stored = .ok b →
      query.test row condition = .ok b) :
    query.IsPicked all rows condition := by
  have hjoined {id : RowId} {row : JoinedRow} (hrow : all.get? id = some row) :
      ∃ b, query.test row condition = .ok b ∧ (rows.get? id = some row ↔ b = true) := by
    obtain ⟨part, stored, hstored, hcell, hpicked⟩ :=
      (get?_expand h hall hsource hrows id row).1 hrow
    exact ⟨_, htest row stored _ hcell (Row.test_of_findAll hids hstored), hpicked⟩
  refine ⟨fun id row hrow => (hjoined hrow).imp fun b hb => hb.1, fun id row => ?_⟩
  constructor
  · intro hrow
    have hmem := (get?_expand h hall hsource hrows id row).2 hrow
    obtain ⟨b, hb, hiff⟩ := hjoined hmem
    exact ⟨hmem, hiff.mp hrow ▸ hb⟩
  · rintro ⟨hmem, hpass⟩
    obtain ⟨b, hb, hiff⟩ := hjoined hmem
    exact hiff.mpr (Except.ok.inj (hb.symm.trans hpass))

/-! ## Comparisons -/

theorem isPicked_compareColumns (h : query.Sound) (hall : query.rows = .ok all) {op : Operator}
    {left right : Operand} (hrows : query.compareColumns op left right = .ok rows) :
    query.IsPicked all rows (.compare op (.column left) (.column right)) := by
  simp only [compareColumns, bind_eq_ok_iff] at hrows
  obtain ⟨⟨leftSource, leftColumn⟩, hleft, ⟨rightSource, rightColumn⟩, hright, hrows⟩ := hrows
  rw [guard_eq_ok_iff] at hrows
  obtain ⟨hname, hrows⟩ := hrows
  obtain ⟨ids, hids, hrows⟩ := bind_eq_ok_iff.mp hrows
  have hname : leftSource.name = rightSource.name := Decidable.not_not.mp hname
  refine isPicked_of_expand h hall (mem_of_resolve_operand hleft) hids hrows ?_
  intro row stored b hrow hpick
  have hl := cell_eq hleft hrow
  have hr := cell_eq hright (hname ▸ hrow)
  simp only [test, side, hl, hr, ok_bind, hpick]

theorem compareConstant_eq_ok {op : Operator} {left right : Operand}
    (hrows : query.compareConstant op left right = .ok rows) :
    ∃ source column value ids, query.resolve left = .ok (source, column.name) ∧
      source.column? column.name = some column ∧ constant right = .ok value ∧
      column.type.checkComparable value = .ok () ∧ source.find op column value = .ok ids ∧
      query.expand source ids = .ok rows := by
  obtain ⟨⟨source, name⟩, hleft, hrows⟩ := bind_eq_ok_iff.mp hrows
  dsimp only at hrows
  split at hrows
  · simp at hrows
  · rename_i column hcolumn
    simp only [bind_eq_ok_iff] at hrows
    obtain ⟨value, hvalue, ⟨⟩, hcheck, ids, hids, hrows⟩ := hrows
    have hname : column.name = name := by
      simpa using List.find?_some hcolumn
    subst hname
    exact ⟨source, column, value, ids, hleft, hcolumn, hvalue, hcheck, hids, hrows⟩

theorem isPicked_compareConstant (h : query.Sound) (hall : query.rows = .ok all)
    {op : Operator} {left right : Operand} (hnan : right.value? ≠ some (.float .nan))
    (hrows : query.compareConstant op left right = .ok rows) :
    query.IsPicked all rows (.compare op (.column left) (.value right)) := by
  obtain ⟨source, column, value, ids, hleft, hcolumn, hvalue, hcheck, hids, hrows⟩ :=
    compareConstant_eq_ok hrows
  have hsource := mem_of_resolve_operand hleft
  have hne : value ≠ .float .nan := by
    rintro rfl
    unfold constant at hvalue
    split at hvalue
    · rename_i v hv
      exact hnan (hv.trans (congrArg some (Except.ok.inj hvalue)))
    · simp at hvalue
  rw [Source.find_eq_findAll (h.tables source hsource) hcolumn hcheck hne] at hids
  refine isPicked_of_expand h hall hsource hids hrows fun row stored b hrow hpick => ?_
  simp only [test, side, cell_eq hleft hrow, hvalue, ok_bind, hpick]

/-- A row passes a comparison with the constant first if it passes the inverted one. -/
theorem IsPicked.inverted {op : Operator} {left right : Condition}
    (h : query.IsPicked all rows (.compare op.inverted right left)) :
    query.IsPicked all rows (.compare op left right) := by
  have htest {row : JoinedRow} {b : Bool}
      (hb : query.test row (.compare op.inverted right left) = .ok b) :
      query.test row (.compare op left right) = .ok b := by
    simp only [test, bind_eq_ok_iff] at hb ⊢
    obtain ⟨r, hr, l, hl, hb⟩ := hb
    exact ⟨l, hl, r, hr, Operator.holds_inverted hb⟩
  refine ⟨fun id row hrow => (h.1 id row hrow).imp fun _ => htest, fun id row => ?_⟩
  rw [h.2 id row]
  refine and_congr_right fun hrow => ?_
  obtain ⟨b, hb⟩ := h.1 id row hrow
  rw [hb, htest hb]

theorem isPicked_compareConstants (hall : query.rows = .ok all) {op : Operator}
    {left right : Operand} (hrows : query.compareConstants op left right = .ok rows) :
    query.IsPicked all rows (.compare op (.value left) (.value right)) := by
  simp only [compareConstants, bind_eq_ok_iff] at hrows
  obtain ⟨l, hl, r, hr, b, hb, hrows⟩ := hrows
  have htest (row : JoinedRow) : query.test row (.compare op (.value left) (.value right)) = .ok b := by
    simp only [test, side, hl, hr, ok_bind, hb]
  refine ⟨fun id row _ => ⟨b, htest row⟩, fun id row => ?_⟩
  rw [htest]
  cases b with
  | true =>
    rw [if_pos rfl, hall] at hrows
    rw [Except.ok.inj hrows]
    simp
  | false =>
    rw [if_neg (by decide)] at hrows
    rw [← Except.ok.inj hrows, SortedMap.get?_empty]
    simp

/-! ## Connectives -/

/-- In a row of which both conditions are known, what the connectives come to is known too. -/
theorem IsPicked.exists_tests {leftRows rightRows : JoinedRows} {left right : Condition}
    (hl : query.IsPicked all leftRows left) (hr : query.IsPicked all rightRows right) {id : RowId}
    {row : JoinedRow} (hrow : all.get? id = some row) :
    ∃ l r, query.test row left = .ok l ∧ query.test row right = .ok r ∧
      query.test row (.and left right) = .ok (l && r) ∧
      query.test row (.or left right) = .ok (l || r) := by
  obtain ⟨l, hl⟩ := hl.1 id row hrow
  obtain ⟨r, hr⟩ := hr.1 id row hrow
  exact ⟨l, r, hl, hr, by simp only [test, hl, hr, ok_bind, pure_eq_ok],
    by simp only [test, hl, hr, ok_bind, pure_eq_ok]⟩

theorem IsPicked.and {leftRows rightRows : JoinedRows} {left right : Condition}
    (hl : query.IsPicked all leftRows left) (hr : query.IsPicked all rightRows right) :
    query.IsPicked all (leftRows.restrict rightRows) (.and left right) := by
  refine ⟨fun id row hrow => ?_, fun id row => ?_⟩
  · obtain ⟨l, r, -, -, h, -⟩ := hl.exists_tests hr hrow
    exact ⟨_, h⟩
  · rw [SortedMap.get?_restrict, Option.ite_none_right_eq_some, hl.2 id row,
      SortedMap.contains_iff]
    constructor
    · rintro ⟨⟨row', hrow'⟩, hrow, hleft⟩
      obtain ⟨hmem, hright⟩ := (hr.2 id row').mp hrow'
      obtain rfl := Option.some.inj (hrow.symm.trans hmem)
      refine ⟨hrow, ?_⟩
      simp only [test, hleft, hright, ok_bind, pure_eq_ok, Bool.and_self]
    · rintro ⟨hrow, hpass⟩
      obtain ⟨l, r, hleft, hright, h, -⟩ := hl.exists_tests hr hrow
      have hboth := Except.ok.inj (h.symm.trans hpass)
      obtain ⟨rfl, rfl⟩ := (Bool.and_eq_true_iff).mp hboth
      exact ⟨⟨row, (hr.2 id row).mpr ⟨hrow, hright⟩⟩, hrow, hleft⟩

theorem IsPicked.or {leftRows rightRows : JoinedRows} {left right : Condition}
    (hl : query.IsPicked all leftRows left) (hr : query.IsPicked all rightRows right) :
    query.IsPicked all (rightRows.union leftRows) (.or left right) := by
  refine ⟨fun id row hrow => ?_, fun id row => ?_⟩
  · obtain ⟨l, r, -, -, -, h⟩ := hl.exists_tests hr hrow
    exact ⟨_, h⟩
  · rw [SortedMap.get?_union, Option.or_eq_some_iff, hl.2 id row, hr.2 id row]
    constructor
    · rintro (⟨hrow, hleft⟩ | ⟨-, hrow, hright⟩)
      · obtain ⟨l, r, hleft', -, -, h⟩ := hl.exists_tests hr hrow
        refine ⟨hrow, ?_⟩
        rw [h, Except.ok.inj (hleft'.symm.trans hleft), Bool.true_or]
      · obtain ⟨l, r, -, hright', -, h⟩ := hl.exists_tests hr hrow
        refine ⟨hrow, ?_⟩
        rw [h, Except.ok.inj (hright'.symm.trans hright), Bool.or_true]
    · rintro ⟨hrow, hpass⟩
      obtain ⟨l, r, hleft, hright, -, h⟩ := hl.exists_tests hr hrow
      rcases Bool.or_eq_true_iff.mp (Except.ok.inj (h.symm.trans hpass)) with rfl | rfl
      · exact .inl ⟨hrow, hleft⟩
      · cases hget : leftRows.get? id with
        | none => exact .inr ⟨rfl, hrow, hright⟩
        | some row' =>
          obtain ⟨hrow', -⟩ := (hl.2 id row').mp hget
          have hsame := Option.some.inj (hrow.symm.trans hrow')
          subst hsame
          exact .inl ⟨hrow, ((hl.2 id row).mp hget).2⟩

end Query

/-- The constants of a condition have a property. -/
def Condition.AllConstants (P : Value → Prop) : Condition → Prop
  | and left right => left.AllConstants P ∧ right.AllConstants P
  | or left right => left.AllConstants P ∧ right.AllConstants P
  | compare _ left right => left.AllConstants P ∧ right.AllConstants P
  | column operand => ∀ value, operand.value? = some value → P value
  | value operand => ∀ value, operand.value? = some value → P value

/-- What the constants have under a condition. -/
theorem Condition.allConstants_imp {P : Value → Prop} {p : Prop} {condition : Condition}
    (h : p → condition.AllConstants P) : condition.AllConstants fun value => p → P value := by
  induction condition with
  | and left right ihl ihr => exact ⟨ihl fun hp => (h hp).1, ihr fun hp => (h hp).2⟩
  | or left right ihl ihr => exact ⟨ihl fun hp => (h hp).1, ihr fun hp => (h hp).2⟩
  | compare op left right ihl ihr => exact ⟨ihl fun hp => (h hp).1, ihr fun hp => (h hp).2⟩
  | column operand => exact fun value hvalue hp => h hp value hvalue
  | value operand => exact fun value hvalue hp => h hp value hvalue

namespace Query

variable {query : Query} {all rows : JoinedRows}

theorem evaluate_compare (query : Query) (op : Operator) (left right : Condition) :
    query.evaluate (.compare op left right) =
      if !op.isComparison then .error (.operator op.spelling)
      else match left, right with
        | .column l, .column r => query.compareColumns op l r
        | .value l, .column r => query.compareConstant op.inverted r l
        | .column l, .value r => query.compareConstant op l r
        | .value l, .value r => query.compareConstants op l r
        | _, _ => .error (.tree (.misplaced (Condition.compare op left right).shown)) := by
  cases left <;> cases right <;> rfl

/-- A comparison of a constant with a column picks what it picks the other way round. -/
theorem evaluate_of_columnFirst? {condition swapped : Condition}
    (h : condition.columnFirst? = some swapped) :
    query.evaluate condition = query.evaluate swapped := by
  unfold Condition.columnFirst? at h
  split at h
  · rename_i op constant column
    cases h
    rw [evaluate_compare, evaluate_compare]
    cases op <;> rfl
  · cases h

/-- What is true of all rows of the query and of those in which a source contributes one of some rows is
true of what a condition picks. -/
theorem forall_of_evaluate {P : RowId → JoinedRow → Prop}
    (hall : ∀ rows, query.rows = .ok rows → ∀ id row, rows.get? id = some row → P id row)
    (hexpand : ∀ source ∈ query.scope.sources, ∀ ids rows, query.expand source ids = .ok rows →
      ∀ id row, rows.get? id = some row → P id row)
    {condition : Condition} (hrows : query.evaluate condition = .ok rows) {id : RowId} {row : JoinedRow}
    (hrow : rows.get? id = some row) : P id row := by
  have hconstant {op : Operator} {left right : Operand} {rows : JoinedRows}
      (hrows : query.compareConstant op left right = .ok rows) (hrow : rows.get? id = some row) :
      P id row := by
    obtain ⟨source, column, value, ids, hleft, -, -, -, -, hrows⟩ := compareConstant_eq_ok hrows
    exact hexpand source (mem_of_resolve_operand hleft) ids rows hrows id row hrow
  induction condition generalizing rows with
  | and left right ihl ihr =>
    simp only [evaluate, bind_eq_ok_iff] at hrows
    obtain ⟨leftRows, hleft, rightRows, hright, hrows⟩ := hrows
    rw [← Except.ok.inj hrows, SortedMap.get?_restrict, Option.ite_none_right_eq_some] at hrow
    exact ihl hleft hrow.2
  | or left right ihl ihr =>
    simp only [evaluate, bind_eq_ok_iff] at hrows
    obtain ⟨leftRows, hleft, rightRows, hright, hrows⟩ := hrows
    rw [← Except.ok.inj hrows, SortedMap.get?_union, Option.or_eq_some_iff] at hrow
    exact hrow.elim (ihl hleft) fun hrow => ihr hright hrow.2
  | compare op left right =>
    rw [evaluate_compare] at hrows
    split at hrows
    · cases hrows
    · split at hrows
      · simp only [compareColumns, bind_eq_ok_iff] at hrows
        obtain ⟨⟨source, _⟩, hleft, _, -, hrows⟩ := hrows
        obtain ⟨ids, -, hrows⟩ := bind_eq_ok_iff.mp (guard_eq_ok_iff.mp hrows).2
        exact hexpand source (mem_of_resolve_operand hleft) ids rows hrows id row hrow
      · exact hconstant hrows hrow
      · exact hconstant hrows hrow
      · simp only [compareConstants, bind_eq_ok_iff] at hrows
        obtain ⟨_, -, _, -, b, -, hrows⟩ := hrows
        cases b with
        | true =>
          rw [if_pos rfl] at hrows
          exact hall rows hrows id row hrow
        | false =>
          rw [if_neg (by decide)] at hrows
          rw [← Except.ok.inj hrows, SortedMap.get?_empty] at hrow
          cases hrow
      · cases hrows
  | column operand => cases hrows
  | value operand => cases hrows

/-- Evaluating a condition picks the rows of the query that pass it. -/
theorem isPicked_evaluate (h : query.Sound) (hall : query.rows = .ok all) {condition : Condition}
    (hnan : condition.AllConstants (· ≠ .float .nan))
    (hrows : query.evaluate condition = .ok rows) : query.IsPicked all rows condition := by
  have hconstant {operand : Operand} (h : (Condition.value operand).AllConstants (· ≠ .float .nan)) :
      operand.value? ≠ some (.float .nan) := fun he => h _ he rfl
  induction condition generalizing rows with
  | and left right ihl ihr =>
    simp only [evaluate, bind_eq_ok_iff] at hrows
    obtain ⟨leftRows, hleft, rightRows, hright, hrows⟩ := hrows
    rw [← Except.ok.inj hrows]
    exact (ihl hnan.1 hleft).and (ihr hnan.2 hright)
  | or left right ihl ihr =>
    simp only [evaluate, bind_eq_ok_iff] at hrows
    obtain ⟨leftRows, hleft, rightRows, hright, hrows⟩ := hrows
    rw [← Except.ok.inj hrows]
    exact (ihl hnan.1 hleft).or (ihr hnan.2 hright)
  | compare op left right =>
    rw [evaluate_compare] at hrows
    split at hrows
    · simp at hrows
    · split at hrows
      · exact isPicked_compareColumns h hall hrows
      · exact (isPicked_compareConstant h hall (hconstant hnan.1) hrows).inverted
      · exact isPicked_compareConstant h hall (hconstant hnan.2) hrows
      · exact isPicked_compareConstants hall hrows
      · simp at hrows
  | column operand => simp [evaluate] at hrows
  | value operand => simp [evaluate] at hrows

end Query

end Relational
