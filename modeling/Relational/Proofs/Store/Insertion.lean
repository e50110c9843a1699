import Relational.Proofs.Store.Operation

/-!
# Insertions of several rows

Rows are inserted one after the other (`Table.insertAll`, `Store.insertAll`). Where all of them went in,
the table has exactly these rows in addition, each as the schema makes it, and its indexes match
(`Table.gains_insertAll`); nothing else of the store has changed (`Store.gains_insertAll`).
-/

namespace Relational

namespace Table

variable {table table' : Table} {rows : List Row}

/-- The table with rows more, if each of them can be inserted. -/
def insertAll (table : Table) : List Row → Except Failure Table
  | [] => .ok table
  | row :: rows => do
    let (_, table) ← table.insert row
    table.insertAll rows

theorem schema_of_insert {row : Row} {id : RowId} (h : table.insert row = .ok (id, table')) :
    table'.schema = table.schema := by
  obtain ⟨-, -, -, -, -, -, rfl⟩ := insert_eq_ok_iff.mp h
  rfl

theorem schema_of_insertAll (h : table.insertAll rows = .ok table') :
    table'.schema = table.schema := by
  induction rows generalizing table with
  | nil => rw [Except.ok.inj h]
  | cons row rows ih =>
    rw [insertAll, bind_eq_ok_iff] at h
    obtain ⟨⟨id, next⟩, hinsert, hrows⟩ := h
    rw [ih hrows, schema_of_insert hinsert]

/-- A table has exactly some rows in addition to those of another, each as the schema makes it and
under its identity, and indexes to match. -/
structure Gains (table : Table) (rows : List Row) (table' : Table) : Prop where
  schema : table'.schema = table.schema
  mem (id : RowId) (row : Row) : table'.rows.get? id = some row ↔
    table.rows.get? id = some row ∨
      ∃ listed ∈ rows, table.schema.validate listed = .ok row ∧ id = table.schema.rowId row
  coherent : table'.Coherent

theorem Gains.cons {row : Row} {id : RowId} {next : Table} (hinsert : table.insert row = .ok (id, next))
    (h : next.Gains rows table') : table.Gains (row :: rows) table' := by
  obtain ⟨stored, hstored, rfl, hnew, -, -, rfl⟩ := insert_eq_ok_iff.mp hinsert
  refine ⟨h.schema, fun other row' => ?_, h.coherent⟩
  have hnone : table.rows.get? (table.schema.rowId stored) = none :=
    SortedMap.contains_eq_false_iff.mp hnew
  have hold : (table.rows.insert (table.schema.rowId stored) stored).get? other = some row' ↔
      table.rows.get? other = some row' ∨
        stored = row' ∧ other = table.schema.rowId row' := by
    rw [SortedMap.get?_insert]
    split
    · rename_i hother
      rw [hother, hnone, Option.some.injEq]
      refine ⟨fun he => .inr ⟨he, by rw [he]⟩, fun he => (he.resolve_left nofun).1⟩
    · rename_i hother
      refine ⟨.inl, fun he => he.resolve_right ?_⟩
      rintro ⟨rfl, hsame⟩
      exact hother hsame
  rw [h.mem]
  dsimp only
  rw [hold, or_assoc]
  refine or_congr_right ?_
  simp only [List.mem_cons, exists_eq_or_imp, hstored, Except.ok.injEq]

theorem gains_insertAll (hcoherent : table.Coherent) (h : table.insertAll rows = .ok table') :
    table.Gains rows table' := by
  induction rows generalizing table with
  | nil =>
    obtain rfl := Except.ok.inj h
    exact ⟨rfl, by simp, hcoherent⟩
  | cons row rows ih =>
    rw [insertAll, bind_eq_ok_iff] at h
    obtain ⟨⟨id, next⟩, hinsert, hrows⟩ := h
    exact (ih (hcoherent.insert hinsert) hrows).cons hinsert

end Table

namespace Store

variable {store store' : Store} {database name : String} {table : Table} {rows : List Row}

/-- The store with rows more in a table, if each of them can be inserted. -/
def insertAll (store : Store) (database table : String) : List Row → Except Failure Store
  | [] => .ok store
  | row :: rows => do
    let (_, store) ← store.insertRow database table row
    store.insertAll database table rows

/-- A store is another but for one table, which has exactly some rows in addition. -/
structure Gains (store : Store) (database name : String) (rows : List Row) (store' : Store) :
    Prop where
  databases (other : String) : store'.databases.contains other = store.databases.contains other
  others (database' name' : String) (table : Table) : ¬(database' = database ∧ name' = name) →
    (store'.Holds database' name' table ↔ store.Holds database' name' table)
  table (table : Table) : store.Holds database name table →
    ∃ table', store'.Holds database name table' ∧ table.Gains rows table'
  missing : (∀ table, ¬store.Holds database name table) → store' = store

theorem put_put {table' : Table} (hname : table'.schema.name = table.schema.name) :
    (store.put database table).put database table' = store.put database table' := by
  refine congrArg Store.mk (SortedMap.ext fun other => ?_)
  simp only [put, SortedMap.get?_insert]
  split
  · refine congrArg some (SortedMap.ext fun name => ?_)
    simp only [if_true, Option.getD_some, SortedMap.get?_insert, hname]
    split <;> rfl
  · rfl

theorem insertRow_of_holds (h : store.Holds database name table) (row : Row) :
    store.insertRow database name row =
      (table.insert row).map fun (id, table) => (id, store.put database table) := by
  rw [insertRow, table_eq_ok_iff.mpr h]
  change (table.insert row >>= _) = _
  cases table.insert row <;> rfl

theorem insertRow_of_missing (h : ∀ table, ¬store.Holds database name table) (row : Row) :
    ∃ e, store.insertRow database name row = .error (.error e) := by
  cases htable : store.table database name with
  | ok table => exact absurd (table_eq_ok_iff.mp htable) (h table)
  | error e => exact ⟨e, by rw [insertRow, htable]; rfl⟩

/-- The rows go into the table as into a table on its own. -/
theorem insertAll_of_holds (h : store.Holds database table.schema.name table) :
    store.insertAll database table.schema.name rows =
      (table.insertAll rows).map (store.put database) := by
  induction rows generalizing store table with
  | nil =>
    rw [insertAll, Table.insertAll, map_ok, put_of_holds h]
  | cons row rows ih =>
    rw [insertAll, Table.insertAll, insertRow_of_holds h]
    cases hinsert : table.insert row with
    | error failure => rfl
    | ok result =>
      obtain ⟨id, next⟩ := result
      have hnext : (store.put database next).Holds database next.schema.name next :=
        holds_put_iff.mpr (.inl ⟨rfl, rfl, rfl⟩)
      rw [map_ok, ok_bind, ok_bind, ← Table.schema_of_insert hinsert]
      dsimp only
      rw [ih hnext]
      cases hrows : next.insertAll rows with
      | error failure => rfl
      | ok last =>
        rw [map_ok, map_ok, put_put (congrArg Schema.name (Table.schema_of_insertAll hrows))]

theorem insertAll_of_missing (h : ∀ table, ¬store.Holds database name table)
    (hrows : store.insertAll database name rows = .ok store') : store' = store := by
  cases rows with
  | nil => exact (Except.ok.inj hrows).symm
  | cons row rows =>
    obtain ⟨e, he⟩ := insertRow_of_missing h row
    rw [insertAll, he, error_bind] at hrows
    nomatch hrows

theorem gains_insertAll (hnamed : store.Named) (hcoherent : store.All Table.Coherent)
    (h : store.insertAll database name rows = .ok store') :
    store.Gains database name rows store' := by
  by_cases htable : ∃ table, store.Holds database name table
  · obtain ⟨table, hholds⟩ := htable
    obtain rfl := hnamed _ _ _ hholds
    rw [insertAll_of_holds hholds, map_eq_ok_iff] at h
    obtain ⟨table', hrows, rfl⟩ := h
    have hgains := Table.gains_insertAll (hcoherent _ _ _ hholds) hrows
    have hname := congrArg Schema.name hgains.schema
    refine ⟨fun other => ?_, fun database' name' other hother => ?_, fun other hother => ?_,
      fun hmissing => absurd hholds (hmissing table)⟩
    · rw [put, SortedMap.contains_insert, Bool.or_eq_right_iff_imp, decide_eq_true_iff]
      rintro rfl
      exact hholds.contains
    · rw [holds_put_iff, hname]
      exact ⟨fun he => (he.resolve_left fun hsame => hother ⟨hsame.1, hsame.2.1⟩).2,
        fun he => .inr ⟨hother, he⟩⟩
    · rw [hother.unique hholds]
      exact ⟨table', holds_put_iff.mpr (.inl ⟨rfl, hname.symm, rfl⟩), hgains⟩
  · have hmissing := not_exists.mp htable
    obtain rfl := insertAll_of_missing hmissing h
    exact ⟨fun _ => rfl, fun _ _ _ _ => .rfl, fun table hholds => absurd hholds (hmissing table),
      fun _ => rfl⟩

end Store

end Relational
