import Mathlib.Data.List.Nodup
import Relational.Proofs.Engine.Inserted
import Relational.Proofs.Statement.Names
import Relational.Proofs.Store.Insertion

/-!
# Insertions that list columns

An insertion that lists columns lists as many values for each row. The columns and the values are put
together into a map, in which the value that is listed last under a name stays (`get?_ofList_zip`), and
each column of the table takes its value out of it (`Schema.stores_of_validate`). The rows that an
insertion adds are those that it lists (`Store.exists_of_insertAll`), so behind an insertion that went
well a row has under each column the value that is listed for it last, as the column stores it
(`Engine.execute_insert_listed`). Where a name is listed twice, the value that is listed before is dropped
(`Engine.execute_repeatedColumn`).
-/

namespace Relational

open Std

/-! ## Values under names -/

namespace SortedMap

variable {κ α : Type} [Ord κ] [TransOrd κ] [LawfulEqOrd κ] [DecidableEq κ] {keys : List κ}
  {values : List α} {k : κ} {v : α} {i : Nat}

theorem get?_ofList_zip_eq_none (h : k ∉ keys) : (ofList (keys.zip values)).get? k = none := by
  refine contains_eq_false_iff.mp (Bool.eq_false_iff.mpr fun hcontains => ?_)
  obtain ⟨v, hv⟩ := (contains_ofList _ _).mp hcontains
  exact h (List.of_mem_zip hv).1

/-- The value that is listed last under a key stays. -/
theorem get?_ofList_zip (hkey : keys[i]? = some k) (hlast : k ∉ keys.drop (i + 1))
    (hvalue : values[i]? = some v) : (ofList (keys.zip values)).get? k = some v := by
  induction keys generalizing i values with
  | nil => cases hkey
  | cons key keys ih =>
    cases values with
    | nil => cases hvalue
    | cons value values =>
      rw [List.zip_cons_cons, get?_ofList_cons]
      cases i with
      | zero =>
        obtain rfl := Option.some.inj hkey
        obtain rfl := Option.some.inj hvalue
        have hkeys : key ∉ keys := hlast
        rw [get?_ofList_zip_eq_none hkeys, if_pos rfl, Option.none_or]
      | succ i => rw [ih hkey hlast hvalue, Option.some_or]

end SortedMap

theorem ColumnType.coerce_null (type : ColumnType) (column : String) :
    type.coerce column .null = .ok .null := by
  cases type <;> rfl

namespace Schema

variable {schema : Schema} {columns : List String} {values : List Value} {row stored : Row}
  {column : Column} {value : Value} {i : Nat}

/-- A stored row has what is listed for it: a value that is listed under a column of the table is in it,
as the column stores it, exactly if the value that is listed last under this name is stored alike; and
there is nothing under columns that are not listed. -/
structure Stores (schema : Schema) (columns : List String) (values : List Value) (row : Row) : Prop where
  known (name : String) : name ∈ columns → ∃ column ∈ schema.columns, column.name = name
  listed {i last : Nat} {column : Column} {value lastValue : Value} :
    columns[i]? = some column.name → values[i]? = some value → column ∈ schema.columns →
      columns[last]? = some column.name → column.name ∉ columns.drop (last + 1) →
      values[last]? = some lastValue →
      (column.type.coerce column.name value = .ok (row.cell column.name) ↔
        column.type.coerce column.name value = column.type.coerce column.name lastValue)
  unlisted (column : Column) : column ∈ schema.columns → column.name ∉ columns →
    row.cell column.name = .null

/-- Where no name is listed twice, every value is stored. -/
theorem Stores.of_nodup (h : schema.Stores columns values row) (hnodup : columns.Nodup)
    (hname : columns[i]? = some column.name) (hvalue : values[i]? = some value)
    (hcolumn : column ∈ schema.columns) :
    column.type.coerce column.name value = .ok (row.cell column.name) := by
  have hlast : column.name ∉ columns.drop (i + 1) := by
    obtain ⟨hlt, hget⟩ := List.getElem?_eq_some_iff.mp hname
    have hdrop := hnodup.sublist (List.drop_sublist i columns)
    rw [List.drop_eq_getElem_cons hlt, hget] at hdrop
    exact (List.nodup_cons.mp hdrop).1
  exact (h.listed hname hvalue hcolumn hname hlast hvalue).mpr rfl

theorem stores_of_validate (hnodup : schema.columnNames.Nodup)
    (hlength : values.length = columns.length)
    (h : schema.validate (.ofList (columns.zip values)) = .ok stored) :
    schema.Stores columns values stored where
  known name hname := by
    rw [← List.map_fst_zip (Nat.le_of_eq hlength.symm)] at hname
    obtain ⟨⟨_, value⟩, hmem, rfl⟩ := List.mem_map.mp hname
    obtain ⟨value, hvalue⟩ := SortedMap.contains_iff.mp
      ((SortedMap.contains_ofList _ _).mpr ⟨value, hmem⟩)
    obtain ⟨column, hcolumn, hname, -⟩ := exists_column_of_validate hnodup h hvalue
    exact ⟨column, ((column?_eq_some_iff hnodup).mp hcolumn).1, hname⟩
  listed {i last column value lastValue} _ _ hcolumn hlast hfinal hvalue := by
    have hgiven := SortedMap.get?_ofList_zip hlast hfinal hvalue
    have hcell := coerce_of_validate hnodup h column hcolumn
    rw [Row.cell, hgiven, Option.getD_some] at hcell
    rw [hcell]
  unlisted column hcolumn hname := by
    have hcell := coerce_of_validate hnodup h column hcolumn
    rw [Row.cell, SortedMap.get?_ofList_zip_eq_none hname, Option.getD_none,
      ColumnType.coerce_null] at hcell
    exact (Except.ok.inj hcell).symm

end Schema

/-! ## Inserted rows -/

/-- Each of the rows that are inserted is stored, where there was none before. -/
theorem Table.exists_of_insertAll {table table' : Table} {rows : List Row} {row : Row}
    (h : table.insertAll rows = .ok table') (hrow : row ∈ rows) :
    ∃ stored, table.schema.validate row = .ok stored ∧
      table.rows.get? (table.schema.rowId stored) = none := by
  induction rows generalizing table with
  | nil => cases hrow
  | cons first rows ih =>
    rw [insertAll, bind_eq_ok_iff] at h
    obtain ⟨⟨id, next⟩, hinsert, hrows⟩ := h
    obtain ⟨stored, hstored, rfl, hnew, -, -, rfl⟩ := insert_eq_ok_iff.mp hinsert
    rcases List.mem_cons.mp hrow with rfl | hrow
    · exact ⟨stored, hstored, SortedMap.contains_eq_false_iff.mp hnew⟩
    · obtain ⟨other, hother, hnone⟩ := ih hrows hrow
      refine ⟨other, hother, ?_⟩
      dsimp only at hnone
      rw [SortedMap.get?_insert] at hnone
      split at hnone
      · cases hnone
      · exact hnone

/-- Where a row is inserted, its table is there before and after. -/
theorem Store.exists_of_insertAll {store store' : Store} {database name : String} {rows : List Row}
    {row : Row} (hnamed : store.Named) (h : store.insertAll database name rows = .ok store')
    (hrow : row ∈ rows) :
    ∃ before after, store.Holds database name before ∧ store'.Holds database name after ∧
      before.insertAll rows = .ok after := by
  by_cases htable : ∃ table, store.Holds database name table
  · obtain ⟨before, hbefore⟩ := htable
    obtain rfl := hnamed _ _ _ hbefore
    rw [insertAll_of_holds hbefore, map_eq_ok_iff] at h
    obtain ⟨after, hafter, rfl⟩ := h
    have hname := congrArg Schema.name (Table.schema_of_insertAll hafter)
    exact ⟨before, after, hbefore, holds_put_iff.mpr (.inl ⟨rfl, hname.symm, rfl⟩), hafter⟩
  · obtain ⟨first, rows, rfl⟩ := List.exists_cons_of_ne_nil (List.ne_nil_of_mem hrow)
    obtain ⟨e, he⟩ := insertRow_of_missing (not_exists.mp htable) first
    rw [insertAll, he] at h
    cases h

/-! ## Reading rows -/

theorem Row.readAll_eq_ok_iff {columns : List String} {texts : List (List Char)} {rows : List Row} :
    readAll columns texts = .ok rows ↔ ∃ values, texts.mapM Value.readList = .ok values ∧
      (∀ listed ∈ values, listed.length = columns.length) ∧
      rows = values.map fun listed => .ofList (columns.zip listed) := by
  induction texts generalizing rows with
  | nil =>
    constructor
    · rintro ⟨⟩
      exact ⟨[], rfl, nofun, rfl⟩
    · rintro ⟨values, hvalues, -, rfl⟩
      cases hvalues
      rfl
  | cons text texts ih =>
    simp only [readAll, List.mapM_cons, bind_eq_ok_iff, guard_eq_ok_iff, ih, pure_eq_ok]
    constructor
    · rintro ⟨listed, hlisted, hlength, rest, ⟨values, hvalues, hlengths, rfl⟩, ⟨⟩⟩
      refine ⟨listed :: values, ⟨listed, hlisted, values, hvalues, rfl⟩, ?_, rfl⟩
      exact List.forall_mem_cons.mpr ⟨Decidable.not_not.mp hlength, hlengths⟩
    · rintro ⟨_, ⟨listed, hlisted, values, hvalues, ⟨⟩⟩, hlengths, rfl⟩
      obtain ⟨hlength, hlengths⟩ := List.forall_mem_cons.mp hlengths
      exact ⟨listed, hlisted, not_not_intro hlength, _, ⟨values, hvalues, hlengths, rfl⟩, rfl⟩

/-- Work on each of some items comes to as many results, so to some. -/
theorem ne_nil_of_mapM {α β : Type} {f : α → Except Error β} {l : List α} {result : List β}
    (h : l.mapM f = .ok result) (hne : l ≠ []) : result ≠ [] := by
  obtain ⟨a, l, rfl⟩ := List.exists_cons_of_ne_nil hne
  simp only [List.mapM_cons, bind_eq_ok_iff] at h
  obtain ⟨b, -, rest, -, h⟩ := h
  cases h
  exact List.cons_ne_nil b rest

/-! ## Insertions -/

namespace Engine

variable {start engine engine' : Engine} {session : SessionId} {database table : String}
  {columns : List String} {texts : List (List Char)} {rows : List Row} {answer : Answer}

/-- Rows that the engine inserts are inserted into its store. -/
theorem store_of_insertRows (h : Work.insertRows database table rows engine = (.ok (), engine')) :
    engine.storage.store.insertAll database table rows = .ok engine'.storage.store := by
  induction rows generalizing engine with
  | nil =>
    cases h
    rfl
  | cons row rows ih =>
    rw [Work.insertRows, Work.bind_eq_ok_iff] at h
    obtain ⟨id, between, hinsert, hrows⟩ := h
    obtain ⟨hok, rfl⟩ := Prod.mk.inj hinsert
    have hresult := Storage.store_of_perform (Prod.ext hok rfl)
    rw [Store.insertAll, hresult]
    exact ih hrows

/-- What an insertion that went well has read and inserted. -/
theorem insertAll_of_insert
    (h : (Statement.insert table (some columns) texts).perform session engine = (.ok answer, engine')) :
    ∃ database rows, engine.currentDatabase? session = some database ∧
      Row.readAll columns texts = .ok rows ∧ answer = .ofCount rows.length ∧
      engine.storage.store.insertAll database table rows = .ok engine'.storage.store := by
  rw [perform_insert] at h
  split at h
  · cases h
  · rename_i database rows hread
    rw [Work.bind_eq_ok_iff] at h
    obtain ⟨_, between, hinsert, hanswer⟩ := h
    cases hanswer
    refine ⟨database, rows, currentDatabase?_of_readInsertion hread, ?_, rfl,
      store_of_insertRows hinsert⟩
    rw [readInsertion, currentDatabase?_of_readInsertion hread] at hread
    simp only [insertionColumns, ok_bind, bind_eq_ok_iff] at hread
    obtain ⟨rows', hrows, hsame⟩ := hread
    cases hsame
    exact hrows

/-- Whatever scripts came before: a script of one insertion that lists columns, and goes well. It lists
as many values as columns for each row, and the table has exactly a row in addition for each of
them, with what is listed for it: under each column of the table the value that is listed last under its
name, as the column stores it, and nothing where none is listed. So all values are stored if no
column is listed twice. -/
theorem execute_insert_listed {script : List Char} (hengine : start.Reaches engine)
    (hstart : start.storage.store = .empty)
    (hscript : Script.batches script = .ok [[.insert table (some columns) texts]])
    (hinsert : engine.execute session script = (.ok [answer], engine'))
    (hanswer : answer.isError = false) :
    ∃ database values before after, engine.currentDatabase? session = some database ∧
      texts.mapM Value.readList = .ok values ∧
      (∀ listed ∈ values, listed.length = columns.length) ∧
      engine.storage.store.Holds database table before ∧
      engine'.storage.store.Holds database table after ∧ after.schema = before.schema ∧
      (∀ id row, after.rows.get? id = some row → before.rows.get? id = none →
        ∃ listed ∈ values, before.schema.Stores columns listed row) ∧
      ∀ listed ∈ values, ∃ id row, before.rows.get? id = none ∧ after.rows.get? id = some row ∧
        before.schema.Stores columns listed row ∧
        (columns.Nodup → ∀ (i : Nat) (column : Column) (value : Value),
          columns[i]? = some column.name → listed[i]? = some value → column ∈ before.schema.columns →
          column.type.coerce column.name value = .ok (row.cell column.name)) := by
  have hne : texts ≠ [] := by
    obtain ⟨s, hread⟩ := Script.exists_read?_of_batches hscript List.mem_cons_self
    exact Statement.ne_nil_of_insert hread
  obtain ⟨_, hstatement, ⟨⟩⟩ := (execute_single_iff hscript).mp hinsert
  obtain hperform | ⟨e, -, rfl⟩ := answer_eq_ok hstatement
  · obtain ⟨database, rows, hdatabase, hread, -, hrows⟩ := insertAll_of_insert hperform
    obtain ⟨values, hvalues, hlengths, rfl⟩ := Row.readAll_eq_ok_iff.mp hread
    obtain ⟨first, hfirst⟩ := List.exists_mem_of_ne_nil values (ne_nil_of_mapM hvalues hne)
    obtain ⟨before, after, hbefore, hafter, hall⟩ :=
      Store.exists_of_insertAll (hengine.named hstart) hrows (List.mem_map_of_mem hfirst)
    have hsound := hengine.sound hstart database table before hbefore
    have hgains := Table.gains_insertAll hsound.coherent hall
    refine ⟨database, values, before, after, hdatabase, hvalues, hlengths, hbefore, hafter,
      hgains.schema, fun id row hrow hnone => ?_, fun listed hlisted => ?_⟩
    · rcases (hgains.mem id row).mp hrow with hrow | ⟨given, hgiven, hvalidate, -⟩
      · rw [hnone] at hrow
        cases hrow
      · obtain ⟨listed, hlisted, rfl⟩ := List.mem_map.mp hgiven
        exact ⟨listed, hlisted,
          Schema.stores_of_validate hsound.nodup (hlengths listed hlisted) hvalidate⟩
    · obtain ⟨row, hvalidate, hnone⟩ :=
        Table.exists_of_insertAll hall (List.mem_map_of_mem hlisted)
      have hstores :=
        Schema.stores_of_validate hsound.nodup (hlengths listed hlisted) hvalidate
      have hrow := (hgains.mem _ row).mpr (.inr ⟨_, List.mem_map_of_mem hlisted, hvalidate, rfl⟩)
      exact ⟨_, row, hnone, hrow, hstores, fun hnodup i column value => hstores.of_nodup hnodup⟩
  · nomatch hanswer

/-- A script that leaves a table without rows, with two columns beside its key. -/
def listScript : List Char :=
  "CREATE DATABASE d; USE d; CREATE TABLE t (id INT PRIMARY KEY, a INT, b INT)".toList

/-- The engine behind the script. -/
def listEngine : Engine :=
  behind listScript

/-- An insertion of two rows, with the columns in another order and one left out. -/
def orderedScript : List Char :=
  "INSERT INTO t (b, id) VALUES (2.0, 1), (NULL, 2)".toList

theorem execute_insert_listed_ordered : ∃ answer engine' database before after,
    listEngine.execute defaultSession orderedScript = (.ok [answer], engine') ∧
    answer.isError = false ∧
    listEngine.storage.store.Holds database "t" before ∧
    engine'.storage.store.Holds database "t" after ∧
    ∃ values : List (List Value), values.length = 2 ∧ ∀ listed ∈ values, ∃ id row,
      before.rows.get? id = none ∧ after.rows.get? id = some row ∧
      before.schema.Stores ["b", "id"] listed row := by
  have hscript : Script.batches orderedScript =
      .ok [[.insert "t" (some ["b", "id"]) ["2.0, 1".toList, "NULL, 2".toList]]] := by
    decide +kernel
  have hinsert : (listEngine.execute defaultSession orderedScript).1 = .ok [.ofCount 2] := by
    decide +kernel
  have hvalues : (["2.0, 1".toList, "NULL, 2".toList].mapM Value.readList).toOption.any
      (fun values => values.length == 2) = true := by
    decide +kernel
  obtain ⟨database, values, before, after, -, hread, -, hbefore, hafter, -, -, hstores⟩ :=
    execute_insert_listed (reaches_behind listScript) rfl hscript (eq_mk_of_fst hinsert) rfl
  rw [hread] at hvalues
  refine ⟨_, _, database, before, after, eq_mk_of_fst hinsert, rfl, hbefore, hafter, values,
    beq_iff_eq.mp hvalues, fun listed hlisted => ?_⟩
  obtain ⟨id, row, hnone, hrow, hrow', -⟩ := hstores listed hlisted
  exact ⟨id, row, hnone, hrow, hrow'⟩

/-- An insertion that lists a column twice. -/
def repeatedScript : List Char :=
  "INSERT INTO t (id, a, a) VALUES (1, 2, 3)".toList

/-- Of two values that are listed under one column, the first is dropped. -/
theorem execute_repeatedColumn : ∃ answer engine' after column row,
    Script.batches repeatedScript =
      .ok [[.insert "t" (some ["id", "a", "a"]) ["1, 2, 3".toList]]] ∧
    listEngine.execute defaultSession repeatedScript = (.ok [answer], engine') ∧
    answer.isError = false ∧
    Value.readList "1, 2, 3".toList = .ok [.int 1, .int 2, .int 3] ∧
    engine'.storage.store.Holds "d" "t" after ∧
    after.schema.column? "a" = some column ∧
    after.rows.size = 1 ∧ after.rows.get? (.ofKey "1") = some row ∧
    column.type.coerce "a" (.int 2) ≠ .ok (row.cell "a") := by
  have hinsert : (listEngine.execute defaultSession repeatedScript).1 = .ok [.ofCount 1] := by
    decide +kernel
  have hrun : ((listEngine.execute defaultSession repeatedScript).2.storage.store.databases.get?
      "d").any (fun tables => (tables.get? "t").any fun after =>
        after.rows.size == 1 && (after.schema.column? "a").any fun column =>
          (after.rows.get? (.ofKey "1")).any fun row =>
            decide (column.type.coerce "a" (.int 2) ≠ .ok (row.cell "a"))) = true := by
    decide +kernel
  simp only [Option.any_eq_true, Bool.and_eq_true, beq_iff_eq, decide_eq_true_eq] at hrun
  obtain ⟨tables, htables, after, hafter, hsize, column, hcolumn, row, hrow, hdropped⟩ := hrun
  refine ⟨_, _, after, column, row, ?_, eq_mk_of_fst hinsert, rfl, ?_, ⟨tables, htables, hafter⟩,
    hcolumn, hsize, hrow, hdropped⟩
  all_goals decide +kernel

end Engine

end Relational
