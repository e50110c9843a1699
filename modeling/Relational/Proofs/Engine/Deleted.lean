import Relational.Proofs.Engine.CreateIndex
import Relational.Proofs.Engine.Reopen
import Relational.Proofs.Engine.Session
import Relational.Proofs.Query.Found
import Relational.Proofs.Query.Part
import Relational.Proofs.Script.Joined
import Relational.Proofs.Statement.Filter

/-!
# Deletions and what selections showed

A deletion takes away the rows that a selection with the same condition shows, and no others, whatever
the state and the condition (`Engine.execute_delete_counted`). Both read their condition alike or are
both refused, since the list of the selection has no part in that; both evaluate it over the table
alone; and behind the deletion it picks what it picked before of the rows that are left, which is none
(`Query.evaluate_delete`).
-/

namespace Relational

open Written (filteredSelect filteredDelete SelectList)

namespace Table

variable {table : Table} {text : List Char} {condition : Condition} {rows : JoinedRows}

theorem matching_of_evaluate (hread : Condition.read text = .ok condition)
    (hrows : (Query.ofTable table).evaluate condition = .ok rows) :
    table.matching (some text) = .ok (.ofKeys rows) := by
  change (do
    let condition ← Condition.read text
    return SortedSet.ofKeys (← (Query.ofTable table).evaluate condition)) = _
  rw [hread, ok_bind, hrows]
  rfl

/-- As many rows are deleted as are shown. -/
theorem length_shownRows (table : Table) (ids : SortedSet RowId) :
    (Selection.shownRows table ids).length = (table.delete ids).1 := by
  simp [Selection.shownRows, delete, SortedMap.values, SortedMap.size]

/-- As many rows are shown as a condition picks. -/
theorem length_shownRows_of_evaluate (h : table.Sound)
    (hrows : (Query.ofTable table).evaluate condition = .ok rows) :
    (Selection.shownRows table (.ofKeys rows)).length = rows.size := by
  have hpicked := congrArg SortedMap.size (Query.rows_of_evaluate h hrows)
  rw [hpicked]
  simp [Selection.shownRows, Source.group, select, SortedMap.map, SortedMap.values, SortedMap.size]

end Table

namespace Engine

variable {engine engine' : Engine} {session : SessionId} {database table : String} {stored : Table}
  {condition : List Char} {answer : Answer}

/-- A script of one selection leaves the engine as it is. -/
theorem execute_select {script : List Char} {selection : Selection}
    (hscript : Script.batches script = .ok [[.select selection]]) (engine : Engine)
    (session : SessionId) :
    engine.execute session script =
      (.ok [match engine.select session selection with
        | .ok answer => answer
        | .error e => .ofError (e.message engine.mode)], engine) := by
  have hanswer := eq_mk_of_fst (answer_select engine session selection)
  rw [answer_snd, perform_select] at hanswer
  exact (execute_single_iff hscript).mpr ⟨_, hanswer, rfl⟩

theorem execute_select_of_eq_ok {script : List Char} {selection : Selection}
    (hscript : Script.batches script = .ok [[.select selection]])
    (hselect : engine.select session selection = .ok answer) :
    engine.execute session script = (.ok [answer], engine) := by
  rw [execute_select hscript, hselect]

theorem select_eq_answer (hdatabase : engine.currentDatabase? session = some database)
    (hstored : engine.storage.store.Holds database table stored) :
    ∃ tables, tables.get? table = some stored ∧
      ∀ selection, engine.select session selection = selection.answer tables := by
  obtain ⟨tables, htables, htable⟩ := hstored
  refine ⟨tables, htable, fun selection => ?_⟩
  rw [select, hdatabase]
  simp only [Store.database_eq_ok_iff.mpr htables, ok_bind]

/-- A selection that counts the rows of a table and is answered without an error has read its condition,
and the condition has picked rows. -/
theorem exists_picked_of_counted {script text : List Char} {tables : Database}
    (htable : tables.get? table = some stored)
    (hselect : ∀ selection, engine.select session selection = selection.answer tables)
    (hscript : Script.batches script =
      .ok [[.select ⟨"COUNT(*)".toList, table, none, [], some text⟩]])
    (hcount : (engine.execute session script).1 = .ok [answer]) (hanswer : answer.error = none) :
    ∃ tree rows, Condition.read text = .ok tree ∧ (Query.ofTable stored).evaluate tree = .ok rows := by
  rw [execute_select hscript, hselect] at hcount
  split at hcount
  · rename_i hcounted
    obtain ⟨tree, rows, hread, hrows, -⟩ := (Selection.answer_count_eq_ok_iff htable).mp hcounted
    exact ⟨tree, rows, hread, hrows⟩
  · cases hcount
    nomatch hanswer

/-- A deletion in memory puts the table without the rows in place of the table. -/
theorem execute_delete {script : List Char} {ids : SortedSet RowId} {text : Option (List Char)}
    (hscript : Script.batches script = .ok [[.delete table text]])
    (hmemory : engine.storage.directory = none)
    (hdatabase : engine.currentDatabase? session = some database)
    (hstored : engine.storage.store.Holds database table stored)
    (hids : stored.matching text = .ok ids) :
    ∃ engine', engine.execute session script =
        (.ok [.ofCount (stored.delete ids).1], engine') ∧
      engine'.storage.store = engine.storage.store.put database (stored.delete ids).2 ∧
      engine'.sessions = engine.sessions := by
  have htable := Store.table_eq_ok_iff.mpr hstored
  have hrows : engine.storage.deleteRows database table ids =
      (.ok (stored.delete ids).1,
        ⟨engine.storage.store.put database (stored.delete ids).2, none⟩) := by
    rw [Storage.deleteRows, Store.deleteRows, htable, Storage.perform_of_memory hmemory]
    rfl
  have hperform : (Statement.delete table text).perform session engine =
      (.ok (.ofCount (stored.delete ids).1), { engine with
        storage := ⟨engine.storage.store.put database (stored.delete ids).2, none⟩ }) := by
    rw [Statement.perform, Work.bind_run, database_run, hdatabase]
    dsimp only
    rw [Work.bind_run, Work.ask_run, htable, ok_bind, hids]
    change (Work.storage _ >>= _) engine = _
    rw [Work.bind_run, Work.storage, hrows]
    rfl
  refine ⟨{ engine with
    storage := ⟨engine.storage.store.put database (stored.delete ids).2, none⟩ }, ?_, rfl, rfl⟩
  exact (execute_single_iff hscript).mpr ⟨_, by rw [answer_eq, hperform], rfl⟩

/-- The list of a selection that counts rows. -/
def countList : SelectList :=
  .items (.aggregate .count none) []

/-- In every state that scripts can reach: where a selection that counts the rows of a table with a
condition has an answer without an error, the answer is how many rows a selection of all columns shows,
if that is a number of 64 bits; a deletion with the condition reports as many and leaves the other rows,
under the same identities and with the same values; and then the selection counts none. -/
theorem execute_delete_counted (hengine : (new .inMemory).Reaches engine)
    (hdatabase : engine.currentDatabase? session = some database)
    (hstored : engine.storage.store.Holds database table stored)
    (hline : Written.isOneLine false condition = true)
    (hcount : (engine.execute session (filteredSelect countList table condition)).1 =
      .ok [answer])
    (hanswer : answer.error = none) :
    ∃ ids stored' engine', ∃ (count : Nat) (number : Integer),
      engine.execute session (filteredSelect countList table condition) =
        (.ok [{ fields := ["COUNT(*)"], rows := [[.int number]], messages := [], error := none }],
          engine) ∧
      (count < 9223372036854775808 → number.val = count) ∧
      engine.execute session (filteredSelect .star table condition) =
        (.ok [{ fields := Selection.shownFields stored, rows := Selection.shownRows stored ids,
                messages := [], error := none }], engine) ∧
      (Selection.shownRows stored ids).length = count ∧
      engine.execute session (filteredDelete table condition) =
        (.ok [{ fields := [], rows := [], messages := [toString count ++ " row(s) affected"],
                error := none }], engine') ∧
      engine'.storage.store.Holds database table stored' ∧
      (∀ id row, stored'.rows.get? id = some row ↔
        stored.rows.get? id = some row ∧ SortedMap.contains ids id = false) ∧
      engine'.execute session (filteredSelect countList table condition) =
        (.ok [{ fields := ["COUNT(*)"], rows := [[.int 0]], messages := [], error := none }],
          engine') := by
  have hsound := hengine.sound rfl database table stored hstored
  have hnamed := hengine.named rfl database table stored hstored
  have hword : IsWord table := hnamed ▸ ((hengine.isWorded rfl).table _ _ _ hstored).name
  rcases Script.batches_filteredSelect hword hline with hfaulty | ⟨hne, hscript⟩
  · rw [execute_of_batches (hfaulty countList)] at hcount
    cases hcount
    nomatch hanswer
  · obtain ⟨tables, htable, hselect⟩ := select_eq_answer hdatabase hstored
    obtain ⟨tree, rows, hread, hrows⟩ :=
      exists_picked_of_counted htable hselect (hscript countList) hcount hanswer
    have hcounts := (Selection.answer_count_eq_ok_iff htable).mpr ⟨tree, rows, hread, hrows, rfl⟩
    have hshown : (⟨['*'], table, none, [], some (Text.trim condition)⟩ : Selection).answer tables = _ :=
      Selection.answer_star htable hread
        (hrows.trans (congrArg _ (Query.rows_of_evaluate hsound hrows)))
    have hsize := Table.length_shownRows_of_evaluate hsound hrows
    obtain ⟨engine', hdelete, hstore, hsessions⟩ :=
      execute_delete (Script.batches_filteredDelete hword hline hne) (hengine.directory rfl)
        hdatabase hstored (Table.matching_of_evaluate hread hrows)
    have hholds : engine'.storage.store.Holds database table
        (stored.delete (.ofKeys rows)).2 := by
      rw [hstore]
      exact Store.holds_put_iff.mpr (.inl ⟨rfl, hnamed, rfl⟩)
    have hdatabase' : engine'.currentDatabase? session = some database := by
      rw [currentDatabase?, hsessions]
      exact hdatabase
    obtain ⟨tables', htable', hselect'⟩ := select_eq_answer hdatabase' hholds
    have hcounts' := (Selection.answer_count_eq_ok_iff htable').mpr
      ⟨tree, .empty, hread, Query.evaluate_delete hsound hrows, rfl⟩
    have hzero : Integer.ofLength (SortedMap.size (.empty : JoinedRows)) = 0 := Integer.ofLength_zero
    rw [hzero] at hcounts'
    rw [← Table.length_shownRows, hsize] at hdelete
    exact ⟨.ofKeys rows, _, engine', rows.size, .ofLength rows.size,
      execute_select_of_eq_ok (hscript countList) ((hselect _).trans hcounts),
      Integer.val_ofLength,
      execute_select_of_eq_ok (hscript .star) ((hselect _).trans hshown), hsize, hdelete, hholds,
      fun _ _ => Table.get?_delete,
      execute_select_of_eq_ok (hscript countList) ((hselect' _).trans hcounts')⟩

/-- A condition with a semicolon between quotes, which two of three rows meet. -/
def partCondition : List Char :=
  "t = 1 OR k = 8 AND 'a;b' = 'c'".toList

/-- The rows that meet it. -/
def partRows : List (List Value) :=
  [[.int 7, .int 1], [.int 9, .int 1]]

set_option maxRecDepth 2000 in
theorem execute_delete_counted_joinEngine : ∃ ids stored stored' engine',
    filteredSelect countList "u" partCondition =
      "SELECT COUNT(*) FROM u WHERE t = 1 OR k = 8 AND 'a;b' = 'c'".toList ∧
    filteredSelect .star "u" partCondition =
      "SELECT * FROM u WHERE t = 1 OR k = 8 AND 'a;b' = 'c'".toList ∧
    filteredDelete "u" partCondition =
      "DELETE FROM u WHERE t = 1 OR k = 8 AND 'a;b' = 'c'".toList ∧
    joinEngine.storage.store.Holds "d" "u" stored ∧
    joinEngine.execute defaultSession (filteredSelect countList "u" partCondition) =
      (.ok [{ fields := ["COUNT(*)"], rows := [[.int 2]], messages := [], error := none }],
        joinEngine) ∧
    joinEngine.execute defaultSession (filteredSelect .star "u" partCondition) =
      (.ok [{ fields := ["u.k", "u.t"], rows := partRows, messages := [], error := none }],
        joinEngine) ∧
    Selection.shownRows stored ids = partRows ∧
    joinEngine.execute defaultSession (filteredDelete "u" partCondition) =
      (.ok [{ fields := [], rows := [], messages := ["2 row(s) affected"], error := none }],
        engine') ∧
    engine'.storage.store.Holds "d" "u" stored' ∧
    (∀ id row, stored'.rows.get? id = some row ↔
      stored.rows.get? id = some row ∧ SortedMap.contains ids id = false) ∧
    engine'.execute defaultSession (filteredSelect countList "u" partCondition) =
      (.ok [{ fields := ["COUNT(*)"], rows := [[.int 0]], messages := [], error := none }],
        engine') := by
  have hrun : ((joinEngine.execute defaultSession
        (filteredSelect countList "u" partCondition)).1 =
          .ok [⟨["COUNT(*)"], [[.int 2]], [], none⟩] ∧
      (joinEngine.execute defaultSession (filteredSelect .star "u" partCondition)).1 =
        .ok [⟨["u.k", "u.t"], partRows, [], none⟩] ∧
      (joinEngine.execute defaultSession (filteredDelete "u" partCondition)).1 =
        .ok [⟨[], [], ["2 row(s) affected"], none⟩]) ∧
      joinEngine.currentDatabase? defaultSession = some "d" ∧
      ((joinEngine.storage.store.databases.get? "d").any fun tables =>
        (tables.get? "u").isSome) = true := by
    have hscript : joinScript = _ := String.toList_ofList
    rewrite [joinEngine_eq, behind, hscript]
    decide +kernel
  obtain ⟨⟨hcount, hstar, hmessage⟩, hdatabase, hstored⟩ := hrun
  simp only [Option.any_eq_true, Option.isSome_iff_exists] at hstored
  obtain ⟨tables, htables, stored, hstored⟩ := hstored
  obtain ⟨ids, stored', engine', _, _, hcounts, -, hshown, -, hdelete, hholds, hrows, hnone⟩ :=
    execute_delete_counted reaches_joinEngine hdatabase ⟨tables, htables, hstored⟩
      (by decide +kernel) hcount rfl
  rw [hcounts] at hcount
  rw [hshown] at hstar
  rw [hdelete] at hmessage
  have hpart : Selection.shownFields stored = ["u.k", "u.t"] ∧
      Selection.shownRows stored ids = partRows := by
    simpa using hstar
  exact ⟨ids, stored, stored', engine', by decide, by decide, by decide, ⟨tables, htables, hstored⟩,
    hcounts.trans (Prod.ext hcount rfl), hshown.trans (Prod.ext hstar rfl), hpart.2,
    hdelete.trans (Prod.ext hmessage rfl), hholds, hrows, hnone⟩

end Engine

end Relational
