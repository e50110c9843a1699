import Relational.Proofs.Engine.Sound
import Relational.Proofs.Query.Reveal

/-!
# Answers behind a new index

A new index changes no more of a store than one table, and this table only in what it knows of
indexes (`Engine.store_of_createIndex`, `Database.bare_insert`). So a selection is answered alike
before and behind it, if the tables find the same rows (`Selection.answer_congr`). They do, but for
what is not a number: it has a key, which an index finds, and equals nothing
(`Engine.answer_select_createIndex`, `Engine.answer_nanSelection_ne`).
-/

namespace Relational

open Std

/-! ## Selections -/

namespace Selection

variable {tables tables' : Database} {P : Value → Prop}

/-- The constants in the condition of a selection have a property. -/
def AllConstants (P : Value → Prop) (selection : Selection) : Prop :=
  ∀ text, selection.condition = some text → ∀ condition, Condition.read text = .ok condition →
    condition.AllConstants P

/-- Tables of one name, the same but for indexes, find the same rows by a comparison with a constant. -/
def FindAlike (P : Value → Prop) (tables tables' : Database) : Prop :=
  ∀ source source' : Source, source.bare = source'.bare →
    tables.get? source.table.schema.name = some source.table →
      tables'.get? source.table.schema.name = some source'.table →
        ∀ (op : Operator) (column : Column) (value : Value), P value →
          source.column? column.name = some column → column.type.checkComparable value = .ok () →
            source.find op column value = source'.find op column value

theorem rows_congr {query query' : Query} (hbare : query.bare = query'.bare)
    (hfind : Query.FindAlike P query query') {selection : Selection}
    (hconstants : selection.AllConstants P) :
    rows selection.condition query = rows selection.condition query' := by
  unfold rows
  cases htext : selection.condition with
  | none =>
    change query.rows = query'.rows
    rw [← Query.rows_bare, hbare, Query.rows_bare]
  | some text =>
    change (Condition.read text >>= query.evaluate) = Condition.read text >>= query'.evaluate
    cases hread : Condition.read text with
    | error e => rfl
    | ok condition => exact Query.evaluate_congr hbare hfind (hconstants text htext condition hread)

/-- A selection is answered alike by databases that are the same but for indexes, if their tables
find the same rows. -/
theorem answer_congr (hbare : tables.bare = tables'.bare)
    (hnamed : ∀ name table, tables.get? name = some table → name = table.schema.name)
    (hnamed' : ∀ name table, tables'.get? name = some table → name = table.schema.name)
    (hfind : FindAlike P tables tables') {selection : Selection}
    (hconstants : selection.AllConstants P) : selection.answer tables = selection.answer tables' := by
  unfold answer
  have htable : (tables.get? selection.table).map Table.bare =
      (tables'.get? selection.table).map Table.bare := by
    have hget (tables : Database) :
        tables.bare.get? selection.table = (tables.get? selection.table).map Table.bare :=
      SortedMap.get?_map _ _ _
    rw [← hget, hbare, hget]
  cases hget : tables.get? selection.table with
  | none =>
    rw [hget, Option.map_none, eq_comm, Option.map_eq_none_iff] at htable
    rw [htable]
  | some table =>
    rw [hget, Option.map_some, eq_comm, Option.map_eq_some_iff] at htable
    obtain ⟨table', hget', htable⟩ := htable
    rw [hget']
    have hfirst : (⟨table, selection.nickname, false⟩ : Source).bare =
        (⟨table', selection.nickname, false⟩ : Source).bare := by
      rw [Source.bare, Source.bare, htable]
    have hbuild := Query.build_bare tables ⟨table, selection.nickname, false⟩ selection.joins
    rw [hbare, hfirst, Query.build_bare, eq_comm] at hbuild
    refine bind_congr_of_map hbuild fun query query' hquery hquery' hsame => ?_
    have hread (query : Query) : Projection.read selection.columns query.scope =
        Projection.read selection.columns query.bare.scope :=
      (Projection.read_bare _ _).symm
    have halike : Query.FindAlike P query query' := by
      intro source hsource source' hsource' hbare'
      obtain ⟨name, hname⟩ := Query.table_of_build hquery ⟨_, hget⟩ source hsource
      obtain ⟨name', hname'⟩ := Query.table_of_build hquery' ⟨_, hget'⟩ source' hsource'
      have hown : source.bare.table.schema.name = source'.bare.table.schema.name := by rw [hbare']
      change source.table.schema.name = source'.table.schema.name at hown
      refine hfind source source' hbare' (hnamed name _ hname ▸ hname) ?_
      rw [hown, ← hnamed' name' _ hname', hname']
    rw [hread, hsame, ← hread, rows_congr hsame halike hconstants]

end Selection

/-! ## Tables with an index more -/

namespace Database

variable {tables : Database} {stored stored' : Table} {definition : IndexDefinition}

theorem bare_insert (hstored : tables.get? stored.schema.name = some stored)
    (hcreate : stored.createIndex definition = .ok stored') :
    Database.bare (tables.insert stored'.schema.name stored') = tables.bare := by
  obtain ⟨-, -, -, rfl⟩ := Table.createIndex_eq_ok_iff.mp hcreate
  refine SortedMap.ext fun name => ?_
  rw [Database.bare, SortedMap.get?_map, SortedMap.get?_insert, Database.bare, SortedMap.get?_map]
  split
  · rename_i hname
    rw [hname, hstored]
    rfl
  · rfl

/-- The table with the index and the table without it find the same rows, but for what the index
reveals. -/
theorem findAlike_insert (hsound : stored.Sound)
    (hstored : tables.get? stored.schema.name = some stored)
    (hcreate : stored.createIndex definition = .ok stored') :
    Selection.FindAlike (fun value => stored.Reveals definition → value ≠ .float .nan) tables
      (tables.insert stored'.schema.name stored') := by
  have hname : stored'.schema.name = stored.schema.name := by
    obtain ⟨-, -, -, rfl⟩ := Table.createIndex_eq_ok_iff.mp hcreate
    rfl
  intro source source' hbare htable htable' op column value hvalue hcolumn hcomparable
  have hscanned : source.bare.scanned = source'.bare.scanned := by rw [hbare]
  have hnickname : source.bare.nickname = source'.bare.nickname := by rw [hbare]
  change source.scanned = source'.scanned at hscanned
  change source.nickname = source'.nickname at hnickname
  rw [SortedMap.get?_insert] at htable'
  split at htable'
  · rename_i hown
    rw [hown, hname, hstored] at htable
    cases Option.some.inj htable
    rw [Option.some.inj htable'] at hcreate
    exact Source.find_createIndex hsound hcreate hscanned hcolumn hcomparable hvalue
  · have hsame : source = source' := by
      cases source
      cases source'
      cases hscanned
      cases hnickname
      cases Option.some.inj (htable.symm.trans htable')
      rfl
    rw [hsame]

end Database

namespace Store

variable {store : Store} {database table : String} {stored stored' : Table}
  {definition : IndexDefinition}

/-- What a selection gives of the tables of a database is not changed by a new index, but where the
index reveals what is not a number and this is looked for. -/
theorem answer_put (hsound : store.All Table.Sound) (hnamed : store.Named)
    (hholds : store.Holds database table stored)
    (hcreate : stored.createIndex definition = .ok stored') {selection : Selection}
    (hconstants : stored.Reveals definition → selection.AllConstants (· ≠ .float .nan))
    (name : String) :
    (store.database name >>= selection.answer) =
      (store.put database stored').database name >>= selection.answer := by
  have hstored := hsound database table stored hholds
  have hown := hnamed database table stored hholds
  have hnamed' : (store.put database stored').Named := by
    intro database' name' table' hholds'
    exact (holds_put hholds').elim (hnamed database' name' table') fun ⟨hname, htable⟩ =>
      htable ▸ hname
  obtain ⟨tables, htables, htable⟩ := hholds
  rw [hown] at htable
  by_cases hname : name = database
  · subst hname
    have htables' : (store.put name stored').databases.get? name =
        some (tables.insert stored'.schema.name stored') := by
      rw [put, htables, SortedMap.get?_insert, if_pos rfl, Option.getD_some]
    rw [database_eq_ok_iff.mpr htables, database_eq_ok_iff.mpr htables', ok_bind, ok_bind]
    refine Selection.answer_congr (Database.bare_insert htable hcreate).symm
      (fun name' table' h => hnamed name name' table' ⟨tables, htables, h⟩)
      (fun name' table' h => hnamed' name name' table' ⟨_, htables', h⟩)
      (Database.findAlike_insert hstored htable hcreate) fun text htext condition hread => ?_
    exact Condition.allConstants_imp fun hreveals => hconstants hreveals text htext condition hread
  · have hsame : (store.put database stored').databases.get? name = store.databases.get? name := by
      rw [put, SortedMap.get?_insert, if_neg hname]
    rw [Store.database, Store.database, hsame]

end Store

/-! ## Creating an index -/

theorem Storage.store_of_perform {α : Type} {storage storage' : Storage} {a : α}
    {result : Except Failure (α × Store)} {changes : DataDirectory → Store → List DiskChange}
    (h : storage.perform result changes = (.ok a, storage')) :
    result = .ok (a, storage'.store) := by
  unfold perform at h
  split at h
  · simp at h
  · split at h
    · obtain ⟨ha, rfl⟩ := Prod.mk.inj h
      rw [Except.ok.inj ha]
    · split at h
      · obtain ⟨ha, rfl⟩ := Prod.mk.inj h
        rw [Except.ok.inj ha]
      · simp at h

namespace Engine

variable {engine engine' : Engine} {session : SessionId} {database table : String}
  {definition : IndexDefinition} {answer : Answer}

theorem database_run (session : SessionId) (engine : Engine) :
    Work.database session engine =
      (match engine.currentDatabase? session with
      | some database => .ok database
      | none => .error (.error .noDatabase), engine) := by
  rw [Work.database, Work.ask_run]
  cases engine.currentDatabase? session <;> rfl

/-- Where an index is created, the store has one table in place of another. -/
theorem store_of_createIndex
    (h : (Statement.createIndex definition table).perform session engine = (.ok answer, engine')) :
    ∃ database stored stored', engine.currentDatabase? session = some database ∧
      engine.storage.store.Holds database table stored ∧
      stored.createIndex definition = .ok stored' ∧
      engine'.storage.store = engine.storage.store.put database stored' ∧
      engine'.sessions = engine.sessions ∧ engine'.mode = engine.mode := by
  rw [Statement.perform, Work.bind_run, database_run] at h
  cases hdatabase : engine.currentDatabase? session with
  | none =>
    simp only [hdatabase] at h
    cases (Prod.mk.inj h).1
  | some database =>
    simp only [hdatabase] at h
    rw [Work.bind_run, Work.storage] at h
    dsimp only at h
    split at h
    · rename_i u next hrun
      obtain ⟨hok, rfl⟩ := Prod.mk.inj hrun
      obtain ⟨-, rfl⟩ := Prod.mk.inj h
      have hresult := Storage.store_of_perform (Prod.ext hok rfl)
      simp only [Storage.unitResult, map_eq_ok_iff, lift_eq_ok_iff, Store.createIndex,
        bind_eq_ok_iff] at hresult
      obtain ⟨_, ⟨stored, hstored, stored', hcreate, hput⟩, heq⟩ := hresult
      refine ⟨database, stored, stored', rfl, Store.table_eq_ok_iff.mp hstored, hcreate, ?_, rfl, rfl⟩
      cases hput
      exact (Prod.mk.inj heq).2.symm
    · cases (Prod.mk.inj h).1

/-- What a selection gives of the tables of the database that a session uses. -/
def select (engine : Engine) (session : SessionId) (selection : Selection) : Except Error Answer :=
  match engine.currentDatabase? session with
  | some database => engine.storage.store.database database >>= selection.answer
  | none => .error .noDatabase

theorem perform_select (engine : Engine) (session : SessionId) (selection : Selection) :
    (Statement.select selection).perform session engine =
      (Failure.lift (engine.select session selection), engine) := by
  rw [Statement.perform, Work.bind_run, database_run, select]
  cases engine.currentDatabase? session with
  | none => rfl
  | some database => exact Work.ask_run _ engine

theorem answer_select (engine : Engine) (session : SessionId) (selection : Selection) :
    (engine.answer session (.select selection)).1 =
      .ok (match engine.select session selection with
        | .ok answer => answer
        | .error e => .ofError (e.message engine.mode)) := by
  rw [answer_eq, perform_select]
  cases engine.select session selection <;> rfl

/-- Selections are answered alike before and behind a new index: all of them, if the index reveals
nothing, and otherwise all that look for no constant that is not a number. Exactly if it reveals
nothing, all conditions on its table pick the same rows. -/
theorem answer_select_createIndex {start : Engine} (hengine : start.Reaches engine)
    (hstart : start.storage.store = .empty)
    (hcreate : (Statement.createIndex definition table).perform session engine =
      (.ok answer, engine')) :
    ∃ database stored stored', engine.currentDatabase? session = some database ∧
      engine.storage.store.Holds database table stored ∧
      engine'.storage.store.Holds database table stored' ∧
      (∀ session' selection,
        (stored.Reveals definition → selection.AllConstants (· ≠ .float .nan)) →
          (engine'.answer session' (.select selection)).1 =
            (engine.answer session' (.select selection)).1) ∧
      ((∀ condition, (Query.ofTable stored).evaluate condition =
          (Query.ofTable stored').evaluate condition) ↔ ¬ stored.Reveals definition) := by
  obtain ⟨database, stored, stored', hdatabase, hholds, hindex, hstore, hsessions, hmode⟩ :=
    store_of_createIndex hcreate
  have hsound := hengine.sound hstart
  have hnamed := hengine.named hstart
  refine ⟨database, stored, stored', hdatabase, hholds, ?_, fun session' selection hconstants => ?_,
    Query.evaluate_createIndex_iff (hsound database table stored hholds) hindex⟩
  · rw [hstore]
    obtain ⟨-, -, -, rfl⟩ := Table.createIndex_eq_ok_iff.mp hindex
    refine ⟨_, SortedMap.get?_insert_self _ _ _, ?_⟩
    have hname := hnamed database table stored hholds
    subst hname
    exact SortedMap.get?_insert_self _ _ _
  · have hselect : engine'.select session' selection = engine.select session' selection := by
      rw [select, select, currentDatabase?, currentDatabase?, hsessions, hstore]
      split
      · exact (Store.answer_put hsound hnamed hholds hindex hconstants _).symm
      · rfl
    rw [answer_select, answer_select, hselect, hmode]

/-- The difference of two numbers that are both too large for a float. -/
def nanText : List Char :=
  let huge := '1' :: List.replicate 400 '0' ++ ['.', '0']
  huge ++ " - ".toList ++ huge

/-- A script that leaves a table with a cell that is not a number. -/
def nanScript : List Char :=
  "CREATE DATABASE d; USE d; CREATE TABLE t (id INT PRIMARY KEY, f FLOAT);
   INSERT INTO t VALUES (1, ".toList ++ nanText ++ [')']

/-- The engine behind the script. -/
def nanEngine : Engine :=
  ((new .inMemory).execute defaultSession nanScript).2

theorem nanEngine_eq : nanEngine = behind nanScript := rfl

theorem reaches_nanEngine : (new .inMemory).Reaches nanEngine :=
  reaches_behind nanScript

/-- The rows whose cell equals what is not a number. -/
def nanSelection : Selection :=
  ⟨"id".toList, "t", none, [], some ("f = ".toList ++ nanText)⟩

/-- The index can be created, and a selection that looks for what is not a number has no row before
that, and one behind it. -/
theorem perform_createIndex_nanEngine : ∃ answer engine' before behind,
    nanEngine.currentDatabase? defaultSession = some "d" ∧
    (Statement.createIndex ⟨"i", ["f"], false⟩ "t").perform defaultSession nanEngine =
      (.ok answer, engine') ∧
    (nanEngine.answer defaultSession (.select nanSelection)).1 = .ok before ∧
    (engine'.answer defaultSession (.select nanSelection)).1 = .ok behind ∧
    before.error = none ∧ before.rows.length = 0 ∧ behind.rows.length = 1 := by
  have hrun : (nanEngine.currentDatabase? defaultSession == some "d" &&
      (((Statement.createIndex ⟨"i", ["f"], false⟩ "t").perform defaultSession
        nanEngine).1.toOption.any fun _ =>
          (nanEngine.answer defaultSession (.select nanSelection)).1.toOption.any fun before =>
            (((Statement.createIndex ⟨"i", ["f"], false⟩ "t").perform defaultSession
              nanEngine).2.answer defaultSession (.select nanSelection)).1.toOption.any fun behind =>
                before.error == none && before.rows.length == 0 && behind.rows.length == 1)) =
      true := by
    have hscript : nanScript = _ ++ nanText ++ [')'] :=
      congrArg (· ++ nanText ++ [')']) String.toList_ofList
    rewrite [nanEngine_eq, behind, hscript]
    decide +kernel
  simp only [Option.any_eq_true, toOption_eq_some_iff, Bool.and_eq_true, beq_iff_eq] at hrun
  obtain ⟨hdatabase, answer, hanswer, before, hbefore, behind, hbehind, ⟨herror, hnone⟩, hone⟩ := hrun
  exact ⟨answer, _, before, behind, hdatabase, eq_mk_of_fst hanswer, hbefore, hbehind, herror, hnone,
    hone⟩

theorem answer_select_createIndex_nanEngine : ∃ answer engine' stored stored',
    (Statement.createIndex ⟨"i", ["f"], false⟩ "t").perform defaultSession nanEngine =
      (.ok answer, engine') ∧
    nanEngine.storage.store.Holds "d" "t" stored ∧
    (∀ session selection,
      (stored.Reveals ⟨"i", ["f"], false⟩ → selection.AllConstants (· ≠ .float .nan)) →
        (engine'.answer session (.select selection)).1 =
          (nanEngine.answer session (.select selection)).1) ∧
    ((∀ condition, (Query.ofTable stored).evaluate condition =
        (Query.ofTable stored').evaluate condition) ↔
      ¬ stored.Reveals ⟨"i", ["f"], false⟩) := by
  obtain ⟨answer, engine', -, -, hdatabase, hcreate, -⟩ := perform_createIndex_nanEngine
  obtain ⟨database, stored, stored', hcurrent, hholds, -, hselect, hiff⟩ :=
    answer_select_createIndex reaches_nanEngine rfl hcreate
  cases Option.some.inj (hdatabase.symm.trans hcurrent)
  exact ⟨answer, engine', stored, stored', hcreate, hholds, hselect, hiff⟩

/-- A selection that looks for what is not a number has no row before an index is created, and one
behind it. -/
theorem answer_nanSelection_ne : ∃ answer engine' before behind,
    (Statement.createIndex ⟨"i", ["f"], false⟩ "t").perform defaultSession nanEngine =
      (.ok answer, engine') ∧
    (nanEngine.answer defaultSession (.select nanSelection)).1 = .ok before ∧
    (engine'.answer defaultSession (.select nanSelection)).1 = .ok behind ∧
    before.error = none ∧ before.rows.length = 0 ∧ behind.rows.length = 1 := by
  obtain ⟨answer, engine', before, behind, -, h⟩ := perform_createIndex_nanEngine
  exact ⟨answer, engine', before, behind, h⟩

end Engine

end Relational
