import Relational.Proofs.Engine.Sound
import Relational.Proofs.Store.Insertion

/-!
# Statements that fail

A statement that fails leaves an engine in memory as it was. Work that asks questions first and does
one operation then keeps the engine where it fails (`Work.Keeps`), and so does every statement but an
insertion: its rows are read before any of them goes in, and those before the first that is refused
stay in the table (`Work.insertRows_error`). `Engine.answer_failed` says both of every state that
scripts can reach.
-/

namespace Relational

/-! ## Work that fails -/

namespace Work

variable {α β : Type}

/-- Where the work fails, it leaves an engine in memory as it was. -/
def Keeps (work : Work α) : Prop :=
  ∀ engine failure engine', engine.storage.directory = none →
    work engine = (.error failure, engine') → engine' = engine

/-- The work does not fail. -/
def Succeeds (work : Work α) : Prop :=
  ∀ engine, ∃ a engine', work engine = (.ok a, engine')

/-- What the work comes to, if it does not fail, has a property. -/
def Yields (work : Work α) (P : α → Prop) : Prop :=
  ∀ engine a engine', work engine = (.ok a, engine') → P a

theorem bind_eq_error_iff {work : Work α} {f : α → Work β} {engine engine' : Engine}
    {failure : Failure} : (work >>= f) engine = (.error failure, engine') ↔
      work engine = (.error failure, engine') ∨
        ∃ a between, work engine = (.ok a, between) ∧ f a between = (.error failure, engine') := by
  rw [bind_run]
  split
  · rename_i a between he
    rw [he]
    exact ⟨fun h => .inr ⟨a, between, rfl, h⟩, fun h => h.elim nofun fun ⟨_, _, h, h'⟩ => by
      cases h; exact h'⟩
  · rename_i failure' between he
    rw [he]
    exact ⟨fun h => .inl (by cases h; rfl), fun h => h.elim (fun h => by cases h; rfl) nofun⟩

theorem bind_eq_ok_iff {work : Work α} {f : α → Work β} {engine engine' : Engine} {b : β} :
    (work >>= f) engine = (.ok b, engine') ↔
      ∃ a between, work engine = (.ok a, between) ∧ f a between = (.ok b, engine') := by
  rw [bind_run]
  split
  · rename_i a between he
    rw [he]
    exact ⟨fun h => ⟨a, between, rfl, h⟩, fun ⟨_, _, h, h'⟩ => by cases h; exact h'⟩
  · rename_i failure between he
    rw [he]
    exact ⟨nofun, nofun⟩

theorem succeeds_pure (a : α) : Succeeds (pure a : Work α) :=
  fun engine => ⟨a, engine, rfl⟩

theorem succeeds_sessions_bind {f : Sessions → Sessions} {k : Unit → Work β}
    (h : (k ()).Succeeds) : (Work.sessions f >>= k).Succeeds := by
  intro engine
  rw [bind_run]
  exact h { engine with sessions := f engine.sessions }

theorem Succeeds.keeps {work : Work α} (h : work.Succeeds) : work.Keeps := by
  intro engine failure engine' _ hwork
  obtain ⟨a, last, hsuccess⟩ := h engine
  rw [hsuccess] at hwork
  nomatch hwork

theorem keeps_throw (failure : Failure) : Keeps (throw failure : Work α) := by
  intro engine failure' engine' _ h
  exact (Prod.mk.inj h).2.symm

theorem keeps_ask_bind {question : Engine → Except Error α} {f : α → Work β}
    (h : ∀ a, (f a).Keeps) : (Work.ask question >>= f).Keeps := by
  intro engine failure engine' hmemory hwork
  rw [bind_run, ask_run] at hwork
  cases hanswer : question engine with
  | ok a =>
    rw [hanswer] at hwork
    exact h a engine failure engine' hmemory hwork
  | error e =>
    rw [hanswer] at hwork
    exact (Prod.mk.inj hwork).2.symm

/-- An operation keeps a storage in memory where it fails. -/
theorem keeps_storage_bind {operation : Storage → Except Failure α × Storage} {f : α → Work β}
    (hoperation : ∀ storage failure storage', storage.directory = none →
      operation storage = (.error failure, storage') → storage' = storage)
    (hf : ∀ a, (f a).Succeeds) : (Work.storage operation >>= f).Keeps := by
  intro engine failure engine' hmemory hwork
  rcases bind_eq_error_iff.mp hwork with hfirst | ⟨a, between, -, hsecond⟩
  · have hstorage : operation engine.storage = (.error failure, engine'.storage) := by
      rw [← (Prod.mk.inj hfirst).1, ← (Prod.mk.inj hfirst).2]
    have hsame := hoperation _ _ _ hmemory hstorage
    have hengine : engine' = { engine with storage := engine'.storage } := by
      rw [← (Prod.mk.inj hfirst).2]
    rw [hengine, hsame]
  · obtain ⟨b, last, hsuccess⟩ := hf a between
    rw [hsuccess] at hsecond
    nomatch hsecond

theorem yields_pure {P : α → Prop} {a : α} (h : P a) : Yields (pure a : Work α) P := by
  intro engine b engine' hwork
  cases hwork
  exact h

theorem yields_bind {P : β → Prop} {work : Work α} {f : α → Work β} (h : ∀ a, (f a).Yields P) :
    (work >>= f).Yields P := by
  intro engine b engine' hwork
  obtain ⟨a, between, -, hrest⟩ := bind_eq_ok_iff.mp hwork
  exact h a between b engine' hrest

theorem yields_ask {P : α → Prop} {question : Engine → Except Error α}
    (h : ∀ engine a, question engine = .ok a → P a) : (Work.ask question).Yields P := by
  intro engine a engine' hwork
  rw [ask_run] at hwork
  exact h engine a (lift_eq_ok_iff.mp (Prod.mk.inj hwork).1)

end Work

/-- In memory, an operation has the result and the store of its first part. -/
theorem Storage.perform_of_memory {α : Type} {storage : Storage} (h : storage.directory = none)
    (result : Except Failure (α × Store)) (changes : DataDirectory → Store → List DiskChange) :
    storage.perform result changes =
      match result with
      | .error failure => (.error failure, storage)
      | .ok (a, store) => (.ok a, ⟨store, none⟩) := by
  obtain ⟨store, directory⟩ := storage
  obtain rfl : directory = none := h
  rfl

theorem Storage.perform_error {α : Type} {storage storage' : Storage} {failure : Failure}
    {result : Except Failure (α × Store)} {changes : DataDirectory → Store → List DiskChange}
    (h : storage.directory = none)
    (hperform : storage.perform result changes = (.error failure, storage')) :
    storage' = storage := by
  rw [perform_of_memory h] at hperform
  split at hperform
  · exact (Prod.mk.inj hperform).2.symm
  · nomatch hperform

/-- Where an insertion fails, the rows before the one that is refused went in. -/
theorem Work.insertRows_error {database table : String} {rows : List Row} {engine engine' : Engine}
    {failure : Failure} (hmemory : engine.storage.directory = none)
    (h : Work.insertRows database table rows engine = (.error failure, engine')) :
    ∃ before row behind store', rows = before ++ row :: behind ∧
      engine.storage.store.insertAll database table before = .ok store' ∧
      store'.insertRow database table row = .error failure ∧
      engine' = { engine with storage := ⟨store', none⟩ } := by
  induction rows generalizing engine with
  | nil => cases h
  | cons row rows ih =>
    rw [Work.insertRows, bind_eq_error_iff] at h
    rw [Work.storage, Storage.insertRow, Storage.perform_of_memory hmemory] at h
    cases hinsert : engine.storage.store.insertRow database table row with
    | error failure' =>
      rw [hinsert] at h
      obtain he | ⟨_, _, he, -⟩ := h
      · obtain ⟨hfailure, hengine⟩ := Prod.mk.inj he
        cases hfailure
        refine ⟨[], row, rows, engine.storage.store, rfl, rfl, hinsert, ?_⟩
        rw [← hengine, ← hmemory]
      · cases he
    | ok result =>
      obtain ⟨id, store⟩ := result
      rw [hinsert] at h
      obtain he | ⟨_, between, he, hrest⟩ := h
      · cases he
      · obtain ⟨-, rfl⟩ := Prod.mk.inj he
        obtain ⟨before, refused, behind, store', hrows, hbefore, hrefused, hlast⟩ := ih rfl hrest
        refine ⟨row :: before, refused, behind, store', by rw [hrows]; rfl, ?_, hrefused, hlast⟩
        rw [Store.insertAll, hinsert]
        exact hbefore

/-! ## Statements -/

theorem Selection.isError_answer {selection : Selection} {tables : Database} {answer : Answer}
    (h : selection.answer tables = .ok answer) : answer.isError = false := by
  rw [Selection.answer] at h
  split at h
  · nomatch h
  · simp only [bind_eq_ok_iff] at h
    obtain ⟨query, -, projection, -, rows, -, cells, -, h⟩ := h
    rw [← Except.ok.inj h]
    rfl

namespace Statement

/-- The answer to a statement that does not fail has no error. -/
theorem yields_perform (session : SessionId) (statement : Statement) :
    (statement.perform session).Yields fun answer => answer.isError = false := by
  cases statement with
  | createDatabase name => exact Work.yields_bind fun _ => Work.yields_pure rfl
  | dropDatabase name =>
    exact Work.yields_bind fun _ => Work.yields_bind fun _ => Work.yields_pure rfl
  | use name => exact Work.yields_bind fun _ => Work.yields_bind fun _ => Work.yields_pure rfl
  | createTable name definition =>
    exact Work.yields_bind fun _ => Work.yields_bind fun _ => Work.yields_bind fun _ =>
      Work.yields_pure rfl
  | dropTable name => exact Work.yields_bind fun _ => Work.yields_bind fun _ => Work.yields_pure rfl
  | createIndex definition table =>
    exact Work.yields_bind fun _ => Work.yields_bind fun _ => Work.yields_pure rfl
  | insert table columns texts =>
    refine Work.yields_bind fun _ => ?_
    have hrows (database : String) (names : List String) : Work.Yields (do
        let rows ← Work.ask fun _ => Row.readAll names texts
        Work.insertRows database table rows
        return Answer.ofCount rows.length) fun answer => answer.isError = false :=
      Work.yields_bind fun _ => Work.yields_bind fun _ => Work.yields_pure rfl
    cases columns with
    | some names => exact hrows _ names
    | none => exact Work.yields_bind fun names => hrows _ names
  | delete table condition =>
    exact Work.yields_bind fun _ => Work.yields_bind fun _ => Work.yields_bind fun _ =>
      Work.yields_pure rfl
  | select selection =>
    refine Work.yields_bind fun database => Work.yields_ask fun engine answer h => ?_
    obtain ⟨tables, -, hanswer⟩ := bind_eq_ok_iff.mp h
    exact selection.isError_answer hanswer
  | faulty kind fault =>
    intro engine answer engine' h
    nomatch h

/-- Whether the statement inserts rows. -/
def isInsert : Statement → Bool
  | insert .. => true
  | _ => false

/-- Every statement but an insertion leaves an engine in memory as it was where it fails. -/
theorem keeps_perform (session : SessionId) {statement : Statement}
    (h : statement.isInsert = false) : (statement.perform session).Keeps := by
  cases statement with
  | createDatabase name =>
    exact Work.keeps_storage_bind (fun _ _ _ hmemory => Storage.perform_error hmemory) fun _ =>
      Work.succeeds_pure _
  | dropDatabase name =>
    exact Work.keeps_storage_bind (fun _ _ _ hmemory => Storage.perform_error hmemory) fun _ =>
      Work.succeeds_sessions_bind (Work.succeeds_pure _)
  | use name =>
    refine Work.keeps_ask_bind fun _ => Work.Succeeds.keeps ?_
    exact Work.succeeds_sessions_bind (Work.succeeds_pure _)
  | createTable name definition =>
    exact Work.keeps_ask_bind fun _ => Work.keeps_ask_bind fun _ =>
      Work.keeps_storage_bind (fun _ _ _ hmemory => Storage.perform_error hmemory) fun _ =>
        Work.succeeds_pure _
  | dropTable name =>
    exact Work.keeps_ask_bind fun _ =>
      Work.keeps_storage_bind (fun _ _ _ hmemory => Storage.perform_error hmemory) fun _ =>
        Work.succeeds_pure _
  | createIndex definition table =>
    exact Work.keeps_ask_bind fun _ =>
      Work.keeps_storage_bind (fun _ _ _ hmemory => Storage.perform_error hmemory) fun _ =>
        Work.succeeds_pure _
  | insert table columns texts => nomatch h
  | delete table condition =>
    exact Work.keeps_ask_bind fun _ => Work.keeps_ask_bind fun _ =>
      Work.keeps_storage_bind (fun _ _ _ hmemory => Storage.perform_error hmemory) fun _ =>
        Work.succeeds_pure _
  | select selection =>
    refine Work.keeps_ask_bind fun database engine failure engine' _ h => ?_
    rw [Work.ask_run] at h
    exact (Prod.mk.inj h).2.symm
  | faulty kind fault => exact Work.keeps_throw _

end Statement

namespace Engine

/-- The columns that an insertion goes by: those that it lists, or all of the table. -/
def insertionColumns (engine : Engine) (database table : String) :
    Option (List String) → Except Error (List String)
  | some names => .ok names
  | none => do return (← engine.storage.store.table database table).schema.columnNames

/-- The database and the rows of an insertion, once all of them have been read. -/
def readInsertion (engine : Engine) (session : SessionId) (table : String)
    (columns : Option (List String)) (texts : List (List Char)) :
    Except Error (String × List Row) :=
  match engine.currentDatabase? session with
  | none => .error .noDatabase
  | some database => do
    let names ← engine.insertionColumns database table columns
    let rows ← Row.readAll names texts
    return (database, rows)

/-- The database, the table and the rows that a statement is about to insert: those of an insertion
that could be read. -/
def insertion? (engine : Engine) (session : SessionId) : Statement → Option (String × String × List Row)
  | .insert table columns texts =>
    (engine.readInsertion session table columns texts).toOption.map fun (database, rows) =>
      (database, table, rows)
  | _ => none

variable {engine engine' : Engine} {session : SessionId} {answer : Answer}

theorem perform_insert (table : String) (columns : Option (List String)) (texts : List (List Char)) :
    (Statement.insert table columns texts).perform session engine =
      match engine.readInsertion session table columns texts with
      | .error e => (.error (.error e), engine)
      | .ok (database, rows) =>
        (do
          Work.insertRows database table rows
          return Answer.ofCount rows.length : Work Answer) engine := by
  have hrows (database : String) (names : List String) : (do
      let rows ← Work.ask fun _ => Row.readAll names texts
      Work.insertRows database table rows
      return Answer.ofCount rows.length : Work Answer) engine =
        match (do let rows ← Row.readAll names texts; return (database, rows)) with
        | .error e => (.error (.error e), engine)
        | .ok (database, rows) =>
          (do
            Work.insertRows database table rows
            return Answer.ofCount rows.length : Work Answer) engine := by
    rw [Work.bind_run, Work.ask_run]
    cases Row.readAll names texts <;> rfl
  rw [Statement.perform, Work.bind_run, Work.database, Work.ask_run, readInsertion]
  cases engine.currentDatabase? session with
  | none => rfl
  | some database =>
    cases columns with
    | some names => exact hrows database names
    | none =>
      change (Work.ask _ >>= _) engine = _
      rw [Work.bind_run, Work.ask_run]
      dsimp only [insertionColumns]
      cases engine.storage.store.table database table with
      | error e => rfl
      | ok stored => exact hrows database stored.schema.columnNames

theorem answer_eq_ok {statement : Statement}
    (h : engine.answer session statement = (.ok answer, engine')) :
    statement.perform session engine = (.ok answer, engine') ∨
      ∃ e, statement.perform session engine = (.error (.error e), engine') ∧
        answer = .ofError (e.message engine'.mode) := by
  rw [answer_eq] at h
  split at h
  · rename_i he
    cases h
    exact .inl he
  · rename_i e _ he
    cases h
    exact .inr ⟨e, he, rfl⟩
  · nomatch h

theorem Reaches.directory {start : Engine} (h : start.Reaches engine)
    (hstart : start.storage.directory = none) : engine.storage.directory = none := by
  obtain ⟨ops, -, hstorage⟩ := h.storage
  rw [hstorage, Storage.directory_run hstart]

/-- In every state that scripts can reach in memory, a statement that is answered with an error leaves
the engine as it was, all sessions included, unless it is an insertion whose rows could all be read:
then the table has exactly the rows before the first that is refused in addition. -/
theorem answer_failed {statement : Statement} (hengine : (new .inMemory).Reaches engine)
    (hanswer : engine.answer session statement = (.ok answer, engine'))
    (herror : answer.isError = true) :
    match engine.insertion? session statement with
    | none => engine' = engine
    | some (database, table, rows) =>
      ∃ before row behind store' e, rows = before ++ row :: behind ∧
        engine.storage.store.insertAll database table before = .ok store' ∧
        store'.insertRow database table row = .error (.error e) ∧
        answer = .ofError (e.message engine.mode) ∧
        engine' = { engine with storage := ⟨store', none⟩ } ∧
        engine.storage.store.Gains database table before store' := by
  have hmemory := hengine.directory rfl
  obtain hperform | ⟨e, hperform, rfl⟩ := answer_eq_ok hanswer
  · have hnone := statement.yields_perform session engine answer engine' hperform
    rw [hnone] at herror
    nomatch herror
  · cases hinsert : statement.isInsert with
    | false =>
      have hkept := statement.keeps_perform session hinsert engine _ _ hmemory hperform
      cases statement with
      | insert => nomatch hinsert
      | _ => exact hkept
    | true =>
      cases statement with
      | insert table columns texts =>
        rw [perform_insert] at hperform
        rw [insertion?]
        cases hread : engine.readInsertion session table columns texts with
        | error e' =>
          rw [hread] at hperform
          exact (Prod.mk.inj hperform).2.symm
        | ok read =>
          obtain ⟨database, rows⟩ := read
          rw [hread] at hperform
          dsimp only at hperform
          obtain hrows | ⟨_, between, -, hlast⟩ := Work.bind_eq_error_iff.mp hperform
          · obtain ⟨before, row, behind, store', hsplit, hbefore, hrefused, rfl⟩ :=
              Work.insertRows_error hmemory hrows
            have hcoherent : engine.storage.store.All Table.Coherent := fun database name table h =>
              (hengine.sound rfl database name table h).coherent
            exact ⟨before, row, behind, store', e, hsplit, hbefore, hrefused, rfl, rfl,
              Store.gains_insertAll (hengine.named rfl) hcoherent hbefore⟩
          · nomatch hlast
      | _ => nomatch hinsert

/-- A script that leaves a table with one row and a unique column. -/
def refusingScript : List Char :=
  "CREATE DATABASE d; USE d; CREATE TABLE t (id INT PRIMARY KEY, v INT UNIQUE);
   INSERT INTO t VALUES (1, 1)".toList

/-- The engine behind the script. -/
def refusingEngine : Engine :=
  ((new .inMemory).execute defaultSession refusingScript).2

theorem refusingEngine_eq : refusingEngine = behind refusingScript := rfl

theorem reaches_refusingEngine : (new .inMemory).Reaches refusingEngine :=
  reaches_behind refusingScript

/-- An insertion of three rows, of which the second repeats a value of the unique column. -/
def refusedInsertion : Statement :=
  .insert "t" none ["2, 2".toList, "3, 1".toList, "4, 4".toList]

theorem answer_refusedInsertion : ∃ answer engine' rows before row behind store' e,
    refusingEngine.answer defaultSession refusedInsertion = (.ok answer, engine') ∧
    refusingEngine.insertion? defaultSession refusedInsertion = some ("d", "t", rows) ∧
    rows.length = 3 ∧ rows = before ++ row :: behind ∧
    refusingEngine.storage.store.insertAll "d" "t" before = .ok store' ∧
    store'.insertRow "d" "t" row = .error (.error e) ∧
    answer = .ofError (e.message refusingEngine.mode) ∧
    engine' = { refusingEngine with storage := ⟨store', none⟩ } ∧
    refusingEngine.storage.store.Gains "d" "t" before store' ∧
    ((store'.databases.get? "d").bind (·.get? "t")).map (·.rows.size) = some 2 := by
  have hrun : ((refusingEngine.answer defaultSession refusedInsertion).1.toOption.any fun answer =>
      answer.isError && (refusingEngine.insertion? defaultSession refusedInsertion).any
        fun (database, table, rows) => database == "d" && table == "t" && rows.length == 3 &&
          (((refusingEngine.answer defaultSession refusedInsertion).2.storage.store.databases.get?
            "d").bind (·.get? "t")).map (·.rows.size) == some 2) = true := by
    have hscript : refusingScript = _ := String.toList_ofList
    rewrite [refusingEngine_eq, behind, hscript]
    decide +kernel
  simp only [Option.any_eq_true, toOption_eq_some_iff, Bool.and_eq_true, beq_iff_eq] at hrun
  obtain ⟨answer, hanswer, herror, ⟨_, _, rows⟩, hinsertion, ⟨⟨rfl, rfl⟩, hlength⟩, hsize⟩ := hrun
  have hfailed := answer_failed reaches_refusingEngine (eq_mk_of_fst hanswer) herror
  rw [hinsertion] at hfailed
  obtain ⟨before, row, behind, store', e, hrows, hbefore, hrefused, hworded, hengine, hgains⟩ :=
    hfailed
  rw [hengine] at hsize
  exact ⟨answer, _, rows, before, row, behind, store', e, eq_mk_of_fst hanswer, hinsertion, hlength,
    hrows, hbefore, hrefused, hworded, hengine, hgains, hsize⟩

end Engine

end Relational
