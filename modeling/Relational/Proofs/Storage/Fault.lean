import Relational.Proofs.Storage.Operation

/-!
# Faults of a disk

Any look at a disk and any change of it can fail, at any time. For this an operation is taken with the
changes and the calls that make them left open (`Storage.attempt`), and reading a directory is taken
with what it finds left open (`Store.gather`); operations and `Storage.load` are cases of these
(`Storage.attempt_apply`, `Storage.loadFrom_findings`).

An operation is first done on the store. If the store refuses it, then nothing is changed; but what a
fault of the disk stops is done on the store, and stays there. What was held before a load is gone
whether the load fails or not: behind a failure there is what was read before it
(`Storage.state_of_failure`).
-/

namespace Relational

open Store (Operation)

/-! ## Changes that fail -/

/-- Makes changes by calls, up to the first call that fails. Each call is told how many changes are
left behind it, so that calls for one change may end in different ways. -/
def Disk.applyAllBy (calls : Nat → Disk → DiskChange → Bool × Disk) (disk : Disk) :
    List DiskChange → Bool × Disk
  | [] => (true, disk)
  | change :: changes =>
    match calls changes.length disk change with
    | (true, disk) => disk.applyAllBy calls changes
    | (false, disk) => (false, disk)

theorem Disk.applyAllBy_apply (disk : Disk) (changes : List DiskChange) :
    disk.applyAllBy (fun _ => Disk.apply) changes = disk.applyAll changes := by
  induction changes generalizing disk with
  | nil => rfl
  | cons change changes ih =>
    rw [applyAllBy, applyAll]
    cases disk.apply change with
    | mk made next =>
      cases made with
      | true => exact ih next
      | false => rfl

namespace Storage

/-- Carries out an operation on the store, and then changes of the disk by calls that may fail. -/
def attempt (storage : Storage) (calls : Nat → Disk → DiskChange → Bool × Disk)
    (changes : DataDirectory → Store → List DiskChange) (op : Operation) :
    Except Failure Unit × Storage :=
  match storage.store.result op with
  | .error e => (.error e, storage)
  | .ok store =>
    match storage.directory with
    | none => (.ok (), ⟨store, none⟩)
    | some directory =>
      match directory.disk.applyAllBy calls (changes directory store) with
      | (true, disk) => (.ok (), ⟨store, some { directory with disk }⟩)
      | (false, disk) => (.error (.error .io), ⟨store, some { directory with disk }⟩)

variable {storage : Storage} {calls : Nat → Disk → DiskChange → Bool × Disk}
  {changes : DataDirectory → Store → List DiskChange} {op : Operation} {failure : Failure}

theorem attempt_of_error {e : Failure} (h : storage.store.result op = .error e) :
    storage.attempt calls changes op = (.error e, storage) := by
  rw [attempt, h]

theorem attempt_of_ok {store : Store} (h : storage.store.result op = .ok store) :
    storage.attempt calls changes op =
      match storage.directory with
      | none => (.ok (), ⟨store, none⟩)
      | some directory =>
        match directory.disk.applyAllBy calls (changes directory store) with
        | (true, disk) => (.ok (), ⟨store, some { directory with disk }⟩)
        | (false, disk) => (.error (.error .io), ⟨store, some { directory with disk }⟩) := by
  rw [attempt, h]

/-- How an operation ends, and what is behind it, when its changes are made as the disk makes them. -/
theorem perform_eq_attempt {α : Type} {result : Except Failure (α × Store)}
    (h : storage.store.result op = result.map (·.2)) :
    ((storage.perform result changes).1.map (fun _ => ()), (storage.perform result changes).2) =
      storage.attempt (fun _ => Disk.apply) changes op := by
  cases result with
  | error e =>
    rw [attempt_of_error h]
    rfl
  | ok done =>
    rw [attempt_of_ok h, perform]
    cases storage.directory with
    | none => rfl
    | some directory =>
      dsimp only
      rw [Disk.applyAllBy_apply]
      cases directory.disk.applyAll (changes directory done.2) with
      | mk all disk => cases all <;> rfl

/-- Operations are attempts with the changes that they make, made as the disk makes them. -/
theorem attempt_apply (storage : Storage) (op : Operation) :
    storage.attempt (fun _ => Disk.apply)
      (fun directory store => directory.changes storage.store store op) op =
      (storage.outcome op, storage.after op) := by
  have hunit {op : Operation} {result : Except Error Store}
      (h : storage.store.result op = Failure.lift result) :
      storage.store.result op = (unitResult result).map (·.2) := by
    rw [h]
    cases result <;> rfl
  cases op with
  | insertRow database table row => exact (perform_eq_attempt rfl).symm
  | deleteRows database table ids =>
    have hresult : storage.store.result (.deleteRows database table ids) =
        (Failure.lift (storage.store.deleteRows database table ids)).map (·.2) := by
      rw [Store.result]
      cases storage.store.deleteRows database table ids <;> rfl
    rw [outcome, after, deleteRows, perform_eq_attempt hresult]
    congr 1
    funext directory store
    rw [DataDirectory.changes]
    cases storage.store.deleteRows database table ids <;> rfl
  | _ => exact (perform_eq_attempt (hunit rfl)).symm

/-- An attempt that fails changed nothing, as the store refused it, or the store has all of it and
the disk does not. -/
theorem attempt_error (h : (storage.attempt calls changes op).1 = .error failure) :
    storage.store.result op = .error failure ∧ (storage.attempt calls changes op).2 = storage ∨
      failure = .error .io ∧
        storage.store.result op = .ok (storage.attempt calls changes op).2.store := by
  cases hresult : storage.store.result op with
  | error e =>
    rw [attempt_of_error hresult] at h ⊢
    exact .inl ⟨congrArg _ (Except.error.inj h), rfl⟩
  | ok store =>
    rw [attempt_of_ok hresult] at h ⊢
    split at h
    · nomatch h
    · split at h
      · nomatch h
      · exact .inr ⟨(Except.error.inj h).symm, rfl⟩

end Storage

/-! ## Reading that fails -/

/-- What is met in a directory: a database, a table of one, or what cannot be read. -/
inductive Finding where
  | database (name : String)
  | table (database : String) (table : Table)
  | failed (error : Error)

/-- Takes findings into a store, up to the first that cannot be read. -/
def Store.gather (store : Store) : List Finding → Except Error Unit × Store
  | [] => (.ok (), store)
  | .database name :: findings => Store.gather ⟨store.databases.insert name .empty⟩ findings
  | .table database table :: findings => (store.put database table).gather findings
  | .failed e :: _ => (.error e, store)

theorem Store.gather_append (store : Store) (findings more : List Finding) :
    store.gather (findings ++ more) =
      match store.gather findings with
      | (.ok (), store) => store.gather more
      | (.error e, store) => (.error e, store) := by
  induction findings generalizing store with
  | nil => rfl
  | cons finding findings ih =>
    cases finding with
    | failed e => rfl
    | _ => exact ih _

/-- Findings that are not all taken in end at one that cannot be read; those before it are there. -/
theorem Store.gather_error {store behind : Store} {findings : List Finding} {e : Error}
    (h : store.gather findings = (.error e, behind)) :
    ∃ before rest, findings = before ++ .failed e :: rest ∧
      store.gather before = (.ok (), behind) := by
  induction findings generalizing store with
  | nil => nomatch h
  | cons finding findings ih =>
    cases finding with
    | failed e' =>
      cases h
      exact ⟨[], findings, rfl, rfl⟩
    | database name =>
      obtain ⟨before, rest, rfl, hbefore⟩ := ih h
      exact ⟨.database name :: before, rest, rfl, hbefore⟩
    | table database table =>
      obtain ⟨before, rest, rfl, hbefore⟩ := ih h
      exact ⟨.table database table :: before, rest, rfl, hbefore⟩

namespace DataDirectory

/-- What a file of a database is met as; a file of no table is passed by. -/
def tableFinding? (directory : DataDirectory) (database : String) :
    String × DiskEntry → Option Finding
  | (name, .file content) =>
    if isTableFile name then
      match directory.readTable database (content.bytes ()) with
      | .ok table => some (.table database table)
      | .error e => some (.failed e)
    else none
  | (_, .directory) => none

/-- What an entry of the directory is met as; a file is passed by. -/
def databaseFindings (directory : DataDirectory) : String × DiskEntry → List Finding
  | (name, .directory) =>
    .database name :: ((directory.disk.children? (directory.databasePath name)).getD []).filterMap
      (directory.tableFinding? name)
  | (_, .file _) => []

/-- What is met in a directory, if no look at the disk fails but those that the disk refuses. -/
def findings (directory : DataDirectory) : List Finding :=
  if !directory.disk.hasEntry directory.path then []
  else match directory.disk.children? directory.path with
    | none => [.failed .io]
    | some entries => entries.flatMap directory.databaseFindings

variable {directory : DataDirectory}

theorem readTables_eq_gather (database : String) (store : Store)
    (entries : List (String × DiskEntry)) :
    directory.readTables database store entries =
      store.gather (entries.filterMap (directory.tableFinding? database)) := by
  induction entries generalizing store with
  | nil => rfl
  | cons head entries ih =>
    obtain ⟨name, entry⟩ := head
    rw [List.filterMap_cons]
    cases entry with
    | directory => exact ih store
    | file content =>
      rw [readTables, tableFinding?]
      by_cases hname : isTableFile name = true
      · rw [if_pos hname, if_pos hname]
        cases directory.readTable database (content.bytes ()) with
        | error e => rfl
        | ok table => exact ih _
      · rw [if_neg hname, if_neg hname]
        exact ih store

theorem readDatabases_eq_gather (store : Store) (entries : List (String × DiskEntry)) :
    directory.readDatabases store entries =
      store.gather (entries.flatMap directory.databaseFindings) := by
  induction entries generalizing store with
  | nil => rfl
  | cons head entries ih =>
    obtain ⟨name, entry⟩ := head
    rw [List.flatMap_cons]
    cases entry with
    | file content => exact ih store
    | directory =>
      rw [readDatabases, databaseFindings, List.cons_append, Store.gather, Store.gather_append,
        ← readTables_eq_gather]
      cases directory.readTables name ⟨store.databases.insert name .empty⟩
          ((directory.disk.children? (directory.databasePath name)).getD []) with
      | mk result store =>
        cases result with
        | ok _ => exact ih store
        | error e => rfl

theorem read_eq_gather (directory : DataDirectory) :
    directory.read = Store.empty.gather directory.findings := by
  rw [read, findings]
  split
  · rfl
  · cases directory.disk.children? directory.path with
    | none => rfl
    | some entries => exact readDatabases_eq_gather _ _

end DataDirectory

namespace Storage

variable {storage : Storage} {calls : Nat → Disk → DiskChange → Bool × Disk}
  {changes : DataDirectory → Store → List DiskChange} {op : Operation} {failure : Failure}

/-- Reads the storage's directory anew, with what is met there. -/
def loadFrom (storage : Storage) (findings : DataDirectory → List Finding) :
    Except Failure Unit × Storage :=
  match storage.directory with
  | none => (.ok (), storage)
  | some directory =>
    let (result, store) := Store.empty.gather (findings directory)
    (Failure.lift result, ⟨store, directory⟩)

theorem loadFrom_findings (storage : Storage) :
    storage.loadFrom DataDirectory.findings = storage.load := by
  rw [loadFrom, load]
  cases storage.directory with
  | none => rfl
  | some directory =>
    dsimp only
    rw [DataDirectory.read_eq_gather]

/-- Behind a load that fails there is what was met before the failure. -/
theorem loadFrom_error {findings : DataDirectory → List Finding}
    (h : (storage.loadFrom findings).1 = .error failure) :
    ∃ directory before e rest, storage.directory = some directory ∧ failure = .error e ∧
      findings directory = before ++ .failed e :: rest ∧
      Store.empty.gather before = (.ok (), (storage.loadFrom findings).2.store) ∧
      (storage.loadFrom findings).2.directory = some directory := by
  unfold loadFrom at h ⊢
  cases hdirectory : storage.directory with
  | none =>
    rw [hdirectory] at h
    nomatch h
  | some directory =>
    rw [hdirectory] at h
    dsimp only at h ⊢
    cases hgather : Store.empty.gather (findings directory) with
    | mk result store =>
      rw [hgather] at h
      cases result with
      | ok done => nomatch h
      | error e =>
        obtain ⟨before, rest, hfindings, hbefore⟩ := Store.gather_error hgather
        exact ⟨directory, before, e, rest, rfl, (Except.error.inj h).symm, hfindings, hbefore, rfl⟩

/-- Whatever calls of the disk fail, and however they fail: an operation that ends with an error
changed nothing, if it is the store's own, or else it is an I/O error and the store is the one that
the operation makes when it succeeds; and what a load that ends with an error leaves behind is what
it read before that. The operations and the load of storages are cases of this. -/
theorem state_of_failure (storage : Storage) (failure : Failure) :
    (∀ calls changes op, (storage.attempt calls changes op).1 = .error failure →
      storage.store.result op = .error failure ∧ (storage.attempt calls changes op).2 = storage ∨
        failure = .error .io ∧
          storage.store.result op = .ok (storage.attempt calls changes op).2.store) ∧
    (∀ findings, (storage.loadFrom findings).1 = .error failure →
      ∃ directory before e rest, storage.directory = some directory ∧ failure = .error e ∧
        findings directory = before ++ .failed e :: rest ∧
        Store.empty.gather before = (.ok (), (storage.loadFrom findings).2.store) ∧
        (storage.loadFrom findings).2.directory = some directory) ∧
    (∀ op, storage.attempt (fun _ => Disk.apply)
      (fun directory store => directory.changes storage.store store op) op =
        (storage.outcome op, storage.after op)) ∧
    storage.loadFrom DataDirectory.findings = storage.load :=
  ⟨fun _ _ _ => attempt_error, fun _ => loadFrom_error, attempt_apply storage,
    loadFrom_findings storage⟩

/-- The storage of a directory in which there is a file under the name of a database, and another
database with a table that cannot be read. -/
def takenStorage : Storage :=
  .ofDirectory ⟨((((SortedMap.empty.insert ["data"] .directory).insert ["data", "d"]
    (.file (.ofBytes []))).insert ["data", "e"] .directory).insert ["data", "e", "t.json"]
      (.file (.ofBytes [])))⟩ ⟨["data"]⟩

theorem state_of_failure_takenStorage :
    (takenStorage.createDatabase "d").1 = .error (.error .io) ∧
    takenStorage.store.result (.createDatabase "d") =
      .ok (takenStorage.createDatabase "d").2.store ∧
    takenStorage.load.1 = .error (.error .serialization) ∧
    ∃ before, Store.empty.gather before = (.ok (), takenStorage.load.2.store) := by
  have hcreate : takenStorage.outcome (.createDatabase "d") = .error (.error .io) := by
    decide +kernel
  have hload : takenStorage.load.1 = .error (.error .serialization) := by decide +kernel
  obtain ⟨hop, -, hattempt, -⟩ := takenStorage.state_of_failure (.error .io)
  obtain ⟨-, hread, -, hfindings⟩ := takenStorage.state_of_failure (.error .serialization)
  refine ⟨by decide +kernel, ?_, hload, ?_⟩
  · rcases hop _ _ (.createDatabase "d") (by rw [hattempt]; exact hcreate) with
      ⟨hrefused, -⟩ | ⟨-, hdone⟩
    · exact absurd hrefused (by decide +kernel)
    · rw [hattempt] at hdone
      exact hdone
  · obtain ⟨-, before, -, -, -, -, -, hbefore, -⟩ :=
      hread DataDirectory.findings (by rw [hfindings]; exact hload)
    rw [hfindings] at hbefore
    exact ⟨before, hbefore⟩

/-- A database whose directory cannot be made is there all the same: the operation ends with an I/O
error, and yet the names of the databases are others. -/
theorem databaseNames_takenStorage :
    (takenStorage.createDatabase "d").1 = .error (.error .io) ∧
    takenStorage.store.databaseNames = ["e"] ∧
    (takenStorage.createDatabase "d").2.store.databaseNames = ["d", "e"] := by
  decide +kernel

end Storage

end Relational
