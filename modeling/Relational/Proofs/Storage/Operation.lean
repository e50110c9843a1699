import Relational.Proofs.Store.Operation
import Relational.Storage

/-!
# Runs of storages

The operations of stores on storages. What becomes of the store does not depend on the disk
(`store_after`, `store_run`), and a storage in memory stays in memory. An operation that leaves a
store behind makes changes of the disk (`DataDirectory.changes`), and is spared an I/O error if all
of them can be made (`Storage.Spared`).
-/

namespace Relational

open Store (Operation)

/-- The changes of the disk that an operation makes, with the store before and behind it. -/
def DataDirectory.changes (directory : DataDirectory) (before after : Store) :
    Operation → List DiskChange
  | .createDatabase name => [.makeDirectory (directory.databasePath name)]
  | .dropDatabase name => directory.removeDatabase name
  | .createTable database schema => Storage.writeTable database schema.name directory after
  | .dropTable database table => directory.removeTable database table
  | .createIndex database table _ => Storage.writeTable database table directory after
  | .insertRow database table _ => Storage.writeTable database table directory after
  | .deleteRows database table ids =>
    match before.deleteRows database table ids with
    | .ok (count, _) =>
      if 0 < count then Storage.writeTable database table directory after else []
    | .error _ => []

namespace Storage

/-- The storage behind an operation, which may have failed. -/
def after (storage : Storage) : Operation → Storage
  | .createDatabase name => (storage.createDatabase name).2
  | .dropDatabase name => (storage.dropDatabase name).2
  | .createTable database schema => (storage.createTable database schema).2
  | .dropTable database table => (storage.dropTable database table).2
  | .createIndex database table definition => (storage.createIndex database table definition).2
  | .insertRow database table row => (storage.insertRow database table row).2
  | .deleteRows database table ids => (storage.deleteRows database table ids).2

/-- How an operation ends. -/
def outcome (storage : Storage) : Operation → Except Failure Unit
  | .createDatabase name => (storage.createDatabase name).1.map fun _ => ()
  | .dropDatabase name => (storage.dropDatabase name).1.map fun _ => ()
  | .createTable database schema => (storage.createTable database schema).1.map fun _ => ()
  | .dropTable database table => (storage.dropTable database table).1.map fun _ => ()
  | .createIndex database table definition =>
    (storage.createIndex database table definition).1.map fun _ => ()
  | .insertRow database table row => (storage.insertRow database table row).1.map fun _ => ()
  | .deleteRows database table ids => (storage.deleteRows database table ids).1.map fun _ => ()

/-- The storage behind operations, one after the other. -/
def run (storage : Storage) (ops : List Operation) : Storage :=
  ops.foldl after storage

variable {storage : Storage}

theorem run_append (ops more : List Operation) :
    storage.run (ops ++ more) = (storage.run ops).run more :=
  List.foldl_append

/-! ## Changes of the disk -/

/-- All changes of the disk that an operation makes can be made. -/
def Spared (storage : Storage) (op : Operation) : Prop :=
  ∀ directory store, storage.directory = some directory → storage.store.result op = .ok store →
    (directory.disk.applyAll (directory.changes storage.store store op)).1 = true

/-- Each of the operations is spared an I/O error. -/
def RunsSpared (storage : Storage) : List Operation → Prop
  | [] => True
  | op :: ops => storage.Spared op ∧ (storage.after op).RunsSpared ops

theorem runsSpared_append {ops more : List Operation} :
    storage.RunsSpared (ops ++ more) ↔
      storage.RunsSpared ops ∧ (storage.run ops).RunsSpared more := by
  induction ops generalizing storage with
  | nil => exact (and_iff_right trivial).symm
  | cons op ops ih =>
    rw [List.cons_append, RunsSpared, RunsSpared, ih, and_assoc]
    rfl

theorem perform_snd {α : Type} (result : Except Failure (α × Store))
    (changes : DataDirectory → Store → List DiskChange) :
    (storage.perform result changes).2 =
      match result with
      | .error _ => storage
      | .ok (_, store) => ⟨store, storage.directory.map fun directory =>
          { directory with disk := (directory.disk.applyAll (changes directory store)).2 }⟩ := by
  obtain e | ⟨a, store⟩ := result
  · rfl
  · obtain ⟨before, directory⟩ := storage
    cases directory with
    | none => rfl
    | some directory =>
      cases hdisk : directory.disk.applyAll (changes directory store) with
      | mk all disk => cases all <;> simp only [perform, hdisk, Option.map_some]

theorem applyAll_of_perform {α : Type} {result : Except Failure (α × Store)}
    {changes : DataDirectory → Store → List DiskChange}
    (h : (storage.perform result changes).1 ≠ .error (.error .io)) {directory : DataDirectory}
    {a : α} {store : Store} (hdirectory : storage.directory = some directory)
    (hresult : result = .ok (a, store)) :
    (directory.disk.applyAll (changes directory store)).1 = true := by
  subst hresult
  unfold perform at h
  simp only [hdirectory] at h
  split at h
  · rename_i hdisk
    rw [hdisk]
  · exact absurd rfl h

theorem perform_unitResult_snd (result : Except Error Store)
    (changes : DataDirectory → Store → List DiskChange) :
    (storage.perform (unitResult result) changes).2 =
      match Failure.lift result with
      | .error _ => storage
      | .ok store => ⟨store, storage.directory.map fun directory =>
          { directory with disk := (directory.disk.applyAll (changes directory store)).2 }⟩ := by
  rw [perform_snd]
  cases result <;> rfl

/-- The storage behind an operation: the store behind it, and what its changes make of the disk. -/
theorem after_eq (storage : Storage) (op : Operation) :
    storage.after op =
      match storage.store.result op with
      | .error _ => storage
      | .ok store => ⟨store, storage.directory.map fun directory =>
          { directory with
            disk := (directory.disk.applyAll (directory.changes storage.store store op)).2 }⟩ := by
  cases op with
  | insertRow database table row =>
    rw [after, insertRow, perform_snd, Store.result]
    cases storage.store.insertRow database table row <;> rfl
  | deleteRows database table ids =>
    rw [after, deleteRows]
    simp only [perform_snd, Store.result, DataDirectory.changes]
    cases storage.store.deleteRows database table ids <;> rfl
  | _ => exact perform_unitResult_snd _ _

theorem store_after (op : Operation) : (storage.after op).store = storage.store.after op := by
  rw [after_eq, Store.after]
  cases storage.store.result op <;> rfl

theorem store_run (ops : List Operation) : (storage.run ops).store = storage.store.run ops := by
  induction ops generalizing storage with
  | nil => rfl
  | cons op ops ih =>
    rw [run, List.foldl_cons, ← run, ih, store_after]
    rfl

/-- A storage in memory stays there. -/
theorem directory_run (h : storage.directory = none) (ops : List Operation) :
    (storage.run ops).directory = none := by
  induction ops generalizing storage with
  | nil => exact h
  | cons op ops ih =>
    rw [run, List.foldl_cons, ← run]
    refine ih ?_
    rw [after_eq]
    split
    · exact h
    · rw [h, Option.map_none]

/-- An operation that does not end with an I/O error is spared one. -/
theorem spared_of_outcome {op : Operation} (h : storage.outcome op ≠ .error (.error .io)) :
    storage.Spared op := by
  have hmap {α : Type} {x : Except Failure α} (hx : x.map (fun _ => ()) ≠ .error (.error .io)) :
      x ≠ .error (.error .io) := by
    rintro rfl
    exact hx rfl
  have hunit {result : Except Error Store} {store : Store} (hresult : Failure.lift result = .ok store) :
      unitResult result = .ok ((), store) := by
    rw [unitResult, hresult, map_ok]
  intro directory store hdirectory hresult
  cases op with
  | insertRow database table row =>
    obtain ⟨⟨id, store⟩, hinsert, rfl⟩ := map_eq_ok_iff.mp hresult
    exact applyAll_of_perform (hmap h) hdirectory hinsert
  | deleteRows database table ids =>
    rw [Store.result, lift_eq_ok_iff] at hresult
    obtain ⟨⟨count, store⟩, hdelete, rfl⟩ := map_eq_ok_iff.mp hresult
    have hall := applyAll_of_perform (hmap h) hdirectory (lift_eq_ok_iff.mpr hdelete)
    simpa only [DataDirectory.changes, hdelete] using hall
  | _ => exact applyAll_of_perform (hmap h) hdirectory (hunit hresult)

end Storage

end Relational
