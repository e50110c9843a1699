import Relational.Proofs.Engine.Sound
import Relational.Proofs.Statement.Names
import Relational.Proofs.Storage.Reopen

/-!
# What is found again

An engine that keeps its storage in a directory writes all that it holds there: whatever scripts
leave behind on a directory that was empty, the storage of this directory is that of the engine
(`storage_reopened`), as long as no statement ended with an I/O error and the floats in the tables are
read back from what is written for them. An infinite one is not: it is written as a null.
-/

namespace Relational

open Store (Operation)

namespace Engine

theorem IsAsked.isWorded {op : Operation} (h : IsAsked op) : op.IsWorded := by
  obtain ⟨script, statement, hmem, hasks⟩ := h
  have hnamed : statement.IsNamed := by
    unfold statements at hmem
    split at hmem
    · rename_i batches hbatches
      exact Script.isNamed_of_batches hbatches hmem
    · simp at hmem
  cases hasks with
  | createDatabase name => exact hnamed
  | createTable database hschema =>
    obtain ⟨hdefined, rfl⟩ := Schema.defined_of_ofDefinition hschema
    exact ⟨hnamed, fun d hd => hdefined.isWord_index hnamed hd⟩
  | createIndex database table definition => exact hnamed
  | _ => exact trivial

/-- Every name that scripts can make is a word. -/
theorem Reaches.isWorded {start engine : Engine} (h : start.Reaches engine)
    (hstart : start.storage.store = .empty) : engine.storage.store.IsWorded := by
  obtain ⟨ops, hops, hstore⟩ := h.store
  rw [hstore, hstart]
  exact Store.isWorded_empty.run fun op hop => (hops op hop).isWorded

theorem ReachesSpared.reaches {start engine : Engine} (h : start.ReachesSpared engine) :
    start.Reaches engine := by
  induction h with
  | refl => exact .refl
  | execute session script _ _ ih => exact .execute session script ih
  | openSession _ ih => exact .openSession ih
  | closeSession session _ ih => exact .closeSession session ih
  | setMode mode _ ih => exact .setMode mode ih

variable {disk : Disk} {path : Path} {place : Place}

/-- On a directory that was empty, no script loses anything that it is not told of by an I/O error:
the storage that is read from the directory is the storage of the engine, with all databases, tables,
rows and indexes, if each float in it is read back from what is written for it. -/
theorem storage_reopened {engine : Engine} (hpath : disk.find? path = some place)
    (hdirectory : disk.isDirectory place = true)
    (hempty : ∀ name rest, disk.entries.get? (place ++ name :: rest) = none)
    (hengine : (new (.ofDirectory disk path)).ReachesSpared engine)
    (hkept : engine.storage.store.All Table.IsKept) :
    ∃ disk', engine.storage.directory = some ⟨disk', path⟩ ∧
      Storage.ofDirectory disk' path = engine.storage := by
  have hstart : (new (.ofDirectory disk path)).storage = ⟨.empty, some ⟨disk, path⟩⟩ :=
    Storage.ofDirectory_of_empty hpath hdirectory hempty
  have hsound := hengine.reaches.sound (by rw [hstart])
  obtain ⟨ops, hops, hstorage, hspared⟩ := hengine.storage
  rw [hstart] at hstorage hspared
  obtain ⟨disk', hdisk', hmirrors, hworded⟩ :=
    (DataDirectory.mirrors_empty hpath hdirectory hempty).run rfl Store.isWorded_empty
      (fun op hop => (hops op hop).isWorded) hspared
  have hrebuilt := Store.rebuilt_of_run ops
  have hstore : engine.storage.store = Store.empty.run ops := by rw [hstorage, Storage.store_run]
  rw [← hstore] at hrebuilt
  rw [← hstorage] at hdisk' hmirrors hworded
  refine ⟨disk', hdisk', ?_⟩
  have hread := hmirrors.ofDirectory (Disk.isUsable_of_find? hpath) hworded
    fun database name table h => (hworded.table _ _ _ h).isReadable (hrebuilt _ _ _ h)
      (hkept _ _ _ h) fun column hcolumn => ((hsound _ _ _ h).fits column hcolumn).2
  rw [hread, Store.restored_eq hrebuilt, ← hdisk']

/-- A disk with one directory and nothing in it. -/
def dataDisk : Disk := ⟨SortedMap.empty.insert ["data"] .directory⟩

/-- The engine that keeps a table with an index in the directory; the table has one row, with a float. -/
def floatEngine (float : List Char) : Engine :=
  ((new (.ofDirectory dataDisk ⟨["data"]⟩)).execute defaultSession (floatScript float)).2
where
  floatScript (float : List Char) : List Char :=
    "CREATE DATABASE d; USE d; CREATE TABLE t (id INT PRIMARY KEY, f FLOAT);
     CREATE INDEX i ON t (f); INSERT INTO t VALUES (1, ".toList ++ float ++ [')']

theorem reachesSpared_floatEngine {float : List Char}
    (h : (new (.ofDirectory dataDisk ⟨["data"]⟩)).spares defaultSession
      (statements (floatEngine.floatScript float)) = true) :
    (new (.ofDirectory dataDisk ⟨["data"]⟩)).ReachesSpared (floatEngine float) := by
  rw [floatEngine]
  exact .execute defaultSession _ .refl h

set_option maxRecDepth 1000 in
theorem storage_reopened_floatEngine : ∃ disk',
    (floatEngine "2.5".toList).storage.directory = some ⟨disk', ⟨["data"]⟩⟩ ∧
    Storage.ofDirectory disk' ⟨["data"]⟩ = (floatEngine "2.5".toList).storage ∧
    ((floatEngine "2.5".toList).storage.store.databases.get? "d").map SortedMap.keys = some ["t"] := by
  have hfind : dataDisk.find? ⟨["data"]⟩ = some ["data"] := by decide
  have hempty (name : String) (rest : List String) :
      dataDisk.entries.get? (["data"] ++ name :: rest) = none := by
    rw [dataDisk, SortedMap.get?_insert, if_neg (by simp), SortedMap.get?_empty]
  have hscript : floatEngine.floatScript "2.5".toList = _ ++ "2.5".toList ++ [')'] :=
    congrArg (· ++ "2.5".toList ++ [')']) String.toList_ofList
  have hspares : (new (.ofDirectory dataDisk ⟨["data"]⟩)).spares defaultSession
      (statements (floatEngine.floatScript "2.5".toList)) = true := by
    rewrite [hscript]
    decide +kernel
  have hrun : (floatEngine "2.5".toList).storage.store.All Table.IsKept ∧
      ((floatEngine "2.5".toList).storage.store.databases.get? "d").map SortedMap.keys =
        some ["t"] := by
    rewrite [floatEngine, hscript]
    decide +kernel
  obtain ⟨disk', hdisk', hsame⟩ :=
    storage_reopened hfind (by decide) hempty (reachesSpared_floatEngine hspares) hrun.1
  exact ⟨disk', hdisk', hsame, hrun.2⟩

/-- A number that is too large for a float. -/
def hugeText : List Char := '1' :: List.replicate 400 '0' ++ ['.', '0']

set_option maxRecDepth 1000 in
/-- No statement ends with an I/O error, and yet the table is lost: its float is infinite. -/
theorem lost_hugeText : ∃ disk',
    (new (.ofDirectory dataDisk ⟨["data"]⟩)).ReachesSpared (floatEngine hugeText) ∧
    (floatEngine hugeText).storage.directory = some ⟨disk', ⟨["data"]⟩⟩ ∧
    ((floatEngine hugeText).storage.store.databases.get? "d").map SortedMap.keys = some ["t"] ∧
    ((Storage.ofDirectory disk' ⟨["data"]⟩).store.databases.get? "d").map SortedMap.keys =
      some [] := by
  have hscript : floatEngine.floatScript hugeText = _ ++ hugeText ++ [')'] :=
    congrArg (· ++ hugeText ++ [')']) String.toList_ofList
  have hspares : (new (.ofDirectory dataDisk ⟨["data"]⟩)).spares defaultSession
      (statements (floatEngine.floatScript hugeText)) = true := by
    rewrite [hscript]
    decide +kernel
  have hrun : ((floatEngine hugeText).storage.directory.any fun directory =>
      directory.path == ⟨["data"]⟩ &&
        ((floatEngine hugeText).storage.store.databases.get? "d").map SortedMap.keys == some ["t"] &&
        ((Storage.ofDirectory directory.disk ⟨["data"]⟩).store.databases.get? "d").map
          SortedMap.keys == some []) = true := by
    rewrite [floatEngine, hscript]
    decide +kernel
  simp only [Option.any_eq_true, Bool.and_eq_true, beq_iff_eq] at hrun
  obtain ⟨⟨disk', path⟩, hdirectory, ⟨hpath, hbefore⟩, hbehind⟩ := hrun
  cases hpath
  exact ⟨disk', reachesSpared_floatEngine hspares, hdirectory, hbefore, hbehind⟩

end Engine

end Relational
