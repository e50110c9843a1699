import Relational.Proofs.Storage.Reopen

/-!
# Saving that is interrupted

A table is saved file by file: first its schema and rows, then its indexes in the order of their names.
Where this stops between two files, the directory has some files of the changed table and some of the
table before (`Table.partly`). It is read back as the rows of the one with the indexes of both
(`Table.mixed`): an index that has no file is built from the rows, but a file that is there is taken for
what it says. So each index is the one that would be built, except those that the operation changed and
whose files are still the old ones (`Storage.Reached.rebuilt_interrupted`). An index that is created is
never among them.
-/

namespace Relational

open DataDirectory (tableFileName indexFileName)
open Store (Operation)

/-! ## Two tables in one -/

namespace Table

variable {old new table : Table} {written : List String} {name : String}

/-- A table with its indexes under some names, and those of another under the others. -/
def mixed (old new : Table) (written : List String) : Table :=
  { new with indexes := new.indexes.map fun name index =>
      if name ∈ written then index else (old.indexes.get? name).getD index }

/-- What there are files of, once those of a table and of some of its indexes have been written over
those of another: the indexes of neither are missing. -/
def partly (old new : Table) (written : List String) : Table :=
  { old.mixed new written with indexes := (old.mixed new written).indexes.filter fun name _ =>
      name ∈ written || old.indexes.contains name }

theorem rebuilt_mixed : (old.mixed new written).rebuilt = new.rebuilt :=
  rebuilt_congr rfl rfl

theorem get?_mixed : (old.mixed new written).indexes.get? name =
    (new.indexes.get? name).map fun index =>
      if name ∈ written then index else (old.indexes.get? name).getD index :=
  SortedMap.get?_map _ _ _

/-- An index is the new one, where its file is written, and else the old one. -/
theorem get?_partly (hindexes : ∀ index, old.indexes.contains index = true →
      new.indexes.contains index = true) :
    (old.partly new written).indexes.get? name =
      if name ∈ written then new.indexes.get? name else old.indexes.get? name := by
  rw [partly]
  dsimp only
  rw [SortedMap.get?_filter, get?_mixed]
  by_cases hname : name ∈ written
  · cases new.indexes.get? name <;> simp [hname]
  · cases hold : old.indexes.get? name with
    | none => cases new.indexes.get? name <;> simp [hname, hold, SortedMap.contains]
    | some index =>
      obtain ⟨index', hnew⟩ := SortedMap.contains_iff.mp
        (hindexes name (SortedMap.contains_of_get? hold))
      simp [hname, hold, hnew, SortedMap.contains]

/-- An index that neither table has a file of is built as the new one. -/
theorem restored_partly (hindexes : ∀ index, old.indexes.contains index = true →
      new.indexes.contains index = true) (hnew : new.rebuilt = new) :
    (old.partly new written).restored = old.mixed new written := by
  have hrebuilt : (old.partly new written).rebuilt = new := (rebuilt_congr rfl rfl).trans hnew
  have hsame : (old.partly new written).restored.indexes = (old.mixed new written).indexes := by
    refine SortedMap.ext fun name => ?_
    rw [restored, hrebuilt]
    dsimp only
    rw [SortedMap.get?_map, get?_partly hindexes, get?_mixed]
    cases hindex : new.indexes.get? name with
    | none => rfl
    | some index =>
      rw [Option.map_some, Option.map_some]
      split
      · rfl
      · rfl
  calc (old.partly new written).restored
      = { old.mixed new written with indexes := (old.partly new written).restored.indexes } := rfl
    _ = old.mixed new written := by rw [hsame]

theorem contains_partly (hindexes : ∀ index, old.indexes.contains index = true →
      new.indexes.contains index = true) :
    (old.partly new written).indexes.contains name = true →
      new.indexes.contains name = true := by
  intro h
  rw [SortedMap.contains, get?_partly hindexes] at h
  split at h
  · exact h
  · exact hindexes name h

theorem IsKept.partly (hold : old.IsKept) (hnew : new.IsKept)
    (hindexes : ∀ index, old.indexes.contains index = true → new.indexes.contains index = true) :
    (old.partly new written).IsKept := by
  refine ⟨hnew.row, fun name index hindex => ?_⟩
  rw [get?_partly hindexes] at hindex
  split at hindex
  · exact hnew.index name index hindex
  · exact hold.index name index hindex

/-- Tables with the same indexes are mixed to the one of them. -/
theorem mixed_self : table.mixed table written = table := by
  have hindexes : (table.mixed table written).indexes = table.indexes := by
    refine SortedMap.ext fun name => ?_
    rw [get?_mixed]
    cases hindex : table.indexes.get? name <;> simp
  calc table.mixed table written
      = { table with indexes := (table.mixed table written).indexes } := rfl
    _ = table := by rw [hindexes]

/-- The files that are written first are the one of the rows and those of the first indexes. -/
theorem mem_take_files {file : String} {content : Content} {count : Nat} :
    (file, content) ∈ new.files.take (count + 1) ↔
      (file = tableFileName new.schema.name ∧
        content = ⟨fun _ => TableFile.encode ⟨new.schema, new.rows⟩⟩) ∨
      ∃ name ∈ new.indexes.keys.take count, ∃ index, new.indexes.get? name = some index ∧
        file = indexFileName new.schema.name name ∧ content = ⟨fun _ => IndexFile.encode index⟩ := by
  rw [Table.files, List.take_succ_cons, List.mem_cons, Prod.mk.injEq, ← List.map_take, List.mem_map,
    SortedMap.keys, ← List.map_take]
  refine or_congr_right ⟨?_, ?_⟩
  · rintro ⟨⟨name, index⟩, hmem, he⟩
    obtain ⟨hfile, hcontent⟩ := Prod.mk.inj he
    exact ⟨name, List.mem_map_of_mem hmem, index,
      SortedMap.mem_entries_iff.mp (List.mem_of_mem_take hmem), hfile.symm, hcontent.symm⟩
  · rintro ⟨name, hname, index, hindex, rfl, rfl⟩
    obtain ⟨⟨name, index'⟩, hmem, rfl⟩ := List.mem_map.mp hname
    have hindex' := SortedMap.mem_entries_iff.mp (List.mem_of_mem_take hmem)
    obtain rfl := Option.some.inj (hindex.symm.trans hindex')
    exact ⟨_, hmem, rfl⟩

/-- When `count` files of a table are written over those of another, the table has its new rows, the
file of the index is still the old one, and this is another index than the new one. -/
def IsStale (old new : Table) (count : Nat) (name : String) : Prop :=
  0 < count ∧ name ∉ new.indexes.keys.take (count - 1) ∧
    ∃ index, old.indexes.get? name = some index ∧ new.indexes.get? name ≠ some index

/-- The index that is read back is the new one if it is not stale. -/
theorem get?_mixed_eq_iff {count : Nat} (hindexes : ∀ index, old.indexes.contains index = true →
      new.indexes.contains index = true) :
    (old.mixed new (new.indexes.keys.take count)).indexes.get? name = new.indexes.get? name ↔
      ¬old.IsStale new (count + 1) name := by
  rw [get?_mixed, IsStale, Nat.add_sub_cancel]
  by_cases hname : name ∈ new.indexes.keys.take count
  · simp [hname]
  · cases hold : old.indexes.get? name with
    | none => simp [hname]
    | some index =>
      obtain ⟨index', hnew⟩ := SortedMap.contains_iff.mp
        (hindexes name (SortedMap.contains_of_get? hold))
      simp [hname, hnew, eq_comm]

end Table

namespace Store

variable {store : Store} {database : String} {table : Table}

theorem All.put {P : Table → Prop} (h : store.All P) (htable : P table) :
    (store.put database table).All P := by
  intro database' name table' hput
  rcases holds_put hput with hold | ⟨-, rfl⟩
  · exact h _ _ _ hold
  · exact htable

theorem restored_put :
    (store.put database table).restored = store.restored.put database table.restored := by
  refine ext_holds (fun name => ?_) fun database' name table' => ?_
  · rw [contains_restored, Bool.eq_iff_iff, contains_put, contains_put, contains_restored]
  · rw [holds_restored_iff, holds_put_iff]
    simp only [holds_put_iff, holds_restored_iff]
    constructor
    · rintro ⟨stored, ⟨hplace, hname, rfl⟩ | ⟨hne, hold⟩, rfl⟩
      · exact .inl ⟨hplace, hname, rfl⟩
      · exact .inr ⟨hne, stored, hold, rfl⟩
    · rintro (⟨hplace, hname, rfl⟩ | ⟨hne, stored, hold, rfl⟩)
      · exact ⟨table, .inl ⟨hplace, hname, rfl⟩, rfl⟩
      · exact ⟨stored, .inr ⟨hne, hold⟩, rfl⟩

theorem IsWorded.put (h : store.IsWorded) (hdatabase : store.databases.contains database = true)
    (htable : table.IsWorded) : (store.put database table).IsWorded := by
  refine ⟨fun name hname => ?_, h.table.put htable, fun database' name table' hput => ?_⟩
  · rcases contains_put.mp hname with rfl | hname
    · exact h.database name hdatabase
    · exact h.database name hname
  · rcases holds_put hput with hold | ⟨hname, rfl⟩
    · exact h.named _ _ _ hold
    · exact hname

/-- The store with a table of it in the state that its directory shows, when `count` files of the table
that it is changed to are written. -/
def interrupted (store : Store) (database : String) (old new : Table) : Nat → Store
  | 0 => store
  | written + 1 => store.put database (old.mixed new (new.indexes.keys.take written))

end Store

namespace DataDirectory

variable {directory : DataDirectory} {disk : Disk} {place : Place} {store : Store}
  {database name : String} {old new : Table} {count : Nat}

/-- A table that is written in part is mirrored as what there are files of. -/
theorem Mirrors.partly (h : directory.Mirrors place store) (hstore : store.IsWorded)
    (hold : store.Holds database new.schema.name old) (hnew : new.IsWorded)
    (hindexes : ∀ index, old.indexes.contains index = true → new.indexes.contains index = true)
    (happly : directory.disk.applyAll ((directory.writeTable database new).take (count + 1)) =
      (true, disk)) :
    { directory with disk }.Mirrors place
      (store.put database (old.partly new (new.indexes.keys.take count))) := by
  rw [writeTable_eq (hstore.database database hold.contains) hnew, ← List.map_take] at happly
  have hword : (old.partly new (new.indexes.keys.take count)).IsWorded :=
    ⟨hnew.name, fun name hname => hnew.index name (Table.contains_partly hindexes hname)⟩
  refine h.write hstore hold.contains hword (fun other hother index hindex => ?_)
    (fun head hmem => ?_) (fun file content hfile hnone => ?_) happly
  · obtain rfl := hother.unique hold
    rw [SortedMap.contains, Table.get?_partly hindexes]
    split
    · exact hindexes index hindex
    · exact hindex
  · obtain ⟨file, content⟩ := head
    rw [Table.mem_files_iff]
    refine (Table.mem_take_files.mp hmem).imp_right ?_
    rintro ⟨name, hname, index, hindex, rfl, rfl⟩
    exact ⟨name, index, by rw [Table.get?_partly hindexes, if_pos hname, hindex], rfl, rfl⟩
  · rcases Table.mem_files_iff.mp hfile with hfile | ⟨name, index, hindex, rfl, rfl⟩
    · exact (hnone (Table.mem_take_files.mpr (.inl hfile))).elim
    · rw [Table.get?_partly hindexes] at hindex
      split at hindex
      · rename_i hname
        exact absurd (Table.mem_take_files.mpr (.inr ⟨name, hname, index, hindex, rfl, rfl⟩)) hnone
      · refine .file hold (Table.mem_files_iff.mpr (.inr ⟨name, index, hindex, ?_, rfl⟩))
        rw [← hstore.named _ _ _ hold]
        rfl

end DataDirectory

/-! ## Every state of a directory -/

namespace Store

/-- The limits of the columns that the operation gives fit into 64 bits. -/
def Operation.Fits : Operation → Prop
  | .createTable _ schema => ∀ column ∈ schema.columns, column.type.Fits
  | _ => True

theorem Operation.Makes.fits {op : Operation} {table : Table} (h : op.Makes table) (hop : op.Fits) :
    ∀ column ∈ table.schema.columns, column.type.Fits := by
  cases h with
  | createTable database hkeys hfound =>
    rw [Table.schema_ofSchema]
    exact hop

end Store

namespace Storage

/-- The storage is what operations made of a directory that was empty. Names are words, limits of
columns fit into 64 bits, and no operation ended with an I/O error; the directory may have been opened
again when it kept all values. -/
inductive Reached (path : Path) : Storage → Prop
  | opened {disk : Disk} {place : Place} : disk.find? path = some place →
    disk.isDirectory place = true →
    (∀ name rest, disk.entries.get? (place ++ name :: rest) = none) →
      Reached path (.ofDirectory disk path)
  | after {storage : Storage} {op : Operation} : Reached path storage → op.IsWorded → op.Fits →
    storage.Spared op → Reached path (storage.after op)
  | reopened {storage : Storage} {disk : Disk} : Reached path storage →
    storage.directory = some ⟨disk, path⟩ → storage.store.All Table.IsKept →
      Reached path (.ofDirectory disk path)

/-- What is true of a storage that is reached. -/
structure Held (storage : Storage) (directory : DataDirectory) (place : Place) : Prop where
  usable : directory.path.isUsable = true
  mirrors : directory.Mirrors place storage.store
  worded : storage.store.IsWorded
  fits : storage.store.All fun table => ∀ column ∈ table.schema.columns, column.type.Fits
  coherent : storage.store.All Table.Coherent
  shaped : storage.store.All Table.Shaped

variable {storage : Storage} {path : Path} {directory : DataDirectory} {place : Place} {op : Operation}

theorem Held.rebuilt (h : storage.Held directory place) :
    storage.store.All fun table => table.rebuilt = table :=
  fun _ _ _ htable => (h.coherent _ _ _ htable).rebuilt_eq (h.shaped _ _ _ htable)

theorem Held.isReadable (h : storage.Held directory place)
    (hkept : storage.store.All Table.IsKept) : storage.store.All Table.IsReadable :=
  fun _ _ _ htable => (h.worded.table _ _ _ htable).isReadable (h.rebuilt _ _ _ htable)
    (hkept _ _ _ htable) (h.fits _ _ _ htable)

theorem Held.after (h : storage.Held directory place) (hdirectory : storage.directory = some directory)
    (hword : op.IsWorded) (hfits : op.Fits) (hspared : storage.Spared op) :
    ∃ disk, (storage.after op).directory = some { directory with disk } ∧
      (storage.after op).Held { directory with disk } place := by
  obtain ⟨disk, hdisk, hmirrors, hworded⟩ := h.mirrors.run hdirectory h.worded
    (List.forall_mem_singleton.mpr hword) ⟨hspared, trivial⟩
  refine ⟨disk, hdisk, h.usable, hmirrors, hworded, ?_, ?_, ?_⟩
  · rw [store_after]
    refine h.fits.after (fun _ hmakes => hmakes.fits hfits) fun _ _ hold hchanges => ?_
    rw [hchanges.columns]
    exact hold
  · rw [store_after]
    exact h.coherent.after (fun _ hmakes => hmakes.coherent)
      fun _ _ hold hchanges => hchanges.coherent hold
  · rw [store_after]
    exact h.shaped.after (fun _ hmakes => hmakes.shaped) fun _ _ hold hchanges => hchanges.shaped hold

/-- The storage of the directory is the same, if the directory keeps all values. -/
theorem Held.ofDirectory (h : storage.Held directory place)
    (hdirectory : storage.directory = some directory) (hkept : storage.store.All Table.IsKept) :
    Storage.ofDirectory directory.disk directory.path = storage := by
  rw [h.mirrors.ofDirectory h.usable h.worded (h.isReadable hkept), Store.restored_eq h.rebuilt,
    ← hdirectory]

theorem Reached.held (h : storage.Reached path) :
    ∃ disk place, storage.directory = some ⟨disk, path⟩ ∧ storage.Held ⟨disk, path⟩ place := by
  induction h with
  | opened hpath hdirectory hempty =>
    rename_i disk place
    rw [ofDirectory_of_empty hpath hdirectory hempty]
    exact ⟨disk, place, rfl, Disk.isUsable_of_find? hpath,
      DataDirectory.mirrors_empty hpath hdirectory hempty, Store.isWorded_empty, Store.all_empty,
      Store.all_empty, Store.all_empty⟩
  | after _ hword hfits hspared ih =>
    obtain ⟨disk, place, hdirectory, hheld⟩ := ih
    obtain ⟨disk', hdirectory', hheld'⟩ := hheld.after hdirectory hword hfits hspared
    exact ⟨disk', place, hdirectory', hheld'⟩
  | reopened _ hthere hkept ih =>
    obtain ⟨disk, place, hdirectory, hheld⟩ := ih
    rw [hthere, Option.some.injEq] at hdirectory
    obtain rfl := (DataDirectory.mk.inj hdirectory).1
    rw [hheld.ofDirectory hthere hkept]
    exact ⟨_, place, hthere, hheld⟩

theorem Reached.run {ops : List Operation} (h : storage.Reached path)
    (hops : ∀ op ∈ ops, op.IsWorded ∧ op.Fits) (hspared : storage.RunsSpared ops) :
    (storage.run ops).Reached path := by
  induction ops generalizing storage with
  | nil => exact h
  | cons op ops ih =>
    obtain ⟨⟨hword, hfits⟩, hops⟩ := List.forall_mem_cons.mp hops
    exact ih (h.after hword hfits hspared.1) hops hspared.2

/-- A table that an operation changes has the indexes that are built from its rows. -/
theorem Held.rebuilt_of_changes {database name : String} {old new : Table}
    (h : storage.Held directory place) (hold : storage.store.Holds database name old)
    (hchanges : op.Changes old new) : new.rebuilt = new :=
  (hchanges.coherent (h.coherent _ _ _ hold)).rebuilt_eq (hchanges.shaped (h.shaped _ _ _ hold))

/-- The directory behind the first of the files of a changed table is read back with this table in the
state that its files show. -/
theorem Held.ofDirectory_partly {database : String} {old new : Table} {disk : Disk} {written : Nat}
    (h : storage.Held directory place) (hop : op.IsWorded)
    (hold : storage.store.Holds database new.schema.name old) (hchanges : op.Changes old new)
    (hkept : storage.store.All Table.IsKept) (hnew : new.IsKept)
    (happly : directory.disk.applyAll ((directory.writeTable database new).take (written + 1)) =
      (true, disk)) :
    Storage.ofDirectory disk directory.path =
      ⟨storage.store.put database (old.mixed new (new.indexes.keys.take written)),
        some ⟨disk, directory.path⟩⟩ := by
  have hrebuilt := h.rebuilt_of_changes hold hchanges
  have hword := hchanges.isWorded hop (h.worded.table _ _ _ hold)
  have hindexes (index : String) (hindex : old.indexes.contains index = true) :
      new.indexes.contains index = true :=
    hchanges.contains hindex
  have hmirrors := h.mirrors.partly h.worded hold hword hindexes happly
  have hpartly : (old.partly new (new.indexes.keys.take written)).IsWorded :=
    ⟨hword.name, fun name hname => hword.index name (Table.contains_partly hindexes hname)⟩
  have hreadable : (old.partly new (new.indexes.keys.take written)).IsReadable := by
    refine ⟨(hkept _ _ _ hold).partly hnew hindexes, ?_, fun d hd => ?_⟩
    · exact hchanges.columns ▸ h.fits _ _ _ hold
    · exact hword.index _ (Table.contains_of_rebuilt hrebuilt hd)
  have hread := hmirrors.ofDirectory h.usable (h.worded.put hold.contains hpartly)
    ((h.isReadable hkept).put hreadable)
  rw [Store.restored_put, Store.restored_eq h.rebuilt, Table.restored_partly hindexes hrebuilt]
    at hread
  exact hread

/-- A directory in which saving stopped is read back as the store with the table in the state that
the directory shows. -/
theorem Held.ofDirectory_interrupted {database name : String} {old new : Table} {disk : Disk}
    {count : Nat} (h : storage.Held directory place) (hop : op.IsWorded)
    (htargets : op.Targets database name) (hold : storage.store.Holds database name old)
    (hchanges : op.Changes old new) (hkept : storage.store.All Table.IsKept) (hnew : new.IsKept)
    (happly : directory.disk.applyAll ((directory.changes storage.store
      (storage.store.put database new) op).take count) = (true, disk)) :
    Storage.ofDirectory disk directory.path =
      ⟨storage.store.interrupted database old new count, some ⟨disk, directory.path⟩⟩ := by
  have hnames : new.schema.name = name :=
    hchanges.schema_name.trans (h.worded.named _ _ _ hold).symm
  subst hnames
  have hsame {disk : Disk} (hdisk : disk = directory.disk) :
      Storage.ofDirectory disk directory.path = ⟨storage.store, some ⟨disk, directory.path⟩⟩ := by
    rw [hdisk, h.mirrors.ofDirectory h.usable h.worded (h.isReadable hkept),
      Store.restored_eq h.rebuilt]
  cases count with
  | zero =>
    rw [List.take_zero] at happly
    exact hsame (Prod.mk.inj happly).2.symm
  | succ written =>
    rw [Store.interrupted]
    have hput : (storage.store.put database new).Holds database new.schema.name new :=
      Store.holds_put_iff.mpr (.inl ⟨rfl, rfl, rfl⟩)
    rcases DataDirectory.changes_of_targets directory htargets hold hchanges hput with
      hwrite | ⟨hnone, rfl⟩
    · rw [hwrite] at happly
      exact h.ofDirectory_partly hop hold hchanges hkept hnew happly
    · rw [hnone, List.take_nil] at happly
      rw [Table.mixed_self, Store.put_of_holds hold]
      exact hsame (Prod.mk.inj happly).2.symm

/-- Wherever the saving of a table stops that was changed in memory, the directory is opened with all
databases, tables and rows, the table changed as soon as its first file is written. Every index is the
one that is built from the rows that are there, but for those of the table that are stale. None is if no
file or all are written, or if the change was to create an index. -/
theorem Reached.rebuilt_interrupted {database name : String} {store' : Store} {disk : Disk}
    {count : Nat} (h : storage.Reached path) (hdirectory : storage.directory = some directory)
    (hop : op.IsWorded) (htargets : op.Targets database name)
    (hresult : storage.store.result op = .ok store') (hkept : storage.store.All Table.IsKept)
    (hkept' : store'.All Table.IsKept)
    (happly : directory.disk.applyAll ((directory.changes storage.store store' op).take count) =
      (true, disk)) :
    ∃ old new, storage.store.Holds database name old ∧ store' = storage.store.put database new ∧
      Storage.ofDirectory disk path =
        ⟨storage.store.interrupted database old new count, some ⟨disk, path⟩⟩ ∧
      (∀ database' name' table,
        (storage.store.interrupted database old new count).Holds database' name' table →
        ∀ index, table.indexes.get? index = table.rebuilt.indexes.get? index ↔
          ¬(database' = database ∧ name' = name ∧ old.IsStale new count index)) ∧
      (count = 0 ∨ (directory.changes storage.store store' op).length ≤ count ∨
        (∃ definition, op = .createIndex database name definition) →
        ∀ index, ¬old.IsStale new count index) := by
  obtain ⟨disk₀, place, hthere, hheld⟩ := h.held
  rw [hdirectory, Option.some.injEq] at hthere
  subst hthere
  obtain ⟨old, new, hold, hchanges, rfl⟩ := Store.result_of_targets htargets hresult
  have hname : new.schema.name = name :=
    hchanges.schema_name.trans (hheld.worded.named _ _ _ hold).symm
  have hput : (storage.store.put database new).Holds database name new :=
    Store.holds_put_iff.mpr (.inl ⟨rfl, hname.symm, rfl⟩)
  have hindexes (index : String) (hindex : old.indexes.contains index = true) :
      new.indexes.contains index = true :=
    hchanges.contains hindex
  have hrebuilt : new.rebuilt = new :=
    (hchanges.coherent (hheld.coherent _ _ _ hold)).rebuilt_eq
      (hchanges.shaped (hheld.shaped _ _ _ hold))
  refine ⟨old, new, hold, rfl, hheld.ofDirectory_interrupted hop htargets hold hchanges hkept
    (hkept' _ _ _ hput) happly, fun database' name' table htable index => ?_, ?_⟩
  · cases count with
    | zero =>
      rw [hheld.rebuilt _ _ _ htable]
      simp [Table.IsStale]
    | succ written =>
      rcases Store.holds_put_iff.mp htable with ⟨rfl, rfl, rfl⟩ | ⟨hne, htable⟩
      · rw [Table.rebuilt_mixed, hrebuilt, Table.get?_mixed_eq_iff hindexes, ← hname]
        exact not_congr (by simp [Table.mixed])
      · rw [hheld.rebuilt _ _ _ htable]
        refine iff_of_true rfl fun hstale => hne ⟨hstale.1, ?_⟩
        rw [hstale.2.1, ← hname]
        rfl
  · rintro hcount index ⟨hpos, hwritten, stored, hstored, hother⟩
    rcases hcount with rfl | hlength | ⟨definition, rfl⟩
    · exact absurd hpos (Nat.lt_irrefl 0)
    · rcases DataDirectory.changes_of_targets ⟨disk₀, path⟩ htargets hold hchanges hput with
        hwrite | ⟨-, rfl⟩
      · have hmem : index ∈ new.indexes.keys := by
          obtain ⟨index', hnew⟩ := SortedMap.contains_iff.mp
            (hindexes index (SortedMap.contains_of_get? hstored))
          exact List.mem_map_of_mem (SortedMap.mem_entries_iff.mpr hnew)
        rw [hwrite, DataDirectory.writeTable, List.length_cons, List.length_map] at hlength
        refine hwritten ?_
        rwa [List.take_of_length_le]
        rw [SortedMap.keys, List.length_map]
        omega
      · exact hother hstored
    · refine hother ?_
      cases hchanges with
      | createIndex _ _ hcreate =>
        obtain ⟨hnone, -, -, rfl⟩ := Table.createIndex_eq_ok_iff.mp hcreate
        rw [SortedMap.get?_insert, if_neg, hstored]
        rintro rfl
        rw [SortedMap.contains_of_get? hstored] at hnone
        cases hnone

/-- Operations that leave a table with two indexes and a row. -/
def indexedRun : List Operation :=
  [.createDatabase "d",
    .createTable "d" ⟨"t", [⟨"id", .int, false, true, false⟩, ⟨"n", .int, true, false, false⟩],
      ["id"], []⟩,
    .createIndex "d" "t" ⟨"i", ["n"], false⟩, .createIndex "d" "t" ⟨"j", ["n"], false⟩,
    .insertRow "d" "t" (.ofList [("id", .int 0), ("n", .int 0)])]

/-- A row more, with another value under the indexed column. -/
def indexedRow : Operation :=
  .insertRow "d" "t" (.ofList [("id", .int 1), ("n", .int 1)])

def indexedStorage : Storage :=
  run (.ofDirectory ⟨SortedMap.empty.insert ["data"] .directory⟩ ⟨["data"]⟩) indexedRun

theorem reached_indexedStorage : indexedStorage.Reached ⟨["data"]⟩ := by
  have hempty (name : String) (rest : List String) : (SortedMap.empty.insert ["data"]
      DiskEntry.directory).get? (["data"] ++ name :: rest) = none := by
    rw [SortedMap.get?_insert, if_neg (by simp), SortedMap.get?_empty]
  have hword {name : String} (hne : name ≠ "") (h : name.toList.all isWordChar = true) :
      IsWord name :=
    ⟨hne, List.all_eq_true.mp h⟩
  have hplace : Disk.find? ⟨SortedMap.empty.insert ["data"] .directory⟩ ⟨["data"]⟩ =
      some ["data"] := by
    decide
  refine (Reached.opened hplace (by decide) hempty).run ?_ ?_
  · simp only [indexedRun, List.forall_mem_cons]
    refine ⟨⟨?_, trivial⟩, ⟨⟨?_, by rintro _ ⟨⟩⟩, ?_⟩, ⟨?_, trivial⟩, ⟨?_, trivial⟩,
      ⟨trivial, trivial⟩, by rintro _ ⟨⟩⟩
    · exact hword (by decide) (by decide)
    · exact hword (by decide) (by decide)
    · simp [Operation.Fits, ColumnType.Fits]
    · exact hword (by decide) (by decide)
    · exact hword (by decide) (by decide)
  · refine ⟨?_, ?_, ?_, ?_, ?_, trivial⟩
    all_goals exact spared_of_outcome (by decide)

/-- The table that is read back where the saving of the row stops, if it is saved up to there. -/
def indexedTable? (count : Nat) : Option Table := do
  let directory ← indexedStorage.directory
  let store' ← (indexedStorage.store.result indexedRow).toOption
  let changes := directory.changes indexedStorage.store store' indexedRow
  match directory.disk.applyAll (changes.take count) with
  | (true, disk) =>
    ((Storage.ofDirectory disk ⟨["data"]⟩).store.databases.get? "d").bind fun tables =>
      tables.get? "t"
  | (false, _) => none

theorem of_indexedTable? {count : Nat} {table : Table} (h : indexedTable? count = some table) :
    ∃ directory store' disk, indexedStorage.directory = some directory ∧
      indexedStorage.store.result indexedRow = .ok store' ∧
      directory.disk.applyAll
        ((directory.changes indexedStorage.store store' indexedRow).take count) = (true, disk) ∧
      (Storage.ofDirectory disk ⟨["data"]⟩).store.Holds "d" "t" table := by
  simp only [indexedTable?, Option.bind_eq_bind, Option.bind_eq_some_iff,
    toOption_eq_some_iff] at h
  obtain ⟨directory, hdirectory, store', hstore', h⟩ := h
  split at h
  · rename_i disk hdisk
    obtain ⟨tables, htables, htable⟩ := Option.bind_eq_some_iff.mp h
    exact ⟨directory, store', disk, hdirectory, hstore', hdisk, tables, htables, htable⟩
  · nomatch h

/-- Saving stops behind the file of the first index, and the second is stale. -/
theorem rebuilt_interrupted_indexedStorage : ∃ directory disk old new,
    indexedStorage.directory = some directory ∧ indexedStorage.store.Holds "d" "t" old ∧
    indexedStorage.store.result indexedRow = .ok (indexedStorage.store.put "d" new) ∧
    directory.disk.applyAll ((directory.changes indexedStorage.store
      (indexedStorage.store.put "d" new) indexedRow).take 2) = (true, disk) ∧
    Storage.ofDirectory disk ⟨["data"]⟩ =
      ⟨indexedStorage.store.interrupted "d" old new 2, some ⟨disk, ⟨["data"]⟩⟩⟩ ∧
    ¬old.IsStale new 2 "i" ∧ old.IsStale new 2 "j" := by
  have hrun : ((indexedTable? 2).any fun table =>
      table.indexes.get? "i" == table.rebuilt.indexes.get? "i" &&
        table.indexes.get? "j" != table.rebuilt.indexes.get? "j") = true := by
    decide +kernel
  simp only [Option.any_eq_true, Bool.and_eq_true, beq_iff_eq, bne_iff_ne] at hrun
  obtain ⟨table, htable, hi, hj⟩ := hrun
  obtain ⟨directory, store', disk, hdirectory, hstore', hdisk, hholds⟩ := of_indexedTable? htable
  have hkept' : store'.All Table.IsKept := by
    have hall : (indexedStorage.store.after indexedRow).All Table.IsKept := by decide
    rwa [Store.after, hstore'] at hall
  obtain ⟨old, new, hold, rfl, hread, hindex, -⟩ := reached_indexedStorage.rebuilt_interrupted
    hdirectory (show indexedRow.IsWorded from trivial) (.insertRow "d" "t" _) hstore'
    (by decide) hkept' hdisk
  rw [hread] at hholds
  refine ⟨directory, disk, old, new, hdirectory, hold, hstore', hdisk, hread, ?_, ?_⟩
  · exact fun hstale => (hindex _ _ _ hholds "i").mp hi ⟨rfl, rfl, hstale⟩
  · exact Classical.byContradiction fun hstale =>
      hj ((hindex _ _ _ hholds "j").mpr fun h => hstale h.2.2)

/-- Saving stops behind the file of the rows, and an index is read back without the new row. -/
theorem stale_indexedStorage : ∃ directory store' disk table,
    indexedStorage.Reached ⟨["data"]⟩ ∧ indexedStorage.directory = some directory ∧
    indexedStorage.store.result indexedRow = .ok store' ∧
    directory.disk.applyAll ((directory.changes indexedStorage.store store' indexedRow).take 1) =
      (true, disk) ∧
    (Storage.ofDirectory disk ⟨["data"]⟩).store.Holds "d" "t" table ∧
    (table.indexes.get? "i").map (·.entries) ≠
      (table.rebuilt.indexes.get? "i").map (·.entries) := by
  have hrun : ((indexedTable? 1).any fun table =>
      (table.indexes.get? "i").map (·.entries) !=
        (table.rebuilt.indexes.get? "i").map (·.entries)) = true := by
    decide +kernel
  simp only [Option.any_eq_true, bne_iff_ne] at hrun
  obtain ⟨table, htable, hstale⟩ := hrun
  obtain ⟨directory, store', disk, hdirectory, hstore', hdisk, hholds⟩ := of_indexedTable? htable
  exact ⟨directory, store', disk, table, reached_indexedStorage, hdirectory, hstore', hdisk, hholds,
    hstale⟩

end Storage

end Relational
