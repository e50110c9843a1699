import Relational.Proofs.Disk.Change
import Relational.Proofs.Storage.Entry
import Relational.Proofs.Storage.Operation

/-!
# Disks that mirror stores

A directory of a disk mirrors a store (`DataDirectory.Mirrors`) if what is below it is what the store
has there. An operation that is spared an I/O error leaves a mirror behind it (`Mirrors.result`), and so
does a run of them (`Mirrors.run`): a table that is put into the store has all its files written, and
what is dropped has its files removed. Two facts carry this: the files of different tables have
different names, and no operation takes an index from a table.
-/

namespace Relational

open DataDirectory (tableFileName indexFileName isFileOf)
open Store (Operation)

namespace DataDirectory

variable {directory : DataDirectory} {disk : Disk} {place : Place} {store : Store}
  {database name : String} {table : Table}

/-- What is below the directory is what the store has there, and the disk takes the paths to it. -/
structure Mirrors (directory : DataDirectory) (place : Place) (store : Store) : Prop where
  reaches : directory.disk.Reaches directory.path.stem place
  entry (name : String) (rest : List String) (entry : DiskEntry) :
    directory.disk.entries.get? (place ++ name :: rest) = some entry ↔
      store.HasEntry (name :: rest) entry
  usable (rest : List String) (entry : DiskEntry) : store.HasEntry rest entry →
    Path.isUsable ⟨directory.path.stem ++ rest⟩ = true

/-! ## Paths -/

theorem databasePath_eq (hname : IsWord database) :
    directory.databasePath database = ⟨directory.path.stem ++ [database]⟩ := by
  rw [databasePath, Path.join_ofText _ hname.isPlain.noSlash]

theorem filePath_eq {file : String} (hname : IsWord database) (hfile : Path.IsPlain file) :
    (directory.databasePath database).join (.ofText file) =
      ⟨directory.path.stem ++ [database] ++ [file]⟩ := by
  rw [databasePath_eq hname, Path.join_ofText _ hfile.noSlash, Path.stem_mk hname.isPlain]

/-- The path of a database of the store leads to its directory. -/
theorem Mirrors.reaches_database (h : directory.Mirrors place store)
    (hname : IsWord database) (hdatabase : store.databases.contains database = true) :
    directory.disk.Reaches (directory.path.stem ++ [database]) (place ++ [database]) :=
  h.reaches.append hname.isPlain ((h.entry database [] .directory).mpr (.database hdatabase))

theorem Mirrors.find?_database (h : directory.Mirrors place store)
    (hname : IsWord database) (hdatabase : store.databases.contains database = true) :
    directory.disk.find? (directory.databasePath database) = some (place ++ [database]) := by
  have husable := h.usable [database] .directory (.database hdatabase)
  rw [databasePath_eq hname, Disk.find?_mk husable]
  exact (h.reaches_database hname hdatabase).leads.walk

/-- What is new on the disk is below the directory. -/
theorem Mirrors.reaches_of_same (h : directory.Mirrors place store)
    (hsame : ∀ other, (∀ name rest, other ≠ place ++ name :: rest) →
      disk.entries.get? other = directory.disk.entries.get? other) :
    disk.Reaches directory.path.stem place := by
  refine h.reaches.congr fun other hother => hsame other fun name rest he => hother ?_
  rw [he]
  exact ⟨List.prefix_append _ _, by simp⟩

/-- A directory with nothing in it mirrors a store without databases. -/
theorem mirrors_empty {path : Path} (hfind : disk.find? path = some place)
    (hdir : disk.isDirectory place = true)
    (hempty : ∀ name rest, disk.entries.get? (place ++ name :: rest) = none) :
    Mirrors ⟨disk, path⟩ place .empty := by
  have hemptied : disk.emptied place = disk := by
    refine congrArg Disk.mk (SortedMap.ext fun other => ?_)
    have hother := Disk.get?_emptied disk place other
    refine hother.trans ?_
    split
    · rename_i hbelow
      obtain ⟨⟨below, rfl⟩, hne⟩ := hbelow
      cases below with
      | nil => exact absurd (List.append_nil place) hne
      | cons name rest => exact (hempty name rest).symm
    · rfl
  have hnone (rest : List String) (entry : DiskEntry) : ¬Store.empty.HasEntry rest entry := by
    rintro (hdatabase | ⟨⟨tables, htables, -⟩, -⟩)
    · rw [Store.empty, SortedMap.contains, SortedMap.get?_empty] at hdatabase
      cases hdatabase
    · rw [Store.empty, SortedMap.get?_empty] at htables
      cases htables
  refine ⟨?_, fun name rest entry => ?_, fun rest entry hrest => absurd hrest (hnone rest entry)⟩
  · rw [Disk.Reaches, hemptied]
    exact Disk.leads_stem hfind hdir
  · rw [hempty]
    exact ⟨by rintro ⟨⟩, fun hrest => absurd hrest (hnone _ entry)⟩

/-! ## What is listed -/

theorem Mirrors.mem_children (h : directory.Mirrors place store) {entry : DiskEntry} :
    (name, entry) ∈ directory.disk.children place ↔ store.HasEntry [name] entry := by
  rw [Disk.mem_children, ← h.entry]

theorem Mirrors.mem_children_database (h : directory.Mirrors place store) {file : String}
    {entry : DiskEntry} :
    (file, entry) ∈ directory.disk.children (place ++ [database]) ↔
      store.HasEntry [database, file] entry := by
  rw [Disk.mem_children, List.append_assoc, ← h.entry]
  rfl

/-- The names in a directory that files of a table have. -/
def namesOf (disk : Disk) (place : Place) (table : String) : List String :=
  ((disk.children place).map (·.1)).filter (isFileOf table)

theorem Mirrors.mem_namesOf (h : directory.Mirrors place store) {file : String} :
    file ∈ namesOf directory.disk (place ++ [database]) name ↔
      isFileOf name file = true ∧ ∃ entry, store.HasEntry [database, file] entry := by
  rw [namesOf, List.mem_filter, and_comm, List.mem_map]
  refine and_congr_right fun _ => ⟨?_, fun ⟨entry, hentry⟩ => ?_⟩
  · rintro ⟨⟨file, entry⟩, hmem, rfl⟩
    exact ⟨entry, h.mem_children_database.mp hmem⟩
  · exact ⟨(file, entry), h.mem_children_database.mpr hentry, rfl⟩

theorem Mirrors.isPlain_of_mem_namesOf (h : directory.Mirrors place store)
    (hstore : store.IsWorded) {file : String}
    (hmem : file ∈ namesOf directory.disk (place ++ [database]) name) : Path.IsPlain file := by
  obtain ⟨-, entry, hentry⟩ := h.mem_namesOf.mp hmem
  obtain ⟨_, _, _, hholds, hfile, -⟩ := Store.hasEntry_file_iff.mp hentry
  exact hstore.isPlain_file hholds hfile

/-! ## Databases -/

theorem Mirrors.createDatabase (h : directory.Mirrors place store) (hname : IsWord name)
    (hnew : store.databases.contains name = false)
    (happly : directory.disk.applyAll [.makeDirectory (directory.databasePath name)] =
      (true, disk)) :
    { directory with disk }.Mirrors place ⟨store.databases.insert name .empty⟩ := by
  obtain ⟨next, hnext, hlast⟩ := Disk.applyAll_cons.mp happly
  rw [databasePath_eq hname] at hnext
  obtain ⟨husable, rfl⟩ := Disk.apply_makeDirectory h.reaches.leads hname.isPlain hnext
  obtain rfl := (Prod.mk.inj hlast).2
  refine ⟨h.reaches_of_same fun other hother => ?_, fun first rest entry => ?_,
    fun rest entry hrest => ?_⟩
  · rw [SortedMap.get?_insert, if_neg (hother name [])]
  · rw [Store.hasEntry_insert_iff hnew, ← h.entry]
    dsimp only
    rw [SortedMap.get?_insert]
    by_cases he : first :: rest = [name]
    · rw [he, if_pos rfl, Option.some.injEq, eq_comm (a := DiskEntry.directory)]
      refine ⟨fun hd => .inl ⟨rfl, hd⟩, Or.rec And.right fun hold => ?_⟩
      rw [(Store.hasEntry_database_iff.mp ((h.entry name [] entry).mp hold)).1] at hnew
      cases hnew
    · rw [if_neg (fun heq => he (List.append_cancel_left heq))]
      exact ⟨.inr, Or.rec (fun hd => absurd hd.1 he) id⟩
  · rcases (Store.hasEntry_insert_iff hnew).mp hrest with ⟨rfl, -⟩ | hrest
    · exact husable
    · exact h.usable rest entry hrest

theorem Mirrors.dropDatabase (h : directory.Mirrors place store) (hstore : store.IsWorded)
    (hold : store.databases.contains name = true)
    (happly : directory.disk.applyAll (directory.removeDatabase name) = (true, disk)) :
    { directory with disk }.Mirrors place ⟨store.databases.erase name⟩ := by
  have hname := hstore.database name hold
  rw [removeDatabase, Disk.hasEntry, h.find?_database hname hold] at happly
  obtain ⟨next, hnext, hlast⟩ := Disk.applyAll_cons.mp happly
  obtain rfl := (Prod.mk.inj hlast).2
  rw [databasePath_eq hname] at hnext
  have hrest := Disk.apply_removeTree h.reaches hname.isPlain hnext
  refine ⟨h.reaches_of_same fun other hother => ?_, fun first rest entry => ?_,
    fun rest entry hrest => ?_⟩
  · rw [hrest, if_neg]
    rintro ⟨below, he⟩
    exact hother name below (by rw [← he, List.append_assoc, List.singleton_append])
  · rw [Store.hasEntry_erase_iff, ← h.entry]
    dsimp only
    rw [hrest]
    by_cases he : first = name
    · simp [he, List.prefix_append_right_inj]
    · simp [he, Ne.symm he, List.prefix_append_right_inj]
  · cases rest with
    | nil => cases hrest
    | cons first rest => exact h.usable _ entry (Store.hasEntry_erase_iff.mp hrest).2

/-! ## Tables -/

/-- The changes that write a table write its files into the directory of the database. -/
theorem writeTable_eq (hname : IsWord database) (htable : table.IsWorded) :
    directory.writeTable database table = table.files.map fun (file, content) =>
      .write ⟨directory.path.stem ++ [database] ++ [file]⟩ content := by
  rw [writeTable, Table.files, List.map_cons, List.map_map, tablePath,
    filePath_eq hname (isPlain_tableFileName htable.name)]
  refine congrArg _ (List.map_congr_left fun entry hindex => ?_)
  obtain ⟨index, _⟩ := entry
  have hcontains := SortedMap.contains_of_get? (SortedMap.mem_entries_iff.mp hindex)
  dsimp only [Function.comp_apply, indexPath]
  rw [filePath_eq hname (isPlain_indexFileName htable.name (htable.index index hcontains))]

/-- Where files of a table are written and the others are there already, all of them are there, and
nothing else is changed. -/
theorem Mirrors.get?_written (h : directory.Mirrors place store) (htable : table.IsWorded)
    {files : List (String × Content)} (hfiles : files ⊆ table.files)
    (hrest : ∀ file content, (file, content) ∈ table.files → (file, content) ∉ files →
      store.HasEntry [database, file] (.file content))
    (hwritten : ∀ file content, (file, content) ∈ files →
      disk.entries.get? (place ++ [database, file]) = some (.file content))
    (hsame : ∀ other, (∀ file content, (file, content) ∈ files → other ≠ place ++ [database, file]) →
      disk.entries.get? other = directory.disk.entries.get? other)
    (first : String) (rest : List String) (entry : DiskEntry) :
    disk.entries.get? (place ++ first :: rest) = some entry ↔
      (∃ file content, (file, content) ∈ table.files ∧ first :: rest = [database, file] ∧
        entry = .file content) ∨
      (∀ file content, (file, content) ∈ table.files → first :: rest ≠ [database, file]) ∧
        store.HasEntry (first :: rest) entry := by
  have hother (rest : List String)
      (hnone : ∀ file content, (file, content) ∈ files → rest ≠ [database, file]) :
      disk.entries.get? (place ++ rest) = directory.disk.entries.get? (place ++ rest) :=
    hsame _ fun file content hmem heq => hnone file content hmem (List.append_cancel_left heq)
  have hthere {file : String} {content : Content} (hfile : (file, content) ∈ table.files) :
      disk.entries.get? (place ++ [database, file]) = some (.file content) := by
    by_cases hmem : (file, content) ∈ files
    · exact hwritten file content hmem
    · rw [hother _ fun again content' hagain heq => hmem ?_, h.entry]
      · exact hrest file content hfile hmem
      · obtain rfl : file = again := by simpa using heq
        rwa [htable.content_eq hfile (hfiles hagain)]
  by_cases hfile : ∃ file content, (file, content) ∈ table.files ∧ first :: rest = [database, file]
  · obtain ⟨file, content, hfile, he⟩ := hfile
    rw [he, hthere hfile, Option.some.injEq]
    constructor
    · rintro rfl
      exact .inl ⟨file, content, hfile, rfl, rfl⟩
    · rintro (⟨again, content', hagain, heq, rfl⟩ | ⟨hnone, -⟩)
      · obtain rfl : file = again := by simpa using heq
        rw [htable.content_eq hfile hagain]
      · exact absurd rfl (hnone file content hfile)
  · have hnone (file : String) (content : Content) (hmem : (file, content) ∈ table.files) :
        first :: rest ≠ [database, file] :=
      fun heq => hfile ⟨file, content, hmem, heq⟩
    rw [hother _ fun file content hmem => hnone file content (hfiles hmem), h.entry]
    refine ⟨fun hold => .inr ⟨hnone, hold⟩, ?_⟩
    rintro (⟨file, content, hmem, heq, -⟩ | ⟨-, hold⟩)
    · exact absurd heq (hnone file content hmem)
    · exact hold

/-- The directory mirrors a store with a table put into it, once files of the table are written and
the other files of the table are there already. -/
theorem Mirrors.write (h : directory.Mirrors place store) (hstore : store.IsWorded)
    (hdatabase : store.databases.contains database = true) (htable : table.IsWorded)
    (hindexes : ∀ old, store.Holds database table.schema.name old → ∀ index,
      old.indexes.contains index = true → table.indexes.contains index = true)
    {files : List (String × Content)} (hfiles : files ⊆ table.files)
    (hrest : ∀ file content, (file, content) ∈ table.files → (file, content) ∉ files →
      store.HasEntry [database, file] (.file content))
    (happly : directory.disk.applyAll (files.map fun (file, content) =>
      .write ⟨directory.path.stem ++ [database] ++ [file]⟩ content) = (true, disk)) :
    { directory with disk }.Mirrors place (store.put database table) := by
  have hname := hstore.database database hdatabase
  obtain ⟨hwritten, hsame⟩ := Disk.applyAll_writes (h.reaches_database hname hdatabase)
    (fun _ _ _ hmem hmem' => htable.content_eq (hfiles hmem) (hfiles hmem')) happly
  simp only [List.append_assoc, List.singleton_append] at hwritten hsame
  refine ⟨h.reaches_of_same fun other hplace => hsame other fun file _ _ => hplace database [file],
    fun first rest entry => ?_, fun rest entry hentry => ?_⟩
  · rw [hstore.hasEntry_put_iff hdatabase htable hindexes]
    exact h.get?_written htable hfiles hrest (fun file content hmem => (hwritten file content hmem).2)
      hsame first rest entry
  · rcases (hstore.hasEntry_put_iff hdatabase htable hindexes).mp hentry with
      ⟨file, content, hfile, rfl, -⟩ | ⟨-, hentry⟩
    · by_cases hmem : (file, content) ∈ files
      · exact (hwritten file content hmem).1
      · exact h.usable _ _ (hrest file content hfile hmem)
    · exact h.usable rest entry hentry

theorem Mirrors.put (h : directory.Mirrors place store) (hstore : store.IsWorded)
    (hdatabase : store.databases.contains database = true) (htable : table.IsWorded)
    (hindexes : ∀ old, store.Holds database table.schema.name old → ∀ index,
      old.indexes.contains index = true → table.indexes.contains index = true)
    (happly : directory.disk.applyAll (directory.writeTable database table) = (true, disk)) :
    { directory with disk }.Mirrors place (store.put database table) := by
  rw [writeTable_eq (hstore.database database hdatabase) htable] at happly
  exact h.write hstore hdatabase htable hindexes (List.Subset.refl _)
    (fun _ _ hfile hnone => absurd hfile hnone) happly

/-- The changes that remove a table look into the directory of the database and remove its files. -/
theorem removeTable_eq {path : Path} (hpath : directory.databasePath database = path)
    {place : Place} (hfind : directory.disk.find? path = some place)
    (hdir : directory.disk.isDirectory place = true) :
    directory.removeTable database name = .readDirectory path ::
      (namesOf directory.disk place name).map fun file =>
        .removeFile (path.join (.ofText file)) := by
  subst hpath
  dsimp only [removeTable, namesOf]
  rw [Disk.hasEntry, Disk.children?, hfind, Option.bind_some, if_pos hdir, Option.getD_some,
    if_pos (by rfl), ← List.filterMap_eq_map, List.filterMap_filter, List.filterMap_map]
  rfl

theorem Mirrors.dropTable {tables : Database} (h : directory.Mirrors place store)
    (hstore : store.IsWorded) (htables : store.databases.get? database = some tables)
    (hold : tables.contains name = true)
    (happly : directory.disk.applyAll (directory.removeTable database name) = (true, disk)) :
    { directory with disk }.Mirrors place
      ⟨store.databases.insert database (tables.erase name)⟩ := by
  obtain ⟨old, hold⟩ := SortedMap.contains_iff.mp hold
  have hholds : store.Holds database name old := ⟨tables, htables, hold⟩
  have hdatabase := hholds.contains
  have hword := hstore.database database hdatabase
  have hname : IsWord name := by
    rw [hstore.named _ _ _ hholds]
    exact (hstore.table _ _ _ hholds).name
  have hreaches := h.reaches_database hword hdatabase
  rw [removeTable_eq rfl (h.find?_database hword hdatabase) hreaches.leads.isDirectory] at happly
  obtain ⟨next, hnext, happly⟩ := Disk.applyAll_cons.mp happly
  obtain rfl := (Prod.mk.inj hnext).2
  have hplain {file : String} (hmem : file ∈ namesOf directory.disk (place ++ [database]) name) :
      Path.IsPlain file := h.isPlain_of_mem_namesOf hstore hmem
  rw [List.map_congr_left fun file hmem =>
    congrArg DiskChange.removeFile (filePath_eq hword (hplain hmem))] at happly
  obtain ⟨hgone, hsame⟩ := Disk.applyAll_removeFiles hreaches (fun _ => hplain) happly
  simp only [List.append_assoc, List.singleton_append] at hgone hsame
  refine ⟨h.reaches_of_same fun other hother => hsame other fun file _ => hother database [file],
    fun first rest entry => ?_, fun rest entry hrest => h.usable rest entry
      ((hstore.hasEntry_eraseTable_iff hname htables).mp hrest).2⟩
  rw [hstore.hasEntry_eraseTable_iff hname htables]
  dsimp only
  by_cases hfile : ∃ file, isFileOf name file = true ∧
      (∃ entry, store.HasEntry [database, file] entry) ∧ first :: rest = [database, file]
  · obtain ⟨file, hof, hold, he⟩ := hfile
    rw [he, hgone file (h.mem_namesOf.mpr ⟨hof, hold⟩)]
    refine ⟨nofun, fun hrest => ?_⟩
    rw [hrest.1 file rfl] at hof
    nomatch hof
  · rw [hsame _ fun file hmem he => hfile ⟨file, (h.mem_namesOf.mp hmem).1,
      (h.mem_namesOf.mp hmem).2, List.append_cancel_left he⟩, h.entry]
    refine ⟨fun hold => ⟨fun file he => Bool.eq_false_iff.mpr fun hof => hfile ?_, hold⟩, And.right⟩
    exact ⟨file, hof, ⟨entry, he ▸ hold⟩, he⟩

/-! ## Operations -/

theorem writeTable_of_holds (h : store.Holds database name table) :
    Storage.writeTable database name directory store = directory.writeTable database table := by
  rw [Storage.writeTable, Store.table_eq_ok_iff.mpr h]

/-- An operation that changes a table writes it, or leaves it as it is. -/
theorem changes_of_targets (directory : DataDirectory) {op : Operation} {store' : Store}
    {table' : Table} (htargets : op.Targets database name) (hold : store.Holds database name table)
    (hchanges : op.Changes table table') (hnew : store'.Holds database name table') :
    directory.changes store store' op = directory.writeTable database table' ∨
      directory.changes store store' op = [] ∧ table' = table := by
  cases htargets with
  | createIndex => exact .inl (writeTable_of_holds hnew)
  | insertRow => exact .inl (writeTable_of_holds hnew)
  | deleteRows _ _ ids =>
    cases hchanges with
    | deleteRows =>
      have hdelete : store.deleteRows database name ids =
          .ok ((table.delete ids).1, store.put database (table.delete ids).2) := by
        rw [Store.deleteRows, Store.table_eq_ok_iff.mpr hold]
        rfl
      rw [changes, hdelete]
      dsimp only
      split
      · exact .inl (writeTable_of_holds hnew)
      · rename_i hnone
        exact .inr ⟨rfl, Table.delete_of_none (Nat.eq_zero_of_not_pos hnone)⟩

/-- A mirror is left behind an operation whose changes of the disk were all made. -/
theorem Mirrors.result {op : Operation} {store' : Store} (h : directory.Mirrors place store)
    (hstore : store.IsWorded) (hstore' : store'.IsWorded) (hresult : store.result op = .ok store')
    (happly : directory.disk.applyAll (directory.changes store store' op) = (true, disk)) :
    { directory with disk }.Mirrors place store' := by
  cases Store.step_of_result hresult with
  | @createDatabase name hnew =>
    have hcontains : (store.databases.insert name .empty).contains name = true := by
      simp [SortedMap.contains_insert]
    exact h.createDatabase (hstore'.database name hcontains) hnew happly
  | dropDatabase hold => exact h.dropDatabase hstore hold happly
  | @createTable database schema tables htables hnew =>
    have hholds : (store.put database (.ofSchema schema)).Holds database schema.name
        (.ofSchema schema) :=
      Store.holds_put_iff.mpr (.inl ⟨rfl, by rw [Table.schema_ofSchema], rfl⟩)
    rw [changes, writeTable_of_holds hholds] at happly
    refine h.put hstore (SortedMap.contains_of_get? htables) (hstore'.table _ _ _ hholds)
      (fun old hold => ?_) happly
    obtain ⟨tables', htables', hold⟩ := hold
    rw [Table.schema_ofSchema] at hold
    rw [htables, Option.some.injEq] at htables'
    rw [htables', SortedMap.contains_of_get? hold] at hnew
    cases hnew
  | dropTable htables hold => exact h.dropTable hstore htables hold happly
  | @change _ database name old new htargets hold hchanges =>
    have hname := (hstore.named _ _ _ hold).trans hchanges.schema_name.symm
    have hnew : (store.put database new).Holds database name new :=
      Store.holds_put_iff.mpr (.inl ⟨rfl, hname, rfl⟩)
    rcases changes_of_targets directory htargets hold hchanges hnew with hwrite | ⟨hnone, rfl⟩
    · rw [hwrite] at happly
      refine h.put hstore hold.contains (hstore'.table _ _ _ hnew) (fun other hother => ?_) happly
      rw [← hname] at hother
      rw [hother.unique hold]
      exact fun _ => hchanges.contains
    · rw [hnone] at happly
      rw [← (Prod.mk.inj happly).2, Store.put_of_holds (hname ▸ hold)]
      exact h

/-- A disk that mirrors a store mirrors what operations make of it. -/
theorem Mirrors.run {storage : Storage} {ops : List Operation}
    (hdirectory : storage.directory = some directory) (h : directory.Mirrors place storage.store)
    (hstore : storage.store.IsWorded) (hops : ∀ op ∈ ops, op.IsWorded)
    (hspared : storage.RunsSpared ops) :
    ∃ disk, (storage.run ops).directory = some { directory with disk } ∧
      { directory with disk }.Mirrors place (storage.run ops).store ∧
        (storage.run ops).store.IsWorded := by
  induction ops generalizing storage directory with
  | nil => exact ⟨directory.disk, hdirectory, h, hstore⟩
  | cons op ops ih =>
    obtain ⟨hop, hops⟩ := List.forall_mem_cons.mp hops
    obtain ⟨hspared, hrest⟩ := hspared
    have hstore' := hstore.after hop
    rw [← Storage.store_after] at hstore'
    have hafter := storage.after_eq op
    rw [Storage.run, List.foldl_cons, ← Storage.run]
    split at hafter
    · rw [hafter] at hrest ⊢
      exact ih hdirectory h hstore hops hrest
    · rename_i store' hresult
      have hall := hspared directory store' hdirectory hresult
      rw [hdirectory, Option.map_some] at hafter
      rw [hafter] at hstore' hrest ⊢
      have hnext := h.result hstore hstore' hresult (eq_mk_of_fst hall)
      obtain ⟨disk, hdisk⟩ := ih rfl hnext hstore' hops hrest
      exact ⟨disk, hdisk⟩

end DataDirectory

end Relational
