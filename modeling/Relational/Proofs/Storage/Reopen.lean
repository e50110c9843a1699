import Relational.Proofs.Storage.IndexFile
import Relational.Proofs.Storage.Mirror
import Relational.Proofs.Storage.TableFile
import Relational.Proofs.Table.Rebuilt

/-!
# Storages read back

A directory that mirrors a store is read back as this store with its tables restored
(`Mirrors.ofDirectory`), if its files keep what is written to them (`Table.IsKept`): each file of an
index is decoded, and only an index without a file is built anew (`Table.restored`). Where every index
is the one that would be built, that is the store itself (`Store.restored_eq`). Databases and tables are
read one by one into a store that holds nothing but what the restored store holds (`Store.Within`); in
the end it holds all of that.
-/

namespace Relational

open DataDirectory (tableFileName indexFileName isTableFile)

/-- The values of the rows are read back from what is written for them, and the files of the indexes
are not too long for their counts. -/
structure Table.IsKept (table : Table) : Prop where
  row (id : RowId) (row : Row) : table.rows.get? id = some row → row.IsKept
  index (name : String) (index : Index) :
    table.indexes.get? name = some index → (IndexFile.encode index).length < 2 ^ 64

instance : DecidablePred Table.IsKept := fun table =>
  decidable_of_iff ((∀ row ∈ table.rows.values, row.IsKept) ∧
      ∀ index ∈ table.indexes.values, (IndexFile.encode index).length < 2 ^ 64)
    ⟨fun h => ⟨SortedMap.forall_mem_values.mp h.1, SortedMap.forall_mem_values.mp h.2⟩,
      fun h => ⟨SortedMap.forall_mem_values.mpr h.row, SortedMap.forall_mem_values.mpr h.index⟩⟩

/-! ## Restored tables -/

/-- A table that is read from its files: its values are kept, and so are the limits of its columns, and
the indexes that its schema defines have words for names. -/
structure Table.IsReadable (table : Table) : Prop where
  kept : table.IsKept
  fits (column : Column) : column ∈ table.schema.columns → column.type.Fits
  word (definition : IndexDefinition) : definition ∈ table.schema.indexes → IsWord definition.name

namespace Table

variable {table : Table}

/-- The table as its files have it: an index that it lacks is built from the rows. -/
def restored (table : Table) : Table :=
  { table with indexes := table.rebuilt.indexes.map fun name built =>
      (table.indexes.get? name).getD built }

theorem restored_eq (h : table.rebuilt = table) : table.restored = table := by
  have hindexes : table.restored.indexes = table.indexes := by
    refine SortedMap.ext fun name => ?_
    rw [restored, h, SortedMap.get?_map]
    cases table.indexes.get? name <;> rfl
  calc table.restored
      = { table with indexes := table.restored.indexes } := rfl
    _ = table := by rw [hindexes]

/-- The schema defines an index of the name for each definition. -/
theorem contains_of_rebuilt (h : table.rebuilt = table) {definition : IndexDefinition}
    (hdefinition : definition ∈ table.schema.indexes) :
    table.indexes.contains definition.name = true := by
  rw [← h, SortedMap.contains, get?_rebuilt, Option.isSome_map, Schema.definition?,
    List.find?_isSome]
  exact ⟨definition, List.mem_reverse.mpr hdefinition, decide_eq_true rfl⟩

theorem IsWorded.isReadable (h : table.IsWorded) (hrebuilt : table.rebuilt = table)
    (hkept : table.IsKept) (hfits : ∀ column ∈ table.schema.columns, column.type.Fits) :
    table.IsReadable :=
  ⟨hkept, hfits, fun _ hd => h.index _ (contains_of_rebuilt hrebuilt hd)⟩

end Table

namespace Store

variable {store store' part : Store} {database name : String} {table : Table}

/-- Stores with the same databases and tables are the same. -/
theorem ext_holds
    (hdatabases : ∀ name, store.databases.contains name = store'.databases.contains name)
    (hholds : ∀ database name table,
      store.Holds database name table ↔ store'.Holds database name table) : store = store' := by
  refine congrArg Store.mk (SortedMap.ext fun database => ?_)
  have hdatabase := hdatabases database
  simp only [SortedMap.contains] at hdatabase
  cases h : store.databases.get? database with
  | none =>
    rw [h, Option.isSome_none, eq_comm, Option.isSome_eq_false_iff, Option.isNone_iff_eq_none]
      at hdatabase
    exact hdatabase.symm
  | some tables =>
    rw [h, Option.isSome_some, eq_comm, Option.isSome_iff_exists] at hdatabase
    obtain ⟨tables', h'⟩ := hdatabase
    rw [h']
    refine congrArg some (SortedMap.ext fun name => Option.ext fun table => ?_)
    have htable := hholds database name table
    rw [holds_iff_getD, holds_iff_getD, h, h'] at htable
    exact htable

/-- The store with each table as its files have it. -/
def restored (store : Store) : Store :=
  ⟨store.databases.map fun _ tables => tables.map fun _ table => table.restored⟩

theorem contains_restored :
    store.restored.databases.contains database = store.databases.contains database :=
  SortedMap.contains_map _ _ _

theorem holds_restored_iff : store.restored.Holds database name table ↔
    ∃ stored, store.Holds database name stored ∧ stored.restored = table := by
  unfold Holds restored
  dsimp only
  simp only [SortedMap.get?_map, Option.map_eq_some_iff]
  constructor
  · rintro ⟨-, ⟨tables, htables, rfl⟩, htable⟩
    rw [SortedMap.get?_map, Option.map_eq_some_iff] at htable
    obtain ⟨stored, hstored, rfl⟩ := htable
    exact ⟨stored, ⟨tables, htables, hstored⟩, rfl⟩
  · rintro ⟨stored, ⟨tables, htables, hstored⟩, rfl⟩
    exact ⟨_, ⟨tables, htables, rfl⟩, by rw [SortedMap.get?_map, hstored, Option.map_some]⟩

theorem Holds.restored (h : store.Holds database name table) :
    store.restored.Holds database name table.restored :=
  holds_restored_iff.mpr ⟨table, h, rfl⟩

theorem restored_eq (h : store.All fun table => table.rebuilt = table) : store.restored = store := by
  refine ext_holds (fun _ => contains_restored) fun database name table => ?_
  rw [holds_restored_iff]
  constructor
  · rintro ⟨stored, hstored, rfl⟩
    rwa [Table.restored_eq (h _ _ _ hstored)]
  · exact fun htable => ⟨table, htable, Table.restored_eq (h _ _ _ htable)⟩

/-- The tables of a store are tables of another. -/
def Within (part store : Store) : Prop :=
  ∀ database name table, part.Holds database name table → store.Holds database name table

theorem within_empty : empty.Within store :=
  fun database name table h => (all_empty (P := fun _ => False) database name table h).elim

theorem Within.holds_put_iff (h : part.Within store)
    (hholds : store.Holds database table.schema.name table) {database' : String} {table' : Table} :
    (part.put database table).Holds database' name table' ↔
      part.Holds database' name table' ∨
        database' = database ∧ name = table.schema.name ∧ table' = table := by
  rw [Store.holds_put_iff]
  constructor
  · rintro (hnew | ⟨-, hpart⟩)
    · exact .inr hnew
    · exact .inl hpart
  · rintro (hpart | hnew)
    · by_cases hplace : database' = database ∧ name = table.schema.name
      · obtain ⟨rfl, rfl⟩ := hplace
        exact .inl ⟨rfl, rfl, (h _ _ _ hpart).unique hholds⟩
      · exact .inr ⟨hplace, hpart⟩
    · exact .inl hnew

theorem Within.put (h : part.Within store)
    (hholds : store.Holds database table.schema.name table) :
    (part.put database table).Within store := by
  intro database' name table' hput
  rcases (h.holds_put_iff hholds).mp hput with hpart | ⟨rfl, rfl, rfl⟩
  · exact h _ _ _ hpart
  · exact hholds

end Store

namespace DataDirectory

variable {directory : DataDirectory} {place : Place} {store : Store} {database name : String}
  {table : Table}

/-! ## Files -/

theorem Mirrors.file? (h : directory.Mirrors place store) (hstore : store.IsWorded)
    (hholds : store.Holds database name table) {file : String} {content : Content}
    (hfile : (file, content) ∈ table.files) :
    directory.disk.file? ((directory.databasePath database).join (.ofText file)) =
      some (content.bytes ()) := by
  have hword := hstore.database database hholds.contains
  have hplain := hstore.isPlain_file hholds hfile
  have hentry : store.HasEntry [database, file] (.file content) := .file hholds hfile
  have hthere := (h.entry database [file] _).mpr hentry
  have husable := h.usable _ _ hentry
  have hplace : place ++ database :: [file] = place ++ [database] ++ [file] := by simp
  rw [hplace] at hthere
  have hwalk := (h.reaches_database hword hholds.contains).leads.walk?_append hplain
  rw [Disk.entry?_append, hthere, Option.isSome_some, if_pos rfl] at hwalk
  rw [← List.singleton_append, ← List.append_assoc] at husable
  rw [filePath_eq hword hplain, Disk.file?, Disk.find?_mk husable, hwalk, Option.bind_some,
    Disk.entry?_append, hthere]

/-- No file is found under a name that the store has no file for. -/
theorem Mirrors.file?_eq_none (h : directory.Mirrors place store) (hname : IsWord database)
    (hdatabase : store.databases.contains database = true) {file : String}
    (hplain : Path.IsPlain file) (hnone : ∀ entry, ¬store.HasEntry [database, file] entry) :
    directory.disk.file? ((directory.databasePath database).join (.ofText file)) = none := by
  have hgone : directory.disk.entries.get? (place ++ [database] ++ [file]) = none := by
    rw [List.append_assoc]
    exact Option.eq_none_iff_forall_ne_some.mpr fun entry hentry =>
      hnone entry ((h.entry database [file] entry).mp hentry)
  have hwalk := (h.reaches_database hname hdatabase).leads.walk?_append hplain
  rw [Disk.entry?_append, hgone, Option.isSome_none, if_neg nofun] at hwalk
  rw [filePath_eq hname hplain, Disk.file?, Disk.find?, hwalk, ite_self, Option.bind_none]

/-- An index is read from its file, or built if there is none. -/
theorem Mirrors.readIndex (h : directory.Mirrors place store) (hstore : store.IsWorded)
    (hholds : store.Holds database name table) (hkept : table.IsKept) {part : Table}
    (hschema : part.schema = table.schema) (hrows : part.rows = table.rows)
    {definition : IndexDefinition} (hword : IsWord definition.name) :
    directory.readIndex database part definition = { part with
      indexes := part.indexes.insert definition.name
        ((table.indexes.get? definition.name).getD (.build definition table.rows)) } := by
  rw [DataDirectory.readIndex, indexPath, hschema]
  cases hindex : table.indexes.get? definition.name with
  | some index =>
    have hfile := h.file? hstore hholds
      (Table.mem_files_iff.mpr (.inr ⟨_, index, hindex, rfl, rfl⟩))
    rw [hfile, Option.bind_some, IndexFile.decode?_encode (hkept.index _ index hindex),
      Option.getD_some]
  | none =>
    have htable := hstore.table _ _ _ hholds
    have hnone (entry : DiskEntry) :
        ¬store.HasEntry [database, indexFileName table.schema.name definition.name] entry := by
      intro hentry
      obtain ⟨other, stored, content, hother, hfile, -⟩ := Store.hasEntry_file_iff.mp hentry
      obtain rfl := (hstore.eq_of_isFileOf hother hfile htable.name).mp
        ((isFileOf_indexFileName htable.name htable.name).mpr rfl)
      rw [← hstore.named _ _ _ hholds] at hother
      obtain rfl := hother.unique hholds
      rcases Table.mem_files_iff.mp hfile with ⟨he, -⟩ | ⟨index, found, hfound, he, -⟩
      · exact tableFileName_ne_indexFileName he.symm
      · obtain ⟨-, rfl⟩ := (indexFileName_inj htable.name htable.name).mp he
        rw [hindex] at hfound
        nomatch hfound
    rw [h.file?_eq_none (hstore.database _ hholds.contains) hholds.contains
      (isPlain_indexFileName htable.name hword) hnone, Option.bind_none, Option.getD_none,
      Table.buildIndex, hrows, hschema]

/-- The indexes are read one by one. -/
theorem Mirrors.foldl_readIndex (h : directory.Mirrors place store) (hstore : store.IsWorded)
    (hholds : store.Holds database name table) (hkept : table.IsKept)
    {definitions : List IndexDefinition} (hwords : ∀ d ∈ definitions, IsWord d.name) (part : Table)
    (hschema : part.schema = table.schema) (hrows : part.rows = table.rows) :
    definitions.foldl (directory.readIndex database) part = { part with
      indexes := definitions.foldl (fun indexes d => indexes.insert d.name
        ((table.indexes.get? d.name).getD (.build d table.rows))) part.indexes } := by
  induction definitions generalizing part with
  | nil => rfl
  | cons d definitions ih =>
    obtain ⟨hd, hwords⟩ := List.forall_mem_cons.mp hwords
    rw [List.foldl_cons, h.readIndex hstore hholds hkept hschema hrows hd]
    exact ih hwords { part with indexes := _ } hschema hrows

theorem Mirrors.readTable (h : directory.Mirrors place store) (hstore : store.IsWorded)
    (hholds : store.Holds database name table) (hreadable : table.IsReadable) :
    directory.readTable database (TableFile.encode ⟨table.schema, table.rows⟩) =
      .ok table.restored := by
  have hindexes : table.schema.indexes.foldl (fun indexes d => indexes.insert d.name
      ((table.indexes.get? d.name).getD (.build d table.rows))) .empty = table.restored.indexes := by
    refine SortedMap.ext fun name => ?_
    rw [SortedMap.get?_foldl_insert, SortedMap.get?_empty, Option.or_none, Table.restored]
    dsimp only
    rw [SortedMap.get?_map, Table.get?_rebuilt, Option.map_map, Schema.definition?]
    refine Option.map_congr fun d hd => ?_
    have hname : d.name = name := by simpa using List.find?_some hd
    rw [Function.comp_apply, hname]
  rw [DataDirectory.readTable, TableFile.decode_encode ⟨hreadable.fits, hreadable.kept.row⟩, ok_bind]
  dsimp only
  rw [h.foldl_readIndex hstore hholds hreadable.kept hreadable.word
    ⟨table.schema, table.rows, .empty⟩ rfl rfl, hindexes]
  rfl

/-! ## Databases -/

/-- What the entries of a database make of a store that is within the restored one: the tables whose
files are among them are there too. -/
theorem Mirrors.readTables (h : directory.Mirrors place store) (hstore : store.IsWorded)
    (hreadable : store.All Table.IsReadable) {entries : List (String × DiskEntry)}
    (hentries : ∀ file entry, (file, entry) ∈ entries → store.HasEntry [database, file] entry)
    (part : Store) (hpart : part.Within store.restored)
    (hdatabase : part.databases.contains database = true) :
    ∃ read, directory.readTables database part entries = (.ok (), read) ∧
      read.Within store.restored ∧
      (∀ name, read.databases.contains name = part.databases.contains name) ∧
      ∀ database' name table, read.Holds database' name table ↔
        part.Holds database' name table ∨ database' = database ∧
          store.restored.Holds database name table ∧ tableFileName name ∈ entries.map (·.1) := by
  induction entries generalizing part with
  | nil => exact ⟨part, rfl, hpart, fun _ => rfl, by simp⟩
  | cons head entries ih =>
    obtain ⟨file, entry⟩ := head
    obtain ⟨name, table, content, hholds, hfile, rfl⟩ :=
      Store.hasEntry_file_iff.mp (hentries file entry List.mem_cons_self)
    replace hentries := fun file entry hmem => hentries file entry (List.mem_cons_of_mem _ hmem)
    obtain rfl := hstore.named _ _ _ hholds
    rcases Table.mem_files_iff.mp hfile with ⟨rfl, rfl⟩ | ⟨index, _, hindex, rfl, -⟩
    · have hrestored : store.restored.Holds database table.restored.schema.name table.restored :=
        hholds.restored
      obtain ⟨read, hread, hwithin, hcontains, hread'⟩ := ih hentries
        (part.put database table.restored) (hpart.put hrestored) (Store.contains_put.mpr (.inl rfl))
      refine ⟨read, ?_, hwithin, fun name => ?_, fun database' name table' => ?_⟩
      · rw [DataDirectory.readTables,
          if_pos (isTableFile_tableFileName (hstore.table _ _ _ hholds).name)]
        dsimp only
        rw [h.readTable hstore hholds (hreadable _ _ _ hholds)]
        exact hread
      · rw [hcontains, Bool.eq_iff_iff, Store.contains_put]
        exact or_iff_right_of_imp fun hname => hname ▸ hdatabase
      · rw [hread', hpart.holds_put_iff hrestored, List.map_cons, List.mem_cons, tableFileName_inj]
        have htable : name = table.restored.schema.name ∧ table' = table.restored ↔
            store.restored.Holds database name table' ∧ name = table.schema.name := by
          constructor
          · rintro ⟨rfl, rfl⟩
            exact ⟨hrestored, rfl⟩
          · rintro ⟨hother, rfl⟩
            exact ⟨rfl, hother.unique hrestored⟩
        rw [htable, or_assoc, ← and_or_left, ← and_or_left]
    · obtain ⟨read, hread, hwithin, hcontains, hread'⟩ := ih hentries part hpart hdatabase
      refine ⟨read, ?_, hwithin, hcontains, fun database' name table' => ?_⟩
      · rw [DataDirectory.readTables, if_neg (by rw [isTableFile_indexFileName]; nofun)]
        exact hread
      · rw [hread', List.map_cons, List.mem_cons, or_iff_right tableFileName_ne_indexFileName]

/-- What the entries of the directory make of a store that is within the restored one: each database
among them is there as the restored store has it. -/
theorem Mirrors.readDatabases (h : directory.Mirrors place store) (hstore : store.IsWorded)
    (hreadable : store.All Table.IsReadable) {entries : List (String × DiskEntry)}
    (hentries : ∀ name entry, (name, entry) ∈ entries → store.HasEntry [name] entry)
    (part : Store) (hpart : part.Within store.restored) :
    ∃ read, directory.readDatabases part entries = (.ok (), read) ∧
      (∀ name, read.databases.contains name = true ↔
        name ∈ entries.map (·.1) ∨ part.databases.contains name = true) ∧
      ∀ database name table, read.Holds database name table ↔
        if database ∈ entries.map (·.1) then store.restored.Holds database name table
        else part.Holds database name table := by
  induction entries generalizing part with
  | nil => exact ⟨part, rfl, by simp, by simp⟩
  | cons head entries ih =>
    obtain ⟨name, entry⟩ := head
    obtain ⟨hdatabase, rfl⟩ :=
      Store.hasEntry_database_iff.mp (hentries name entry List.mem_cons_self)
    replace hentries := fun name entry hmem => hentries name entry (List.mem_cons_of_mem _ hmem)
    have hword := hstore.database name hdatabase
    have hreaches := h.reaches_database hword hdatabase
    have hchildren : directory.disk.children? (directory.databasePath name) =
        some (directory.disk.children (place ++ [name])) := by
      rw [Disk.children?, h.find?_database hword hdatabase, Option.bind_some,
        if_pos hreaches.leads.isDirectory]
    have hfile {other : String} {table : Table} (hother : store.restored.Holds name other table) :
        tableFileName other ∈ (directory.disk.children (place ++ [name])).map (·.1) := by
      obtain ⟨stored, hstored, -⟩ := Store.holds_restored_iff.mp hother
      rw [hstore.named _ _ _ hstored]
      exact List.mem_map.mpr
        ⟨(_, _), h.mem_children_database.mpr (.file hstored List.mem_cons_self), rfl⟩
    have hchild (file : String) (entry : DiskEntry)
        (hmem : (file, entry) ∈ directory.disk.children (place ++ [name])) :
        store.HasEntry [name, file] entry := h.mem_children_database.mp hmem
    -- The database is emptied, and read then.
    obtain ⟨read, hread, hwithin, hcontains, hholds⟩ := h.readTables hstore hreadable hchild
      ⟨part.databases.insert name .empty⟩
      (fun _ _ _ hother => hpart _ _ _ (Store.holds_insert_iff.mp hother).2)
      (by rw [SortedMap.contains_insert]; simp)
    obtain ⟨last, hlast, hlastContains, hlastHolds⟩ := ih hentries read hwithin
    refine ⟨last, ?_, fun database => ?_, fun database other table => ?_⟩
    · rw [DataDirectory.readDatabases, hchildren, Option.getD_some, hread]
      exact hlast
    · rw [hlastContains, hcontains, List.map_cons, List.mem_cons, SortedMap.contains_insert,
        Bool.or_eq_true, decide_eq_true_iff, ← or_assoc, or_comm (a := database ∈ _)]
    · rw [hlastHolds, hholds, Store.holds_insert_iff, List.map_cons]
      by_cases hname : database = name
      · subst hname
        rw [if_pos List.mem_cons_self, and_iff_left_of_imp hfile]
        simp
      · simp only [List.mem_cons, hname, false_or, ne_eq, not_false_eq_true, true_and, false_and,
          or_false]

theorem Mirrors.read (h : directory.Mirrors place store) (husable : directory.path.isUsable = true)
    (hstore : store.IsWorded) (hreadable : store.All Table.IsReadable) :
    directory.read = (.ok (), store.restored) := by
  have hfind := Disk.find?_of_stem husable h.reaches.leads
  obtain ⟨read, hread, hcontains, hholds⟩ := h.readDatabases hstore hreadable
    (fun _ _ => h.mem_children.mp) .empty Store.within_empty
  have hnames (name : String) : name ∈ (directory.disk.children place).map (·.1) ↔
      store.databases.contains name = true := by
    rw [List.mem_map]
    constructor
    · rintro ⟨⟨name, entry⟩, hmem, rfl⟩
      exact (Store.hasEntry_database_iff.mp (h.mem_children.mp hmem)).1
    · intro hname
      exact ⟨(name, .directory), h.mem_children.mpr (.database hname), rfl⟩
  have hsame : read = store.restored := by
    refine Store.ext_holds (fun name => ?_) fun database name table => ?_
    · rw [Bool.eq_iff_iff, hcontains, hnames, Store.contains_restored]
      exact or_iff_left Bool.false_ne_true
    · rw [hholds]
      split
      · rfl
      · rename_i hnone
        rw [hnames, ← Store.contains_restored] at hnone
        exact ⟨Store.within_empty _ _ _, fun hother => absurd hother.contains hnone⟩
  rw [DataDirectory.read, Disk.hasEntry, Disk.children?, hfind, Option.bind_some,
    if_pos h.reaches.leads.isDirectory]
  dsimp only [Option.isSome_some]
  rw [if_neg (show ¬(!true) = true from Bool.false_ne_true), hread, hsame]

/-- The storage of a directory that mirrors a store is this store in this directory, with the indexes
built that have no file. -/
theorem Mirrors.ofDirectory (h : directory.Mirrors place store)
    (husable : directory.path.isUsable = true) (hstore : store.IsWorded)
    (hreadable : store.All Table.IsReadable) :
    Storage.ofDirectory directory.disk directory.path = ⟨store.restored, some directory⟩ := by
  have hthere : directory.disk.hasEntry directory.path = true := by
    rw [Disk.hasEntry, Disk.find?_of_stem husable h.reaches.leads, Option.isSome_some]
  rw [Storage.ofDirectory, if_pos hthere, Storage.load]
  dsimp only
  rw [h.read husable hstore hreadable]

end DataDirectory

/-- The storage of a directory with nothing in it. -/
theorem Storage.ofDirectory_of_empty {disk : Disk} {path : Path} {place : Place}
    (hpath : disk.find? path = some place) (hdirectory : disk.isDirectory place = true)
    (hempty : ∀ name rest, disk.entries.get? (place ++ name :: rest) = none) :
    Storage.ofDirectory disk path = ⟨.empty, some ⟨disk, path⟩⟩ := by
  have hmirrors := DataDirectory.mirrors_empty hpath hdirectory hempty
  rw [hmirrors.ofDirectory (Disk.isUsable_of_find? hpath) Store.isWorded_empty Store.all_empty,
    Store.restored_eq Store.all_empty]

end Relational
