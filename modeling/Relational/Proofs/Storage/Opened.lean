import Relational.Proofs.Disk.Change
import Relational.Proofs.Storage.Fault

/-!
# What a storage is opened with

Every table of a storage that was opened on a directory is what a file of the disk holds, with
indexes that may come from other files (`Storage.exists_file_of_holds`). The rows are taken as the
file has them.
-/

namespace Relational

namespace Disk

/-- Making directories puts no files on a disk. -/
theorem get?_makeAlong {disk : Disk} {place other : Place} {segments : List String}
    {content : Content}
    (h : (disk.makeAlong place segments).2.entries.get? other = some (.file content)) :
    disk.entries.get? other = some (.file content) := by
  induction segments generalizing disk place with
  | nil => exact h
  | cons segment segments ih =>
    rw [makeAlong] at h
    split at h
    · exact ih h
    · dsimp only at h
      split at h
      · exact ih h
      · exact h
      · split at h
        · have hinsert := ih h
          rw [SortedMap.get?_insert] at hinsert
          split at hinsert
          · cases hinsert
          · exact hinsert
        · exact h

theorem get?_makeDirectory {disk : Disk} {path : Path} {other : Place} {content : Content}
    (h : (disk.makeDirectory path).2.entries.get? other = some (.file content)) :
    disk.entries.get? other = some (.file content) := by
  rw [makeDirectory] at h
  split at h
  · exact h
  · split at h
    · split at h
      all_goals
        rename_i hmade
        rw [← congrArg Prod.snd hmade] at h
        exact get?_makeAlong h
    · exact get?_makeAlong h

theorem exists_place_of_children? {disk : Disk} {path : Path} {name : String} {entry : DiskEntry}
    (h : (name, entry) ∈ (disk.children? path).getD []) :
    ∃ place, disk.entries.get? place = some entry := by
  cases hchildren : disk.children? path with
  | none =>
    rw [hchildren] at h
    nomatch h
  | some entries =>
    rw [hchildren] at h
    obtain ⟨place, -, hplace⟩ := Option.bind_eq_some_iff.mp hchildren
    split at hplace
    · rw [← Option.some.inj hplace] at h
      exact ⟨_, mem_children.mp h⟩
    · nomatch hplace

end Disk

namespace DataDirectory

variable {directory : DataDirectory} {database : String} {table : Table}

/-- A table is read with the schema and the rows of its file. -/
theorem file_of_readTable {content : List UInt8} (h : directory.readTable database content = .ok table) :
    TableFile.decode content = .ok ⟨table.schema, table.rows⟩ := by
  have hindexes (definitions : List IndexDefinition) (table : Table) :
      (definitions.foldl (directory.readIndex database) table).schema = table.schema ∧
        (definitions.foldl (directory.readIndex database) table).rows = table.rows := by
    induction definitions generalizing table with
    | nil => exact ⟨rfl, rfl⟩
    | cons definition definitions ih =>
      have hone : (directory.readIndex database table definition).schema = table.schema ∧
          (directory.readIndex database table definition).rows = table.rows := by
        unfold readIndex
        dsimp only
        split <;> exact ⟨rfl, rfl⟩
      rw [List.foldl_cons, ← hone.1, ← hone.2]
      exact ih _
  obtain ⟨file, hfile, h⟩ := bind_eq_ok_iff.mp h
  obtain rfl := Except.ok.inj h
  rw [(hindexes _ _).1, (hindexes _ _).2, hfile]

theorem exists_file_of_mem_findings (h : Finding.table database table ∈ directory.findings) :
    ∃ place content, directory.disk.entries.get? place = some (.file content) ∧
      TableFile.decode (content.bytes ()) = .ok ⟨table.schema, table.rows⟩ := by
  rw [findings] at h
  split at h
  · cases h
  · split at h
    · simp at h
    · obtain ⟨⟨name, entry⟩, -, hmem⟩ := List.mem_flatMap.mp h
      cases entry with
      | file content => cases hmem
      | directory =>
        rw [databaseFindings, List.mem_cons] at hmem
        obtain ⟨⟨file, entry⟩, hchild, hfinding⟩ :=
          List.mem_filterMap.mp (hmem.resolve_left (by simp))
        obtain ⟨place, hplace⟩ := Disk.exists_place_of_children? hchild
        unfold tableFinding? at hfinding
        split at hfinding
        · rename_i content heq
          cases heq
          split at hfinding
          · split at hfinding
            · rename_i read hread
              cases hfinding
              exact ⟨place, content, hplace, file_of_readTable hread⟩
            · cases hfinding
          · cases hfinding
        · cases hfinding

end DataDirectory

namespace Store

/-- The tables that are there once findings are taken in are among the findings. -/
theorem holds_gather {store : Store} {findings : List Finding} {database name : String}
    {table : Table} (h : (store.gather findings).2.Holds database name table) :
    store.Holds database name table ∨ ∃ database', Finding.table database' table ∈ findings := by
  induction findings generalizing store with
  | nil => exact .inl h
  | cons finding findings ih =>
    cases finding with
    | failed e => exact .inl h
    | database new =>
      rcases ih h with hholds | ⟨database', hmem⟩
      · exact .inl (holds_insert_iff.mp hholds).2
      · exact .inr ⟨database', List.mem_cons_of_mem _ hmem⟩
    | table database' put =>
      rcases ih h with hholds | ⟨other, hmem⟩
      · refine (holds_put hholds).imp_right fun ⟨_, htable⟩ => ⟨database', ?_⟩
        rw [htable]
        exact List.mem_cons_self
      · exact .inr ⟨other, List.mem_cons_of_mem _ hmem⟩

end Store

/-- The tables of an opened storage are those of files, whatever the disk holds. -/
theorem Storage.exists_file_of_holds {disk : Disk} {path : Path} {database name : String}
    {table : Table} (h : (Storage.ofDirectory disk path).store.Holds database name table) :
    ∃ place content, disk.entries.get? place = some (.file content) ∧
      TableFile.decode (content.bytes ()) = .ok ⟨table.schema, table.rows⟩ := by
  have hread (disk : Disk) (h : (DataDirectory.read ⟨disk, path⟩).2.Holds database name table) :
      ∃ place content, disk.entries.get? place = some (.file content) ∧
        TableFile.decode (content.bytes ()) = .ok ⟨table.schema, table.rows⟩ := by
    rw [DataDirectory.read_eq_gather] at h
    rcases Store.holds_gather h with hholds | ⟨database', hmem⟩
    · have hnone : Store.empty.All fun _ => False := Store.all_empty
      exact (hnone database name table hholds).elim
    · exact DataDirectory.exists_file_of_mem_findings hmem
  unfold Storage.ofDirectory at h
  dsimp only at h
  split at h
  · exact hread disk h
  · obtain ⟨place, content, hplace, hcontent⟩ := hread _ h
    exact ⟨place, content, Disk.get?_makeDirectory hplace, hcontent⟩

end Relational
