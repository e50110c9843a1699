import Relational.Proofs.Storage.FileName
import Relational.Proofs.Table.Sound

/-!
# What a store has on a disk

Below the directory of a store there is a directory for each database, and in it the files of its
tables (`Store.HasEntry`). Where names are words, the files of different tables have different names;
so what an operation leaves there is said place by place: `hasEntry_insert_iff`, `hasEntry_erase_iff`,
`IsWorded.hasEntry_put_iff` and `IsWorded.hasEntry_eraseTable_iff`. Names are words as long as operations
give words for names (`IsWorded.after`).
-/

namespace Relational

open DataDirectory (tableFileName indexFileName isFileOf)

namespace Store

/-! ## Entries -/

/-- The names in the store are words, and every table is under its own name. -/
structure IsWorded (store : Store) : Prop where
  database (name : String) : store.databases.contains name = true → IsWord name
  table : store.All Table.IsWorded
  named : store.Named

/-- What stands at a place below the directory of the store. -/
inductive HasEntry (store : Store) : List String → DiskEntry → Prop
  | database {database : String} : store.databases.contains database = true →
    HasEntry store [database] .directory
  | file {database name file : String} {table : Table} {content : Content} :
    store.Holds database name table → (file, content) ∈ table.files →
      HasEntry store [database, file] (.file content)

variable {store : Store} {database name file : String} {table : Table} {content : Content}
  {rest : List String} {entry : DiskEntry}

theorem hasEntry_database_iff :
    store.HasEntry [database] entry ↔
      store.databases.contains database = true ∧ entry = .directory := by
  constructor
  · rintro ⟨⟩
    exact ⟨‹_›, rfl⟩
  · rintro ⟨h, rfl⟩
    exact .database h

theorem hasEntry_file_iff :
    store.HasEntry [database, file] entry ↔ ∃ name table content,
      store.Holds database name table ∧ (file, content) ∈ table.files ∧ entry = .file content := by
  constructor
  · rintro ⟨⟩
    exact ⟨_, _, _, ‹_›, ‹_›, rfl⟩
  · rintro ⟨name, table, content, hholds, hfile, rfl⟩
    exact .file hholds hfile

theorem IsWorded.isPlain_file (h : store.IsWorded) (hholds : store.Holds database name table)
    (hfile : (file, content) ∈ table.files) : Path.IsPlain file :=
  (h.table database name table hholds).isPlain hfile

/-- A file in the directory of a database is one of a table if it has the name of one of its files. -/
theorem IsWorded.eq_of_isFileOf (h : store.IsWorded) (hholds : store.Holds database name table)
    (hfile : (file, content) ∈ table.files) {other : String} (hother : IsWord other) :
    isFileOf other file = true ↔ other = name := by
  rw [(h.table database name table hholds).isFileOf hfile hother,
    h.named database name table hholds]

/-! ## What operations leave there -/

theorem hasEntry_insert_iff (hnew : store.databases.contains name = false) :
    (Store.mk (store.databases.insert name .empty)).HasEntry rest entry ↔
      rest = [name] ∧ entry = .directory ∨ store.HasEntry rest entry := by
  constructor
  · rintro (hdatabase | ⟨⟨tables, htables, htable⟩, hfile⟩)
    · rw [SortedMap.contains_insert, Bool.or_eq_true, decide_eq_true_iff] at hdatabase
      exact hdatabase.imp (fun he => ⟨by rw [he], rfl⟩) .database
    · exact .inr (.file (holds_insert_iff.mp ⟨tables, htables, htable⟩).2 hfile)
  · rintro (⟨rfl, rfl⟩ | hdatabase | ⟨⟨tables, htables, htable⟩, hfile⟩)
    · exact .database (by rw [SortedMap.contains_insert]; simp)
    · exact .database (by rw [SortedMap.contains_insert, hdatabase, Bool.or_true])
    · refine .file ⟨tables, ?_, htable⟩ hfile
      rw [SortedMap.get?_insert, if_neg, htables]
      rintro rfl
      rw [SortedMap.contains_of_get? htables] at hnew
      cases hnew

theorem hasEntry_erase_iff {first : String} :
    (Store.mk (store.databases.erase name)).HasEntry (first :: rest) entry ↔
      first ≠ name ∧ store.HasEntry (first :: rest) entry := by
  constructor
  · rintro (hdatabase | ⟨hholds, hfile⟩)
    · rw [SortedMap.contains_erase, Bool.and_eq_true, decide_eq_true_iff] at hdatabase
      exact ⟨hdatabase.1, .database hdatabase.2⟩
    · obtain ⟨hne, hholds⟩ := holds_erase_iff.mp hholds
      exact ⟨hne, .file hholds hfile⟩
  · rintro ⟨hne, hdatabase | ⟨hholds, hfile⟩⟩
    · exact .database (by rw [SortedMap.contains_erase, hdatabase]; simp [hne])
    · exact .file (holds_erase_iff.mpr ⟨hne, hholds⟩) hfile

/-- Where a table was put is a file of it, or what was there and is not one of its files. -/
theorem IsWorded.hasEntry_put_iff (hstore : store.IsWorded)
    (hdatabase : store.databases.contains database = true) (htable : table.IsWorded)
    (hindexes : ∀ old, store.Holds database table.schema.name old → ∀ index,
      old.indexes.contains index = true → table.indexes.contains index = true) :
    (store.put database table).HasEntry rest entry ↔
      (∃ file content, (file, content) ∈ table.files ∧ rest = [database, file] ∧
        entry = .file content) ∨
      (∀ file content, (file, content) ∈ table.files → rest ≠ [database, file]) ∧
        store.HasEntry rest entry := by
  constructor
  · rintro (hother | ⟨hholds, hfile⟩)
    · rw [Store.put, SortedMap.contains_insert, Bool.or_eq_true, decide_eq_true_iff] at hother
      refine .inr ⟨by simp, .database ?_⟩
      rcases hother with rfl | hother
      · exact hdatabase
      · exact hother
    · rename_i other name file old content
      rcases holds_put_iff.mp hholds with ⟨rfl, rfl, rfl⟩ | ⟨hne, hold⟩
      · exact .inl ⟨file, content, hfile, rfl, rfl⟩
      · refine .inr ⟨fun written again hwritten he => hne ?_, .file hold hfile⟩
        obtain ⟨rfl, rfl⟩ : other = database ∧ file = written := by simpa using he
        exact ⟨rfl, ((hstore.eq_of_isFileOf hold hfile htable.name).mp
          ((htable.isFileOf hwritten htable.name).mpr rfl)).symm⟩
  · rintro (⟨file, content, hfile, rfl, rfl⟩ | ⟨hnone, hother | ⟨hold, hfile⟩⟩)
    · exact .file (holds_put_iff.mpr (.inl ⟨rfl, rfl, rfl⟩)) hfile
    · refine .database ?_
      rw [Store.put, SortedMap.contains_insert, hother, Bool.or_true]
    · rename_i other name file old content
      refine .file (holds_put_iff.mpr (.inr ⟨?_, hold⟩)) hfile
      rintro ⟨rfl, rfl⟩
      -- The table that was there has no file that the new one has not.
      rw [Table.mem_files_iff, ← hstore.named _ _ _ hold] at hfile
      rcases hfile with ⟨rfl, -⟩ | ⟨index, _, hindex, rfl, -⟩
      · exact hnone _ _ (Table.mem_files_iff.mpr (.inl ⟨rfl, rfl⟩)) rfl
      · obtain ⟨new, hnew⟩ := SortedMap.contains_iff.mp
          (hindexes old hold index (SortedMap.contains_of_get? hindex))
        exact hnone _ _ (Table.mem_files_iff.mpr (.inr ⟨index, new, hnew, rfl, rfl⟩)) rfl

theorem IsWorded.hasEntry_eraseTable_iff (hstore : store.IsWorded) (hname : IsWord name)
    {tables : Database} (htables : store.databases.get? database = some tables) :
    (Store.mk (store.databases.insert database (tables.erase name))).HasEntry rest entry ↔
      (∀ file, rest = [database, file] → isFileOf name file = false) ∧
        store.HasEntry rest entry := by
  constructor
  · rintro (hother | ⟨hother, hfile⟩)
    · rw [SortedMap.contains_insert, Bool.or_eq_true, decide_eq_true_iff] at hother
      refine ⟨by simp, .database ?_⟩
      rcases hother with rfl | hother
      · exact SortedMap.contains_of_get? htables
      · exact hother
    · obtain ⟨hne, hold⟩ := (holds_eraseTable_iff htables).mp hother
      refine ⟨fun file he => Bool.eq_false_iff.mpr fun hof => hne ?_, .file hold hfile⟩
      obtain ⟨rfl, rfl⟩ := by simpa using he
      exact ⟨rfl, ((hstore.eq_of_isFileOf hold hfile hname).mp hof).symm⟩
  · rintro ⟨hnone, hother | ⟨hold, hfile⟩⟩
    · refine .database ?_
      rw [SortedMap.contains_insert, hother, Bool.or_true]
    · refine .file ((holds_eraseTable_iff htables).mpr ⟨?_, hold⟩) hfile
      rintro ⟨rfl, rfl⟩
      have hof := (hstore.eq_of_isFileOf hold hfile hname).mpr rfl
      rw [hnone _ rfl] at hof
      nomatch hof

/-! ## Names that are given -/

/-- The names that the operation gives are words. -/
def Operation.IsWorded : Operation → Prop
  | .createDatabase name => IsWord name
  | .createTable _ schema => IsWord schema.name ∧ ∀ d ∈ schema.indexes, IsWord d.name
  | .createIndex _ _ definition => IsWord definition.name
  | _ => True

theorem Operation.Makes.isWorded {op : Operation} (h : op.Makes table) (hop : op.IsWorded) :
    table.IsWorded := by
  cases h with
  | createTable database hkeys hfound =>
    refine ⟨?_, fun name hname => ?_⟩
    · rw [Table.schema_ofSchema]
      exact hop.1
    · rw [Table.ofSchema, Table.contains_indexes_foldl_buildIndex, SortedMap.contains,
        SortedMap.get?_empty] at hname
      obtain ⟨d, hd, rfl⟩ := hname.resolve_left (by rintro ⟨⟩)
      exact hop.2 d hd

theorem Operation.Changes.isWorded {op : Operation} {table' : Table} (h : op.Changes table table')
    (hop : op.IsWorded) (htable : table.IsWorded) : table'.IsWorded := by
  refine ⟨h.schema_name ▸ htable.name, fun name hname => ?_⟩
  cases h with
  | createIndex database _ h =>
    obtain ⟨-, -, -, rfl⟩ := Table.createIndex_eq_ok_iff.mp h
    rw [SortedMap.contains_insert, Bool.or_eq_true, decide_eq_true_iff] at hname
    rcases hname with rfl | hname
    · exact hop
    · exact htable.index name hname
  | insertRow database _ h =>
    obtain ⟨_, -, -, -, -, -, rfl⟩ := Table.insert_eq_ok_iff.mp h
    rw [SortedMap.contains_map] at hname
    exact htable.index name hname
  | deleteRows =>
    rw [Table.delete, SortedMap.contains_map] at hname
    exact htable.index name hname

/-- No operation makes a database but the one that is for it. -/
theorem contains_of_result {op : Operation} {store' : Store} (hop : store.result op = .ok store')
    (h : store'.databases.contains database = true) :
    store.databases.contains database = true ∨ op = .createDatabase database := by
  cases step_of_result hop with
  | createDatabase =>
    rw [SortedMap.contains_insert, Bool.or_eq_true, decide_eq_true_iff] at h
    exact h.symm.imp_right fun he => by rw [he]
  | dropDatabase =>
    rw [SortedMap.contains_erase, Bool.and_eq_true] at h
    exact .inl h.2
  | createTable htables =>
    obtain rfl | h := contains_put.mp h
    · exact .inl (SortedMap.contains_of_get? htables)
    · exact .inl h
  | dropTable htables =>
    rw [SortedMap.contains_insert, Bool.or_eq_true, decide_eq_true_iff] at h
    obtain rfl | h := h
    · exact .inl (SortedMap.contains_of_get? htables)
    · exact .inl h
  | change _ hold =>
    obtain rfl | h := contains_put.mp h
    · exact .inl hold.contains
    · exact .inl h

theorem IsWorded.after {op : Operation} (h : store.IsWorded) (hop : op.IsWorded) :
    (store.after op).IsWorded := by
  refine ⟨fun name hname => ?_, h.table.after (fun _ hmakes => hmakes.isWorded hop)
    fun _ _ htable hchanges => hchanges.isWorded hop htable, h.named.run [op]⟩
  rw [Store.after] at hname
  split at hname
  · rename_i store' hresult
    rcases contains_of_result hresult hname with hold | rfl
    · exact h.database name hold
    · exact hop
  · exact h.database name hname

theorem IsWorded.run {ops : List Operation} (h : store.IsWorded) (hops : ∀ op ∈ ops, op.IsWorded) :
    (store.run ops).IsWorded := by
  induction ops generalizing store with
  | nil => exact h
  | cons op ops ih =>
    obtain ⟨hop, hops⟩ := List.forall_mem_cons.mp hops
    exact ih (h.after hop) hops

theorem isWorded_empty : empty.IsWorded := by
  refine ⟨fun database hdatabase => ?_, all_empty, named_empty⟩
  rw [empty, SortedMap.contains, SortedMap.get?_empty] at hdatabase
  cases hdatabase

end Store

end Relational
