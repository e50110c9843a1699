import Relational.Proofs.Disk.Walk
import Relational.Proofs.Pattern
import Relational.Storage

/-!
# Names of files

Names that are words have no dots and no slashes, so the name of a file tells the table that it
belongs to (`Table.IsWorded.isFileOf`), and the files of a table have different names
(`Table.IsWorded.content_eq`). The names of directories and files are plain: a path that ends in one
leads to what has this name.
-/

namespace Relational

open DataDirectory (tableFileName indexFileName isFileOf isTableFile)

/-! ## Words -/

variable {s t : String}

theorem IsWord.not_mem (h : IsWord s) {c : Char} (hc : isWordChar c = false) : c ∉ s.toList :=
  fun hmem => by simp [h.2 c hmem] at hc

theorem IsWord.isPlain (h : IsWord s) : Path.IsPlain s := by
  have hdot : '.' ∉ s.toList := h.not_mem (by decide)
  refine ⟨h.not_mem (by decide), ?_, ?_⟩
  · rw [Path.stays, Bool.or_eq_false_iff, beq_eq_false_iff_ne, beq_eq_false_iff_ne]
    refine ⟨h.1, ?_⟩
    rintro rfl
    exact hdot (by decide)
  · rintro rfl
    exact hdot (by decide)

/-- A name with a long ending is plain, if it has no slashes. -/
theorem isPlain_append (hs : '/' ∉ s.toList) (ht : '/' ∉ t.toList) (hlength : 2 < t.length) :
    Path.IsPlain (s ++ t) := by
  have hne {name : String} (hname : name.length ≤ 2) : s ++ t ≠ name := by
    rintro rfl
    rw [String.length_append] at hname
    omega
  refine ⟨?_, ?_, hne (by decide)⟩
  · rw [String.toList_append, List.mem_append, not_or]
    exact ⟨hs, ht⟩
  · rw [Path.stays, Bool.or_eq_false_iff, beq_eq_false_iff_ne, beq_eq_false_iff_ne]
    exact ⟨hne (by decide), hne (by decide)⟩

/-! ## Names of files -/

variable {table table' index index' : String}

theorem isPlain_tableFileName (h : IsWord table) : Path.IsPlain (tableFileName table) :=
  isPlain_append (h.not_mem (by decide)) (by decide) (by decide)

theorem isPlain_indexFileName (h : IsWord table) (h' : IsWord index) :
    Path.IsPlain (indexFileName table index) := by
  refine isPlain_append ?_ (by decide) (by decide)
  rw [String.toList_append, String.toList_append, List.mem_append, List.mem_append, not_or, not_or]
  exact ⟨⟨h.not_mem (by decide), by decide⟩, h'.not_mem (by decide)⟩

theorem toList_indexFileName (table index : String) :
    (indexFileName table index).toList =
      table.toList ++ '.' :: (index.toList ++ ".idx".toList) := by
  simp [indexFileName]

theorem tableFileName_inj : tableFileName table = tableFileName table' ↔ table = table' := by
  rw [← String.toList_inj, ← String.toList_inj]
  simp [tableFileName]

/-- The names of tables and indexes end differently. -/
theorem getLast?_tableFileName (table : String) :
    (tableFileName table).toList.getLast? = some 'n' := by
  rw [tableFileName, String.toList_append, List.getLast?_append]
  rfl

theorem getLast?_indexFileName (table index : String) :
    (indexFileName table index).toList.getLast? = some 'x' := by
  rw [indexFileName, String.toList_append, List.getLast?_append]
  rfl

theorem tableFileName_ne_indexFileName : tableFileName table ≠ indexFileName table' index := by
  intro h
  have hlast := congrArg (·.toList.getLast?) h
  rw [getLast?_tableFileName, getLast?_indexFileName] at hlast
  simp at hlast

/-- What stands in front of the first dot. -/
theorem takeWhile_dot {s rest : List Char} (h : '.' ∉ s) :
    (s ++ '.' :: rest).takeWhile (· != '.') = s := by
  rw [List.takeWhile_append_of_pos, List.takeWhile_cons_of_neg (by simp), List.append_nil]
  intro c hc
  rw [bne_iff_ne]
  rintro rfl
  exact h hc

theorem indexFileName_inj (h : IsWord table) (h' : IsWord table') :
    indexFileName table index = indexFileName table' index' ↔ table = table' ∧ index = index' := by
  refine ⟨fun he => ?_, fun he => by rw [he.1, he.2]⟩
  have hdot : isWordChar '.' = false := by decide
  have hlist := congrArg String.toList he
  rw [toList_indexFileName, toList_indexFileName] at hlist
  have htable : table.toList = table'.toList := by
    have htake := congrArg (List.takeWhile (· != '.')) hlist
    rwa [takeWhile_dot (h.not_mem hdot), takeWhile_dot (h'.not_mem hdot)] at htake
  rw [htable, List.append_cancel_left_eq, List.cons.injEq, List.append_cancel_right_eq] at hlist
  exact ⟨String.toList_inj.mp htable, String.toList_inj.mp hlist.2⟩

/-! ## Files of tables -/

theorem isFileOf_tableFileName : isFileOf table (tableFileName table') = true ↔ table = table' := by
  have hsuffix : ".idx".toList.isSuffixOf (tableFileName table').toList = false := by
    rw [Bool.eq_false_iff, ne_eq, List.isSuffixOf_iff_suffix]
    rintro ⟨before, h⟩
    have hlast := congrArg List.getLast? h
    rw [getLast?_tableFileName, List.getLast?_append] at hlast
    simp at hlast
  rw [isFileOf, hsuffix, Bool.and_false, Bool.or_false, beq_iff_eq, tableFileName_inj, eq_comm]

theorem isFileOf_indexFileName (h : IsWord table) (h' : IsWord table') :
    isFileOf table (indexFileName table' index) = true ↔ table = table' := by
  have hdot : isWordChar '.' = false := by decide
  rw [isFileOf, Bool.or_eq_true, beq_iff_eq, Bool.and_eq_true, List.isPrefixOf_iff_prefix,
    List.isSuffixOf_iff_suffix]
  constructor
  · rintro (he | ⟨⟨rest, he⟩, -⟩)
    · exact absurd he.symm tableFileName_ne_indexFileName
    · rw [toList_indexFileName, String.toList_append, List.append_assoc] at he
      have htake := congrArg (List.takeWhile (· != '.')) he
      rw [takeWhile_dot (h'.not_mem hdot)] at htake
      rw [← String.toList_inj, ← htake]
      exact (takeWhile_dot (h.not_mem hdot)).symm
  · rintro rfl
    refine .inr ⟨⟨index.toList ++ ".idx".toList, ?_⟩, ⟨table.toList ++ '.' :: index.toList, ?_⟩⟩
    · simp [toList_indexFileName]
    · simp [toList_indexFileName]

theorem isTableFile_tableFileName (h : IsWord table) : isTableFile (tableFileName table) = true := by
  have hlength : 0 < table.length := by
    rw [Nat.pos_iff_ne_zero, ne_eq, String.length_eq_zero_iff]
    exact h.1
  rw [isTableFile, Bool.and_eq_true, List.isSuffixOf_iff_suffix, decide_eq_true_iff, tableFileName,
    String.length_append, String.toList_append]
  exact ⟨List.suffix_append _ _, by omega⟩

theorem isTableFile_indexFileName : isTableFile (indexFileName table index) = false := by
  rw [isTableFile, Bool.and_eq_false_iff]
  left
  rw [Bool.eq_false_iff, ne_eq, List.isSuffixOf_iff_suffix]
  rintro ⟨before, h⟩
  have hlast := congrArg List.getLast? h
  rw [getLast?_indexFileName, List.getLast?_append] at hlast
  simp at hlast

namespace Table

/-- The name of the table and those of its indexes are words. -/
structure IsWorded (table : Table) : Prop where
  name : IsWord table.schema.name
  index (name : String) : table.indexes.contains name = true → IsWord name

/-- The names and contents of the files of a table. -/
def files (table : Table) : List (String × Content) :=
  (tableFileName table.schema.name, ⟨fun _ => TableFile.encode ⟨table.schema, table.rows⟩⟩) ::
    table.indexes.entries.map fun (name, index) =>
      (indexFileName table.schema.name name, ⟨fun _ => IndexFile.encode index⟩)

variable {table : Table} {file : String} {content : Content}

theorem mem_files_iff : (file, content) ∈ table.files ↔
    (file = tableFileName table.schema.name ∧
      content = ⟨fun _ => TableFile.encode ⟨table.schema, table.rows⟩⟩) ∨
    ∃ name index, table.indexes.get? name = some index ∧
      file = indexFileName table.schema.name name ∧ content = ⟨fun _ => IndexFile.encode index⟩ := by
  rw [files, List.mem_cons, Prod.mk.injEq, List.mem_map]
  refine or_congr_right ⟨?_, ?_⟩
  · rintro ⟨⟨name, index⟩, hmem, he⟩
    obtain ⟨hfile, hcontent⟩ := Prod.mk.inj he
    exact ⟨name, index, SortedMap.mem_entries_iff.mp hmem, hfile.symm, hcontent.symm⟩
  · rintro ⟨name, index, hindex, rfl, rfl⟩
    exact ⟨(name, index), SortedMap.mem_entries_iff.mpr hindex, rfl⟩

theorem IsWorded.isPlain (h : table.IsWorded) (hfile : (file, content) ∈ table.files) :
    Path.IsPlain file := by
  rcases mem_files_iff.mp hfile with ⟨rfl, -⟩ | ⟨name, index, hindex, rfl, -⟩
  · exact isPlain_tableFileName h.name
  · exact isPlain_indexFileName h.name (h.index name (SortedMap.contains_of_get? hindex))

/-- A file of a table is taken for one of this table and of no other. -/
theorem IsWorded.isFileOf (h : table.IsWorded) (hfile : (file, content) ∈ table.files)
    {name : String} (hname : IsWord name) :
    isFileOf name file = true ↔ name = table.schema.name := by
  rcases mem_files_iff.mp hfile with ⟨rfl, -⟩ | ⟨_, index, _, rfl, -⟩
  · exact isFileOf_tableFileName
  · exact isFileOf_indexFileName hname h.name

/-- The files of a table have different names. -/
theorem IsWorded.content_eq (h : table.IsWorded) {content' : Content}
    (hfile : (file, content) ∈ table.files) (hfile' : (file, content') ∈ table.files) :
    content = content' := by
  rcases mem_files_iff.mp hfile with ⟨rfl, rfl⟩ | ⟨name, index, hindex, rfl, rfl⟩
  · rcases mem_files_iff.mp hfile' with ⟨-, rfl⟩ | ⟨name', index', -, hname, -⟩
    · rfl
    · exact absurd hname tableFileName_ne_indexFileName
  · rcases mem_files_iff.mp hfile' with ⟨hname, -⟩ | ⟨name', index', hindex', hname, rfl⟩
    · exact absurd hname.symm tableFileName_ne_indexFileName
    · obtain ⟨-, rfl⟩ := (indexFileName_inj h.name h.name).mp hname
      rw [Option.some.inj (hindex.symm.trans hindex')]

end Table

end Relational
