import Relational.Proofs.Statement.Select

/-!
# Conditions behind a table

The texts of a selection and of a deletion that have a table and, behind `WHERE`, a condition, whatever
the table is called and whatever the condition is, as long as it stands on one line. A selection takes
`WHERE` for an alias of the table first, and the query is faulty where the rest can be read behind that;
otherwise it is read as it is meant (`Script.batches_filteredSelect`). Which of the two happens, its
list has no part in. A deletion knows no alias (`Script.batches_filteredDelete`).
-/

namespace Relational

open Text (Begins IsUnbroken spells)
open Relational.Written (lead lead_append keywords isUpper_of_mem isUnbroken_of_mem
  isWordChar_of_mem begins_cons)

/-! ## Texts -/

namespace Written

variable {list : SelectList} {table : String} {condition : List Char}

/-- What stands between a keyword and a condition: a table and `WHERE`. -/
def toWhere (table : String) : List Char :=
  table.toList ++ ' ' :: "WHERE".toList

/-- What stands behind `WHERE`, with no blanks left at its end. -/
def fromWhere (condition : List Char) : List Char :=
  Text.trimEnd (' ' :: condition)

/-- What stands before the table of a selection. -/
def selectStart (list : SelectList) : List Char :=
  lead "SELECT" ++ list.text ++ ' ' :: lead "FROM"

/-- What stands before the table of a deletion. -/
def deleteStart : List Char :=
  lead "DELETE" ++ lead "FROM"

/-- A selection from a table with a condition. -/
def filteredSelect (list : SelectList) (table : String) (condition : List Char) : List Char :=
  selectStart list ++ (toWhere table ++ ' ' :: condition)

/-- A deletion from a table with a condition. -/
def filteredDelete (table : String) (condition : List Char) : List Char :=
  deleteStart ++ (toWhere table ++ ' ' :: condition)

theorem begins_fromWhere (condition : List Char) : Begins isBlank (fromWhere condition) :=
  Text.begins_trimEnd (begins_cons _)

theorem ends_toWhere (table : String) : Text.Ends (toWhere table) :=
  ((isUnbroken_of_mem (by simp [keywords])).ends.append [' ']).append table.toList

theorem begins_toWhere (h : IsWord table) (s : List Char) :
    Begins (!isBlank ·) (toWhere table ++ s) := by
  rw [toWhere, List.append_assoc]
  exact h.isUnbroken.begins _

/-- Only blanks behind the condition are trimmed off a statement. -/
theorem trim_where {start : List Char} (h : Begins (!isBlank ·) start) (hne : start ≠ []) :
    Text.trim (start ++ (toWhere table ++ ' ' :: condition)) =
      start ++ (toWhere table ++ fromWhere condition) := by
  have hbegins : Begins (!isBlank ·) (start ++ (toWhere table ++ ' ' :: condition)) := by
    obtain ⟨c, start, rfl⟩ := List.exists_cons_of_ne_nil hne
    exact h
  rw [Text.trim, Text.trimStart_eq_self hbegins, ← List.append_assoc,
    ((ends_toWhere table).append start).trimEnd_append, List.append_assoc, fromWhere]

/-- What a condition leaves, with its `WHERE`, when no blanks are left behind it. -/
theorem where_fromWhere (condition : Condition) :
    ' ' :: ("WHERE".toList ++ fromWhere condition.text) = trimmed (some condition) := by
  have hrest := Text.trimEnd_eq_append condition.trim_ne_nil
  have hends : Text.trimEnd condition.text ≠ [] := fun hnil =>
    condition.trim_ne_nil (List.append_eq_nil_iff.mp (hrest ▸ hnil)).2
  have hfrom : fromWhere condition.text = ' ' :: Text.trimEnd condition.text :=
    Text.trimEnd_append [' '] hends
  rw [hfrom, hrest]
  rfl

/-- A statement stands on one line if its condition does. -/
theorem isOneLine_where {start : List Char} (hstart : ∀ c ∈ start, isPlain c = true)
    (hword : IsWord table) (h : isOneLine false condition = true) :
    isOneLine false (start ++ (toWhere table ++ ' ' :: condition)) = true := by
  have hwhere : ∀ c ∈ toWhere table ++ [' '], isPlain c = true := by
    have hend : ∀ c ∈ ' ' :: "WHERE".toList ++ [' '], isPlain c = true :=
      List.all_eq_true.mp (by decide)
    rw [toWhere, List.append_assoc]
    exact List.forall_mem_append.mpr ⟨fun c hc => isPlain_of_isWordChar (hword.2 c hc), hend⟩
  rw [isOneLine_append hstart, List.append_cons, isOneLine_append hwhere]
  exact h

end Written

/-! ## Reading -/

namespace Pattern

variable {α β : Type}

variable {columns table columns' table' : Stretch} {s : List Char}

/-- What stands before does not matter to what is read behind a table. -/
theorem behindTable_eq_map (columns table columns' table' : Stretch) (s : List Char) :
    behindTable columns table s =
      (behindTable columns' table' s).map fun r => ((columns, table, r.1.2.2), r.2) := by
  have hmap : behindTable columns table =
      (fun read => (columns, table, read.2.2)) <$> behindTable columns' table' := by
    simp only [behindTable, map_eq_pure_bind, bind_assoc, pure_bind]
  rw [hmap, map_apply]

theorem eq_nil_of_mem_behindTable {r : (Stretch × Stretch × Stretch × Option (List Char)) × List Char}
    (h : r ∈ behindTable columns table s) : r.2 = [] := by
  simp only [behindTable, bind_apply, List.mem_flatMap] at h
  obtain ⟨_, -, ⟨condition, rest⟩, -, ⟨_, rest'⟩, hfinish, h⟩ := h
  cases rest with
  | nil =>
    obtain ⟨-, rfl⟩ := Prod.mk.inj (List.mem_singleton.mp hfinish)
    rw [List.mem_singleton.mp h]
  | cons c rest => nomatch hfinish

/-- Where something is read behind a table, the joins and the condition do not depend on what stands
before. -/
theorem exists_first?_behindTable (h : behindTable columns table s ≠ []) :
    ∃ joins condition, ∀ columns table,
      (behindTable columns table).first? s = some ((columns, table, joins, condition), []) := by
  obtain ⟨⟨⟨_, _, joins, condition⟩, rest⟩, more, hreadings⟩ := List.exists_cons_of_ne_nil h
  have hmem : ((_, _, joins, condition), rest) ∈ behindTable columns table s :=
    hreadings ▸ List.mem_cons_self
  obtain rfl : rest = [] := eq_nil_of_mem_behindTable hmem
  refine ⟨joins, condition, fun columns' table' => ?_⟩
  rw [first?, behindTable_eq_map columns' table' columns table, hreadings]
  rfl

/-- A condition is read behind a table, and no join before it. -/
theorem first?_trimmed (condition : Option Written.Condition) (columns table : Stretch) :
    (behindTable columns table).first? (Written.trimmed condition) =
      some ((columns, table, ⟨Written.trimmed condition, Written.trimmed condition⟩,
        condition.map (Text.trim ·.text)), []) := by
  have hstar : first? (star joined) (Written.trimmed condition) =
      some ((), Written.trimmed condition) :=
    first?_star_joined [] (Written.begins_trimmed condition) (joined_trimmed condition)
  exact first?_stretch hstar (first?_condition? condition rfl)

/-- Behind a table without an alias, `WHERE` is taken for one first. -/
theorem aliasedTable_where {k : Stretch → Pattern α} {table : String} (hword : IsWord table)
    {rest : List Char} (hrest : Begins isBlank rest) :
    (stretch aliasedTable >>= k) (Written.toWhere table ++ rest) =
      k ⟨Written.toWhere table ++ rest, rest⟩ rest ++
        k ⟨Written.toWhere table ++ rest, ' ' :: ("WHERE".toList ++ rest)⟩
          (' ' :: ("WHERE".toList ++ rest)) := by
  have hwhere := isUnbroken_of_mem (show "WHERE" ∈ keywords by simp [keywords])
  rw [Written.toWhere, List.append_assoc, List.cons_append,
    aliasedTable_word hword.isUnbroken.ne_nil hword.2 (begins_cons _), optional_bind,
    aliasName_word hwhere.ne_nil (isWordChar_of_mem (by simp [keywords])) (by decide) hrest,
    since_apply, since_apply]

end Pattern

namespace Statement

variable {list : Written.SelectList} {table : String} {condition : List Char}

/-- Where something can be read behind the first `WHERE`, this is taken for an alias of the table. -/
theorem read?_aliased (hword : IsWord table) {columns place : Pattern.Stretch}
    (h : Pattern.behindTable columns place (Written.fromWhere condition) ≠ [])
    (list : Written.SelectList) :
    read? (Written.selectStart list ++ (Written.toWhere table ++ Written.fromWhere condition)) =
      some (.faulty .select (.reservedAlias "WHERE")) := by
  obtain ⟨joins, read, hread⟩ := Pattern.exists_first?_behindTable h
  have hquery := read?_query list (Written.begins_toWhere hword _) fun columns => by
    rw [Pattern.first?, Pattern.aliasedTable_where hword (Written.begins_fromWhere condition)]
    exact Pattern.first?_append (hread columns _)
  have hwords : Text.words (Written.toWhere table) = [table.toList, "WHERE".toList] := by
    rw [Written.toWhere, Text.words_cons hword.isUnbroken,
      Text.words_unbroken (isUnbroken_of_mem (by simp [keywords]))]
  have htable : readTable (Written.toWhere table) = .error (.reservedAlias "WHERE") := by
    rw [readTable, hwords]
    rfl
  rw [Pattern.Stretch.text_append, readSelect, htable] at hquery
  simp only [Written.selectStart, List.append_assoc, List.cons_append]
  exact hquery

/-- Otherwise the query is read as it is meant. -/
theorem read?_where (hword : IsWord table) {columns place : Pattern.Stretch}
    (condition : Written.Condition)
    (h : Pattern.behindTable columns place (Written.fromWhere condition.text) = [])
    (list : Written.SelectList) :
    read? (Written.selectStart list ++ (Written.toWhere table ++ Written.fromWhere condition.text)) =
      some (.select ⟨list.text, table, none, [], some (Text.trim condition.text)⟩) := by
  have hnone (columns table : Pattern.Stretch) :
      Pattern.behindTable columns table (Written.fromWhere condition.text) = [] := by
    rw [Pattern.behindTable_eq_map columns table, h, List.map_nil]
  have hquery := read?_query list (Written.begins_toWhere hword _) fun columns => by
    rw [Pattern.first?, Pattern.aliasedTable_where hword (Written.begins_fromWhere condition.text),
      hnone, List.nil_append, Written.where_fromWhere]
    exact Pattern.first?_trimmed (some condition) columns _
  have htext : Written.toWhere table ++ Written.fromWhere condition.text =
      table.toList ++ Written.trimmed (some condition) := by
    rw [Written.toWhere, List.append_assoc, List.cons_append, Written.where_fromWhere]
  have hjoins : Pattern.Stretch.text
      ⟨Written.trimmed (some condition), Written.trimmed (some condition)⟩ = [] :=
    Pattern.Stretch.text_append [] _
  have htable : readTable table.toList = .ok (table, none) := by
    rw [readTable, Text.words_unbroken hword.isUnbroken]
    simp only [ok_bind, pure_eq_ok, String.ofList_toList]
  rw [htext] at hquery ⊢
  rw [Pattern.Stretch.text_append, hjoins, readSelect, htable] at hquery
  simp only [Written.selectStart, List.append_assoc, List.cons_append]
  exact hquery

/-- A deletion is read as it is meant. -/
theorem read?_delete (hword : IsWord table) (condition : Written.Condition) :
    read? (Written.deleteStart ++ (Written.toWhere table ++ Written.fromWhere condition.text)) =
      some (.delete table (some (Text.trim condition.text))) := by
  have hstart (s : List Char) :
      Written.deleteStart ++ s = "DELETE".toList ++ ' ' :: ("FROM".toList ++ ' ' :: s) := by
    rw [Written.deleteStart, List.append_assoc, lead_append, lead_append]
  have htext : Written.toWhere table ++ Written.fromWhere condition.text =
      table.toList ++ Written.trimmed (some condition) := by
    rw [Written.toWhere, List.append_assoc, List.cons_append, Written.where_fromWhere]
  have hdelete : Pattern.delete.first?
      (Written.deleteStart ++ (table.toList ++ Written.trimmed (some condition))) =
        some ((table, some (Text.trim condition.text)), []) := by
    rw [hstart, Pattern.first?, Pattern.delete, Pattern.named, Pattern.opening]
    simp only [bind_assoc, Pattern.name]
    rw [Pattern.keyword_gap_bind (List.all_eq_true.mp (by decide))
        ((isUnbroken_of_mem (by simp [keywords])).begins _),
      Pattern.keyword_gap_bind (List.all_eq_true.mp (by decide)) (hword.isUnbroken.begins _),
      Pattern.word_bind hword.isUnbroken.ne_nil hword.2 (Written.begins_trimmed _), pure_bind,
      String.ofList_toList]
    exact Pattern.first?_condition? (some condition) rfl
  refine read?_of_delete ?_
  rw [htext, readAs?, Pattern.whole?_eq_some hdelete, Option.map_some]

end Statement

/-! ## Scripts -/

namespace Script

variable {table : String} {condition : List Char}

theorem batches_filteredSelect_of_read? (hword : IsWord table)
    (hline : Written.isOneLine false condition = true) (list : Written.SelectList)
    {statement : Statement}
    (h : Statement.read? (Written.selectStart list ++
      (Written.toWhere table ++ Written.fromWhere condition)) = some statement) :
    batches (Written.filteredSelect list table condition) = .ok [[statement]] := by
  have hfrom := Written.isPlain_cons
    (Written.isPlain_lead (show "FROM" ∈ Written.keywords by simp [Written.keywords]))
  have hplain : ∀ c ∈ Written.selectStart list, Written.isPlain c = true :=
    List.forall_mem_append.mpr ⟨List.forall_mem_append.mpr
      ⟨Written.isPlain_lead (by simp [Written.keywords]), list.isPlain_text⟩, hfrom⟩
  have htrim : Text.trim (Written.filteredSelect list table condition) = _ :=
    Written.trim_where (Text.begins_cons (by decide) _) (List.cons_ne_nil 'S' _)
  exact batches_of_read? (c := 'S') (by decide) rfl (Written.isOneLine_where hplain hword hline)
    htrim h

/-- A selection with a condition is faulty, whatever its list is, or it is read as it is meant. -/
theorem batches_filteredSelect (hword : IsWord table)
    (hline : Written.isOneLine false condition = true) :
    (∀ list, batches (Written.filteredSelect list table condition) =
      .ok [[.faulty .select (.reservedAlias "WHERE")]]) ∨
    (Text.trim condition ≠ [] ∧ ∀ list, batches (Written.filteredSelect list table condition) =
      .ok [[.select ⟨list.text, table, none, [], some (Text.trim condition)⟩]]) := by
  by_cases h : Pattern.behindTable ⟨[], []⟩ ⟨[], []⟩ (Written.fromWhere condition) = []
  · have hne : Text.trim condition ≠ [] := by
      intro hnil
      have hblank : ∀ c ∈ ' ' :: condition, isBlank c = true :=
        List.forall_mem_cons.mpr ⟨by decide, Text.isBlank_of_trim_eq_nil hnil⟩
      rw [Written.fromWhere, Text.trimEnd_of_isBlank hblank] at h
      have hend := Pattern.first?_trimmed none ⟨[], []⟩ ⟨[], []⟩
      rw [Pattern.first?, Written.trimmed, Option.elim_none, h] at hend
      cases hend
    refine .inr ⟨hne, fun list => batches_filteredSelect_of_read? hword hline list ?_⟩
    exact Statement.read?_where hword ⟨condition, hline, hne⟩ h list
  · exact .inl fun list => batches_filteredSelect_of_read? hword hline list
      (Statement.read?_aliased hword h list)

/-- A deletion with a condition is read as it is meant. -/
theorem batches_filteredDelete (hword : IsWord table)
    (hline : Written.isOneLine false condition = true) (hne : Text.trim condition ≠ []) :
    batches (Written.filteredDelete table condition) =
      .ok [[.delete table (some (Text.trim condition))]] := by
  have hplain : ∀ c ∈ Written.deleteStart, Written.isPlain c = true :=
    List.all_eq_true.mp (by decide)
  have htrim : Text.trim (Written.filteredDelete table condition) = _ :=
    Written.trim_where (Text.begins_cons (by decide) _) (List.cons_ne_nil 'D' _)
  exact batches_of_read? (c := 'D') (by decide) rfl (Written.isOneLine_where hplain hword hline)
    htrim (Statement.read?_delete hword ⟨condition, hline, hne⟩)

end Script

end Relational
