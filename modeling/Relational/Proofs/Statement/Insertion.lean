import Relational.Proofs.Script.Sentence
import Relational.Proofs.Statement.Clause
import Relational.Proofs.Text.Grouped
import Relational.Proofs.Value.Literal

/-!
# Reading written insertions

An insertion of texts and nulls (`Written.Insertion`) is one statement among others, whatever its
texts are (`Script.batches_insertion`): semicolons, keywords, parentheses and commas that stand in
them count neither where the script is cut nor where the rows are, since all who pass over quotes
agree on where a text ends (`Text.isClosed_quote`).
-/

namespace Relational

open Text (Begins IsUnbroken isClosed)
open Written (Literal commas inParentheses lead lead_append)

namespace Written

/-- An insertion of rows into a table. -/
structure Insertion where
  table : String
  isWord : IsWord table
  rows : List (List Literal)
  rows_ne_nil : rows ≠ []

namespace Insertion

/-- What stands in the parentheses of the rows. -/
def groups (insertion : Insertion) : List (List Char) :=
  insertion.rows.map fun row => commas (row.map Literal.written)

def text (insertion : Insertion) : List Char :=
  lead "INSERT" ++ lead "INTO" ++ insertion.table.toList ++ ' ' :: lead "VALUES" ++
    commas (insertion.groups.map inParentheses)

def statement (insertion : Insertion) : Statement :=
  .insert insertion.table none insertion.groups

end Insertion

end Written

open Written (Insertion)

/-! ## Patterns -/

namespace Pattern

theorem enclosed_inParentheses {p : List Char → Bool} {s : List Char} (h : p s = true) :
    enclosed p (inParentheses s) = [(s, [])] := by
  simp [enclosed, inParentheses, h]

/-- An insertion into a word, with rows in parentheses behind it. -/
theorem first?_insert {table : String} (htable : IsWord table) (s : List Char) :
    insert.first? (lead "INSERT" ++ (lead "INTO" ++ (table.toList ++ ' ' :: (lead "VALUES" ++
      inParentheses s)))) = some ((table, none, inParentheses s), []) := by
  have hinsert : ∀ letter ∈ "INSERT".toList, letter.isUpper = true :=
    List.all_eq_true.mp (by decide)
  have hinto : ∀ letter ∈ "INTO".toList, letter.isUpper = true := List.all_eq_true.mp (by decide)
  have hvalues : ∀ letter ∈ "VALUES".toList, letter.isUpper = true :=
    List.all_eq_true.mp (by decide)
  have htext : table.toList ≠ [] := fun h => htable.1 (String.toList_eq_nil_iff.mp h)
  have hbeginsTable : Begins (!isBlank ·) (table.toList ++ ' ' :: (lead "VALUES" ++ inParentheses s)) :=
    IsUnbroken.begins ⟨htext, fun c hc => isBlank_of_isWordChar (htable.2 c hc)⟩ _
  have hbeginsInto (t : List Char) : Begins (!isBlank ·) (lead "INTO" ++ t) :=
    Text.begins_cons (c := 'I') (by decide) _
  have hbeginsValues : Begins (!isBlank ·) (lead "VALUES" ++ inParentheses s) :=
    Text.begins_cons (c := 'V') (by decide) _
  have hbeginsRows : Begins (!isBlank ·) (inParentheses s) := Text.begins_cons (by decide) _
  have hcolumns : columnList (lead "VALUES" ++ inParentheses s) = [] := bind_of_none rfl
  rw [insert, opening]
  simp only [bind_assoc]
  rw [first?, lead_append, keyword_gap_bind hinsert (hbeginsInto _), lead_append,
    keyword_gap_bind hinto hbeginsTable]
  refine first?_orElse ?_
  rw [first?, word_bind htext htable.2 (Written.begins_cons _), blanks_bind_cons hbeginsValues,
    optional_bind, bind_of_none hcolumns, List.nil_append, lead_append, keyword,
    letters_bind hvalues, blanks_bind_cons hbeginsRows, bind_of_single (enclosed_inParentheses rfl),
    String.ofList_toList]
  rfl

end Pattern

/-! ## Insertions -/

namespace Written

theorem Literal.isClosed_written {p : Char → Bool} (hp : ∀ c ∈ "NULL".toList, p c = true)
    (literal : Literal) : isClosed p false literal.written = true := by
  cases literal with
  | text content => exact Text.isClosed_quote content.toList
  | null => exact Text.isClosed_of_forall hp (by decide)

theorem ends_commas {texts : List (List Char)} (hne : texts ≠ []) (h : ∀ text ∈ texts, Text.Ends text) :
    Text.Ends (commas texts) := by
  induction texts with
  | nil => exact absurd rfl hne
  | cons text texts ih =>
    obtain ⟨htext, htexts⟩ := List.forall_mem_cons.mp h
    cases texts with
    | nil => exact htext
    | cons next texts => exact (ih (by simp) htexts).append _

theorem ends_inParentheses (s : List Char) : Text.Ends (inParentheses s) :=
  ⟨'(' :: s, [')'], ⟨by simp, List.forall_mem_singleton.mpr (by decide)⟩, rfl⟩

theorem Literal.ends_written (literal : Literal) : Text.Ends literal.written := by
  cases literal with
  | text content =>
    exact ⟨'\'' :: Text.doubleQuotes content.toList, ['\''],
      ⟨by simp, List.forall_mem_singleton.mpr (by decide)⟩, rfl⟩
  | null =>
    have hblank : ∀ c ∈ "NULL".toList, (!isBlank c) = true := List.all_eq_true.mp (by decide)
    exact IsUnbroken.ends ⟨by decide, fun c hc => by simpa using hblank c hc⟩

theorem exists_commas_cons (text : List Char) (texts : List (List Char)) :
    ∃ t, commas (text :: texts) = text ++ t := by
  cases texts with
  | nil => exact ⟨[], (List.append_nil text).symm⟩
  | cons next texts => exact ⟨_, List.append_assoc _ _ _⟩

/-- Nothing is trimmed off a row. -/
theorem trim_row (row : List Literal) :
    Text.trim (commas (row.map Literal.written)) = commas (row.map Literal.written) := by
  cases row with
  | nil => rfl
  | cons literal row =>
    have hbegins : Begins (!isBlank ·) (commas ((literal :: row).map Literal.written)) := by
      obtain ⟨t, ht⟩ := exists_commas_cons literal.written (row.map Literal.written)
      rw [List.map_cons, ht]
      cases literal with
      | text content => exact Text.begins_cons (by decide) _
      | null => exact Text.begins_cons (c := 'N') (by decide) _
    have hends : Text.Ends (commas ((literal :: row).map Literal.written)) :=
      ends_commas (by simp) fun text htext => by
        obtain ⟨literal, -, rfl⟩ := List.mem_map.mp htext
        exact literal.ends_written
    rw [Text.trim, Text.trimStart_eq_self hbegins, hends.trimEnd_eq]

theorem exists_commas {texts : List (List Char)} (hne : texts ≠ []) :
    ∃ s, commas (texts.map inParentheses) = inParentheses s := by
  induction texts with
  | nil => exact absurd rfl hne
  | cons text texts ih =>
    cases texts with
    | nil => exact ⟨text, rfl⟩
    | cons next texts =>
      obtain ⟨s, hs⟩ := ih (by simp)
      rw [List.map_cons] at hs
      refine ⟨text ++ [')', ',', ' ', '('] ++ s, ?_⟩
      rw [List.map_cons, List.map_cons, commas, hs]
      · simp [inParentheses]
      · simp

namespace Insertion

variable (insertion : Insertion)

theorem isClosed_of_mem {p : Char → Bool} (h : "NULL, ".toList.all p = true) :
    ∀ group ∈ insertion.groups, isClosed p false group = true := by
  have hp : ∀ c ∈ "NULL, ".toList, p c = true := List.all_eq_true.mp h
  intro group hgroup
  obtain ⟨row, -, rfl⟩ := List.mem_map.mp hgroup
  refine Text.isClosed_commas (hp ',' (by decide)) (hp ' ' (by decide)) fun text htext => ?_
  obtain ⟨literal, -, rfl⟩ := List.mem_map.mp htext
  exact literal.isClosed_written fun c hc => hp c (List.mem_append_left [',', ' '] hc)

/-- Outside of quotes, there are no line breaks and no semicolons in an insertion. -/
theorem isClosed_text : isClosed isPlain false insertion.text = true := by
  have hplain {s : List Char} (h : ∀ c ∈ s, isPlain c = true) : isClosed isPlain false s = true :=
    Text.isClosed_of_forall h fun hquote => absurd (h _ hquote) (by decide)
  have htable : ∀ c ∈ insertion.table.toList, isPlain c = true :=
    fun c hc => isPlain_of_isWordChar (insertion.isWord.2 c hc)
  have hrows : isClosed isPlain false (commas (insertion.groups.map inParentheses)) = true := by
    refine Text.isClosed_commas (by decide) (by decide) fun text htext => ?_
    obtain ⟨group, hgroup, rfl⟩ := List.mem_map.mp htext
    exact Text.isClosed_inParentheses (by decide) (by decide)
      (insertion.isClosed_of_mem (by decide) group hgroup)
  refine Text.isClosed_append (Text.isClosed_append (Text.isClosed_append (Text.isClosed_append
    ?_ ?_) (hplain htable)) ?_) hrows
  · exact hplain (List.all_eq_true.mp (by decide))
  · exact hplain (List.all_eq_true.mp (by decide))
  · exact hplain (List.all_eq_true.mp (by decide))

theorem groups_ne_nil : insertion.groups ≠ [] := by
  simpa [groups] using insertion.rows_ne_nil

/-- The groups of an insertion are what stands in the parentheses of its rows. -/
theorem groups_text :
    Text.groups (commas (insertion.groups.map inParentheses)) = .ok insertion.groups := by
  have htrim : insertion.groups.map Text.trim = insertion.groups := by
    rw [groups, List.map_map]
    exact List.map_congr_left fun row _ => trim_row row
  rw [Text.groups_commas (insertion.isClosed_of_mem (by decide)), htrim]

theorem ends_text : Text.Ends insertion.text :=
  (ends_commas (by simpa using insertion.groups_ne_nil) fun text htext => by
    obtain ⟨group, -, rfl⟩ := List.mem_map.mp htext
    exact ends_inParentheses group).append _

theorem read?_text : Statement.read? insertion.text = some insertion.statement := by
  obtain ⟨s, hs⟩ := exists_commas insertion.groups_ne_nil
  have hgroups := insertion.groups_text
  have htext : insertion.text = lead "INSERT" ++ (lead "INTO" ++ (insertion.table.toList ++
      ' ' :: (lead "VALUES" ++ inParentheses s))) := by
    simp only [text, hs, List.append_assoc, List.cons_append]
  have hne : insertion.groups.isEmpty = false := by simpa using insertion.groups_ne_nil
  rw [hs] at hgroups
  rw [htext, Statement.read?_eq_readAs? .insert rfl (by decide), Statement.readAs?,
    Pattern.whole?_eq_some (Pattern.first?_insert insertion.isWord s), Option.map_some]
  simp only [Statement.readInsert, hgroups, ok_bind, hne]
  rfl

/-- An insertion, as a statement among others. -/
def sentence : Script.Sentence where
  text := insertion.text
  statement := insertion.statement
  read? := by rw [insertion.ends_text.trimEnd_eq, insertion.read?_text]
  even_count := by
    rw [← Nat.not_odd_iff_even, Text.odd_count_iff_of_isClosed insertion.isClosed_text]
    simp
  isUncut := by
    refine Script.isUncut_iff.mp (Script.isUncut_of_isClosed (fun c hc => ?_) (fun _ => rfl)
      insertion.isClosed_text)
    simp only [isPlain, Bool.and_eq_true, bne_iff_ne] at hc
    exact hc.1

end Insertion

end Written

theorem Value.mapM_readList (rows : List (List Literal)) :
    (rows.map fun row => commas (row.map Literal.written)).mapM readList =
      .ok (rows.map (·.map Literal.value)) := by
  induction rows with
  | nil => rfl
  | cons row rows ih =>
    rw [List.map_cons, List.mapM_cons, readList_commas, ok_bind, ih]
    rfl

/-- Among other statements, an insertion of texts and nulls is one statement, and its groups are read
as its rows. -/
theorem Script.batches_insertion (insertion : Insertion) (before behind : List Script.Sentence) :
    Script.batches (Script.ofSentences (before ++ insertion.sentence :: behind)) =
        .ok [before.map Sentence.statement ++
          .insert insertion.table none insertion.groups :: behind.map Sentence.statement] ∧
      insertion.groups.mapM Value.readList = .ok (insertion.rows.map (·.map Literal.value)) := by
  refine ⟨?_, Value.mapM_readList insertion.rows⟩
  rw [batches_ofSentences (by simp), List.map_append, List.map_cons]
  rfl

namespace Written

/-- `INSERT INTO t VALUES ('it''s;⏎USE d -- (1, 2', NULL), ('')`, with a line break in the text. -/
def quotedInsertion : Insertion where
  table := "t"
  isWord := ⟨by decide, List.all_eq_true.mp (by decide +kernel)⟩
  rows := [[.text "it's;\nUSE d -- (1, 2", .null], [.text ""]]
  rows_ne_nil := by simp

/-- `DELETE FROM t WHERE a = 'x;y'`. -/
def quotedDeletion : Script.Sentence where
  text := "DELETE FROM t WHERE a = 'x;y'".toList
  statement := .delete "t" (some "a = 'x;y'".toList)
  read? := by decide +kernel
  even_count := by decide
  isUncut := by decide

end Written

theorem Script.batches_quotedInsertion :
    ofSentences [Written.quotedDeletion, Written.quotedInsertion.sentence] =
        ("DELETE FROM t WHERE a = 'x;y'\n;" ++
          "INSERT INTO t VALUES ('it''s;\nUSE d -- (1, 2', NULL), ('')\n;").toList ∧
      batches (ofSentences [Written.quotedDeletion, Written.quotedInsertion.sentence]) =
        .ok [[Written.quotedDeletion.statement, Written.quotedInsertion.statement]] ∧
      Written.quotedInsertion.groups.mapM Value.readList =
        .ok [[.text "it's;\nUSE d -- (1, 2", .null], [.text ""]] := by
  have h := batches_insertion Written.quotedInsertion [Written.quotedDeletion] []
  exact ⟨by decide +kernel, h⟩

/-- A statement on two lines can be cut, and then there is nothing to be read. -/
theorem Script.batches_cutDeletion :
    Statement.read? "DELETE FROM t WHERE a = 1 AND\nuse = 2".toList =
        some (.delete "t" (some "a = 1 AND\nuse = 2".toList)) ∧
      Even ("DELETE FROM t WHERE a = 1 AND\nuse = 2".toList.count '\'') ∧
      batches ("DELETE FROM t WHERE a = 1 AND\nuse = 2\n;".toList ++
        (Written.quotedInsertion.text ++ "\n;".toList)) = .error (.unmatchedStatement "use" 2) := by
  refine ⟨by decide +kernel, by decide, by decide +kernel⟩

end Relational
