import Relational.Proofs.Pattern.Reading
import Relational.Query.Aggregate
import Relational.Query.Join

/-!
# Written queries

A `SELECT` as somebody means it (`Written.Select`), and the text that it is written as
(`Written.Select.text`): one blank between the words, and a comma and a blank between the items of the
list. A name is a word that spells no keyword of a query, so that a text has a meaning only one of
these can have. Where the writer leaves out the alias of the table, though, what comes next can still
be taken for one; `Written.Select.IsClear` keeps away from that.
-/

namespace Relational.Written

open Text (Begins IsUnbroken spells)

/-- The keywords of a query. -/
def keywords : List String := ["SELECT", "FROM", "AS", "INNER", "JOIN", "ON", "WHERE"]

/-- The keywords that stand behind a table. -/
def continuations : List String := ["INNER", "JOIN", "WHERE"]

theorem mem_keywords_of_mem {keyword : String} (h : keyword ∈ continuations) : keyword ∈ keywords := by
  have hall : ∀ keyword ∈ continuations, keyword ∈ keywords := by decide
  exact hall keyword h

/-- The name of a table or a column, or an alias. -/
structure Name where
  name : String
  isWord : IsWord name
  spells_eq_false (keyword : String) :
    keyword ∈ keywords → spells keyword.toList name.toList = false

def Name.text (name : Name) : List Char :=
  name.name.toList

/-- A word as a name, if it is one. -/
def Name.of (name : String) (h : (name != "" && name.toList.all isWordChar &&
    keywords.all fun keyword => !spells keyword.toList name.toList) = true) : Name where
  name := name
  isWord := by
    simp only [Bool.and_eq_true, bne_iff_ne, List.all_eq_true] at h
    exact h.1
  spells_eq_false keyword hkeyword := by
    simp only [Bool.and_eq_true, List.all_eq_true] at h
    simpa using h.2 keyword hkeyword

/-- A column, with or without its table. -/
structure Reference where
  table : Option Name
  column : Name

def Reference.text : Reference → List Char
  | ⟨none, column⟩ => column.text
  | ⟨some table, column⟩ => table.text ++ '.' :: column.text

/-- An item of the list: a column, or an aggregate over a column or over all rows. -/
inductive Item where
  | column (reference : Reference)
  | aggregate (function : AggregateFunction) (argument : Option Reference)

def Item.text : Item → List Char
  | column reference => reference.text
  | aggregate function argument =>
    function.shown.toList ++ '(' :: (argument.elim ['*'] Reference.text ++ [')'])

/-- What is selected: all columns, or some items. -/
inductive SelectList where
  | star
  | items (first : Item) (more : List Item)

/-- The items of a list, one after the other. -/
def SelectList.texts : SelectList → List (List Char)
  | star => [['*']]
  | items first more => (first :: more).map Item.text

/-- Texts with commas between them. -/
def commas : List (List Char) → List Char
  | [] => []
  | [text] => text
  | text :: texts => text ++ [',', ' '] ++ commas texts

/-- A text in parentheses. -/
def inParentheses (s : List Char) : List Char :=
  '(' :: (s ++ [')'])

def SelectList.text (list : SelectList) : List Char :=
  commas list.texts

/-- A word and a blank behind it. -/
def lead (word : String) : List Char :=
  word.toList ++ [' ']

theorem lead_append (word : String) (s : List Char) : lead word ++ s = word.toList ++ ' ' :: s := by
  rw [lead, List.append_assoc, List.singleton_append]

/-- An alias, with or without `AS`. -/
structure Alias where
  name : Name
  withAs : Bool

def Alias.text (nickname : Alias) : List Char :=
  (if nickname.withAs then lead "AS" else []) ++ nickname.name.text

/-- What stands behind a table for its alias. -/
def aliasText (nickname : Option Alias) : List Char :=
  nickname.elim [] fun nickname => ' ' :: nickname.text

/-- A join, with or without `INNER`. -/
structure Join where
  withInner : Bool
  table : Name
  nickname : Option Alias
  left : Reference
  right : Reference

def Join.text (join : Join) : List Char :=
  (if join.withInner then lead "INNER" else []) ++ lead "JOIN" ++ join.table.text ++
    aliasText join.nickname ++ ' ' :: lead "ON" ++ join.left.text ++ ' ' :: lead "=" ++ join.right.text

/-- The join, written without `INNER`. -/
def Join.bare (join : Join) : Join :=
  { join with withInner := false }

/-- Joins behind a table. -/
def joinsText (joins : List Join) : List Char :=
  joins.flatMap fun join => ' ' :: join.text

/-- The join that is meant. -/
def Join.clause (join : Join) : JoinClause where
  table := join.table.name
  nickname := join.nickname.map (·.name.name)
  left := String.ofList join.left.text
  right := String.ofList join.right.text

/-- Whether a text stands on one line and has no semicolon but between quotes; `quoted` tells whether
quotes are open. -/
def isOneLine (quoted : Bool) : List Char → Bool
  | [] => true
  | c :: s =>
    c != '\n' && (quoted || c != ';') && isOneLine (if c = '\'' then !quoted else quoted) s

/-- The text behind `WHERE`. -/
structure Condition where
  text : List Char
  isOneLine : isOneLine false text = true
  trim_ne_nil : Text.trim text ≠ []

structure Select where
  list : SelectList
  table : Name
  nickname : Option Alias
  joins : List Join
  condition : Option Condition

namespace Select

/-- What stands before the condition. -/
def start (select : Select) : List Char :=
  lead "SELECT" ++ select.list.text ++ ' ' :: lead "FROM" ++ select.table.text ++
    aliasText select.nickname ++ joinsText select.joins

def text (select : Select) : List Char :=
  select.start ++ select.condition.elim [] fun condition => ' ' :: lead "WHERE" ++ condition.text

/-- The parts that are meant. -/
def selection (select : Select) : Selection where
  columns := select.list.text
  table := select.table.name
  nickname := select.nickname.map (·.name.name)
  joins := joinsText select.joins
  condition := select.condition.map (Text.trim ·.text)

/-- Nothing behind a table without an alias can be taken for its alias: the first join is written
without `INNER`, and a condition without joins does not begin with a keyword again. -/
structure IsClear (select : Select) : Prop where
  join : select.nickname = none → ∀ join ∈ select.joins.head?, join.withInner = false
  condition : select.nickname = none → select.joins = [] → ∀ condition ∈ select.condition,
    ∀ keyword ∈ continuations,
      spells keyword.toList ((Text.trim condition.text).takeWhile (!isBlank ·)) = false

end Select

/-! ## Keywords -/

section Keywords

variable {keyword : String}

theorem isUpper_of_mem (h : keyword ∈ keywords) :
    ∀ letter ∈ keyword.toList, letter.isUpper = true := by
  have hall : (keywords.all fun keyword => keyword.toList.all Char.isUpper) = true := by
    decide
  exact List.all_eq_true.mp (List.all_eq_true.mp hall keyword h)

theorem isWordChar_of_mem (h : keyword ∈ keywords) :
    ∀ c ∈ keyword.toList, isWordChar c = true := by
  have hall : (keywords.all fun keyword => keyword.toList.all isWordChar) = true := by decide
  exact List.all_eq_true.mp (List.all_eq_true.mp hall keyword h)

theorem isUnbroken_of_mem (h : keyword ∈ keywords) : IsUnbroken keyword.toList := by
  have hne : ∀ keyword ∈ keywords, keyword.toList ≠ [] := by decide
  exact ⟨hne keyword h, fun c hc => isBlank_of_isWordChar (isWordChar_of_mem h c hc)⟩

theorem begins_lead (h : keyword ∈ keywords) (s : List Char) :
    Begins (!isBlank ·) (lead keyword ++ s) := by
  rw [lead_append]
  exact (isUnbroken_of_mem h).begins _

end Keywords

/-! ## Characters -/

/-- Neither a line break nor a semicolon nor a quote. -/
def isPlain (c : Char) : Bool :=
  c != '\n' && c != ';' && c != '\''

theorem isPlain_of_isWordChar {c : Char} (h : isWordChar c = true) : isPlain c = true := by
  simp only [isPlain, Bool.and_eq_true, bne_iff_ne]
  refine ⟨⟨?_, ?_⟩, ?_⟩ <;> rintro rfl <;> exact absurd h (by decide)

/-- Plain texts can be taken off a text without a change to what is between quotes. -/
theorem isOneLine_append {quoted : Bool} {s t : List Char} (hs : ∀ c ∈ s, isPlain c = true) :
    isOneLine quoted (s ++ t) = isOneLine quoted t := by
  induction s with
  | nil => rfl
  | cons c s ih =>
    obtain ⟨hc, hs⟩ := List.forall_mem_cons.mp hs
    simp only [isPlain, Bool.and_eq_true, bne_iff_ne] at hc
    obtain ⟨⟨hbreak, hsemicolon⟩, hquote⟩ := hc
    rw [List.cons_append, isOneLine, if_neg hquote, ih hs]
    simp [hbreak, hsemicolon]

/-! ## Names and references -/

namespace Name

variable {name : Name}

theorem isWordChar_of_mem : ∀ c ∈ name.text, isWordChar c = true :=
  name.isWord.2

theorem ne_nil : name.text ≠ [] :=
  fun h => name.isWord.1 (String.toList_eq_nil_iff.mp h)

theorem isUnbroken : IsUnbroken name.text :=
  ⟨ne_nil, fun c hc => isBlank_of_isWordChar (isWordChar_of_mem c hc)⟩

theorem spells_text {keyword : String} (h : keyword ∈ keywords) :
    spells keyword.toList name.text = false :=
  name.spells_eq_false keyword h

end Name

namespace Reference

variable {reference : Reference}

theorem isReferenceChar_of_mem : ∀ c ∈ reference.text, (isWordChar c || c == '.') = true := by
  obtain ⟨table | table, column⟩ := reference
  · intro c hc
    rw [Name.isWordChar_of_mem c hc, Bool.true_or]
  · intro c hc
    rw [text, List.mem_append, List.mem_cons] at hc
    rcases hc with hc | rfl | hc
    · rw [Name.isWordChar_of_mem c hc, Bool.true_or]
    · exact Bool.or_true _
    · rw [Name.isWordChar_of_mem c hc, Bool.true_or]

theorem ne_nil : reference.text ≠ [] := by
  obtain ⟨table | table, column⟩ := reference
  · exact Name.ne_nil
  · simp [text]

theorem isUnbroken : IsUnbroken reference.text where
  ne_nil := ne_nil
  not_isBlank c hc := by
    have h := isReferenceChar_of_mem c hc
    rw [Bool.or_eq_true, beq_iff_eq] at h
    rcases h with h | rfl
    · exact isBlank_of_isWordChar h
    · decide

theorem isPlain_of_mem : ∀ c ∈ reference.text, isPlain c = true := by
  intro c hc
  have h := isReferenceChar_of_mem c hc
  rw [Bool.or_eq_true, beq_iff_eq] at h
  rcases h with h | rfl
  · exact isPlain_of_isWordChar h
  · decide

theorem spells_text {keyword : String} (h : keyword ∈ keywords) :
    spells keyword.toList reference.text = false := by
  obtain ⟨table | table, column⟩ := reference
  · exact Name.spells_text h
  · exact Text.spells_eq_false_of_mem (c := '.') (isUpper_of_mem h) (by simp [text]) (by decide)

end Reference

/-! ## Items -/

namespace Item

variable {item : Item}

theorem mem_text_aggregate {function : AggregateFunction} {argument : Option Reference} {c : Char}
    (h : c ∈ (aggregate function argument).text) :
    c ∈ function.shown.toList ∨ c ∈ ['(', '*', ')'] ∨
      ∃ reference, argument = some reference ∧ c ∈ reference.text := by
  simp only [text, List.mem_append, List.mem_cons, List.not_mem_nil, or_false] at h
  rcases h with h | rfl | h | rfl
  · exact .inl h
  · exact .inr (.inl (by simp))
  · cases argument with
    | none => exact .inr (.inl (by simpa using .inr (.inl (by simpa using h))))
    | some reference => exact .inr (.inr ⟨reference, rfl, h⟩)
  · exact .inr (.inl (by simp))

theorem isPlain_of_mem : ∀ c ∈ item.text, isPlain c = true := by
  cases item with
  | column reference => exact Reference.isPlain_of_mem
  | aggregate function argument =>
    intro c hc
    rcases mem_text_aggregate hc with hc | hc | ⟨reference, -, hc⟩
    · exact List.all_eq_true.mp (by cases function <;> decide) c hc
    · exact List.all_eq_true.mp (by decide) c hc
    · exact Reference.isPlain_of_mem c hc

theorem isUnbroken : IsUnbroken item.text := by
  cases item with
  | column reference => exact Reference.isUnbroken
  | aggregate function argument =>
    refine ⟨by simp [text], fun c hc => ?_⟩
    rcases mem_text_aggregate hc with hc | hc | ⟨reference, -, hc⟩
    · have hall : (function.shown.toList.all fun c => !isBlank c) = true := by
        cases function <;> decide
      simpa using List.all_eq_true.mp hall c hc
    · have hall : (['(', '*', ')'].all fun c => !isBlank c) = true := by decide
      simpa using List.all_eq_true.mp hall c hc
    · exact Reference.isUnbroken.not_isBlank c hc

theorem spells_text {keyword : String} (h : keyword ∈ keywords) :
    spells keyword.toList item.text = false := by
  cases item with
  | column reference => exact Reference.spells_text h
  | aggregate function argument =>
    exact Text.spells_eq_false_of_mem (c := '(') (isUpper_of_mem h) (by simp [text]) (by decide)

end Item

/-! ## Lists -/

/-- The pieces of a list, which stand apart by blanks: all items but the last have a comma behind
them. -/
def pieces : List (List Char) → List (List Char)
  | [] => []
  | [text] => [text]
  | text :: texts => (text ++ [',']) :: pieces texts

theorem pieces_ne_nil {texts : List (List Char)} (h : texts ≠ []) : pieces texts ≠ [] := by
  obtain ⟨text, texts, rfl⟩ := List.exists_cons_of_ne_nil h
  cases texts <;> simp [pieces]

theorem commas_append {texts : List (List Char)} (h : texts ≠ []) (s : List Char) :
    commas texts ++ ' ' :: s = (pieces texts).flatMap (· ++ [' ']) ++ s := by
  induction texts with
  | nil => exact absurd rfl h
  | cons text texts ih =>
    cases texts with
    | nil => simp [commas, pieces]
    | cons next texts =>
      simp only [commas, pieces, List.flatMap_cons, List.append_assoc, List.cons_append,
        List.nil_append] at ih ⊢
      rw [ih (by simp)]

theorem isUnbroken_comma {text : List Char} (h : IsUnbroken text) : IsUnbroken (text ++ [',']) where
  ne_nil := by simp
  not_isBlank :=
    List.forall_mem_append.mpr ⟨h.not_isBlank, List.forall_mem_singleton.mpr (by decide)⟩

/-- No piece of a list is taken for a keyword. -/
theorem isPiece_of_mem {texts : List (List Char)} {keyword : String} (hkeyword : keyword ∈ keywords)
    (htexts : ∀ text ∈ texts, IsUnbroken text ∧ spells keyword.toList text = false) :
    ∀ piece ∈ pieces texts, IsUnbroken piece ∧ spells keyword.toList piece = false := by
  induction texts with
  | nil => simp [pieces]
  | cons text texts ih =>
    obtain ⟨htext, htexts⟩ := List.forall_mem_cons.mp htexts
    cases texts with
    | nil => simpa [pieces] using htext
    | cons next texts =>
      have hcomma : spells keyword.toList (text ++ [',']) = false :=
        Text.spells_eq_false_of_mem (c := ',') (isUpper_of_mem hkeyword) (by simp) (by decide)
      exact List.forall_mem_cons.mpr ⟨⟨isUnbroken_comma htext.1, hcomma⟩, ih htexts⟩

namespace SelectList

variable {list : SelectList}

theorem texts_ne_nil : list.texts ≠ [] := by
  cases list <;> simp [texts]

theorem isUnbroken_of_mem :
    ∀ text ∈ list.texts, IsUnbroken text ∧ spells "FROM".toList text = false := by
  cases list with
  | star =>
    refine List.forall_mem_singleton.mpr ⟨⟨by simp, fun c hc => ?_⟩, by decide⟩
    rw [List.mem_singleton.mp hc]
    decide
  | items first more =>
    intro text htext
    obtain ⟨item, -, rfl⟩ := List.mem_map.mp htext
    exact ⟨item.isUnbroken, item.spells_text (by simp [keywords])⟩

theorem begins_text (s : List Char) : Begins (!isBlank ·) (list.text ++ ' ' :: s) := by
  obtain ⟨piece, more, hpieces⟩ := List.exists_cons_of_ne_nil (pieces_ne_nil list.texts_ne_nil)
  have hfrom : "FROM" ∈ keywords := by simp [keywords]
  have hpiece := isPiece_of_mem hfrom list.isUnbroken_of_mem piece
    (hpieces ▸ List.mem_cons_self)
  rw [text, commas_append texts_ne_nil, hpieces, Pattern.flatMap_pieces]
  exact hpiece.1.begins _

end SelectList

/-! ## Behind the table -/

theorem begins_cons (s : List Char) : Begins isBlank (' ' :: s) :=
  Text.begins_cons (by decide) s

theorem begins_aliasText (nickname : Option Alias) {rest : List Char} (h : Begins isBlank rest) :
    Begins isBlank (aliasText nickname ++ rest) := by
  cases nickname with
  | none => exact h
  | some nickname => exact begins_cons _

theorem Join.text_append (join : Join) (rest : List Char) :
    join.text ++ rest = (if join.withInner then lead "INNER" else []) ++ (lead "JOIN" ++
      (join.table.text ++ (aliasText join.nickname ++ ' ' :: (lead "ON" ++ (join.left.text ++
        ' ' :: (lead "=" ++ (join.right.text ++ rest))))))) := by
  simp only [Join.text, List.append_assoc, List.cons_append]

/-- What is left of a condition when no blanks are left behind it. -/
def trimmed (condition : Option Condition) : List Char :=
  condition.elim [] fun condition =>
    ' ' :: (lead "WHERE" ++ (condition.text.takeWhile isBlank ++ Text.trim condition.text))

theorem begins_trimmed (condition : Option Condition) : Begins isBlank (trimmed condition) := by
  cases condition with
  | none => simp [trimmed, Begins]
  | some condition => exact begins_cons _

/-- What stands behind the table and its alias. -/
def Select.behind (select : Select) : List Char :=
  joinsText select.joins ++ trimmed select.condition

theorem Select.behind_cons (list : SelectList) (table : Name) (nickname : Option Alias) (join : Join)
    (joins : List Join) (condition : Option Condition) :
    (Select.mk list table nickname (join :: joins) condition).behind =
      ' ' :: (join.text ++ (joinsText joins ++ trimmed condition)) := by
  simp only [Select.behind, joinsText, List.flatMap_cons, List.cons_append, List.append_assoc]

theorem Select.begins_behind (select : Select) : Begins isBlank select.behind := by
  obtain ⟨list, table, nickname, joins | ⟨join, joins⟩, condition⟩ := select
  · exact begins_trimmed condition
  · exact begins_cons _

end Relational.Written
