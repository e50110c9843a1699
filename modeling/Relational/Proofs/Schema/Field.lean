import Relational.Proofs.Number.Digits
import Relational.Proofs.Schema.Definition
import Relational.Proofs.Text.Item

/-!
# Written columns and keys

A column as somebody means it (`Written.Field`), and the text that it is written as in the definition
of a table. Its name can be any word: what is written is never taken for a key
(`Written.Field.read?_text`), since a key goes on with a keyword or a parenthesis where a column goes
on with its type, and it is read as the column that is meant (`Written.Field.ofDefinition_text`).
-/

namespace Relational

open Text (Begins Ends IsUnbroken isItem isItemChar)

theorem isBlank_of_isDigit {c : Char} (h : c.isDigit = true) : isBlank c = false :=
  isBlank_eq_false_of (by decide) h

theorem isWordDigit_of_isDigit {c : Char} (h : c.isDigit = true) : isWordDigit c = true := by
  have hall : ((List.range' 48 10).all fun n => isWordDigit (Char.ofNat n)) = true := by
    decide +kernel
  have hc : 48 ≤ c.toNat ∧ c.toNat ≤ 57 := by
    simpa [Char.isDigit, UInt32.le_iff_toNat_le] using h
  rw [← Char.ofNat_toNat c]
  exact List.all_eq_true.mp hall c.toNat (List.mem_range'_1.mpr (by omega))

/-! ## Words behind one another -/

namespace Written

/-- Words, each with a blank in front of it. -/
def spaced (words : List String) : List Char :=
  words.flatMap fun word => ' ' :: word.toList

theorem begins_spaced (words : List String) : Begins isBlank (spaced words) := by
  cases words with
  | nil => nofun
  | cons word words => exact begins_cons _

/-- A text goes on to end with something else than blanks. -/
theorem ends_spaced {s : List Char} {words : List String} (hs : Ends s)
    (h : ∀ word ∈ words, IsUnbroken word.toList) : Ends (s ++ spaced words) := by
  induction words generalizing s with
  | nil =>
    rw [spaced, List.flatMap_nil, List.append_nil]
    exact hs
  | cons word words ih =>
    obtain ⟨hword, hwords⟩ := List.forall_mem_cons.mp h
    have htext : s ++ spaced (word :: words) = s ++ [' '] ++ word.toList ++ spaced words := by
      simp [spaced]
    rw [htext]
    exact ih (hword.ends.append (s ++ [' '])) hwords

theorem words_spaced {words : List String} (h : ∀ word ∈ words, IsUnbroken word.toList) :
    Text.words (spaced words) = words.map String.toList := by
  induction words with
  | nil => rfl
  | cons word words ih =>
    obtain ⟨hword, hwords⟩ := List.forall_mem_cons.mp h
    have hblank (s : List Char) : Text.words (' ' :: s) = Text.words s := rfl
    rw [spaced, List.flatMap_cons, List.cons_append, hblank, List.map_cons, ← ih hwords]
    cases words with
    | nil => rw [List.flatMap_nil, List.append_nil, Text.words_unbroken hword]; rfl
    | cons next words =>
      rw [List.flatMap_cons, List.cons_append, Text.words_cons hword, spaced, List.flatMap_cons,
        List.cons_append, hblank]

end Written

/-! ## Types -/

namespace ColumnType

/-- The word that a type is written with. -/
def word : ColumnType → String
  | int => "INT"
  | float => "FLOAT"
  | varchar _ => "VARCHAR"
  | date => "DATE"
  | bit => "BIT"

/-- The digits of the length that a type is written with, if it is written with one. -/
def digits? : ColumnType → Option (List Char)
  | varchar limit => some (Nat.toDigits 10 limit)
  | _ => none

theorem toList_shown (type : ColumnType) :
    type.shown.toList = type.word.toList ++ type.digits?.elim [] Written.inParentheses := by
  cases type with
  | varchar limit =>
    rw [shown, String.toList_append, String.toList_append]
    simp [word, digits?, Written.inParentheses, Nat.repr]
  | _ => rfl

theorem word_mem (type : ColumnType) : type.word ∈ ["INT", "FLOAT", "VARCHAR", "DATE", "BIT"] := by
  cases type <;> simp [word]

theorem isUpper_of_mem_word (type : ColumnType) : ∀ c ∈ type.word.toList, c.isUpper = true := by
  have hall : ∀ word ∈ ["INT", "FLOAT", "VARCHAR", "DATE", "BIT"],
      word.toList.all Char.isUpper = true := by decide
  exact List.all_eq_true.mp (hall type.word type.word_mem)

theorem upper_word (type : ColumnType) : String.ofList (Text.upper type.word.toList) = type.word := by
  have hall : ∀ word ∈ ["INT", "FLOAT", "VARCHAR", "DATE", "BIT"],
      String.ofList (Text.upper word.toList) = word := by decide +kernel
  exact hall type.word type.word_mem

/-- The word of a type begins with a letter that no key goes on with. -/
theorem exists_word_cons (type : ColumnType) :
    ∃ c letters, type.word.toList = c :: letters ∧ isBlank c = false ∧
      Text.sameLetter 'K' c = false ∧ c ≠ '(' := by
  cases type with
  | int => exact ⟨'I', "NT".toList, rfl, by decide⟩
  | float => exact ⟨'F', "LOAT".toList, rfl, by decide⟩
  | varchar limit =>
    have hword : "VARCHAR".toList = 'V' :: "ARCHAR".toList := rfl
    exact ⟨'V', "ARCHAR".toList, hword, by decide⟩
  | date => exact ⟨'D', "ATE".toList, rfl, by decide⟩
  | bit => exact ⟨'B', "IT".toList, rfl, by decide⟩

theorem isUnbroken_word (type : ColumnType) : IsUnbroken type.word.toList where
  ne_nil h := by
    obtain ⟨c, letters, hword, -⟩ := type.exists_word_cons
    rw [hword] at h
    cases h
  not_isBlank c hc := isBlank_eq_false_of (by decide) (type.isUpper_of_mem_word c hc)

theorem ends_shown (type : ColumnType) : Ends type.shown.toList := by
  rw [toList_shown]
  cases type.digits? with
  | none =>
    rw [Option.elim_none, List.append_nil]
    exact type.isUnbroken_word.ends
  | some digits => exact (Written.ends_inParentheses digits).append _

/-- A type can stand in an item of a list. -/
theorem isItem_shown (type : ColumnType) : isItem false type.shown.toList = true := by
  have hword : isItem false type.word.toList = true :=
    Text.isItem_of_forall fun c hc => Text.isItemChar_of (by decide) (type.isUpper_of_mem_word c hc)
  have hlength : isItem false (type.digits?.elim [] Written.inParentheses) = true := by
    cases type with
    | varchar limit =>
      exact Text.isItem_inParentheses fun c hc =>
        .inl (Text.isItemChar_of (by decide) (Decimal.isDigit_toDigits hc))
    | _ => rfl
  rw [toList_shown]
  exact Text.isItem_append hword hlength

/-- A type is read from its word and its digits. -/
theorem ofName_word {type : ColumnType} (h : type.Fits) : ofName type.word type.digits? = .ok type := by
  cases type with
  | varchar limit =>
    have hlimit : limit < 18446744073709551616 := h
    simp [ofName, word, digits?, Integer.ofDigits?_toDigits, hlimit]
  | _ => rfl

end ColumnType

namespace Written

/-! ## Constraints -/

/-- A constraint of a column by itself. -/
inductive Mark where
  | notNull
  | unique
deriving DecidableEq

def Mark.words : Mark → List String
  | notNull => ["NOT", "NULL"]
  | unique => ["UNIQUE"]

/-- The words of constraints. -/
def markWords (marks : List Mark) : List String :=
  marks.flatMap Mark.words

theorem mem_words_of_mem {marks : List Mark} {word : String} (h : word ∈ markWords marks) :
    word ∈ ["NOT", "NULL", "UNIQUE"] := by
  obtain ⟨mark, -, hword⟩ := List.mem_flatMap.mp h
  cases mark with
  | notNull => exact List.mem_append_left ["UNIQUE"] hword
  | unique => exact List.mem_append_right ["NOT", "NULL"] hword

theorem isWord_of_mem_words {marks : List Mark} : ∀ word ∈ markWords marks, IsWord word := by
  intro word hword
  have hall : ∀ word ∈ ["NOT", "NULL", "UNIQUE"],
      word ≠ "" ∧ word.toList.all isWordChar = true := by decide +kernel
  obtain ⟨hne, hchars⟩ := hall word (mem_words_of_mem hword)
  exact ⟨hne, List.all_eq_true.mp hchars⟩

theorem isUnbroken_of_mem_words {marks : List Mark} :
    ∀ word ∈ markWords marks, IsUnbroken word.toList :=
  fun word hword => (isWord_of_mem_words word hword).isUnbroken

/-- The words of constraints put them on a column. -/
theorem constrain_markWords (column : Column) (marks : List Mark) :
    column.constrain (markWords marks) = .ok
      { column with
        nullable := column.nullable && !decide (.notNull ∈ marks)
        unique := column.unique || decide (.unique ∈ marks) } := by
  induction marks generalizing column with
  | nil => simp [markWords, Column.constrain]
  | cons mark marks ih =>
    rw [markWords, List.flatMap_cons, ← markWords]
    cases mark with
    | notNull =>
      rw [Mark.words, List.cons_append, List.cons_append, List.nil_append, Column.constrain, ih]
      simp
    | unique =>
      rw [Mark.words, List.cons_append, List.nil_append, Column.constrain, ih]
      simp

/-! ## Columns -/

/-- A column with its constraints, in the order in which they are written. -/
structure Field where
  name : String
  isWord : IsWord name
  type : ColumnType
  fits : type.Fits
  marks : List Mark

namespace Field

variable (field : Field)

def text : List Char :=
  field.name.toList ++ ' ' :: (field.type.shown.toList ++ spaced (markWords field.marks))

/-- The column that is meant, as long as it is in no key. -/
def column : Column where
  name := field.name
  type := field.type
  nullable := !decide (.notNull ∈ field.marks)
  primaryKey := false
  unique := decide (.unique ∈ field.marks)

@[simp] theorem name_column : field.column.name = field.name := rfl

end Field

end Written

/-! ## Reading -/

namespace Pattern

variable {β : Type} {s rest digits : List Char} {c : Char}

theorem blanks_bind_none {k : Unit → Pattern β} (hs : Begins (!isBlank ·) s) :
    (blanks >>= k) s = k () s := by
  have hnone : (blanks >>= k) ([] ++ s) = k () s := blanks_bind nofun hs
  exact hnone

theorem char_bind {k : Unit → Pattern β} (c : Char) : (char c >>= k) (c :: s) = k () s :=
  bind_of_single (if_pos (beq_self_eq_true c))

theorem char_bind_none {k : Unit → Pattern β} {d : Char} (hd : d ≠ c) :
    (char c >>= k) (d :: s) = [] :=
  bind_of_none (if_neg (by simpa using hd))

/-- Digits in parentheses are a length. -/
theorem typeLength_apply (hne : digits ≠ []) (hdigits : ∀ c ∈ digits, c.isDigit = true)
    (rest : List Char) :
    typeLength (Written.inParentheses digits ++ rest) = [(digits, rest)] := by
  have hword : ∀ c ∈ digits, isWordDigit c = true := fun c hc => isWordDigit_of_isDigit (hdigits c hc)
  have hbegins : Begins (!isBlank ·) (digits ++ ')' :: rest) := by
    obtain ⟨d, digits, rfl⟩ := List.exists_cons_of_ne_nil hne
    have hd := List.forall_mem_cons.mp hdigits
    exact Text.begins_cons (by simpa using isBlank_of_isDigit hd.1) _
  have hopen : Begins (!isBlank ·) ('(' :: (digits ++ ')' :: rest)) := Text.begins_cons (by decide) _
  have hclose : Begins (!isBlank ·) (')' :: rest) := Text.begins_cons (by decide) _
  have hrun : many1 isWordDigit (digits ++ ')' :: rest) = [(digits, ')' :: rest)] :=
    many1_apply hne hword (Text.begins_cons (by decide +kernel) _)
  have htext : Written.inParentheses digits ++ rest = '(' :: (digits ++ ')' :: rest) := by
    simp [Written.inParentheses]
  rw [htext, typeLength, blanks_bind_none hopen, char_bind, blanks_bind_none hbegins,
    bind_of_single hrun, blanks_bind_none hclose, char_bind, pure_apply]

theorem typeLength_cons (hc : isBlank c = false) (hopen : c ≠ '(') :
    typeLength (' ' :: c :: s) = [] := by
  rw [typeLength, blanks_bind_cons (Text.begins_cons (by simpa using hc) s), char_bind_none hopen]

/-- What a column is read as, behind its length. -/
theorem columnDefinition_bind {name letters : List Char} (hname : IsUnbroken name)
    (hword : ∀ c ∈ name, isWordChar c = true) (hletters : letters ≠ [])
    (hfolded : ∀ c ∈ letters, Text.isFoldedLetter c = true)
    (hrest : Begins (!Text.isFoldedLetter ·) rest) :
    columnDefinition (name ++ ' ' :: (letters ++ rest)) =
      (optional typeLength >>= fun length => ahead >>= fun constraints =>
        pure (String.ofList name, letters, length, constraints)) rest := by
  have hbegins : Begins (!isBlank ·) (letters ++ rest) := by
    obtain ⟨c, letters, rfl⟩ := List.exists_cons_of_ne_nil hletters
    have hc := isBlank_eq_false_of (by decide) (hfolded c List.mem_cons_self)
    exact Text.begins_cons (by simpa using hc) _
  rw [columnDefinition, Pattern.name, bind_assoc, word_bind hname.ne_nil hword (Written.begins_cons _),
    pure_bind, gap_bind_cons hbegins, bind_of_single (many1_apply hletters hfolded hrest)]

/-- No parenthesis stands behind a keyword where a name begins that goes on with something else. -/
theorem keyword_open_bind_none {word name : String} {k : Unit → Pattern β}
    (hupper : ∀ letter ∈ word.toList, letter.isUpper = true) (hname : IsWord name)
    (hblank : isBlank c = false) (hopen : c ≠ '(') :
    (keyword word >>= fun _ => blanks >>= fun _ => char '(' >>= k)
      (name.toList ++ ' ' :: c :: rest) = [] := by
  have hnext : (blanks >>= fun _ => char '(' >>= k) (' ' :: c :: rest) = [] := by
    rw [blanks_bind_cons (Text.begins_cons (by simpa using hblank) rest), char_bind_none hopen]
  rw [bind_apply, List.flatMap_eq_nil_iff]
  rintro ⟨⟨⟩, behind⟩ hr
  obtain ⟨text, hsplit, hspells⟩ := spells_of_letters hr
  rw [List.append_eq_append_iff] at hsplit
  dsimp only at hsplit ⊢
  -- the keyword is the name, or a part of it; a blank is in no keyword
  rcases hsplit with ⟨more, htext, hmore⟩ | ⟨more, hsplit, hmore⟩
  · cases more with
    | nil =>
      rw [List.nil_append] at hmore
      rw [← hmore, hnext]
    | cons d more =>
      obtain ⟨rfl, -⟩ := List.cons.inj hmore
      have hmem : ' ' ∈ text := by simp [htext]
      exact absurd (Text.isFoldedLetter_of_spells hupper hspells _ hmem) (by decide)
  · cases more with
    | nil => rw [hmore, List.nil_append, hnext]
    | cons d more =>
      have hd : isWordChar d = true := hname.2 d (by simp [hsplit])
      have hnone : d ≠ '(' := fun h => absurd (h ▸ hd) (by decide +kernel)
      rw [hmore, List.cons_append, blanks_bind_none
        (Text.begins_cons (by simpa using isBlank_of_isWordChar hd) _), char_bind_none hnone]

end Pattern

namespace Written

/-- What stands behind a type begins with a blank and then neither a blank nor a parenthesis. -/
theorem spaced_markWords (marks : List Mark) : spaced (markWords marks) = [] ∨
    ∃ c s, spaced (markWords marks) = ' ' :: c :: s ∧ isBlank c = false ∧ c ≠ '(' := by
  cases marks with
  | nil => exact .inl rfl
  | cons mark marks =>
    rw [markWords, List.flatMap_cons]
    cases mark with
    | notNull => exact .inr ⟨'N', _, rfl, by decide, by decide⟩
    | unique => exact .inr ⟨'U', _, rfl, by decide, by decide⟩

theorem typeLength_spaced (marks : List Mark) :
    Pattern.typeLength (spaced (markWords marks)) = [] := by
  rcases spaced_markWords marks with hnil | ⟨c, s, hcons, hblank, hopen⟩
  · rw [hnil]
    rfl
  · rw [hcons, Pattern.typeLength_cons hblank hopen]

/-- The length of a type is read behind its word, if it has one. -/
theorem first?_length {β : Type} (type : ColumnType) (marks : List Mark)
    (result : Option (List Char) → List Char → β) :
    (Pattern.optional Pattern.typeLength >>= fun length => Pattern.ahead >>= fun constraints =>
      pure (result length constraints)).first?
        (type.digits?.elim [] inParentheses ++ spaced (markWords marks)) =
      some (result type.digits? (spaced (markWords marks)), spaced (markWords marks)) := by
  rw [Pattern.first?, Pattern.optional_bind]
  cases type with
  | varchar limit =>
    have hlength := Pattern.typeLength_apply (Nat.toDigits_ne_nil (b := 10) (n := limit))
      (fun _ => Decimal.isDigit_toDigits) (spaced (markWords marks))
    rw [ColumnType.digits?, Option.elim_some, Pattern.bind_of_single hlength]
    rfl
  | _ =>
    rw [ColumnType.digits?, Option.elim_none, List.nil_append,
      Pattern.bind_of_none (typeLength_spaced marks)]
    · rfl
    · simp

theorem begins_length (type : ColumnType) (marks : List Mark) :
    Begins (!Text.isFoldedLetter ·) (type.digits?.elim [] inParentheses ++ spaced (markWords marks)) := by
  cases type with
  | varchar limit => exact Text.begins_cons (by decide) _
  | _ =>
    exact Pattern.begins_not_of_isBlank (fun _ => isBlank_eq_false_of (by decide))
      (begins_spaced (markWords marks))

namespace Field

variable (field : Field)

theorem text_eq : field.text = field.name.toList ++ ' ' :: (field.type.word.toList ++
    (field.type.digits?.elim [] inParentheses ++ spaced (markWords field.marks))) := by
  rw [text, ColumnType.toList_shown, List.append_assoc]

theorem ends_text : Ends field.text := by
  have hmarks : ∀ word ∈ markWords field.marks, IsUnbroken word.toList := isUnbroken_of_mem_words
  have hbefore := ends_spaced field.type.ends_shown hmarks
  rw [text, ← List.singleton_append]
  exact (hbefore.append [' ']).append field.name.toList

theorem trim_text : Text.trim field.text = field.text :=
  field.ends_text.trim_eq (field.isWord.isUnbroken.begins _)

/-- A column is an item of a list. -/
theorem isItem_text : isItem false field.text = true := by
  have hname : isItem false field.name.toList = true :=
    Text.isItem_of_forall fun c hc => Text.isItemChar_of_isWordChar (field.isWord.2 c hc)
  have hmarks : isItem false (spaced (markWords field.marks)) = true := by
    refine Text.isItem_of_forall fun c hc => ?_
    obtain ⟨word, hword, hc⟩ := List.mem_flatMap.mp hc
    rcases List.mem_cons.mp hc with rfl | hc
    · decide
    · exact Text.isItemChar_of_isWordChar ((isWord_of_mem_words word hword).2 c hc)
  rw [text, ← List.singleton_append]
  exact Text.isItem_append hname (Text.isItem_append (s := [' ']) rfl
    (Text.isItem_append field.type.isItem_shown hmarks))

/-- A column is read as the one that is meant. -/
theorem ofDefinition_text : Column.ofDefinition field.text = .ok field.column := by
  have hfolded : ∀ c ∈ field.type.word.toList, Text.isFoldedLetter c = true :=
    fun c hc =>
      have hupper := field.type.isUpper_of_mem_word c hc
      Text.isFoldedLetter_of_sameLetter hupper (Text.sameLetter_self hupper)
  have hread : Pattern.columnDefinition.first? field.text =
      some ((field.name, field.type.word.toList, field.type.digits?, spaced (markWords field.marks)),
        spaced (markWords field.marks)) := by
    rw [text_eq, Pattern.first?, Pattern.columnDefinition_bind field.isWord.isUnbroken field.isWord.2
      field.type.isUnbroken_word.ne_nil hfolded (begins_length _ _)]
    have hlength := first?_length field.type field.marks fun length constraints =>
      (String.ofList field.name.toList, field.type.word.toList, length, constraints)
    rw [String.ofList_toList] at hlength ⊢
    exact hlength
  have hupper : ∀ word ∈ ["NOT", "NULL", "UNIQUE"],
      String.ofList (Text.upper word.toList) = word := by decide +kernel
  have hwords : (Text.words (spaced (markWords field.marks))).map
      (fun word => String.ofList (Text.upper word)) = markWords field.marks := by
    rw [words_spaced isUnbroken_of_mem_words, List.map_map]
    exact Text.map_eq_self fun word hword => hupper word (mem_words_of_mem hword)
  rw [Column.ofDefinition, hread]
  dsimp only
  rw [ColumnType.upper_word, ColumnType.ofName_word field.fits, ok_bind, hwords, constrain_markWords]
  simp [column]

/-- No column is taken for a key. -/
theorem read?_text : KeyDefinition.read? field.text = none := by
  obtain ⟨c, letters, hword, hblank, hletter, hopen⟩ := field.type.exists_word_cons
  have htext := field.text_eq
  rw [hword, List.cons_append] at htext
  generalize letters ++ _ = behind at htext
  -- as a primary key, the column would go on with `KEY`
  have hprimary {k : Unit → Pattern (Bool × List Char)} :
      (Pattern.keyword "PRIMARY" >>= fun _ => Pattern.gap >>= fun _ => Pattern.keyword "KEY" >>= k)
        field.text = [] := by
    rw [htext, Pattern.keyword, Pattern.letters_gap_bind (List.all_eq_true.mp (by decide))
      field.isWord.isUnbroken.not_isBlank (begins_cons _)]
    split
    · rw [Pattern.gap_bind_cons (Text.begins_cons (by simpa using hblank) behind)]
      exact Pattern.bind_of_none (Pattern.keyword_eq_nil rfl hletter)
    · rfl
  -- as a unique key, it would go on with a parenthesis
  have hunique {k : Unit → Pattern (Bool × List Char)} :
      (Pattern.keyword "UNIQUE" >>= fun _ => Pattern.blanks >>= fun _ => Pattern.char '(' >>= k)
        field.text = [] := by
    rw [htext]
    exact Pattern.keyword_open_bind_none (List.all_eq_true.mp (by decide)) field.isWord hblank hopen
  have hkey : Pattern.keyDefinition field.text = [] := by
    rw [Pattern.keyDefinition, Pattern.orElse_bind, Pattern.orElse]
    simp only [bind_assoc, pure_bind]
    rw [hprimary, hunique]
    rfl
  rw [KeyDefinition.read?, Pattern.whole?_eq_none hkey, Option.map_none]

end Field

end Written

end Relational
