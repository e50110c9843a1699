import Relational.Proofs.Script.Joined
import Relational.Proofs.Token.Boundary

/-!
# Scripts as their parts

A script is stretches that are skipped (`Script.IsSkipped`: blanks, semicolons and whole comments) and
statements between them, of which each goes on to where it first can end (`Script.IsStatement`). There
is one way only to see a text like that, and `split` finds it (`Script.split_eq_iff`). What is read are
the statements, `GO` apart, in batches that end at each `GO`; or there is a first statement that is
none, and the error tells its first word and the line that it begins on (`Script.batches_split`).
-/

namespace Relational.Script

open Text (Begins begins_cons)

variable {cursor : Cursor} {s skipped statement rest tail behind : List Char} {parts : List Part}

/-! ## Stretches that are skipped -/

/-- A stretch in front of a text that is skipped: blanks, semicolons, and comments from two dashes up
to a line break or to the end of the script. -/
inductive IsSkipped (behind : List Char) : List Char → Prop
  | nil : IsSkipped behind []
  | blank {c : Char} {s : List Char} :
    isBlank c = true → IsSkipped behind s → IsSkipped behind (c :: s)
  | semicolon {s : List Char} : IsSkipped behind s → IsSkipped behind (';' :: s)
  | comment {content s : List Char} : '\n' ∉ content → Begins (· == '\n') (s ++ behind) →
    IsSkipped behind s → IsSkipped behind ('-' :: '-' :: (content ++ s))

/-- Nothing is skipped at the start of a text. -/
structure IsUnskipped (s : List Char) : Prop where
  begins : Begins (fun c => !(isBlank c || c == ';')) s
  dashes : ¬"--".toList <+: s

theorem spanSkipped_parts (inComment : Bool) (s : List Char) :
    (spanSkipped inComment s).1 ++ (spanSkipped inComment s).2 = s := by
  induction s generalizing inComment with
  | nil => rfl
  | cons c s ih =>
    rw [spanSkipped]
    split
    · exact congrArg (c :: ·) (ih _)
    · split
      · exact congrArg (c :: ·) (ih _)
      · rfl

theorem spanSkipped_blank {c : Char} (hc : (isBlank c || c == ';') = true) (s : List Char) :
    spanSkipped false (c :: s) = (c :: (spanSkipped false s).1, (spanSkipped false s).2) := by
  rw [spanSkipped, if_pos (by simpa using hc)]
  rfl

theorem spanSkipped_dashes (s : List Char) : spanSkipped false ('-' :: '-' :: s) =
    ('-' :: '-' :: (spanSkipped true s).1, (spanSkipped true s).2) := by
  have hdash : isBlank '-' = false := by decide
  simp [spanSkipped, hdash]

theorem isUnskipped_nil : IsUnskipped [] where
  begins := by simp [Begins]
  dashes := by simp

theorem IsUnskipped.head {c : Char} (h : IsUnskipped (c :: s)) : (isBlank c || c == ';') = false := by
  simpa using h.begins c rfl

theorem spanSkipped_of_isUnskipped (h : IsUnskipped s) : spanSkipped false s = ([], s) := by
  cases s with
  | nil => rfl
  | cons c s =>
    have hc := h.head
    have hdashes : ¬(c = '-' ∧ s.head? = some '-') := by
      rintro ⟨rfl, hhead⟩
      obtain ⟨s, rfl⟩ := List.head?_eq_some_iff.mp hhead
      exact h.dashes ⟨s, rfl⟩
    rw [spanSkipped, if_neg (by simpa using hc), if_neg hdashes]

/-- A comment is skipped up to the end of its line. -/
theorem spanSkipped_content {content : List Char} (hcontent : '\n' ∉ content)
    (hs : Begins (· == '\n') s) : spanSkipped true (content ++ s) =
      (content ++ (spanSkipped false s).1, (spanSkipped false s).2) := by
  induction content with
  | nil =>
    cases s with
    | nil => rfl
    | cons c s =>
      obtain rfl : c = '\n' := by simpa using hs c rfl
      have hbreak : isBlank '\n' = true := by decide
      simp [spanSkipped, hbreak]
  | cons c content ih =>
    obtain ⟨hc, hcontent⟩ := not_or.mp (mt List.mem_cons.mpr hcontent)
    have hgoes : (c != '\n') = true := by simpa using Ne.symm hc
    rw [List.cons_append, spanSkipped, Bool.true_and, hgoes, if_pos (by simp), ih hcontent]
    rfl

/-- Every text is a comment's content and what begins with a line break. -/
theorem exists_line (s : List Char) :
    ∃ content line, s = content ++ line ∧ '\n' ∉ content ∧ Begins (· == '\n') line :=
  ⟨_, _, List.takeWhile_append_dropWhile.symm, Lexer.not_mem_takeWhile_line s,
    Lexer.begins_dropWhile_line s⟩

theorem isUnskipped_span (inComment : Bool) (s : List Char) :
    IsUnskipped (spanSkipped inComment s).2 := by
  induction s generalizing inComment with
  | nil => exact isUnskipped_nil
  | cons c s ih =>
    rw [spanSkipped]
    split
    · exact ih _
    · rename_i hc
      split
      · exact ih true
      · rename_i hdashes
        simp only [Bool.or_eq_true, not_or, Bool.not_eq_true] at hc
        refine ⟨begins_cons (by simp [hc]) s, ?_⟩
        rintro ⟨t, ht⟩
        obtain ⟨rfl, rfl⟩ := List.cons.inj ht
        exact hdashes ⟨rfl, rfl⟩

/-- What is skipped are blanks, semicolons and whole comments. -/
theorem isSkipped_span (s : List Char) : IsSkipped (spanSkipped false s).2 (spanSkipped false s).1 := by
  generalize hn : s.length = n
  induction n using Nat.strongRecOn generalizing s with
  | ind n ih =>
    subst hn
    cases s with
    | nil => exact .nil
    | cons c s =>
      by_cases hc : (isBlank c || c == ';') = true
      · have hs := ih s.length (Nat.lt_succ_self _) s rfl
        rw [spanSkipped_blank hc]
        rcases Bool.or_eq_true_iff.mp hc with hblank | hsemicolon
        · exact .blank hblank hs
        · obtain rfl := beq_iff_eq.mp hsemicolon
          exact .semicolon hs
      by_cases hdashes : c = '-' ∧ s.head? = some '-'
      · obtain ⟨rfl, hhead⟩ := hdashes
        obtain ⟨s, rfl⟩ := List.head?_eq_some_iff.mp hhead
        obtain ⟨content, line, rfl, hcontent, hline⟩ := exists_line s
        have hskipped := ih line.length (by simp; omega) line rfl
        rw [spanSkipped_dashes, spanSkipped_content hcontent hline]
        refine .comment hcontent ?_ hskipped
        rwa [spanSkipped_parts]
      · rw [spanSkipped, if_neg (by simpa using hc), if_neg hdashes]
        exact .nil

theorem IsSkipped.spanSkipped_append (h : IsSkipped behind skipped) (hbehind : IsUnskipped behind) :
    spanSkipped false (skipped ++ behind) = (skipped, behind) := by
  induction h with
  | nil => exact spanSkipped_of_isUnskipped hbehind
  | blank hc _ ih => rw [List.cons_append, spanSkipped_blank (by rw [hc, Bool.true_or]), ih]
  | semicolon _ ih => rw [List.cons_append, spanSkipped_blank (by simp), ih]
  | comment hcontent hline _ ih =>
    rw [List.cons_append, List.cons_append, List.append_assoc, spanSkipped_dashes,
      spanSkipped_content hcontent hline, ih]

theorem spanSkipped_eq_iff : spanSkipped false s = (skipped, behind) ↔
    s = skipped ++ behind ∧ IsSkipped behind skipped ∧ IsUnskipped behind := by
  constructor
  · intro h
    have hparts := spanSkipped_parts false s
    have hskipped := isSkipped_span s
    have hunskipped := isUnskipped_span false s
    rw [h] at hparts hskipped hunskipped
    exact ⟨hparts.symm, hskipped, hunskipped⟩
  · rintro ⟨rfl, hskipped, hbehind⟩
    exact hskipped.spanSkipped_append hbehind

theorem spanSkipped_eq_nil_iff : spanSkipped false s = (s, []) ↔ IsSkipped [] s := by
  rw [spanSkipped_eq_iff, List.append_nil]
  exact ⟨fun h => h.2.1, fun h => ⟨rfl, h, isUnskipped_nil⟩⟩

/-- Only the first character of what stands behind a stretch counts. -/
theorem IsSkipped.congr {other : List Char} (h : IsSkipped behind skipped)
    (hhead : other.head? = behind.head?) : IsSkipped other skipped := by
  induction h with
  | nil => exact .nil
  | blank hc _ ih => exact .blank hc ih
  | semicolon _ ih => exact .semicolon ih
  | @comment content s hcontent hline _ ih =>
    refine .comment hcontent (fun c hc => hline c ?_) ih
    rwa [List.head?_append, ← hhead, ← List.head?_append]

/-- A stretch that is skipped does not go on a word. -/
theorem IsSkipped.any_isNameChar (h : IsSkipped behind skipped) :
    skipped.head?.any isNameChar = false := by
  have hsemicolon : isNameChar ';' = false := by decide
  have hdash : isNameChar '-' = false := by decide
  cases h with
  | nil => rfl
  | blank hc _ => exact Lexer.isNameChar_of_isBlank hc
  | semicolon _ => exact hsemicolon
  | comment _ _ _ => exact hdash

/-! ## Statements -/

/-- A statement ends in front of a character, or the character is its first one. -/
theorem spanStatement_cons_eq_iff {d : Char} : spanStatement cursor (d :: s) = (statement, rest) ↔
    (statement = [] ∧ rest = d :: s ∧ cursor.endsBefore (d :: s) = true) ∨
      ∃ t, statement = d :: t ∧ cursor.endsBefore (d :: s) = false ∧
        spanStatement (cursor.after d) s = (t, rest) := by
  rw [spanStatement]
  split
  · rename_i hends
    simp [hends, eq_comm]
  · rename_i hends
    simp [hends, Prod.ext_iff, eq_comm, and_comm]

theorem spanStatement_eq_iff_forall : spanStatement cursor s = (statement, rest) ↔
    s = statement ++ rest ∧
      (∀ before c behind, statement = before ++ c :: behind →
        (before.foldl Cursor.after cursor).endsBefore (c :: behind ++ rest) = false) ∧
      (rest = [] ∨ (statement.foldl Cursor.after cursor).endsBefore rest = true) := by
  induction s generalizing cursor statement with
  | nil =>
    rw [spanStatement]
    constructor
    · intro h
      cases h
      exact ⟨rfl, by simp, .inl rfl⟩
    · rintro ⟨h, -⟩
      rw [List.append_eq_nil_iff.mp h.symm |>.1, List.append_eq_nil_iff.mp h.symm |>.2]
  | cons d s ih =>
    rw [spanStatement_cons_eq_iff]
    constructor
    · rintro (⟨rfl, rfl, hends⟩ | ⟨t, rfl, hends, hspan⟩)
      · exact ⟨rfl, by simp, .inr hends⟩
      · obtain ⟨rfl, hgoes, hend⟩ := ih.mp hspan
        refine ⟨rfl, fun before c behind h => ?_, hend⟩
        cases before with
        | nil =>
          obtain ⟨rfl, rfl⟩ := List.cons.inj h
          exact hends
        | cons e before =>
          obtain ⟨rfl, ht⟩ := List.cons.inj h
          exact hgoes before c behind ht
    · rintro ⟨htext, hgoes, hend⟩
      cases statement with
      | nil =>
        obtain rfl : d :: s = rest := htext
        exact .inl ⟨rfl, rfl, hend.resolve_left (List.cons_ne_nil d s)⟩
      | cons e t =>
        obtain ⟨rfl, rfl⟩ := List.cons.inj htext
        refine .inr ⟨t, rfl, hgoes [] d t rfl, ih.mpr ⟨rfl, fun before c behind ht => ?_, hend⟩⟩
        exact hgoes (d :: before) c behind (congrArg (d :: ·) ht)

/-- A statement in front of a text: nothing of it is skipped, it does not end inside, and it ends in
front of the text. -/
structure IsStatement (statement rest : List Char) : Prop where
  ne_nil : statement ≠ []
  isUnskipped : IsUnskipped (statement ++ rest)
  inside (before : List Char) (c : Char) (behind : List Char) : statement = before ++ c :: behind →
    (Cursor.past before).endsBefore (c :: behind ++ rest) = false
  ends : rest = [] ∨ (Cursor.past statement).endsBefore rest = true

theorem isStatement_cons_iff {c : Char} : IsStatement (c :: statement) rest ↔
    IsUnskipped (c :: statement ++ rest) ∧
      spanStatement (Cursor.start.after c) (statement ++ rest) = (statement, rest) := by
  rw [spanStatement_eq_iff_forall]
  constructor
  · rintro ⟨-, hunskipped, hinside, hends⟩
    refine ⟨hunskipped, rfl, fun before d behind h => ?_, hends⟩
    exact hinside (c :: before) d behind (congrArg (c :: ·) h)
  · rintro ⟨hunskipped, -, hinside, hends⟩
    refine ⟨List.cons_ne_nil c statement, hunskipped, fun before d behind h => ?_, hends⟩
    cases before with
    | nil =>
      obtain ⟨rfl, rfl⟩ := List.cons.inj h
      have hsemicolon : c ≠ ';' := beq_eq_false_iff_ne.mp (Bool.or_eq_false_iff.mp hunskipped.head).2
      simp [Cursor.past, Cursor.start, Cursor.endsBefore, hsemicolon]
    | cons e before =>
      obtain ⟨rfl, ht⟩ := List.cons.inj h
      exact hinside before d behind ht

/-! ## Parts -/

/-- A part as it stands in the script. -/
def Part.text (part : Part) : List Char :=
  part.skipped ++ part.statement

/-- What a part is read as. -/
def Part.item? (part : Part) : Option Item :=
  Item.read? (Text.trim part.statement)

/-- A text as its parts, and what is skipped behind them. -/
inductive IsSplit : List Char → List Part → List Char → Prop
  | tail {tail : List Char} : IsSkipped [] tail → IsSplit tail [] tail
  | part {part : Part} {rest : List Char} {parts : List Part} {tail : List Char} :
    IsSkipped (part.statement ++ rest) part.skipped → IsStatement part.statement rest →
      IsSplit rest parts tail → IsSplit (part.text ++ rest) (part :: parts) tail

theorem isSplit_split (s : List Char) : IsSplit s (split s).1 (split s).2 := by
  generalize hn : s.length = n
  induction n using Nat.strongRecOn generalizing s with
  | ind n ih =>
    subst hn
    rcases hskipped : spanSkipped false s with ⟨skipped, - | ⟨c, t⟩⟩
    · obtain ⟨rfl, htail, -⟩ := spanSkipped_eq_iff.mp hskipped
      rw [List.append_nil] at hskipped ⊢
      rw [split_of_skipped hskipped]
      exact .tail htail
    · rcases hstatement : spanStatement (Cursor.start.after c) t with ⟨statement, rest⟩
      obtain ⟨rfl, -⟩ := spanStatement_eq_iff_forall.mp hstatement
      rw [split_cons hskipped hstatement]
      obtain ⟨rfl, hstretch, hunskipped⟩ := spanSkipped_eq_iff.mp hskipped
      have hrest := ih rest.length (by simp; omega) rest rfl
      have hpart := isStatement_cons_iff.mpr ⟨hunskipped, hstatement⟩
      have hsplit : IsSplit ((⟨skipped, c :: statement⟩ : Part).text ++ rest) _ _ :=
        .part hstretch hpart hrest
      rwa [Part.text, List.append_assoc] at hsplit

/-- A text is split in one way only. -/
theorem split_eq_iff : split s = (parts, tail) ↔ IsSplit s parts tail := by
  constructor
  · intro h
    have hsplit := isSplit_split s
    rwa [h] at hsplit
  · intro h
    induction h with
    | tail htail => exact split_of_skipped (spanSkipped_eq_nil_iff.mpr htail)
    | @part part rest parts tail hskipped hstatement _ ih =>
      obtain ⟨skipped, statement⟩ := part
      obtain ⟨c, statement, rfl⟩ := List.exists_cons_of_ne_nil hstatement.ne_nil
      obtain ⟨hunskipped, hspan⟩ := isStatement_cons_iff.mp hstatement
      rw [Part.text, List.append_assoc,
        split_cons (hskipped.spanSkipped_append hunskipped) hspan, ih]

theorem IsSplit.text_eq (h : IsSplit s parts tail) : s = parts.flatMap Part.text ++ tail := by
  induction h with
  | tail _ => rfl
  | part _ _ _ ih => rw [List.flatMap_cons, List.append_assoc, ← ih]

theorem IsSplit.isStatement (h : IsSplit s parts tail) {part : Part} (hpart : part ∈ parts) :
    ∃ rest, IsStatement part.statement rest := by
  induction h with
  | tail _ => cases hpart
  | part _ hstatement _ ih =>
    rcases List.mem_cons.mp hpart with rfl | hpart
    · exact ⟨_, hstatement⟩
    · exact ih hpart

/-- There are no more parts than characters. -/
theorem IsSplit.length_le (h : IsSplit s parts tail) : parts.length ≤ s.length := by
  induction h with
  | tail _ => exact Nat.zero_le _
  | part _ hstatement _ ih =>
    have hpos := List.length_pos_iff.mpr hstatement.ne_nil
    rw [List.length_cons, List.length_append, Part.text, List.length_append]
    omega

/-! ## Reading -/

/-- The first word of a text is what stands in front of its first blank or opening parenthesis. -/
theorem exists_firstWord (s : List Char) : ∃ rest, s = firstWord s ++ rest ∧
    (∀ c ∈ firstWord s, isBlank c = false ∧ c ≠ '(') ∧
      ∀ c ∈ rest.head?, isBlank c = true ∨ c = '(' := by
  refine ⟨_, List.takeWhile_append_dropWhile.symm, fun c hc => ?_, fun c hc => ?_⟩
  · simpa using List.mem_takeWhile_imp hc
  · simpa using Text.begins_dropWhile (fun c => !(isBlank c || c == '(')) s c hc

/-- The first word of a text ends at a blank, so none of those behind the text counts. -/
theorem firstWord_trimEnd (s : List Char) : firstWord (Text.trimEnd s) = firstWord s := by
  induction s using List.reverseRecOn with
  | nil => rfl
  | append_singleton s c ih =>
    cases hc : isBlank c with
    | true =>
      have hend : [c].head?.any (fun c => !(isBlank c || c == '(')) = false := by simp [hc]
      rw [Text.trimEnd_concat hc, ih, firstWord, firstWord, takeWhile_append_of_any s hend]
    | false => rw [Text.trimEnd_eq_self hc]

/-- The error of a statement that is none tells its first word. -/
theorem IsStatement.readItem_eq_error {line : Nat} (h : IsStatement statement rest)
    (hread : Item.read? (Text.trim statement) = none) : readItem line statement =
      .error (.unmatchedStatement (String.ofList (firstWord statement)) line) := by
  have hword : firstWord (Text.trim statement) = firstWord statement := by
    obtain ⟨c, t, rfl⟩ := List.exists_cons_of_ne_nil h.ne_nil
    have hc : isBlank c = false := (Bool.or_eq_false_iff.mp h.isUnskipped.head).1
    rw [Text.trim, Text.trimStart_eq_self (begins_cons (by simp [hc]) t), firstWord_trimEnd]
  rw [Item.read?] at hread
  split at hread
  · cases hread
  · rename_i hgo
    rw [readItem, if_neg hgo, Option.map_eq_none_iff.mp hread, ← hword]

/-- Where each part is read, the items are those of the parts one by one. -/
theorem map_item? {parts : List Part} (h : ∀ part ∈ parts, part.item?.isSome = true) :
    parts.map Part.item? = (parts.filterMap Part.item?).map some := by
  induction parts with
  | nil => rfl
  | cons part parts ih =>
    obtain ⟨hpart, hparts⟩ := List.forall_mem_cons.mp h
    obtain ⟨item, hitem⟩ := Option.isSome_iff_exists.mp hpart
    rw [List.map_cons, List.filterMap_cons_some hitem, List.map_cons, hitem, ih hparts]

/-- Lines are counted over all that stands before a statement. -/
theorem readParts_append {line : Nat} {before : List Part} {part : Part} {keyword : String}
    (hbefore : ∀ earlier ∈ before, earlier.item?.isSome = true)
    (hpart : ∀ line, readItem line part.statement = .error (.unmatchedStatement keyword line))
    (behind : List Part) : readParts line (before ++ part :: behind) =
      .error (.unmatchedStatement keyword
        (line + (before.flatMap Part.text ++ part.skipped).count '\n')) := by
  induction before generalizing line with
  | nil =>
    rw [List.nil_append, readParts, hpart]
    rfl
  | cons earlier before ih =>
    obtain ⟨hearlier, hbefore⟩ := List.forall_mem_cons.mp hbefore
    obtain ⟨item, hitem⟩ := Option.isSome_iff_exists.mp hearlier
    have hread (line : Nat) : readItem line earlier.statement = .ok item :=
      readItem_eq_ok_iff.mpr hitem
    rw [List.cons_append, readParts, hread, ok_bind, ih hbefore]
    simp only [List.flatMap_cons, List.count_append, Part.text, Nat.add_assoc]
    rfl

/-- What stands between each `GO` of some items and in front of the first one, behind what is at hand;
batches of nothing are left out. -/
theorem group_eq_splitOn (current : List Statement) (items : List Item) : group current items =
    (((items.splitOn .go).map (·.flatMap Item.statements)).modifyHead (current.reverse ++ ·)).filter
      (!·.isEmpty) := by
  induction items generalizing current with
  | nil => cases current <;> simp [group]
  | cons item items ih =>
    rw [List.splitOn_cons_eq_if_modifyHead]
    obtain ⟨batch, batches, hsplit⟩ := List.exists_cons_of_ne_nil (List.splitOn_ne_nil .go items)
    cases item with
    | statement statement =>
      rw [group, ih, hsplit]
      simp [Item.statements]
    | go =>
      rw [hsplit] at ih ⊢
      cases current <;> simp [group, ih]

theorem group_nil (items : List Item) : group [] items =
    ((items.splitOn .go).map (·.flatMap Item.statements)).filter (!·.isEmpty) := by
  rw [group_eq_splitOn]
  cases (items.splitOn .go).map (·.flatMap Item.statements) <;> rfl

/-- Splitting loses nothing and locates errors: a script is the text of its parts and of what is
skipped behind them, and there is no other way to cut it into stretches that are skipped and
statements. If each statement is read, the batches are what stands between each `GO`, and none is
empty; if not, the error tells the first one that is not read, by what stands in front of its first
blank or opening parenthesis, and its line. -/
theorem batches_split (s : List Char) :
    s = (split s).1.flatMap Part.text ++ (split s).2 ∧ (split s).1.length ≤ s.length ∧
      IsSplit s (split s).1 (split s).2 ∧
      (∀ parts tail, IsSplit s parts tail → split s = (parts, tail)) ∧
      ((∀ part ∈ (split s).1, part.item?.isSome = true) ∧
          batches s = .ok (((((split s).1.filterMap Part.item?).splitOn .go).map
            (·.flatMap Item.statements)).filter (!·.isEmpty)) ∨
        ∃ before part behind word rest, (split s).1 = before ++ part :: behind ∧
          (∀ earlier ∈ before, earlier.item?.isSome = true) ∧ part.item? = none ∧
          part.statement = word ++ rest ∧ (∀ c ∈ word, isBlank c = false ∧ c ≠ '(') ∧
          (∀ c ∈ rest.head?, isBlank c = true ∨ c = '(') ∧
          batches s = .error (.unmatchedStatement (String.ofList word)
            (1 + (before.flatMap Part.text ++ part.skipped).count '\n'))) := by
  have hsplit := isSplit_split s
  refine ⟨hsplit.text_eq, hsplit.length_le, hsplit, fun parts tail => split_eq_iff.mpr, ?_⟩
  rw [batches]
  cases hfind : (split s).1.find? (!·.item?.isSome) with
  | none =>
    have hread : ∀ part ∈ (split s).1, part.item?.isSome = true := by
      simpa [← Option.isSome_iff_ne_none] using hfind
    refine .inl ⟨hread, ?_⟩
    rw [readParts_eq_ok_iff.mpr (map_item? hread), ok_bind, group_nil]
    rfl
  | some part =>
    obtain ⟨hnone, before, behind, hparts, hbefore⟩ := List.find?_eq_some_iff_append.mp hfind
    have hpart : part.item? = none := by simpa using hnone
    have hbefore : ∀ earlier ∈ before, earlier.item?.isSome = true := by simpa using hbefore
    obtain ⟨rest, hrest, hword, hend⟩ := exists_firstWord part.statement
    refine .inr ⟨before, part, behind, _, rest, hparts, hbefore, hpart, hrest, hword, hend, ?_⟩
    have hmem : part ∈ (split s).1 := by simp [hparts]
    obtain ⟨rest, hstatement⟩ := hsplit.isStatement hmem
    rw [hparts, readParts_append hbefore fun line => hstatement.readItem_eq_error hpart]
    rfl

example : batches "USE shop;\n\n-- comment\nUPDATE t SET a = 1;".toList =
    .error (.unmatchedStatement "UPDATE" 4) := by
  decide +kernel

end Relational.Script
