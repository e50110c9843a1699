import Mathlib.Data.List.Induction
import Relational.Proofs.Outcome
import Relational.Proofs.Statement.Opening
import Relational.Proofs.Text.Quoted
import Relational.Script

/-!
# Statements after one another

A text that is a statement can be cut in the middle when it stands in a script: by a semicolon, or by
a line that begins with a keyword. Where that cannot happen (`Script.IsUncut`, which `isUncut_iff`
makes a check) and the quotes are even in number, the statement goes on to the next semicolon
(`Script.spanStatement_of_isUncut`), so a script of such statements is read as one batch of what each
of them is read as alone (`Script.batches_ofSentences`).
-/

namespace Relational

/-- The text ends on a line of which it has no more than blanks, and which is not its first. -/
def Text.AtLineStart (s : List Char) : Prop :=
  ∃ before blanks, s = before ++ '\n' :: blanks ∧ ∀ c ∈ blanks, isBlank c = true

namespace Script

variable {cursor : Cursor} {c : Char} {s t rest : List Char}

/-! ## Where reading stands -/

namespace Cursor

/-- Where reading stands behind the first characters of a statement. -/
def past (s : List Char) : Cursor :=
  s.foldl after start

theorem past_concat (s : List Char) (c : Char) : past (s ++ [c]) = (past s).after c := by
  rw [past, List.foldl_append, List.foldl_cons, List.foldl_nil, past]

/-- Quotes are open behind an odd number of them. -/
theorem quoted_past (s : List Char) : (past s).quoted = true ↔ Odd (s.count '\'') := by
  induction s using List.reverseRecOn with
  | nil => simp [past, start]
  | append_singleton s c ih =>
    rw [past_concat, after, List.count_append]
    split
    · rename_i hc
      rw [hc, List.count_singleton_self, Nat.odd_add_one, ← ih]
      simp
    · rename_i hc
      have hcount : [c].count '\'' = 0 := List.count_eq_zero_of_not_mem (by simpa using Ne.symm hc)
      rw [hcount, add_zero, ih]

theorem atLineStart_past (s : List Char) : (past s).atLineStart = true ↔ Text.AtLineStart s := by
  induction s using List.reverseRecOn with
  | nil => simp [past, start, Text.AtLineStart]
  | append_singleton s c ih =>
    rw [past_concat, after]
    simp only [Bool.or_eq_true, decide_eq_true_eq, Bool.and_eq_true, ih]
    constructor
    · rintro (rfl | ⟨hc, before, blanks, rfl, hblanks⟩)
      · exact ⟨s, [], rfl, by simp⟩
      · refine ⟨before, blanks ++ [c], by simp, ?_⟩
        exact List.forall_mem_append.mpr ⟨hblanks, List.forall_mem_singleton.mpr hc⟩
    · rintro ⟨before, blanks, hs, hall⟩
      rcases List.eq_nil_or_concat blanks with rfl | ⟨blanks, d, rfl⟩
      · exact .inl (List.singleton_inj.mp (List.append_inj' hs rfl).2)
      · rw [List.concat_eq_append] at hs hall
        rw [← List.cons_append, ← List.append_assoc] at hs
        obtain ⟨hblanks, hlast⟩ := List.forall_mem_append.mp hall
        obtain ⟨rfl, hc⟩ := List.append_inj' hs rfl
        obtain rfl := List.singleton_inj.mp hc
        exact .inr ⟨hlast c List.mem_cons_self, before, blanks, rfl, hblanks⟩

end Cursor

/-! ## Uncut texts -/

/-- No statement ends inside a text: a semicolon stands between quotes, and a line that begins with
the keyword of a statement stands between quotes or parentheses. -/
structure IsUncut (s : List Char) : Prop where
  semicolon (before behind : List Char) : s = before ++ ';' :: behind → Odd (before.count '\'')
  keyword (before behind : List Char) : s = before ++ behind → Text.AtLineStart before →
    startsStatement behind = true → Odd (before.count '\'') ∨ 0 < (Cursor.past before).depth

/-- Whether no statement ends inside a text that goes on a statement. -/
def isUncut (cursor : Cursor) : List Char → Bool
  | [] => true
  | c :: s => !cursor.endsBefore (c :: s) && isUncut (cursor.after c) s

/-- Where a statement ends. -/
theorem endsBefore_past_iff {before behind : List Char} :
    (Cursor.past before).endsBefore behind = true ↔ ¬Odd (before.count '\'') ∧
      (behind.head? = some ';' ∨ ((Cursor.past before).depth = 0 ∧ Text.AtLineStart before) ∧
        startsStatement behind = true) := by
  rw [Cursor.endsBefore, Bool.and_eq_true, Bool.not_eq_true', Bool.or_eq_true, Bool.and_eq_true,
    Bool.and_eq_true, beq_iff_eq, beq_iff_eq, Cursor.atLineStart_past, ← Bool.not_eq_true,
    Cursor.quoted_past]

theorem isUncut_iff_forall : isUncut cursor s = true ↔ ∀ before c behind,
    s = before ++ c :: behind → (before.foldl Cursor.after cursor).endsBefore (c :: behind) = false := by
  induction s generalizing cursor with
  | nil => simp [isUncut]
  | cons d s ih =>
    rw [isUncut, Bool.and_eq_true, Bool.not_eq_true', ih]
    constructor
    · rintro ⟨hends, hs⟩ before c behind heq
      cases before with
      | nil =>
        cases heq
        exact hends
      | cons e before =>
        cases heq
        exact hs before c behind rfl
    · intro h
      exact ⟨h [] d s rfl, fun before c behind heq => h (d :: before) c behind (by rw [heq]; rfl)⟩

/-- A text without line breaks and semicolons but between quotes is not cut. -/
theorem isUncut_of_isClosed {p : Char → Bool} (hp : ∀ c, p c = true → c ≠ '\n' ∧ c ≠ ';')
    (hline : cursor.quoted = false → cursor.atLineStart = false)
    (h : Text.isClosed p cursor.quoted s = true) : isUncut cursor s = true := by
  induction s generalizing cursor with
  | nil => rfl
  | cons c s ih =>
    have hends (hc : cursor.quoted = true ∨ c ≠ ';') : cursor.endsBefore (c :: s) = false := by
      cases hquoted : cursor.quoted with
      | true => simp [Cursor.endsBefore, hquoted]
      | false =>
        have hc : c ≠ ';' := hc.resolve_left (by simp [hquoted])
        simp [Cursor.endsBefore, hc, hline hquoted]
    rw [Text.isClosed] at h
    rw [isUncut, Bool.and_eq_true, Bool.not_eq_true']
    by_cases hquote : c = '\''
    · -- the line may have been blank so far, but now there is a quote on it
      have hblank : isBlank '\'' = false := by decide
      rw [if_pos hquote] at h
      refine ⟨hends (.inr (by simp [hquote])), ih ?_ ?_⟩
      · simp [Cursor.after, hquote, hblank]
      · simpa [Cursor.after, hquote] using h
    · have hquoted : (cursor.after c).quoted = cursor.quoted := by simp [Cursor.after, hquote]
      rw [if_neg hquote, Bool.and_eq_true, Bool.or_eq_true] at h
      have hc : cursor.quoted = true ∨ c ≠ '\n' ∧ c ≠ ';' := h.1.imp_right (hp c)
      refine ⟨hends (hc.imp_right And.right), ih ?_ ?_⟩
      · rw [hquoted]
        intro hopen
        have hbreak : c ≠ '\n' := (hc.resolve_left (by simp [hopen])).1
        simp [Cursor.after, hbreak, hline hopen]
      · rw [hquoted]
        exact h.2

theorem isUncut_iff : isUncut .start s = true ↔ IsUncut s := by
  rw [isUncut_iff_forall]
  change (∀ before c behind, s = before ++ c :: behind →
    (Cursor.past before).endsBefore (c :: behind) = false) ↔ IsUncut s
  simp only [← Bool.not_eq_true, endsBefore_past_iff]
  constructor
  · intro h
    refine ⟨fun before behind heq => ?_, fun before behind heq hline hstarts => ?_⟩
    · have hends := h before ';' behind heq
      grind
    · obtain ⟨c, behind, rfl⟩ : ∃ c tail, behind = c :: tail := by
        refine List.exists_cons_of_ne_nil ?_
        rintro rfl
        exact absurd hstarts (by decide)
      have hends := h before c behind heq
      grind
  · rintro h before c behind heq ⟨hquotes, hhead | ⟨⟨hdepth, hline⟩, hstarts⟩⟩
    · obtain rfl : c = ';' := by simpa using hhead
      exact hquotes (h.semicolon before behind heq)
    · rcases h.keyword before (c :: behind) heq hline hstarts with hodd | hlt
      · exact hquotes hodd
      · omega

instance : Decidable (IsUncut s) :=
  decidable_of_iff _ isUncut_iff

theorem takeWhile_append_of_any {p : Char → Bool} (s : List Char) {t : List Char}
    (ht : t.head?.any p = false) : (s ++ t).takeWhile p = s.takeWhile p := by
  induction s with
  | nil => cases t <;> simp_all
  | cons c s ih => simp only [List.cons_append, List.takeWhile_cons, ih]

/-- A keyword ends where something else than a letter comes. -/
theorem startsStatement_append (s : List Char) {t : List Char}
    (ht : t.head?.any isNameChar = false) : startsStatement (s ++ t) = startsStatement s := by
  rw [startsStatement, takeWhile_append_of_any s ht, startsStatement]

theorem any_isNameChar_lineBreak (rest : List Char) :
    ('\n' :: rest).head?.any isNameChar = false := by
  have hbreak : isNameChar '\n' = false := by decide
  simpa using hbreak

theorem Cursor.endsBefore_append (cursor : Cursor) (c : Char) (s : List Char) {t : List Char}
    (ht : t.head?.any isNameChar = false) :
    cursor.endsBefore (c :: s ++ t) = cursor.endsBefore (c :: s) := by
  rw [endsBefore, endsBefore, startsStatement_append _ ht]
  rfl

theorem any_isNameChar_of_startsStatement (h : startsStatement s = true) :
    s.head?.any isNameChar = true := by
  cases s with
  | nil => exact absurd h (by decide)
  | cons c s =>
    cases hc : isNameChar c with
    | true => exact hc
    | false =>
      have hnil : (c :: s).takeWhile isNameChar = [].takeWhile isNameChar :=
        List.takeWhile_cons_of_neg (by simp [hc])
      rw [startsStatement, hnil] at h
      exact absurd h (by decide)

theorem spanStatement_parts (cursor : Cursor) (s : List Char) :
    (spanStatement cursor s).1 ++ (spanStatement cursor s).2 = s := by
  induction s generalizing cursor with
  | nil => rfl
  | cons c s ih =>
    rw [spanStatement]
    split
    · rfl
    · exact congrArg (c :: ·) (ih _)

/-- A statement goes on through an uncut text, and ends at a semicolon between no quotes or with the
script. -/
theorem spanStatement_eq_iff (ht : t.head?.any isNameChar = false) :
    spanStatement cursor (s ++ t) = (s, t) ↔ isUncut cursor s = true ∧
      (t = [] ∨ t.head? = some ';' ∧ (s.foldl Cursor.after cursor).quoted = false) := by
  induction s generalizing cursor with
  | nil =>
    cases t with
    | nil => simp [spanStatement, isUncut]
    | cons c t =>
      have hstarts : startsStatement (c :: t) = false := Bool.eq_false_iff.mpr fun h => by
        rw [any_isNameChar_of_startsStatement h] at ht
        cases ht
      rw [List.nil_append, spanStatement, Cursor.endsBefore, hstarts]
      split
      · rename_i hends
        simpa [isUncut, and_comm] using hends
      · rename_i hends
        simpa [isUncut, and_comm] using hends
  | cons c s ih =>
    have hends := cursor.endsBefore_append c s ht
    rw [List.cons_append] at hends
    rw [List.cons_append, spanStatement, hends, isUncut, Bool.and_eq_true, Bool.not_eq_true']
    split
    · rename_i h
      simp [h]
    · rename_i h
      rw [List.foldl_cons, and_assoc, ← ih, Bool.not_eq_true] at *
      simp [h, Prod.ext_iff]

/-- No statement ends in front of a line break. -/
theorem isUncut_lineBreak (h : isUncut cursor s = true) : isUncut cursor (s ++ ['\n']) = true := by
  induction s generalizing cursor with
  | nil =>
    have hstarts : startsStatement ['\n'] = false := by decide
    simp [isUncut, Cursor.endsBefore, hstarts]
  | cons c s ih =>
    rw [isUncut, Bool.and_eq_true, Bool.not_eq_true'] at h
    have hends := (cursor.endsBefore_append c s (any_isNameChar_lineBreak [])).trans h.1
    rw [List.cons_append, isUncut, ih h.2, Bool.and_true, Bool.not_eq_true']
    exact hends

/-- An uncut text with its quotes closed goes on to the next semicolon. -/
theorem spanStatement_of_isUncut (h : isUncut cursor s = true)
    (hquotes : (s.foldl Cursor.after cursor).quoted = false) :
    spanStatement cursor (s ++ '\n' :: ';' :: rest) = (s ++ ['\n'], ';' :: rest) := by
  have hsemicolon : (';' :: rest).head?.any isNameChar = false :=
    (by decide : isNameChar ';' = false)
  rw [List.append_cons]
  refine (spanStatement_eq_iff hsemicolon).mpr ⟨isUncut_lineBreak h, .inr ⟨rfl, ?_⟩⟩
  rw [List.foldl_append, List.foldl_cons, List.foldl_nil, Cursor.after, hquotes]
  rfl

/-! ## Cutting -/

/-- Where everything is skipped, there is no statement. -/
theorem split_of_skipped {skipped : List Char} (h : spanSkipped false s = (skipped, [])) :
    split s = ([], skipped) := by
  rw [split]
  split
  · rename_i heq
    rw [h] at heq
    cases heq
    rfl
  · rename_i heq
    rw [h] at heq
    cases heq

/-- The first statement of a script is cut off it. -/
theorem split_cons {skipped statement rest t : List Char} (hskipped : spanSkipped false s = (skipped, c :: t))
    (hstatement : spanStatement (Cursor.start.after c) t = (statement, rest)) :
    split s = (⟨skipped, c :: statement⟩ :: (split rest).1, (split rest).2) := by
  rw [split]
  split
  · rename_i h
    rw [hskipped] at h
    cases h
  · rename_i h
    rw [hskipped] at h
    cases h
    simp only [hstatement]

/-! ## Sentences -/

/-- A text that is a statement, also among others. -/
structure Sentence where
  text : List Char
  statement : Statement
  /-- Blanks behind a statement do not count. -/
  read? : Statement.read? (Text.trimEnd text) = some statement
  even_count : Even (text.count '\'')
  isUncut : IsUncut text

/-- Statements after one another, each with a line break and a semicolon behind it. -/
def ofSentences (sentences : List Sentence) : List Char :=
  sentences.flatMap fun sentence => sentence.text ++ ['\n', ';']

namespace Sentence

variable (sentence : Sentence)

/-- A statement begins with a letter. -/
theorem exists_letter : ∃ c s, sentence.text = c :: s ∧ Text.isFoldedLetter c = true := by
  have hread := sentence.read?
  cases htext : sentence.text with
  | nil =>
    rw [htext, Text.trimEnd, Statement.read?_nil] at hread
    cases hread
  | cons c s =>
    rw [htext] at hread
    rcases Text.trimEnd_cons c s with hnil | ⟨t, ht⟩
    · rw [hnil, Statement.read?_nil] at hread
      cases hread
    · rw [ht] at hread
      obtain ⟨kind, -, hletter⟩ := Statement.sameLetter_of_read? hread
      exact ⟨c, s, rfl, Text.isFoldedLetter_of_sameLetter kind.isUpper_letter hletter⟩

/-- A statement among others is cut off whole. -/
theorem split_append {skipped : List Char} (hskipped : skipped = [] ∨ skipped = [';'])
    (rest : List Char) : split (skipped ++ (sentence.text ++ '\n' :: ';' :: rest)) =
      (⟨skipped, sentence.text ++ ['\n']⟩ :: (split (';' :: rest)).1, (split (';' :: rest)).2) := by
  obtain ⟨c, s, htext, hletter⟩ := sentence.exists_letter
  have huncut := isUncut_iff.mpr sentence.isUncut
  have hquotes : (Cursor.past sentence.text).quoted = false := by
    rw [← Bool.not_eq_true, Cursor.quoted_past, Nat.not_odd_iff_even]
    exact sentence.even_count
  rw [htext] at huncut hquotes ⊢
  rw [Script.isUncut, Bool.and_eq_true] at huncut
  refine split_cons ?_ (spanStatement_of_isUncut huncut.2 hquotes)
  have hblank : isBlank c = false := isBlank_eq_false_of (by decide) hletter
  have hsemicolon : c ≠ ';' := by
    rintro rfl
    exact absurd hletter (by decide)
  have hdash : c ≠ '-' := by
    rintro rfl
    exact absurd hletter (by decide)
  have hstart (t : List Char) : spanSkipped false (c :: t) = ([], c :: t) := by
    rw [spanSkipped]
    simp [hblank, hsemicolon, hdash]
  rcases hskipped with rfl | rfl
  · exact hstart _
  · rw [List.cons_append, spanSkipped]
    simp [hstart]

/-- A statement among others is read as it is alone. -/
theorem readItem_text (line : Nat) :
    readItem line (sentence.text ++ ['\n']) = .ok (.statement sentence.statement) := by
  obtain ⟨c, s, htext, hletter⟩ := sentence.exists_letter
  have hblank : isBlank c = false := isBlank_eq_false_of (by decide) hletter
  have hbegins : Text.Begins (!isBlank ·) (sentence.text ++ ['\n']) := by
    rw [htext]
    exact Text.begins_cons (by simp [hblank]) _
  have htrim : Text.trim (sentence.text ++ ['\n']) = Text.trimEnd sentence.text := by
    rw [Text.trim, Text.trimStart_eq_self hbegins, Text.trimEnd_concat (by decide)]
  rw [readItem, htrim, Statement.sameWord_go_of_read? sentence.read?, sentence.read?]
  rfl

end Sentence

theorem readParts_split (line : Nat) (sentences : List Sentence) {skipped : List Char}
    (hskipped : skipped = [] ∨ skipped = [';']) :
    readParts line (split (skipped ++ ofSentences sentences)).1 =
      .ok (sentences.map fun sentence => .statement sentence.statement) := by
  induction sentences generalizing line skipped with
  | nil =>
    rcases hskipped with rfl | rfl
    · rw [ofSentences, List.flatMap_nil, List.append_nil, split_of_skipped rfl]
      rfl
    · have hend : spanSkipped false [';'] = ([';'], []) := rfl
      rw [ofSentences, List.flatMap_nil, List.append_nil, split_of_skipped hend]
      rfl
  | cons sentence sentences ih =>
    have htext : ofSentences (sentence :: sentences) =
        sentence.text ++ '\n' :: ';' :: ofSentences sentences := by
      simp [ofSentences]
    rw [htext, sentence.split_append hskipped, readParts, sentence.readItem_text, ok_bind]
    have hrest := fun line => ih line (.inr rfl)
    simp only [List.singleton_append] at hrest
    rw [hrest, ok_bind, pure_eq_ok, List.map_cons]

/-- Statements are one batch. -/
theorem group_statements {current statements : List Statement} (h : current ≠ [] ∨ statements ≠ []) :
    group current (statements.map .statement) = [current.reverse ++ statements] := by
  induction statements generalizing current with
  | nil =>
    have hcurrent : current ≠ [] := h.resolve_right (by simp)
    simp [group, hcurrent]
  | cons statement statements ih =>
    rw [List.map_cons, group, ih (.inl (List.cons_ne_nil _ _))]
    simp

/-- A script of sentences is read as what each of them means. -/
theorem batches_ofSentences {sentences : List Sentence} (h : sentences ≠ []) :
    batches (ofSentences sentences) = .ok [sentences.map Sentence.statement] := by
  have hparts : readParts 1 (split ([] ++ ofSentences sentences)).1 = _ :=
    readParts_split 1 sentences (.inl rfl)
  have hstatements : sentences.map (fun sentence => Item.statement sentence.statement) =
      (sentences.map Sentence.statement).map .statement := by
    rw [List.map_map]
    rfl
  rw [batches]
  rw [List.nil_append] at hparts
  rw [hparts, ok_bind, pure_eq_ok, hstatements, group_statements (.inr (by simpa using h))]
  rfl

end Script

end Relational
