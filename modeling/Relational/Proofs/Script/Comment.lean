import Mathlib.Algebra.Group.Nat.Even
import Mathlib.Data.List.DropRight
import Relational.Proofs.Script.Split
import Relational.Proofs.Statement.Exchange
import Relational.Proofs.Token.Boundary

/-!
# Comments in conditions

A comment in the condition of a statement does not count when the condition is read, but the script
has been cut by then, and a cut knows comments only between statements. So what a comment holds is
taken as part of the statement there: its quotes, parentheses and semicolons count
(`Script.IsHarmless`). With a harmless comment between two of its tokens the condition is read as the
same tree, and the statement as the same one with the longer condition
(`Script.ConditionPlace.batches_commented`).
-/

namespace Relational

open Text (AtLineStart Begins begins_cons spells)

/-! ## Lines -/

theorem Text.AtLineStart.append {t : List Char} (h : AtLineStart t) (s : List Char) :
    AtLineStart (s ++ t) := by
  obtain ⟨before, blanks, rfl, hblanks⟩ := h
  exact ⟨s ++ before, blanks, (List.append_assoc _ _ _).symm, hblanks⟩

/-- The line begins within the end of a text, or the end is blank. -/
theorem Text.AtLineStart.of_append {s t : List Char} (h : AtLineStart (s ++ t)) :
    AtLineStart t ∨ ∀ c ∈ t, isBlank c = true ∧ c ≠ '\n' := by
  obtain ⟨before, blanks, heq, hblanks⟩ := h
  rcases List.append_eq_append_iff.mp heq with ⟨extra, rfl, rfl⟩ | ⟨extra, rfl, hextra⟩
  · exact .inl ⟨extra, blanks, rfl, hblanks⟩
  · rcases List.cons_eq_append_iff.mp hextra with ⟨rfl, rfl⟩ | ⟨extra, rfl, rfl⟩
    · exact .inl ⟨[], blanks, rfl, hblanks⟩
    · have ht := (List.forall_mem_append.mp hblanks).2
      by_cases hmem : '\n' ∈ t
      · obtain ⟨before, behind, rfl⟩ := List.append_of_mem hmem
        exact .inl ⟨before, behind, rfl, fun c hc => ht c (by simp [hc])⟩
      · exact .inr fun c hc => ⟨ht c hc, ne_of_mem_of_not_mem hc hmem⟩

namespace Script

section

variable {cursor : Cursor} {inComment : Bool} {c : Char}
  {s t front rest content skipped statement : List Char}

/-! ## Keywords -/

/-- No blank stands in front of a keyword. -/
theorem begins_of_startsStatement (h : startsStatement s = true) : Begins (!isBlank ·) s := by
  intro c hc
  have hname := any_isNameChar_of_startsStatement h
  rw [Option.mem_def.mp hc, Option.any_some] at hname
  cases hblank : isBlank c with
  | false => simp [hblank]
  | true =>
    rw [Lexer.isNameChar_of_isBlank hblank] at hname
    cases hname

/-- The keyword of a statement ends within a text, or the text ends with a letter of it. -/
theorem startsStatement_exchange (h : startsStatement (s ++ t) = true)
    (ht : t.head?.any isNameChar = false) (hs : ∀ c ∈ s.getLast?, isNameStart c = true →
      rest.head?.any isNameChar = false) : startsStatement (s ++ rest) = true := by
  rw [startsStatement_append s ht] at h
  by_cases hall : ∀ c ∈ s, isNameChar c = true
  · obtain ⟨keyword, hkeyword, hsame⟩ := List.any_eq_true.mp h
    have hkeywords : (keywords.all fun keyword => keyword.toList.all Char.isUpper) = true := by decide
    have hupper := List.all_eq_true.mp (List.all_eq_true.mp hkeywords keyword hkeyword)
    have hspells := Text.spells_of_sameWord hupper hsame
    rw [List.takeWhile_eq_self_iff.mpr hall] at hspells
    have hletters := Text.isFoldedLetter_of_spells hupper hspells
    rcases hlast : s.getLast? with - | c
    · obtain rfl := List.getLast?_eq_none_iff.mp hlast
      exact absurd h (by decide)
    · have hc := hletters c (List.mem_of_getLast? hlast)
      rwa [startsStatement_append s (hs c hlast (Text.isNameStart_of_isFoldedLetter hc))]
  · push Not at hall
    obtain ⟨c, hmem, hc⟩ := hall
    obtain ⟨before, behind, rfl⟩ := List.append_of_mem hmem
    have hstop (behind : List Char) : (c :: behind).head?.any isNameChar = false := by
      simpa using hc
    rw [startsStatement_append before (hstop behind)] at h
    rw [List.append_assoc, List.cons_append, startsStatement_append before (hstop _), h]

/-! ## Cutting -/

/-- What is skipped is skipped in front of any text with the same beginning. -/
theorem spanSkipped_replace (h : spanSkipped false s = (skipped, c :: rest)) (hc : c ≠ '-')
    (t : List Char) : spanSkipped false (skipped ++ c :: t) = (skipped, c :: t) := by
  obtain ⟨-, hskipped, hunskipped⟩ := spanSkipped_eq_iff.mp h
  have hbegins : Begins (fun c => !(isBlank c || c == ';')) (c :: t) :=
    begins_cons (hunskipped.begins c rfl) t
  refine spanSkipped_eq_iff.mpr ⟨rfl, hskipped.congr rfl, hbegins, ?_⟩
  rintro ⟨t, ht⟩
  exact hc (List.cons.inj ht).1.symm

/-- A statement is cut off at a semicolon between no quotes, or goes on to the end of the script. -/
theorem spanStatement_after_eq_iff (hc : c ≠ ';') (ht : t.head?.any isNameChar = false) :
    spanStatement (Cursor.start.after c) (statement ++ t) = (statement, t) ↔
      IsUncut (c :: statement) ∧
        (t = [] ∨ t.head? = some ';' ∧ Even ((c :: statement).count '\'')) := by
  have hstart : isUncut .start (c :: statement) = isUncut (Cursor.start.after c) statement := by
    simp [isUncut, Cursor.endsBefore, Cursor.start, hc]
  have hquoted : (statement.foldl Cursor.after (Cursor.start.after c)).quoted = false ↔
      Even ((c :: statement).count '\'') := by
    rw [← Nat.not_odd_iff_even, ← Cursor.quoted_past, Bool.not_eq_true]
    rfl
  rw [spanStatement_eq_iff ht, ← isUncut_iff, hstart, hquoted]

/-- A statement begins with what is not skipped. -/
theorem not_isBlank_of_spanSkipped (h : spanSkipped false s = (skipped, c :: rest)) :
    isBlank c = false ∧ c ≠ ';' := by
  have hhead := (spanSkipped_eq_iff.mp h).2.2.head
  rwa [Bool.or_eq_false_iff, beq_eq_false_iff_ne] at hhead

/-- A script of one statement: what is skipped in front of it and behind it, and the statement
between, which is not cut. -/
theorem split_eq_single_iff {text : List Char} : split s = ([⟨skipped, text⟩], t) ↔
    text ≠ [] ∧ spanSkipped false s = (skipped, text ++ t) ∧ IsSkipped [] t ∧
      IsUncut text ∧ (t = [] ∨ t.head? = some ';' ∧ Even (text.count '\'')) := by
  constructor
  · intro h
    cases split_eq_iff.mp h with
    | part hskipped hstatement hrest =>
      cases hrest with
      | tail htail =>
        obtain ⟨c, statement, rfl⟩ := List.exists_cons_of_ne_nil hstatement.ne_nil
        obtain ⟨hunskipped, hcut⟩ := isStatement_cons_iff.mp hstatement
        have hspan := hskipped.spanSkipped_append hunskipped
        rw [← List.append_assoc] at hspan
        have hsemicolon := (not_isBlank_of_spanSkipped hspan).2
        exact ⟨List.cons_ne_nil c statement, hspan, htail,
          (spanStatement_after_eq_iff hsemicolon htail.any_isNameChar).mp hcut⟩
  · rintro ⟨hne, hspan, htail, huncut⟩
    obtain ⟨c, statement, rfl⟩ := List.exists_cons_of_ne_nil hne
    have hsemicolon := (not_isBlank_of_spanSkipped hspan).2
    have hcut := (spanStatement_after_eq_iff hsemicolon htail.any_isNameChar).mpr huncut
    rw [split_cons hspan hcut, split_of_skipped (spanSkipped_eq_nil_iff.mpr htail)]

/-- A script of one statement is read as that statement. -/
theorem batches_eq_single_iff {text : List Char} {statement : Statement}
    (h : split s = ([⟨skipped, text⟩], t)) :
    batches s = .ok [[statement]] ↔ Statement.read? (Text.trim text) = some statement := by
  have htexts : texts s = [Text.trim text] := by rw [texts, h]; rfl
  rw [batches_eq_ok_iff, htexts, List.map_singleton, Item.read?]
  constructor
  · rintro ⟨items, hitems, hgroup⟩
    obtain ⟨item, rfl, hitem⟩ := List.map_eq_singleton_iff.mp hitems.symm
    cases item with
    | go => cases hgroup
    | statement read =>
      obtain rfl : read = statement := by simpa [group] using hgroup
      split at hitem
      · cases hitem
      · simpa using hitem.symm
  · intro hread
    refine ⟨[.statement statement], ?_, rfl⟩
    rw [Statement.sameWord_go_of_read? hread, hread]
    rfl

/-! ## Depth -/

theorem Cursor.past_append (s t : List Char) : past (s ++ t) = t.foldl after (past s) :=
  List.foldl_append

/-- Where more parentheses are open, there are more further on. -/
theorem Cursor.depth_foldl_mono {cursor other : Cursor} (hquoted : cursor.quoted = other.quoted)
    (hdepth : cursor.depth ≤ other.depth) (s : List Char) :
    (s.foldl after cursor).depth ≤ (s.foldl after other).depth := by
  induction s generalizing cursor other with
  | nil => exact hdepth
  | cons c s ih =>
    refine ih ?_ ?_
    · simp only [after, hquoted]
    · simp only [after, hquoted]
      split_ifs <;> omega

/-! ## Harmless comments -/

/-- A comment with a blank in front of it, up to the end of its line. -/
def comment (content : List Char) : List Char :=
  ' ' :: '-' :: '-' :: (content ++ ['\n'])

/-- The next line, from the first character of it that is not blank. -/
def nextLine (s : List Char) : List Char :=
  s.dropWhile fun c => isBlank c && c != '\n'

/-- A comment between two texts that leaves the cut of a script as it is: the quotes in it are even in
number, its semicolons stand between quotes, and its parentheses leave as many open as before, unless
there are no lines further on that begin with the keyword of a statement. -/
structure IsHarmless (front content rest : List Char) : Prop where
  even_count : Even (content.count '\'')
  semicolon (before behind : List Char) : content = before ++ ';' :: behind →
    Odd ((front ++ before).count '\'')
  depth : (Cursor.past front).depth ≤ (Cursor.past (front ++ comment content)).depth ∨
    ∀ before behind, rest = before ++ '\n' :: behind → startsStatement (Text.trimStart behind) = false

/-- A place in a text of three parts is in one of them. -/
theorem place_cases {middle before behind : List Char}
    (h : front ++ middle ++ rest = before ++ behind) :
    (∃ extra, front = before ++ extra ∧ behind = extra ++ (middle ++ rest)) ∨
    (∃ line extra, middle = line ++ extra ∧ line ≠ [] ∧ extra ≠ [] ∧ before = front ++ line ∧
      behind = extra ++ rest) ∨
    ∃ extra, rest = extra ++ behind ∧ before = front ++ middle ++ extra := by
  rcases List.append_eq_append_iff.mp h with ⟨extra, rfl, rfl⟩ | ⟨extra, hextra, rfl⟩
  · exact .inr (.inr ⟨extra, rfl, rfl⟩)
  · rcases List.append_eq_append_iff.mp hextra with ⟨line, rfl, rfl⟩ | ⟨line, rfl, rfl⟩
    · by_cases hline : line = []
      · subst hline
        exact .inl ⟨[], by simp, by simp⟩
      · by_cases hextra : extra = []
        · subst hextra
          exact .inr (.inr ⟨[], rfl, by simp⟩)
        · exact .inr (.inl ⟨line, extra, rfl, hline, hextra, rfl, rfl⟩)
    · exact .inl ⟨line, rfl, List.append_assoc _ _ _⟩

theorem count_comment (content : List Char) : (comment content).count '\'' = content.count '\'' := by
  simp [comment]

namespace IsHarmless

theorem odd_count_iff (h : IsHarmless front content rest) (s : List Char) :
    Odd ((front ++ comment content ++ s).count '\'') ↔ Odd ((front ++ s).count '\'') := by
  have heven := h.even_count
  simp only [List.count_append, count_comment]
  rw [Nat.odd_iff, Nat.odd_iff]
  rw [Nat.even_iff] at heven
  omega

theorem depth_le (h : IsHarmless front content rest)
    (hdepth : (Cursor.past front).depth ≤ (Cursor.past (front ++ comment content)).depth)
    (s : List Char) :
    (Cursor.past (front ++ s)).depth ≤ (Cursor.past (front ++ comment content ++ s)).depth := by
  rw [Cursor.past_append front s, Cursor.past_append (front ++ comment content) s]
  refine Cursor.depth_foldl_mono ?_ hdepth s
  have hodd := h.odd_count_iff []
  rw [List.append_nil, List.append_nil, ← Cursor.quoted_past, ← Cursor.quoted_past] at hodd
  exact Bool.eq_iff_iff.mpr hodd.symm

/-- No semicolon of the comment ends the statement. -/
theorem semicolon_comment (h : IsHarmless front content rest) {before behind : List Char}
    (hcomment : comment content = before ++ ';' :: behind) : Odd ((front ++ before).count '\'') := by
  obtain ⟨before, rfl⟩ : ∃ line, before = ' ' :: '-' :: '-' :: line := by
    match before with
    | [] | [_] | [_, _] => simp [comment] at hcomment
    | c :: d :: e :: line =>
      simp only [comment, List.cons_append, List.cons.injEq] at hcomment
      obtain ⟨rfl, rfl, rfl, -⟩ := hcomment
      exact ⟨line, rfl⟩
  simp only [comment, List.cons_append, List.cons.injEq, true_and] at hcomment
  rcases List.eq_nil_or_concat behind with rfl | ⟨behind, c, rfl⟩
  · nomatch List.singleton_inj.mp (List.append_inj' hcomment rfl).2
  · rw [List.concat_eq_append, ← List.cons_append, ← List.append_assoc] at hcomment
    have hodd := h.semicolon before behind (List.append_inj' hcomment rfl).1
    simpa [List.count_append] using hodd

/-- A line behind the comment begins with a keyword only where parentheses or quotes are open. -/
theorem keyword_line {extra behind : List Char} (h : IsHarmless front content (extra ++ behind))
    (hline : AtLineStart extra) (hstarts : startsStatement behind = true)
    (huncut : IsUncut (front ++ (extra ++ behind))) :
    Odd ((front ++ comment content ++ extra).count '\'') ∨
      0 < (Cursor.past (front ++ comment content ++ extra)).depth := by
  have hkeyword := huncut.keyword (front ++ extra) behind (List.append_assoc _ _ _).symm
    (hline.append front) hstarts
  rw [h.odd_count_iff]
  refine hkeyword.imp_right fun hpos => ?_
  rcases h.depth with hdepth | hlines
  · exact Nat.lt_of_lt_of_le hpos (h.depth_le hdepth _)
  · obtain ⟨before, blanks, rfl, hblanks⟩ := hline
    have hnone := hlines before (blanks ++ behind) (by simp)
    rw [Text.trimStart_append _ _ hblanks,
      Text.trimStart_eq_self (begins_of_startsStatement hstarts), hstarts] at hnone
    cases hnone

end IsHarmless

/-- A keyword behind blanks is what the line begins with. -/
theorem nextLine_append (hs : ∀ c ∈ s, isBlank c = true ∧ c ≠ '\n')
    (ht : startsStatement t = true) : nextLine (s ++ t) = t := by
  rw [nextLine, List.dropWhile_append_of_pos (by simpa using hs)]
  cases t with
  | nil => rfl
  | cons c t =>
    have hc : isBlank c = false := by simpa using begins_of_startsStatement ht c rfl
    rw [List.dropWhile_cons_of_neg (by simp [hc])]

/-- No line begins within a comment. -/
theorem startsStatement_comment {line extra : List Char} (hcontent : '\n' ∉ content)
    (hcomment : comment content = line ++ extra) (hline : line ≠ []) (hextra : extra ≠ [])
    (hstart : AtLineStart (front ++ line)) : startsStatement (extra ++ rest) = false := by
  obtain ⟨c, line, rfl⟩ := List.exists_cons_of_ne_nil hline
  obtain ⟨rfl, -⟩ := List.cons.inj hcomment
  have htext : '-' :: '-' :: (content ++ ['\n']) = line ++ extra := (List.cons.inj hcomment).2
  rcases hstart.of_append with ⟨before, blanks, hbreak, -⟩ | hblank
  · -- the line break of a comment is its last character
    have hmem : '\n' ∈ ' ' :: line := by simp [hbreak]
    rw [← List.dropLast_concat_getLast hextra, ← List.append_assoc, ← List.cons_append,
      ← List.cons_append] at htext
    have hfront := (List.append_inj' htext rfl).1
    simp only [List.mem_cons, Char.reduceEq, false_or] at hmem
    have hmem : '\n' ∈ '-' :: '-' :: content := by
      rw [hfront]
      exact List.mem_append_left _ hmem
    simp [hcontent] at hmem
  · cases line with
    | nil =>
      rw [List.nil_append] at htext
      rw [← htext]
      refine Bool.eq_false_iff.mpr fun hstarts => ?_
      have hname : isNameChar '-' = true := any_isNameChar_of_startsStatement hstarts
      exact absurd hname (by decide)
    | cons d line =>
      obtain ⟨rfl, -⟩ := List.cons.inj htext
      exact absurd (hblank '-' (by simp)).1 (by decide)

/-- A harmless comment leaves a statement uncut. -/
theorem IsHarmless.isUncut (h : IsHarmless front content rest) (hcontent : '\n' ∉ content)
    (hnext : startsStatement (nextLine rest) = false)
    (hseam : ∀ c ∈ front.getLast?, isNameStart c = true → rest.head?.any isNameChar = false)
    (huncut : IsUncut (front ++ rest)) : IsUncut (front ++ comment content ++ rest) where
  semicolon before behind heq := by
    rcases place_cases heq with ⟨extra, rfl, hextra⟩ | ⟨line, extra, hcomment, -, hne, rfl, hextra⟩ |
      ⟨extra, rfl, rfl⟩
    · cases extra with
      | nil => nomatch (List.cons.inj hextra).1
      | cons c extra =>
        obtain ⟨rfl, -⟩ := List.cons.inj hextra
        exact huncut.semicolon before (extra ++ rest) (by simp)
    · obtain ⟨c, extra, rfl⟩ := List.exists_cons_of_ne_nil hne
      obtain ⟨rfl, -⟩ := List.cons.inj hextra
      exact h.semicolon_comment hcomment
    · rw [h.odd_count_iff]
      exact huncut.semicolon (front ++ extra) behind (List.append_assoc _ _ _).symm
  keyword before behind heq hline hstarts := by
    rcases place_cases heq with ⟨extra, rfl, rfl⟩ | ⟨line, extra, hcomment, hne, hextra, rfl, rfl⟩ |
      ⟨extra, rfl, rfl⟩
    · refine huncut.keyword before (extra ++ rest) (by simp) hline ?_
      refine startsStatement_exchange hstarts (Lexer.isNameChar_of_isBlank (by decide)) fun c hc => ?_
      exact hseam c (by simp [Option.mem_def.mp hc])
    · rw [startsStatement_comment hcontent hcomment hne hextra hline] at hstarts
      cases hstarts
    · rcases hline.of_append with hbreak | hblank
      · exact h.keyword_line hbreak hstarts huncut
      · rw [nextLine_append hblank hstarts, hstarts] at hnext
        cases hnext

theorem rtakeWhile_append_blank (hc : isBlank c = true) (s t : List Char) :
    (s ++ c :: t).rtakeWhile (!isBlank ·) = t.rtakeWhile (!isBlank ·) := by
  have hblank : (c :: s.reverse).head?.any (!isBlank ·) = false := by simp [hc]
  rw [List.rtakeWhile, List.reverse_append, List.reverse_cons, List.append_assoc,
    List.singleton_append, takeWhile_append_of_any _ hblank, List.rtakeWhile]

end

/-! ## Places in a condition -/

/-- A place between two tokens of the condition of a statement that is a script of its own. -/
structure ConditionPlace (script : List Char) where
  /-- What is skipped in front of the statement. -/
  skipped : List Char
  /-- The statement up to its condition. -/
  start : List Char
  before : List Char
  behind : List Char
  /-- The blanks between the statement and its end. -/
  blanks : List Char
  /-- What is skipped behind the statement. -/
  tail : List Char
  statement : Statement
  tree : Condition
  split_eq : split script = ([⟨skipped, start ++ before ++ (behind ++ blanks)⟩], tail)
  trim_eq : Text.trim (start ++ before ++ (behind ++ blanks)) = start ++ before ++ behind
  batches_eq : batches script = .ok [[statement]]
  condition?_eq : statement.condition? = some (before ++ behind)
  read_eq : Condition.read (before ++ behind) = .ok tree
  isBoundary : Lexer.IsBoundary behind before

/-- Any place between two tokens of the condition of a script of one statement. -/
theorem exists_conditionPlace {script before behind tail : List Char} {part : Part}
    {statement : Statement} {tree : Condition} (hsplit : split script = ([part], tail))
    (hbatches : batches script = .ok [[statement]])
    (hcondition : statement.condition? = some (before ++ behind))
    (hread : Condition.read (before ++ behind) = .ok tree)
    (hboundary : Lexer.IsBoundary behind before) :
    ∃ place : ConditionPlace script, place.before = before ∧ place.behind = behind ∧
      place.statement = statement ∧ place.tree = tree := by
  obtain ⟨skipped, text⟩ := part
  have hstatement := (batches_eq_single_iff hsplit).mp hbatches
  obtain ⟨hne, hspan, -⟩ := split_eq_single_iff.mp hsplit
  obtain ⟨d, statementTail, rfl⟩ := List.exists_cons_of_ne_nil hne
  have htrim : Text.trim (d :: statementTail) = Text.trimEnd (d :: statementTail) := by
    have hd := (not_isBlank_of_spanSkipped hspan).1
    rw [Text.trim, Text.trimStart_eq_self (Text.begins_cons (by simp [hd]) _)]
  obtain ⟨keyword, c, htext, -⟩ := Statement.exists_blank hstatement hcondition
  obtain ⟨blanks, hblanks⟩ := Text.exists_trimEnd_append (d :: statementTail)
  have hstart : Text.trim (d :: statementTail) = keyword ++ [c] ++ before ++ behind := by
    rw [htext, List.append_assoc, List.append_assoc, List.singleton_append]
  have hwhole : d :: statementTail = keyword ++ [c] ++ before ++ (behind ++ blanks) := by
    rw [← List.append_assoc, ← hstart, htrim, ← hblanks]
  rw [hwhole] at hsplit hstart
  exact ⟨⟨skipped, keyword ++ [c], before, behind, blanks, tail, statement, tree, hsplit, hstart,
    hbatches, hcondition, hread, hboundary⟩, rfl, rfl, rfl, rfl⟩

namespace ConditionPlace

variable {script : List Char} (place : ConditionPlace script)

/-- The statement in front of the place. -/
def front : List Char :=
  place.start ++ place.before

/-- The statement behind the place. -/
def rest : List Char :=
  place.behind ++ place.blanks

/-- The script with a comment at the place. -/
def commented (content : List Char) : List Char :=
  place.skipped ++ (place.front ++ comment content ++ place.rest) ++ place.tail

/-- The condition with a comment at the place. -/
def conditionWith (content : List Char) : List Char :=
  Text.trim (place.before ++ (comment content ++ place.behind))

theorem read?_front : Statement.read? (place.front ++ place.behind) = some place.statement := by
  have hread := (batches_eq_single_iff place.split_eq).mp place.batches_eq
  rwa [place.trim_eq] at hread

/-- In front of the condition stands a blank. -/
theorem exists_start : ∃ keyword c, place.start = keyword ++ [c] ∧ isBlank c = true := by
  obtain ⟨keyword, c, htext, hc⟩ := Statement.exists_blank place.read?_front place.condition?_eq
  rw [front, List.append_assoc, List.append_cons] at htext
  exact ⟨keyword, c, List.append_cancel_right htext, hc⟩

theorem exists_letter : ∃ c start, place.start = c :: start ∧ Text.isFoldedLetter c = true := by
  have hread := place.read?_front
  have hne : place.start ≠ [] := by
    obtain ⟨keyword, c, hstart, -⟩ := place.exists_start
    simp [hstart]
  obtain ⟨c, start, hstart⟩ := List.exists_cons_of_ne_nil hne
  rw [front, hstart, List.cons_append, List.cons_append] at hread
  obtain ⟨kind, -, hletter⟩ := Statement.sameLetter_of_read? hread
  exact ⟨c, start, hstart, Text.isFoldedLetter_of_sameLetter kind.isUpper_letter hletter⟩

theorem begins_front (t : List Char) : Begins (!isBlank ·) (place.front ++ t) := by
  obtain ⟨c, start, hstart, hletter⟩ := place.exists_letter
  have hc : isBlank c = false := isBlank_eq_false_of (by decide) hletter
  rw [front, hstart, List.cons_append, List.cons_append]
  exact Text.begins_cons (by simp [hc]) _

theorem trimEnd_rest : Text.trimEnd (place.front ++ place.rest) = place.front ++ place.behind := by
  have htrim := place.trim_eq
  change Text.trim (place.front ++ place.rest) = _ at htrim
  rwa [Text.trim, Text.trimStart_eq_self (place.begins_front _)] at htrim

theorem trimEnd_blanks : Text.trimEnd place.blanks = [] := by
  by_contra hne
  have htrim := place.trimEnd_rest
  rw [rest, ← List.append_assoc, Text.trimEnd_append _ hne] at htrim
  exact hne (List.append_right_eq_self.mp htrim)

/-- The statement does not end with a blank. -/
theorem not_isBlank_of_getLast? : ∀ c ∈ (place.front ++ place.behind).getLast?, isBlank c = false := by
  rw [← place.trimEnd_rest]
  exact Text.not_isBlank_of_getLast?_trimEnd _

theorem any_isNameChar_rest (h : place.behind.head?.any isNameChar = false) :
    place.rest.head?.any isNameChar = false := by
  rw [rest]
  cases hbehind : place.behind with
  | cons c behind =>
    rw [hbehind] at h
    exact h
  | nil =>
    cases hblanks : place.blanks with
    | nil => rfl
    | cons c blanks =>
      have htrim := place.trimEnd_blanks
      refine Lexer.isNameChar_of_isBlank (Text.isBlank_of_trim_eq_nil (s := place.blanks) ?_ c ?_)
      · rw [← Text.trimStart_trimEnd, htrim]
        rfl
      · simp [hblanks]

/-- No word goes on behind the place. -/
theorem any_isNameChar {c : Char} (hc : c ∈ place.front.getLast?) (hletter : isNameStart c = true) :
    place.rest.head?.any isNameChar = false := by
  refine place.any_isNameChar_rest ?_
  cases hlast : place.before.getLast? with
  | some d =>
    rw [front, List.getLast?_append, hlast, Option.some_or] at hc
    obtain rfl : d = c := Option.some.inj hc
    exact place.isBoundary.any_isNameChar hlast hletter
  | none =>
    obtain ⟨keyword, blank, hstart, hblank⟩ := place.exists_start
    rw [front, List.getLast?_append, hlast, hstart, List.getLast?_concat] at hc
    obtain rfl : blank = c := Option.some.inj hc
    rw [Lexer.isNameStart_of_isBlank blank hblank] at hletter
    cases hletter

variable {content : List Char}

/-- The script with the comment is still one statement. -/
theorem split_commented (hcontent : '\n' ∉ content)
    (hnext : startsStatement (nextLine place.rest) = false)
    (hharmless : IsHarmless place.front content place.rest) :
    split (place.commented content) =
      ([⟨place.skipped, place.front ++ comment content ++ place.rest⟩], place.tail) := by
  obtain ⟨c, start, hstart, hletter⟩ := place.exists_letter
  have hdash : c ≠ '-' := by
    rintro rfl
    exact absurd hletter (by decide)
  have hfront : place.front = c :: (start ++ place.before) := by rw [front, hstart, List.cons_append]
  have hsplit : split script = ([⟨place.skipped, place.front ++ place.rest⟩], place.tail) :=
    place.split_eq
  obtain ⟨-, hspan, htail, huncut, hend⟩ := split_eq_single_iff.mp hsplit
  have heven : Even ((place.front ++ comment content ++ place.rest).count '\'') ↔
      Even ((place.front ++ place.rest).count '\'') := by
    rw [← Nat.not_odd_iff_even, ← Nat.not_odd_iff_even, hharmless.odd_count_iff]
  refine split_eq_single_iff.mpr ⟨?_, ?_, htail,
    hharmless.isUncut hcontent hnext (fun _ => place.any_isNameChar) huncut, ?_⟩
  · simp [hfront]
  · rw [commented, hfront, List.append_assoc]
    rw [hfront] at hspan
    exact spanSkipped_replace hspan hdash _
  · rwa [heven]

/-- Blanks are taken off the end of a comment, or off the text behind it. -/
theorem trimEnd_comment (content t : List Char) : Text.trimEnd (comment content ++ t) =
    ' ' :: '-' :: '-' :: Text.trimEnd (content ++ '\n' :: t) := by
  have hdash : isBlank '-' = false := by decide
  have hdashes : Text.Ends [' ', '-', '-'] :=
    ⟨[' '], ['-', '-'], ⟨by simp, by simp [hdash]⟩, rfl⟩
  have hcomment : comment content ++ t = [' ', '-', '-'] ++ (content ++ '\n' :: t) := by
    simp [comment]
  rw [hcomment, hdashes.trimEnd_append]
  rfl

/-- What is left of the comment and of the text behind it when blanks are taken off its end. -/
theorem exists_line (hcontent : '\n' ∉ content) : ∃ text line,
    Text.trimEnd (comment content ++ place.rest) = ' ' :: '-' :: '-' :: (text ++ line) ∧
      '\n' ∉ text ∧ Begins (· == '\n') line ∧
      Lexer.meaningful line = Lexer.meaningful place.behind := by
  have htrim : Text.trimEnd (content ++ '\n' :: place.rest) =
      Text.trimEnd (content ++ '\n' :: place.behind) := by
    rw [rest, ← List.cons_append, ← List.append_assoc,
      Text.trimEnd_append_of_eq_nil place.trimEnd_blanks]
  rw [trimEnd_comment, htrim]
  rcases List.eq_nil_or_concat place.behind with hbehind | ⟨behind, last, hbehind⟩
  · refine ⟨Text.trimEnd content, [], ?_, mt Text.mem_of_mem_trimEnd hcontent, ?_, ?_⟩
    · rw [hbehind, Text.trimEnd_concat (by decide), List.append_nil]
    · nofun
    · rw [hbehind]
  · have hlast : isBlank last = false := by
      refine place.not_isBlank_of_getLast? last ?_
      simp [hbehind]
    refine ⟨content, '\n' :: place.behind, ?_, hcontent, Text.begins_cons rfl _, ?_⟩
    · rw [hbehind, List.concat_eq_append, ← List.cons_append, ← List.append_assoc,
        Text.trimEnd_eq_self hlast]
    · rw [Lexer.meaningful_blank (by decide)]

/-- The last word in front of the place does not go beyond the condition. -/
theorem rtakeWhile_front : place.front.rtakeWhile (!isBlank ·) =
    place.before.rtakeWhile (!isBlank ·) := by
  obtain ⟨keyword, c, hstart, hc⟩ := place.exists_start
  rw [front, hstart, List.append_assoc, List.singleton_append, rtakeWhile_append_blank hc]

/-- Nothing but the comment is new in the condition. -/
theorem conditionWith_eq (content : List Char) : place.conditionWith content =
    Text.trimStart (place.before ++ Text.trimEnd (comment content ++ place.rest)) := by
  have hne : Text.trimEnd (comment content ++ place.rest) ≠ [] := by
    rw [trimEnd_comment]
    exact List.cons_ne_nil _ _
  have hblanks : Text.trimEnd (place.before ++ (comment content ++ place.behind)) =
      Text.trimEnd (place.before ++ (comment content ++ place.rest)) := by
    rw [rest, ← List.append_assoc, ← List.append_assoc, ← List.append_assoc,
      Text.trimEnd_append_of_eq_nil place.trimEnd_blanks]
  rw [conditionWith, ← Text.trimStart_trimEnd, hblanks, Text.trimEnd_append _ hne]

/-- The condition is read as the same tree. -/
theorem read_conditionWith (hcontent : '\n' ∉ content) :
    Condition.read (place.conditionWith content) = .ok place.tree := by
  obtain ⟨text, line, hline, htext, hbreak, hmeaning⟩ := place.exists_line hcontent
  have hmeaningful := place.isBoundary.meaningful_comment htext hbreak hmeaning
  have hread := place.read_eq
  rw [Condition.read] at hread ⊢
  rwa [conditionWith_eq, Lexer.meaningful_trimStart, hline, hmeaningful]

/-- The statement is read with the comment in its condition. -/
theorem read?_commented
    (hselect : ∀ selection, place.statement = .select selection →
      Text.trim selection.columns ≠ [] ∧
      spells "WHERE".toList (place.before.rtakeWhile (!isBlank ·)) = false) :
    Statement.read? (Text.trim (place.front ++ comment content ++ place.rest)) =
      some (place.statement.withCondition (place.conditionWith content)) := by
  have hne : Text.trimEnd (comment content ++ place.rest) ≠ [] := by
    rw [trimEnd_comment]
    exact List.cons_ne_nil _ _
  have htrim : Text.trim (place.front ++ comment content ++ place.rest) =
      place.front ++ Text.trimEnd (comment content ++ place.rest) := by
    rw [List.append_assoc, Text.trim, Text.trimStart_eq_self (place.begins_front _),
      Text.trimEnd_append _ hne]
  rw [htrim, conditionWith_eq]
  refine Statement.read?_exchange ⟨_, trimEnd_comment content place.rest⟩
    place.not_isBlank_of_getLast? place.condition?_eq (fun selection hselection => ?_)
    place.read?_front
  obtain ⟨hcolumns, hword⟩ := hselect selection hselection
  refine ⟨?_, fun front c word hfront hc => ?_⟩
  · by_contra hall
    push Not at hall
    refine hcolumns ?_
    rw [← Text.trimStart_trimEnd, Text.trimEnd_of_isBlank (by simpa using hall)]
    rfl
  · refine Bool.eq_false_iff.mpr fun hspells => ?_
    have hletters := Text.isFoldedLetter_of_spells (List.all_eq_true.mp (by decide)) hspells
    have hlast := place.rtakeWhile_front
    rw [hfront, rtakeWhile_append_blank hc, List.rtakeWhile_eq_self_iff.mpr ?_] at hlast
    · rw [← hlast, hspells] at hword
      cases hword
    · intro d hd
      have hblank : isBlank d = false := isBlank_eq_false_of (by decide) (hletters d hd)
      simp [hblank]

/-- A harmless comment between two tokens of a condition does not count. -/
theorem batches_commented (hcontent : '\n' ∉ content)
    (hnext : startsStatement (nextLine place.rest) = false)
    (hharmless : IsHarmless place.front content place.rest)
    (hselect : ∀ selection, place.statement = .select selection →
      Text.trim selection.columns ≠ [] ∧
      spells "WHERE".toList (place.before.rtakeWhile (!isBlank ·)) = false) :
    batches (place.commented content) =
        .ok [[place.statement.withCondition (place.conditionWith content)]] ∧
      (place.statement.withCondition (place.conditionWith content)).kind = place.statement.kind ∧
      Condition.read (place.conditionWith content) = .ok place.tree := by
  refine ⟨?_, Statement.kind_withCondition _ _, place.read_conditionWith hcontent⟩
  exact (batches_eq_single_iff (place.split_commented hcontent hnext hharmless)).mpr
    (place.read?_commented hselect)

end ConditionPlace

/-- A selection between a comment and a semicolon. -/
def filteredScript : List Char :=
  "-- one\nSELECT id FROM t WHERE (a = 'x')\n AND b = 2 ;\n".toList

theorem isBoundary_filtered : Lexer.IsBoundary ")\n AND b = 2".toList "(a = 'x'".toList := by
  have htext : Lexer.IsBoundary ")\n AND b = 2".toList "'x'".toList :=
    @Lexer.IsBoundary.token _ '\'' "x'".toList [] (.text ['x']) (by decide) (by decide) .start
  have hequals : Lexer.IsBoundary ")\n AND b = 2".toList "= 'x'".toList :=
    @Lexer.IsBoundary.token _ '=' [] " 'x'".toList (.operator (.comparison .eq)) (by decide)
      (by decide) (.blank (by decide) htext)
  have hname : Lexer.IsBoundary ")\n AND b = 2".toList "a = 'x'".toList :=
    @Lexer.IsBoundary.token _ 'a' [] " = 'x'".toList (.identifier ['a']) (by decide)
      (by decide) (.blank (by decide) hequals)
  exact @Lexer.IsBoundary.token _ '(' [] "a = 'x'".toList .leftParen (by decide) (by decide)
    hname

/-- The place in front of the closing parenthesis. -/
def filteredPlace : ConditionPlace filteredScript where
  skipped := "-- one\n".toList
  start := "SELECT id FROM t WHERE ".toList
  before := "(a = 'x'".toList
  behind := ")\n AND b = 2".toList
  blanks := [' ']
  tail := ";\n".toList
  statement := .select ⟨"id".toList, "t", none, [], some "(a = 'x')\n AND b = 2".toList⟩
  tree := .and
    (.compare (.comparison .eq) (.column ⟨"a", .column "a"⟩) (.value ⟨"'x'", .constant (.text "x")⟩))
    (.compare (.comparison .eq) (.column ⟨"b", .column "b"⟩)
      (.value ⟨"2", .constant (.int 2)⟩))
  split_eq := by decide +kernel
  trim_eq := by decide
  batches_eq := by decide +kernel
  condition?_eq := by decide
  read_eq := by decide +kernel
  isBoundary := isBoundary_filtered

theorem batches_commented_filteredPlace :
    '\n' ∉ " of 'x; y' (".toList ∧ startsStatement (nextLine filteredPlace.rest) = false ∧
      IsHarmless filteredPlace.front " of 'x; y' (".toList filteredPlace.rest ∧
      filteredPlace.commented " of 'x; y' (".toList =
        "-- one\nSELECT id FROM t WHERE (a = 'x' -- of 'x; y' (\n)\n AND b = 2 ;\n".toList ∧
      batches (filteredPlace.commented " of 'x; y' (".toList) = .ok [[.select
        ⟨"id".toList, "t", none, [], some "(a = 'x' -- of 'x; y' (\n)\n AND b = 2".toList⟩]] ∧
      Condition.read "(a = 'x' -- of 'x; y' (\n)\n AND b = 2".toList = .ok filteredPlace.tree := by
  have hcontent : '\n' ∉ " of 'x; y' (".toList := by decide
  have hnext : startsStatement (nextLine filteredPlace.rest) = false := by decide
  have hharmless : IsHarmless filteredPlace.front " of 'x; y' (".toList filteredPlace.rest :=
    { even_count := by decide
      semicolon := fun before behind heq => by
        have huncut : IsUncut " of 'x; y' (".toList := by decide
        have hodd := huncut.semicolon before behind heq
        have hfront : filteredPlace.front.count '\'' = 2 := by decide
        rw [Nat.odd_iff] at hodd
        rw [List.count_append, hfront, Nat.odd_iff]
        omega
      depth := .inl (by decide) }
  have htext : filteredPlace.conditionWith " of 'x; y' (".toList =
      "(a = 'x' -- of 'x; y' (\n)\n AND b = 2".toList := by decide
  obtain ⟨hbatches, -, hread⟩ := filteredPlace.batches_commented hcontent hnext hharmless
    (fun selection hselection => by
      cases hselection
      decide)
  rw [htext] at hbatches hread
  exact ⟨hcontent, hnext, hharmless, by decide, hbatches, hread⟩

/-- A place in front of a connective. -/
def cutPlace : ConditionPlace "DELETE FROM t WHERE a = 1 AND b = 2".toList where
  skipped := []
  start := "DELETE FROM t WHERE ".toList
  before := "a = 1".toList
  behind := " AND b = 2".toList
  blanks := []
  tail := []
  statement := .delete "t" (some "a = 1 AND b = 2".toList)
  tree := .and
    (.compare (.comparison .eq) (.column ⟨"a", .column "a"⟩)
      (.value ⟨"1", .constant (.int 1)⟩))
    (.compare (.comparison .eq) (.column ⟨"b", .column "b"⟩)
      (.value ⟨"2", .constant (.int 2)⟩))
  split_eq := by decide +kernel
  trim_eq := by decide
  batches_eq := by decide +kernel
  condition?_eq := by decide
  read_eq := by decide +kernel
  isBoundary := by
    have hnumber : Lexer.IsBoundary " AND b = 2".toList "1".toList :=
      @Lexer.IsBoundary.token _ '1' [] [] (.number ['1']) (by decide) (by decide) .start
    have hequals : Lexer.IsBoundary " AND b = 2".toList "= 1".toList :=
      @Lexer.IsBoundary.token _ '=' [] " 1".toList (.operator (.comparison .eq)) (by decide)
        (by decide) (.blank (by decide) hnumber)
    exact @Lexer.IsBoundary.token _ 'a' [] " = 1".toList (.identifier ['a']) (by decide)
      (by decide) (.blank (by decide) hequals)

/-- A semicolon in a comment cuts the statement, and what follows it is none. -/
theorem batches_commented_cutPlace :
    '\n' ∉ " x; y".toList ∧ startsStatement (nextLine cutPlace.rest) = false ∧
      cutPlace.commented " x; y".toList = "DELETE FROM t WHERE a = 1 -- x; y\n AND b = 2".toList ∧
      batches (cutPlace.commented " x; y".toList) = .error (.unmatchedStatement "y" 1) := by
  decide +kernel

end Script

end Relational
