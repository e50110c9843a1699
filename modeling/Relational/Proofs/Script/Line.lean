import Relational.Proofs.Script.Split

/-!
# Scripts line by line

A line break of a script stands in one of two places (`Script.isBetween_or_isInside`). Either it
stands between statements (`Script.IsBetween`), and the script has the statements of the text before
and those of the text behind. Or it stands in a statement (`Script.IsInside`), which begins before it
and goes on behind it. Blanks in front of the break, such as a carriage return, count only if it stands
in a statement (`Script.texts_return`).
-/

namespace Relational.Script

open Text (Begins begins_cons)

variable {cursor : Cursor} {inComment : Bool} {c : Char}
  {a s t blanks statement skipped rest : List Char} {done : List (List Char)}

/-! ## Behind a text -/

/-- What is skipped in front of a statement does not depend on what stands behind the text, unless a
dash can become a comment. -/
theorem spanSkipped_append_of_head (h : spanSkipped false a = (skipped, c :: rest))
    (ht : t.head? ≠ some '-') : spanSkipped false (a ++ t) = (skipped, c :: rest ++ t) := by
  obtain ⟨rfl, hskipped, hunskipped⟩ := spanSkipped_eq_iff.mp h
  refine spanSkipped_eq_iff.mpr ⟨by simp, hskipped.congr rfl, hunskipped.begins, ?_⟩
  intro hdashes
  have hboth : c = '-' ∧ (rest ++ t).head? = some '-' := by
    obtain ⟨u, hu⟩ := hdashes
    have hcons : '-' :: '-' :: u = c :: (rest ++ t) := hu
    obtain ⟨rfl, htail⟩ := List.cons.inj hcons
    exact ⟨rfl, by rw [← htail]; rfl⟩
  cases rest with
  | nil => exact ht hboth.2
  | cons d rest =>
    obtain rfl : d = '-' := by simpa using hboth.2
    obtain rfl := hboth.1
    exact hunskipped.dashes ⟨rest, rfl⟩

/-- Blanks are skipped behind what is skipped. -/
theorem spanSkipped_blanks (h : (spanSkipped inComment a).2 = [])
    (hblanks : ∀ c ∈ blanks, isBlank c = true) : (spanSkipped inComment (a ++ blanks)).2 = [] := by
  induction a generalizing inComment with
  | nil =>
    rw [List.nil_append]
    induction blanks generalizing inComment with
    | nil => rfl
    | cons c blanks ih =>
      obtain ⟨hc, hblanks⟩ := List.forall_mem_cons.mp hblanks
      rw [spanSkipped, if_pos (by simp [hc])]
      exact ih hblanks rfl
  | cons d a ih =>
    rw [spanSkipped] at h
    rw [List.cons_append, spanSkipped]
    split at h
    · rename_i hd
      rw [if_pos hd]
      exact ih h
    · rename_i hd
      rw [if_neg hd]
      split at h
      · rename_i hdash
        obtain ⟨hdash, hhead⟩ := hdash
        obtain ⟨a, rfl⟩ := List.head?_eq_some_iff.mp hhead
        rw [if_pos ⟨hdash, rfl⟩]
        exact ih h
      · cases h

/-- A statement that ends within a text ends there, unless the text behind goes on a word. -/
theorem spanStatement_append_of_any (h : spanStatement cursor s = (statement, c :: rest))
    (ht : t.head?.any isNameChar = false) :
    spanStatement cursor (s ++ t) = (statement, c :: rest ++ t) := by
  induction s generalizing cursor statement with
  | nil => simp [spanStatement] at h
  | cons d s ih =>
    have hends := cursor.endsBefore_append d s ht
    rw [List.cons_append] at hends
    rw [spanStatement] at h
    rw [List.cons_append, spanStatement, hends]
    split at h
    · rename_i hd
      cases h
      rw [if_pos hd]
      rfl
    · rename_i hd
      obtain ⟨h₁, h₂⟩ := Prod.mk.inj h
      rw [if_neg hd, ih (Prod.ext rfl h₂)]
      simp [← h₁]

/-- A statement goes on behind a text that does not cut it. -/
theorem spanStatement_append_of_isUncut (h : isUncut cursor s = true)
    (ht : t.head?.any isNameChar = false) : spanStatement cursor (s ++ t) =
      (s ++ (spanStatement (s.foldl Cursor.after cursor) t).1,
        (spanStatement (s.foldl Cursor.after cursor) t).2) := by
  induction s generalizing cursor with
  | nil => rfl
  | cons d s ih =>
    rw [isUncut, Bool.and_eq_true, Bool.not_eq_true'] at h
    have hends := (cursor.endsBefore_append d s ht).trans h.1
    rw [List.cons_append] at hends
    rw [List.cons_append, spanStatement, hends, ih h.2]
    rfl

theorem ne_of_isBlank {d : Char} (hc : isBlank c = true) (hd : isBlank d = false) : c ≠ d := by
  rintro rfl
  rw [hc] at hd
  cases hd

theorem Cursor.endsBefore_blank (hc : isBlank c = true) (cursor : Cursor) (s : List Char) :
    cursor.endsBefore (c :: s) = false := by
  have hsemicolon : c ≠ ';' := ne_of_isBlank hc (by decide)
  have hstarts : startsStatement (c :: s) = false := Bool.eq_false_iff.mpr fun h => by
    have hname := any_isNameChar_of_startsStatement h
    simp [Lexer.isNameChar_of_isBlank hc] at hname
  simp [endsBefore, hsemicolon, hstarts]

/-- A line break puts the cursor where it would without a blank in front of it. -/
theorem Cursor.after_blank_lineBreak (hc : isBlank c = true) (cursor : Cursor) :
    (cursor.after c).after '\n' = cursor.after '\n' := by
  have hquote : c ≠ '\'' := ne_of_isBlank hc (by decide)
  have hopen : c ≠ '(' := ne_of_isBlank hc (by decide)
  have hclose : c ≠ ')' := ne_of_isBlank hc (by decide)
  simp [after, hquote, hopen, hclose]

/-- Blanks up to a line break leave a statement where the line break by itself does. -/
theorem spanStatement_lineBreak (cursor : Cursor) (hblanks : ∀ c ∈ blanks, isBlank c = true)
    (t : List Char) : spanStatement cursor (blanks ++ '\n' :: t) =
      (blanks ++ '\n' :: (spanStatement (cursor.after '\n') t).1,
        (spanStatement (cursor.after '\n') t).2) := by
  induction blanks generalizing cursor with
  | nil =>
    rw [List.nil_append, spanStatement, cursor.endsBefore_blank (by decide)]
    rfl
  | cons c blanks ih =>
    obtain ⟨hc, hblanks⟩ := List.forall_mem_cons.mp hblanks
    rw [List.cons_append, spanStatement, cursor.endsBefore_blank hc, ih _ hblanks,
      cursor.after_blank_lineBreak hc]
    rfl

theorem texts_blanks (hblanks : ∀ c ∈ blanks, isBlank c = true) (t : List Char) :
    texts (blanks ++ t) = texts t := by
  refine texts_congr ?_
  induction blanks with
  | nil => rfl
  | cons c blanks ih =>
    obtain ⟨hc, hblanks⟩ := List.forall_mem_cons.mp hblanks
    rw [List.cons_append, spanSkipped_blank (by rw [hc, Bool.true_or])]
    exact ih hblanks

theorem isBlank_of_trimEnd (h : Text.trimEnd s = []) : ∀ c ∈ s, isBlank c = true := by
  refine Text.isBlank_of_trim_eq_nil ?_
  rw [← Text.trimStart_trimEnd, h]
  rfl

theorem trim_append (hs : Begins (!isBlank ·) s) (hne : s ≠ []) (t : List Char) :
    Text.trim (s ++ t) = Text.trimEnd (s ++ t) := by
  have hbegins : Begins (!isBlank ·) (s ++ t) := by
    obtain ⟨c, s, rfl⟩ := List.exists_cons_of_ne_nil hne
    exact begins_cons (hs c rfl) (s ++ t)
  rw [Text.trim, Text.trimStart_eq_self hbegins]

/-! ## At a line break -/

/-- The line break between two texts stands between statements, also with blanks in front of it. -/
def IsBetween (a t : List Char) : Prop :=
  ∀ blanks, (∀ c ∈ blanks, isBlank c = true) →
    texts (a ++ (blanks ++ '\n' :: t)) = texts a ++ texts t

/-- The line break between two texts stands in a statement, of which the first text has the beginning
and the second one the rest. -/
structure IsInside (a t start more : List Char) (before behind : List (List Char)) : Prop where
  suffix : start <:+ a
  begins : Begins (!isBlank ·) start
  ne_nil : start ≠ []
  more_ne_nil : more ≠ []
  more_le : more <+: t
  texts_eq : texts a = before ++ [Text.trim start]
  texts_append (blanks : List Char) : (∀ c ∈ blanks, isBlank c = true) →
    texts (a ++ (blanks ++ '\n' :: t)) = before ++ (start ++ (blanks ++ '\n' :: more)) :: behind

theorem isBetween_of_skipped (h : (spanSkipped false a).2 = []) (t : List Char) : IsBetween a t := by
  intro blanks hblanks
  rw [texts_of_skipped h, List.nil_append, ← List.append_assoc]
  exact texts_congr (spanSkipped_append_of_skipped (spanSkipped_blanks h hblanks) t)

theorem head?_blanks (hblanks : ∀ c ∈ blanks, isBlank c = true) (t : List Char) :
    ∃ c, (blanks ++ '\n' :: t).head? = some c ∧ isBlank c = true := by
  cases blanks with
  | nil => exact ⟨'\n', rfl, by decide⟩
  | cons c blanks => exact ⟨c, rfl, hblanks c List.mem_cons_self⟩

/-- A statement that goes on to a line break ends there or goes on behind it. -/
theorem isBetween_or_isInside_of_open {u : List Char} (ha : a = skipped ++ c :: u)
    (hc : isBlank c = false) (huncut : isUncut (Cursor.start.after c) u = true)
    (htexts : texts a = [Text.trim (c :: u)])
    (hskip : ∀ blanks, (∀ c ∈ blanks, isBlank c = true) →
      (spanSkipped false (a ++ (blanks ++ '\n' :: t))).2 = c :: (u ++ (blanks ++ '\n' :: t))) :
    IsBetween a t ∨ ∃ start more before behind, IsInside a t start more before behind := by
  rcases hspan : spanStatement ((Cursor.past (c :: u)).after '\n') t with ⟨more, rest⟩
  have hbegins : Begins (!isBlank ·) (c :: u) := begins_cons (by simp [hc]) u
  have hbehind : ∀ blanks, (∀ c ∈ blanks, isBlank c = true) → texts (a ++ (blanks ++ '\n' :: t)) =
      Text.trimEnd (c :: u ++ (blanks ++ '\n' :: more)) :: texts rest := by
    intro blanks hblanks
    obtain ⟨d, hd, hblank⟩ := head?_blanks hblanks t
    have hname : (blanks ++ '\n' :: t).head?.any isNameChar = false := by
      rw [hd, Option.any_some, Lexer.isNameChar_of_isBlank hblank]
    have hstatement := spanStatement_append_of_isUncut huncut hname
    have hcursor : u.foldl Cursor.after (Cursor.start.after c) = Cursor.past (c :: u) := rfl
    rw [spanStatement_lineBreak _ hblanks, hcursor, hspan] at hstatement
    rw [texts_cons (hskip blanks hblanks) hstatement, ← List.cons_append,
      trim_append hbegins (List.cons_ne_nil c u)]
  have hparts := spanStatement_parts ((Cursor.past (c :: u)).after '\n') t
  rw [hspan] at hparts
  by_cases hmore : Text.trimEnd more = []
  · refine .inl fun blanks hblanks => ?_
    have hblank : ∀ c ∈ blanks ++ '\n' :: more, isBlank c = true :=
      List.forall_mem_append.mpr
        ⟨hblanks, List.forall_mem_cons.mpr ⟨by decide, isBlank_of_trimEnd hmore⟩⟩
    rw [hbehind blanks hblanks, Text.trimEnd_append_of_eq_nil (Text.trimEnd_of_isBlank hblank), htexts,
      ← hparts, texts_blanks (isBlank_of_trimEnd hmore), Text.trim, Text.trimStart_eq_self hbegins]
    rfl
  · have hstarts : Text.trimEnd more <+: t := by
      obtain ⟨blanks, hblanks⟩ := Text.exists_trimEnd_append more
      exact ⟨blanks ++ rest, by rw [← List.append_assoc, ← hblanks, hparts]⟩
    refine .inr ⟨c :: u, Text.trimEnd more, [], texts rest, ⟨skipped, ha.symm⟩, hbegins, by simp, hmore,
      hstarts, by rw [htexts, List.nil_append], fun blanks hblanks => ?_⟩
    have hsplit : c :: u ++ (blanks ++ '\n' :: more) = c :: u ++ blanks ++ ['\n'] ++ more := by simp
    rw [hbehind blanks hblanks, hsplit, Text.trimEnd_append _ hmore]
    simp

/-- A line break behind a text that goes on behind its first statement stands where it stands behind
the rest of the text. -/
theorem isBetween_or_isInside_of_statement {rest : List Char} {text : List Char}
    (hsuffix : rest <:+ a) (htexts : texts a = text :: texts rest)
    (hbehind : ∀ blanks, (∀ c ∈ blanks, isBlank c = true) →
      texts (a ++ (blanks ++ '\n' :: t)) = text :: texts (rest ++ (blanks ++ '\n' :: t)))
    (h : IsBetween rest t ∨ ∃ start more before behind, IsInside rest t start more before behind) :
    IsBetween a t ∨ ∃ start more before behind, IsInside a t start more before behind := by
  refine h.imp (fun hbetween blanks hblanks => ?_) ?_
  · rw [hbehind blanks hblanks, hbetween blanks hblanks, htexts, List.cons_append]
  · rintro ⟨start, more, before, behind, hinside⟩
    refine ⟨start, more, text :: before, behind, hinside.suffix.trans hsuffix, hinside.begins,
      hinside.ne_nil, hinside.more_ne_nil, hinside.more_le, ?_, fun blanks hblanks => ?_⟩
    · rw [htexts, hinside.texts_eq, List.cons_append]
    · rw [hbehind blanks hblanks, hinside.texts_append blanks hblanks, List.cons_append]

/-- What is skipped in front of the first statement stays the same behind a blank. -/
theorem spanSkipped_append_lineBreak {skipped u : List Char} {c : Char}
    (hskipped : spanSkipped false a = (skipped, c :: u)) (t : List Char) {blanks : List Char}
    (hblanks : ∀ c ∈ blanks, isBlank c = true) :
    (spanSkipped false (a ++ (blanks ++ '\n' :: t))).2 = c :: (u ++ (blanks ++ '\n' :: t)) := by
  obtain ⟨d, hd, hblank⟩ := head?_blanks hblanks t
  have hdash : (blanks ++ '\n' :: t).head? ≠ some '-' := by
    rw [hd]
    exact fun h => ne_of_isBlank hblank (by decide) (Option.some.inj h)
  exact congrArg Prod.snd (spanSkipped_append_of_head hskipped hdash)

/-- A line break stands between statements or in one. -/
theorem isBetween_or_isInside (a t : List Char) :
    IsBetween a t ∨ ∃ start more before behind, IsInside a t start more before behind := by
  generalize hn : a.length = n
  induction n using Nat.strongRecOn generalizing a with
  | ind n ih =>
    subst hn
    rcases hskipped : spanSkipped false a with ⟨skipped, - | ⟨c, u⟩⟩
    · exact .inl (isBetween_of_skipped (congrArg Prod.snd hskipped) t)
    have hskip (blanks : List Char) (hblanks : ∀ c ∈ blanks, isBlank c = true) :=
      spanSkipped_append_lineBreak hskipped t hblanks
    obtain ⟨ha, -, hunskipped⟩ := spanSkipped_eq_iff.mp hskipped
    rcases hstatement : spanStatement (Cursor.start.after c) u with ⟨statement, - | ⟨d, rest⟩⟩
    · obtain ⟨huncut, rfl⟩ := isUncut_of_spanStatement hstatement
      refine isBetween_or_isInside_of_open ha (Bool.or_eq_false_iff.mp hunskipped.head).1 huncut ?_ hskip
      rw [texts_cons (congrArg Prod.snd hskipped) hstatement, texts_of_skipped rfl]
    · have hrest : a = skipped ++ c :: statement ++ d :: rest := by
        have hparts := spanStatement_parts (Cursor.start.after c) u
        rw [hstatement] at hparts
        rw [ha, ← hparts]
        simp
      have hshorter : (d :: rest).length < a.length := by
        rw [hrest]
        simp
        omega
      refine isBetween_or_isInside_of_statement ⟨_, hrest.symm⟩
        (texts_cons (congrArg Prod.snd hskipped) hstatement) (fun blanks hblanks => ?_)
        (ih _ hshorter (d :: rest) rfl)
      obtain ⟨e, he, hblank⟩ := head?_blanks hblanks t
      refine texts_cons (hskip blanks hblanks) (spanStatement_append_of_any hstatement ?_)
      rw [he, Option.any_some, Lexer.isNameChar_of_isBlank hblank]

/-- A line break at the end of a script does not count. -/
theorem texts_lineBreak (a : List Char) : texts (a ++ ['\n']) = texts a := by
  have hnil : texts [] = [] := texts_of_skipped rfl
  rcases isBetween_or_isInside a [] with hbetween | ⟨start, more, before, behind, hinside⟩
  · rw [← List.nil_append ['\n'], hbetween [] nofun, hnil, List.append_nil]
  · exact absurd (List.prefix_nil.mp hinside.more_le) hinside.more_ne_nil

/-- Texts are apart where no statement goes on to another line. -/
theorem texts_append_of_forall (h : ∀ text ∈ texts (a ++ '\n' :: t), '\n' ∉ text) :
    texts (a ++ '\n' :: t) = texts a ++ texts t := by
  rcases isBetween_or_isInside a t with hbetween | ⟨start, more, before, behind, hinside⟩
  · exact hbetween [] nofun
  · have htexts := hinside.texts_append [] nofun
    rw [List.nil_append, List.nil_append] at htexts
    exact absurd (show '\n' ∈ start ++ '\n' :: more by simp)
      (h (start ++ '\n' :: more) (by rw [htexts]; simp))

/-- A carriage return in front of a line break counts only within a statement. -/
theorem texts_return (h : ∀ text ∈ texts (a ++ '\r' :: '\n' :: t), ¬['\r', '\n'] <:+: text) :
    texts (a ++ '\r' :: '\n' :: t) = texts (a ++ '\n' :: t) := by
  have hreturn : ∀ c ∈ ['\r'], isBlank c = true := List.forall_mem_singleton.mpr (by decide)
  rcases isBetween_or_isInside a t with hbetween | ⟨start, more, before, behind, hinside⟩
  · exact (hbetween ['\r'] hreturn).trans (hbetween [] nofun).symm
  · have htexts := hinside.texts_append ['\r'] hreturn
    rw [List.singleton_append] at htexts
    exact absurd ⟨start, more, by simp⟩ (h (start ++ '\r' :: '\n' :: more) (by rw [htexts]; simp))

end Relational.Script
