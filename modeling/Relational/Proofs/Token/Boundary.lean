import Mathlib.Data.Prod.Basic
import Relational.Proofs.Outcome
import Relational.Proofs.Token.Scan
import Relational.Text.Quoted

/-!
# Between two tokens

A place in a text lies between two tokens if reading the text comes there (`Lexer.IsBoundary`). What
stands behind the place can then be exchanged for anything that begins with a blank: no token before
the place is read otherwise, but for a comment, which goes on to the end of its line
(`Lexer.scan_replace`, `Lexer.scan_comment`). This is shown for each way to read a token
(`Lexer.Scanned`). So a comment that is put there does not count
(`Lexer.IsBoundary.meaningful_comment`). No name goes on behind a letter there
(`Lexer.IsBoundary.any_isNameChar`).
-/

namespace Relational.Lexer

open Text (Begins doubleQuotes)

variable {c : Char} {s taken between behind other rest : List Char} {token : Token}

/-! ## Tokens one by one -/

theorem tokens_blank (hc : isBlank c = true) (s : List Char) : tokens (c :: s) = tokens s := by
  rw [tokens, if_pos hc]

theorem tokens_cons (hc : isBlank c = false) (h : scan c s = .ok (token, rest)) :
    tokens (c :: s) = (tokens rest).map (token :: ·) := by
  rw [tokens, if_neg (by simp [hc])]
  split
  · rename_i heq
    rw [h] at heq
    cases heq
  · rename_i heq
    rw [h] at heq
    cases heq
    rfl

theorem meaningful_blank (hc : isBlank c = true) (s : List Char) :
    meaningful (c :: s) = meaningful s := by
  rw [meaningful, tokens_blank hc, meaningful]

theorem meaningful_cons (hc : isBlank c = false) (hcomment : isComment token = false)
    (h : scan c s = .ok (token, rest)) : meaningful (c :: s) = (meaningful rest).map (token :: ·) := by
  rw [meaningful, tokens_cons hc h, meaningful]
  cases tokens rest with
  | error fault => rfl
  | ok tokens =>
    simp only [map_ok, List.filter_cons, hcomment, Bool.not_false, ↓reduceIte]

theorem meaningful_cons_comment {content : List Char} (hc : isBlank c = false)
    (h : scan c s = .ok (.comment content, rest)) : meaningful (c :: s) = meaningful rest := by
  rw [meaningful, tokens_cons hc h, meaningful]
  cases tokens rest <;> rfl

/-- Blanks before a text do not count. -/
theorem meaningful_trimStart (s : List Char) : meaningful (Text.trimStart s) = meaningful s := by
  induction s with
  | nil => rfl
  | cons c s ih =>
    by_cases hc : isBlank c = true
    · rw [Text.trimStart, List.dropWhile_cons_of_pos hc, ← Text.trimStart, ih, meaningful_blank hc]
    · rw [Text.trimStart, List.dropWhile_cons_of_neg hc]

/-! ## Characters ahead -/

/-- A property that no blank has. -/
theorem eq_false_of_isBlank {p : Char → Bool}
    (hall : ((blankRanges.flatMap fun r => List.range' r.1 (r.2 + 1 - r.1)).all fun n =>
      !p (Char.ofNat n)) = true) (hc : isBlank c = true) : p c = false := by
  cases h : p c with
  | false => rfl
  | true =>
    rw [isBlank_eq_false_of hall h] at hc
    cases hc

theorem isNameChar_of_isBlank (hc : isBlank c = true) : isNameChar c = false :=
  eq_false_of_isBlank (by decide +kernel) hc

theorem isNameStart_of_isBlank (c : Char) (hc : isBlank c = true) : isNameStart c = false :=
  eq_false_of_isBlank (by decide +kernel) hc

theorem isDigit_of_isBlank (c : Char) (hc : isBlank c = true) : c.isDigit = false :=
  eq_false_of_isBlank (by decide) hc

/-- One text begins like another one, or with a blank. -/
def Resembles (s t : List Char) : Prop :=
  s.head? = t.head? ∨ Begins isBlank s

theorem resembles_append (hother : Begins isBlank other) (s behind : List Char) :
    Resembles (s ++ other) (s ++ behind) := by
  cases s with
  | nil => exact .inr hother
  | cons c s => exact .inl rfl

/-- What is ahead of a text that resembles another one is no blank. -/
theorem Resembles.any_head {t : List Char} (h : Resembles s t) {p : Char → Bool}
    (hp : ∀ c, isBlank c = true → p c = false) (hs : s.head?.any p = true) :
    t.head?.any p = true := by
  rcases h with h | h
  · rw [← h]
    exact hs
  · obtain ⟨c, hc, hpc⟩ := (Option.any_eq_true ..).mp hs
    rw [hp c (h c hc)] at hpc
    cases hpc

theorem Resembles.head? {t : List Char} (h : Resembles s t) (hc : isBlank c = false)
    (hs : s.head? = some c) : t.head? = some c := by
  rcases h with h | h
  · exact h.symm.trans hs
  · rw [h c hs] at hc
    cases hc

theorem Resembles.append {t : List Char} (h : Resembles s t) (taken : List Char) :
    Resembles (taken ++ s) (taken ++ t) := by
  cases taken with
  | nil => exact h
  | cons c taken => exact .inl rfl

/-! ## Identifiers -/

/-- No identifier goes on with the text. -/
def EndsIdentifier (s : List Char) : Prop :=
  ∀ c t, s = c :: t → (isNameChar c || (c == '.' && t.head?.any isNameStart)) = false

theorem EndsIdentifier.any_isNameChar (h : EndsIdentifier s) :
    s.head?.any isNameChar = false := by
  cases s with
  | nil => rfl
  | cons c s => exact (Bool.or_eq_false_iff.mp (h c s rfl)).1

theorem EndsIdentifier.any_isNameStart (h : EndsIdentifier s) :
    s.head?.any isNameStart = false := by
  have hname := h.any_isNameChar
  cases hs : s.head?.any isNameStart with
  | false => rfl
  | true =>
    obtain ⟨c, hc, hstart⟩ := (Option.any_eq_true ..).mp hs
    rw [hc, Option.any_some, isNameChar_of_isNameStart hstart] at hname
    cases hname

theorem EndsIdentifier.exchange (h : EndsIdentifier (between ++ behind))
    (hother : Begins isBlank other) : EndsIdentifier (between ++ other) := by
  cases between with
  | nil =>
    rintro c t rfl
    have hc : isBlank c = true := hother c rfl
    have hdot : c ≠ '.' := by
      rintro rfl
      exact absurd hc (by decide)
    simp [isNameChar_of_isBlank hc, hdot]
  | cons c between =>
    rintro _ _ ⟨⟩
    have hc := h c (between ++ behind) rfl
    cases hahead : (between ++ other).head?.any isNameStart with
    | false => simpa using (Bool.or_eq_false_iff.mp hc).1
    | true =>
      rwa [(resembles_append hother between behind).any_head isNameStart_of_isBlank hahead] at hc

theorem spanIdentifier_of_ends (h : EndsIdentifier s) : spanIdentifier s = ([], s) := by
  cases s with
  | nil => rfl
  | cons c s =>
    rw [spanIdentifier, h c s rfl]
    rfl

theorem endsIdentifier_span (s : List Char) : EndsIdentifier (spanIdentifier s).2 := by
  induction s with
  | nil => nofun
  | cons c s ih =>
    rw [spanIdentifier]
    split
    · exact ih
    · rename_i hc
      rintro _ _ ⟨⟩
      simpa using hc

theorem endsIdentifier_of_span {name : List Char} (h : spanIdentifier s = (name, rest)) :
    EndsIdentifier rest := by
  have hspan := endsIdentifier_span s
  rwa [h] at hspan

/-- An identifier goes no further before another text that ends it. -/
theorem spanIdentifier_replace {name t : List Char} (h : spanIdentifier (taken ++ s) = (name, s))
    (ht : EndsIdentifier t) : spanIdentifier (taken ++ t) = (name, t) := by
  have hs := endsIdentifier_of_span h
  induction taken generalizing name with
  | nil =>
    rw [List.nil_append, spanIdentifier_of_ends hs] at h
    rw [List.nil_append, spanIdentifier_of_ends ht, (Prod.mk.inj h).1]
  | cons c taken ih =>
    rw [List.cons_append, spanIdentifier] at h ⊢
    split at h
    · rename_i hc
      obtain ⟨hname, hrest⟩ := Prod.mk.inj h
      -- a dot that is taken has an identifier behind it, which is taken as well
      have hahead : (isNameChar c || (c == '.' && (taken ++ t).head?.any isNameStart)) = true := by
        cases taken with
        | cons d taken => exact hc
        | nil =>
          rw [List.nil_append, hs.any_isNameStart, Bool.and_false, Bool.or_false] at hc
          rw [hc, Bool.true_or]
      rw [if_pos hahead, ih (Prod.ext rfl hrest), ← hname]
    · have hlength := congrArg List.length (Prod.mk.inj h).2
      rw [List.length_cons, List.length_append] at hlength
      omega

/-! ## Numbers and quoted texts -/

/-- Whether a number goes on with a character. -/
def isNumberChar (pointSeen : Bool) (c : Char) : Bool :=
  c.isDigit || (c == '.' && !pointSeen)

theorem isNumberChar_of_isBlank (pointSeen : Bool) (c : Char) (hc : isBlank c = true) :
    isNumberChar pointSeen c = false := by
  have hdot : c ≠ '.' := by
    rintro rfl
    exact absurd hc (by decide)
  simp [isNumberChar, isDigit_of_isBlank c hc, hdot]

theorem spanNumber_cons (pointSeen : Bool) (c : Char) (s : List Char) :
    spanNumber pointSeen (c :: s) =
      if isNumberChar pointSeen c then
        (c :: (spanNumber (pointSeen || c == '.') s).1, (spanNumber (pointSeen || c == '.') s).2)
      else ([], c :: s) := rfl

theorem spanNumber_eq_nil_iff {pointSeen : Bool} {number : List Char} :
    spanNumber pointSeen s = (number, s) ↔
      s.head?.any (isNumberChar pointSeen) = false ∧ number = [] := by
  cases s with
  | nil => simp [spanNumber, eq_comm]
  | cons c s =>
    rw [spanNumber_cons, List.head?_cons, Option.any_some]
    split
    · rename_i hc
      refine ⟨fun h => ?_, fun h => by simp [hc] at h⟩
      have hlength := length_spanNumber_le (pointSeen || c == '.') s
      rw [(Prod.mk.inj h).2, List.length_cons] at hlength
      omega
    · rename_i hc
      simp [hc, eq_comm]

/-- A number goes no further before another text that does not go on with it. -/
theorem spanNumber_replace {pointSeen : Bool} {number t : List Char}
    (h : spanNumber pointSeen (taken ++ s) = (number, s))
    (ht : ∀ pointSeen, t.head?.any (isNumberChar pointSeen) = true →
      s.head?.any (isNumberChar pointSeen) = true) :
    spanNumber pointSeen (taken ++ t) = (number, t) := by
  induction taken generalizing pointSeen number with
  | nil =>
    obtain ⟨hs, rfl⟩ := spanNumber_eq_nil_iff.mp h
    refine spanNumber_eq_nil_iff.mpr ⟨Bool.eq_false_iff.mpr fun hany => ?_, rfl⟩
    rw [List.nil_append, ht pointSeen hany] at hs
    cases hs
  | cons c taken ih =>
    rw [List.cons_append, spanNumber_cons] at h ⊢
    split at h
    · rename_i hc
      obtain ⟨hnumber, hrest⟩ := Prod.mk.inj h
      rw [if_pos hc, ih (Prod.ext rfl hrest), ← hnumber]
    · have hlength := congrArg List.length (Prod.mk.inj h).2
      rw [List.length_cons, List.length_append] at hlength
      omega

/-- A point that is taken for a number has a digit behind it, which is taken as well. -/
theorem startsNumber_replace {pointSeen : Bool} {number : List Char}
    (h : (c.isDigit || (c == '.' && (taken ++ s).head?.any Char.isDigit)) = true)
    (hspan : spanNumber pointSeen (taken ++ s) = (number, s)) (t : List Char) :
    (c.isDigit || (c == '.' && (taken ++ t).head?.any Char.isDigit)) = true := by
  cases taken with
  | cons d taken => exact h
  | nil =>
    rw [List.nil_append] at h hspan
    have hend := (spanNumber_eq_nil_iff.mp hspan).1
    cases hs : s.head?.any Char.isDigit with
    | false =>
      rw [hs, Bool.and_false, Bool.or_false] at h
      rw [h, Bool.true_or]
    | true =>
      obtain ⟨d, hd, hdigit⟩ := (Option.any_eq_true ..).mp hs
      rw [hd, Option.any_some, isNumberChar, hdigit, Bool.true_or] at hend
      cases hend

/-- The doubled quotes of a text are read back, up to the quote behind it. -/
theorem spanQuoted_doubleQuotes (s : List Char) (hrest : rest.head? ≠ some '\'') :
    spanQuoted (doubleQuotes s ++ '\'' :: rest) = some (s, rest) := by
  induction s with
  | nil =>
    rw [doubleQuotes, List.nil_append, spanQuoted, if_pos rfl]
    rintro s - rfl
    exact hrest rfl
  | cons c s ih =>
    rw [doubleQuotes]
    split
    · rename_i hc
      rw [List.cons_append, List.cons_append, spanQuoted, ih, hc]
      rfl
    · rename_i hc
      rw [List.cons_append, spanQuoted, if_neg hc, ih]
      · rfl
      · exact fun _ h => absurd h hc

/-- Nothing else is read as a quoted text. -/
theorem eq_doubleQuotes_of_spanQuoted {content : List Char}
    (h : spanQuoted s = some (content, rest)) :
    s = doubleQuotes content ++ '\'' :: rest ∧ rest.head? ≠ some '\'' := by
  fun_induction spanQuoted s generalizing content with
  | case1 => cases h
  | case2 s ih =>
    obtain ⟨⟨content, _⟩, hs, he⟩ := Option.map_eq_some_iff.mp h
    cases he
    obtain ⟨hs, hrest⟩ := ih hs
    refine ⟨?_, hrest⟩
    rw [doubleQuotes, if_pos rfl, hs]
    rfl
  | case3 s hpair =>
    cases h
    refine ⟨rfl, fun hs => ?_⟩
    obtain ⟨s, rfl⟩ := List.head?_eq_some_iff.mp hs
    exact hpair s rfl rfl
  | case4 c s _ hc ih =>
    obtain ⟨⟨content, _⟩, hs, he⟩ := Option.map_eq_some_iff.mp h
    cases he
    obtain ⟨hs, hrest⟩ := ih hs
    refine ⟨?_, hrest⟩
    rw [doubleQuotes, if_neg hc, hs]
    rfl

theorem taken_of_spanQuoted {content : List Char} (h : spanQuoted (taken ++ s) = some (content, s)) :
    taken = doubleQuotes content ++ ['\''] := by
  have htext := (eq_doubleQuotes_of_spanQuoted h).1
  rw [List.append_cons] at htext
  exact List.append_cancel_right htext

theorem spanQuoted_replace {content t : List Char}
    (h : spanQuoted (taken ++ s) = some (content, s)) (ht : Resembles t s) :
    spanQuoted (taken ++ t) = some (content, t) := by
  have hs := (eq_doubleQuotes_of_spanQuoted h).2
  rw [taken_of_spanQuoted h, ← List.append_cons]
  exact spanQuoted_doubleQuotes content (mt (ht.head? (by decide)) hs)

/-! ## Symbols -/

open Operator in
/-- A symbol is of two characters, or of one that no other text behind it would make two, unless it
begins with `=`. -/
theorem symbol?_cases {op : Operator} {length : Nat} (h : symbol? (c :: s) = some (op, length)) :
    (length = 2 ∧ s.head? = some '=' ∧ ∀ t, symbol? (c :: '=' :: t) = some (op, 2)) ∨
    (length = 1 ∧ ∀ t, (t.head? = some '=' → s.head? = some '=') →
      symbol? (c :: t) = some (op, 1)) := by
  unfold symbol? at h
  split at h
  case h_1 heq | h_2 heq | h_3 heq =>
    cases heq
    cases h
    exact .inl ⟨rfl, rfl, fun t => rfl⟩
  case h_5 hne heq | h_6 hne heq =>
    cases heq
    cases h
    refine .inr ⟨rfl, fun t ht => ?_⟩
    cases t with
    | nil => rfl
    | cons d t =>
      have hd : d ≠ '=' := by
        rintro rfl
        obtain ⟨s, rfl⟩ := List.head?_eq_some_iff.mp (ht rfl)
        exact hne s rfl
      simp [symbol?, hd]
  case h_11 => cases h
  all_goals
    rename_i heq
    cases heq
    cases h
    exact .inr ⟨rfl, fun t _ => rfl⟩

theorem symbol?_taken {op : Operator} {length : Nat}
    (h : Operator.symbol? (c :: (taken ++ s)) = some (op, length))
    (hdrop : (taken ++ s).drop (length - 1) = s) : taken = [] ∨ taken = ['='] := by
  rcases symbol?_cases h with ⟨rfl, hequals, -⟩ | ⟨rfl, -⟩
  · cases taken with
    | nil => exact .inl rfl
    | cons d taken =>
      obtain rfl : d = '=' := by simpa using hequals
      obtain rfl : taken = [] := by simpa using hdrop
      exact .inr rfl
  · exact .inl (by simpa using hdrop)

theorem symbol?_replace {op : Operator} {length : Nat} {t : List Char}
    (h : Operator.symbol? (c :: (taken ++ s)) = some (op, length))
    (hdrop : (taken ++ s).drop (length - 1) = s) (ht : Resembles t s) :
    Operator.symbol? (c :: (taken ++ t)) = some (op, length) ∧
      (taken ++ t).drop (length - 1) = t := by
  rcases symbol?_cases h with ⟨rfl, hequals, hsymbol⟩ | ⟨rfl, hsymbol⟩
  · rcases symbol?_taken h hdrop with rfl | rfl
    · obtain ⟨s, rfl⟩ := List.head?_eq_some_iff.mp hequals
      simp at hdrop
    · exact ⟨hsymbol t, rfl⟩
  · obtain rfl : taken = [] := by simpa using hdrop
    exact ⟨hsymbol t (ht.head? (by decide)), rfl⟩

/-! ## Tokens before a place -/

/-- A word is the null, an operator or an identifier. -/
theorem ofWord_cases (word : List Char) : ofWord word = .null ∨
    (∃ op, ofWord word = .operator op) ∨ ofWord word = .identifier word := by
  unfold ofWord
  split
  · exact .inl rfl
  · split
    · exact .inr (.inl ⟨_, rfl⟩)
    · exact .inr (.inr rfl)

theorem isComment_ofWord (word : List Char) : isComment (ofWord word) = false := by
  obtain h | ⟨op, h⟩ | h := ofWord_cases word <;> rw [h] <;> rfl

theorem exists_comment (h : isComment token = true) : ∃ content, token = .comment content := by
  cases token with
  | comment content => exact ⟨content, rfl⟩
  | _ => cases h

/-- A comment goes on to the end of its line, whatever stands behind it there. -/
theorem scan_comment {content : List Char} (h : scan c (taken ++ s) = .ok (.comment content, s))
    (t : List Char) :
    Begins (· == '\n') s ∧ scan c (taken ++ t) =
      .ok (.comment (content ++ t.takeWhile (· != '\n')), t.dropWhile (· != '\n')) := by
  cases scan_eq_ok_iff.mp h with
  | comment hc hs hcontent hrest =>
    obtain rfl : taken = '-' :: content := List.append_cancel_right hs
    refine ⟨hrest, scan_eq_ok_iff.mpr (.comment hc ?_ ?_ (begins_dropWhile_line t))⟩
    · rw [List.append_assoc, List.takeWhile_append_dropWhile, List.cons_append]
    · rw [List.mem_append, not_or]
      exact ⟨hcontent, not_mem_takeWhile_line t⟩
  | @word name _ _ _ _ htoken =>
    have hword := isComment_ofWord (c :: name)
    rw [htoken] at hword
    cases hword
  | mark hc => cases isComment_of_mem_marks hc

/-- Any other token takes the same before a text that begins alike. -/
theorem scan_replace {t : List Char} (h : scan c (taken ++ s) = .ok (token, s))
    (hcomment : isComment token = false) (ht : Resembles t s)
    (hends : EndsIdentifier s → EndsIdentifier t) : scan c (taken ++ t) = .ok (token, t) := by
  refine scan_eq_ok_iff.mpr ?_
  cases scan_eq_ok_iff.mp h with
  | comment => cases hcomment
  | word hc hspan htoken =>
    exact .word hc (spanIdentifier_replace hspan (hends (endsIdentifier_of_span hspan))) htoken
  | number hc hspan =>
    have hahead (pointSeen : Bool) := ht.any_head (isNumberChar_of_isBlank pointSeen)
    exact .number (startsNumber_replace hc hspan t) (spanNumber_replace hspan hahead)
  | text hc hspan => exact .text hc (spanQuoted_replace hspan ht)
  | mark hc hrest =>
    obtain rfl : taken = [] := by simpa using hrest
    exact .mark hc rfl
  | symbol hdash hop hrest =>
    obtain ⟨hop', hrest'⟩ := symbol?_replace hop hrest ht
    have hhead := (ht.append taken).head? (c := '-') (by decide)
    exact .symbol (mt (And.imp_right hhead) hdash) hop' hrest'

/-! ## Places between tokens -/

/-- Reading a text comes to the place between its two parts. -/
inductive IsBoundary (behind : List Char) : List Char → Prop where
  | start : IsBoundary behind []
  | blank {c : Char} {before : List Char} (hc : isBlank c = true) (h : IsBoundary behind before) :
      IsBoundary behind (c :: before)
  | token {c : Char} {taken between : List Char} {token : Token} (hc : isBlank c = false)
      (hscan : scan c (taken ++ (between ++ behind)) = .ok (token, between ++ behind))
      (h : IsBoundary behind between) : IsBoundary behind (c :: (taken ++ between))

/-- What stands behind a place can be exchanged for what means the same, also where the line at the
place is a comment. -/
theorem IsBoundary.meaningful_exchange {before : List Char} (h : IsBoundary behind before)
    (hother : Begins isBlank other) (hmeaning : meaningful other = meaningful behind)
    (hline : meaningful (other.dropWhile (· != '\n')) = meaningful behind) :
    meaningful (before ++ other) = meaningful (before ++ behind) := by
  induction h with
  | start => exact hmeaning
  | blank hc _ ih =>
    rw [List.cons_append, List.cons_append, meaningful_blank hc, meaningful_blank hc, ih]
  | @token c taken between token hc hscan _ ih =>
    rw [List.cons_append, List.cons_append, List.append_assoc, List.append_assoc]
    cases hcomment : isComment token with
    | false =>
      have hscan' := scan_replace hscan hcomment (resembles_append hother between behind)
        (·.exchange hother)
      rw [meaningful_cons hc hcomment hscan, meaningful_cons hc hcomment hscan', ih]
    | true =>
      obtain ⟨content, rfl⟩ := exists_comment hcomment
      obtain ⟨hbreak, hscan'⟩ := scan_comment hscan (between ++ other)
      rw [meaningful_cons_comment hc hscan, meaningful_cons_comment hc hscan']
      cases between with
      | nil => exact hline
      | cons d between =>
        obtain rfl : d = '\n' := by simpa using hbreak d rfl
        rw [List.cons_append, List.dropWhile_cons_of_neg (by simp), ← List.cons_append, ih]

/-- A comment between two tokens, up to the end of its line, does not count. -/
theorem IsBoundary.meaningful_comment {before content line : List Char}
    (h : IsBoundary behind before) (hcontent : '\n' ∉ content) (hbreak : Begins (· == '\n') line)
    (hline : meaningful line = meaningful behind) :
    meaningful (before ++ ' ' :: '-' :: '-' :: (content ++ line)) = meaningful (before ++ behind) := by
  have hscan : scan '-' ('-' :: (content ++ line)) = .ok (.comment content, line) :=
    scan_eq_ok_iff.mpr (.comment rfl rfl hcontent hbreak)
  have hmeaning : meaningful (' ' :: '-' :: '-' :: (content ++ line)) = meaningful behind := by
    rw [meaningful_blank (by decide), meaningful_cons_comment (by decide) hscan, hline]
  refine h.meaningful_exchange (Text.begins_cons (by decide) _) hmeaning ?_
  simpa only [List.dropWhile_cons_of_pos, bne_iff_ne, ne_eq, Char.reduceEq, not_false_eq_true,
    (span_line hcontent hbreak).2] using hline

/-! ## Letters before a place -/

theorem isNameStart_of_number {pointSeen : Bool} {number : List Char}
    (h : spanNumber pointSeen (taken ++ s) = (number, s)) :
    ∀ c ∈ taken, isNameStart c = false := by
  have hdot : isNameStart '.' = false := by decide
  induction taken generalizing pointSeen number with
  | nil => nofun
  | cons c taken ih =>
    rw [List.cons_append, spanNumber_cons] at h
    split at h
    · rename_i hc
      refine List.forall_mem_cons.mpr ⟨?_, ih (Prod.ext rfl (Prod.mk.inj h).2)⟩
      simp only [isNumberChar, Bool.or_eq_true, Bool.and_eq_true, beq_iff_eq] at hc
      rcases hc with hc | ⟨rfl, -⟩
      · exact isNameStart_of_isDigit hc
      · exact hdot
    · have hlength := congrArg List.length (Prod.mk.inj h).2
      rw [List.length_cons, List.length_append] at hlength
      omega

/-- A token that ends with a letter goes on with the name. -/
theorem any_isNameChar_of_scan {last : Char} (h : scan c (taken ++ s) = .ok (token, s))
    (hlast : (c :: taken).getLast? = some last) (hletter : isNameStart last = true) :
    s.head?.any isNameChar = false := by
  have hother (hnone : isNameStart last = false) : s.head?.any isNameChar = false := by
    rw [hletter] at hnone
    cases hnone
  have hsingle (htaken : taken = []) (hc : isNameStart c = false) :
      s.head?.any isNameChar = false := by
    obtain rfl : c = last := by simpa [htaken] using hlast
    exact hother hc
  cases scan_eq_ok_iff.mp h with
  | comment _ _ _ hrest =>
    cases s with
    | nil => rfl
    | cons d s =>
      obtain rfl : d = '\n' := by simpa using hrest d rfl
      have hbreak : isNameChar '\n' = false := by decide
      exact hbreak
  | word _ hspan => exact (endsIdentifier_of_span hspan).any_isNameChar
  | number hc hspan =>
    rcases List.mem_cons.mp (List.mem_of_getLast? hlast) with rfl | hmem
    · exact hother (isNameStart_of_startsNumber hc)
    · exact hother (isNameStart_of_number hspan last hmem)
  | text _ hspan =>
    rw [taken_of_spanQuoted hspan, ← List.cons_append, List.getLast?_concat] at hlast
    obtain rfl : '\'' = last := by simpa using hlast
    exact hother (by decide)
  | mark hc hrest => exact hsingle (by simpa using hrest) (isNameStart_of_mem_marks hc)
  | symbol _ hop hrest =>
    rcases symbol?_taken hop hrest with rfl | rfl
    · exact hsingle rfl (isNameStart_of_symbol? hop)
    · obtain rfl : '=' = last := by simpa using hlast
      exact hother (by decide)

theorem IsBoundary.any_isNameChar {before : List Char} (h : IsBoundary behind before) {last : Char}
    (hlast : before.getLast? = some last) (hletter : isNameStart last = true) :
    behind.head?.any isNameChar = false := by
  induction h with
  | start => cases hlast
  | @blank c before hc _ ih =>
    cases before with
    | nil =>
      obtain rfl : c = last := by simpa using hlast
      rw [isNameStart_of_isBlank c hc] at hletter
      cases hletter
    | cons d before => exact ih hlast
  | @token c taken between token hc hscan _ ih =>
    cases between with
    | nil =>
      rw [List.append_nil] at hlast
      exact any_isNameChar_of_scan hscan hlast hletter
    | cons d between =>
      refine ih ?_
      rw [← List.cons_append, List.getLast?_append, List.getLast?_cons, Option.some_or] at hlast
      rw [List.getLast?_cons, hlast]

end Relational.Lexer
