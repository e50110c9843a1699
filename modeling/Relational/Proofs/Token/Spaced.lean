import Relational.Proofs.Token.Spelling

/-!
# Tokens with spaces between them

A list of tokens is written by the spelling of each, with one space between two of them
(`Token.spaced`), and it is read back from that text (`Lexer.tokens_spaced_iff`), if each word among
the tokens has the form of an identifier and is not reserved, and each number is digits with a point
among them at most (`Token.IsWellFormed`). This form says without the lexer what a token is whose text
goes on to its end (`Lexer.isLexed_iff`). What is read from a text is of this form, so a text can be
replaced by its tokens with spaces between them (`Lexer.tokens_spaced_of_meaningful`).
-/

namespace Relational

open Lexer (IsLexed IsName IsNumber Scans isComment ofWord spanIdentifier spanNumber)

/-! ## The form of a token -/

/-- The words that are no identifiers, in any case. -/
def reservedWords : List String :=
  "NULL" :: Operator.keywords.map Operator.spelling

def isReserved (word : List Char) : Bool :=
  reservedWords.any fun reserved => Text.sameWord reserved.toList word

namespace Token

/-- A letter or a low line, then letters, numbers, low lines and dots; behind each dot stands a letter
or a low line. -/
structure IsIdentifier (s : List Char) : Prop where
  start : s.head?.any isNameStart = true
  chars : ∀ c ∈ s, isNameChar c = true ∨ c = '.'
  dots (before behind : List Char) : s = before ++ '.' :: behind →
    behind.head?.any isNameStart = true

/-- Digits and at most one point, but not a point alone. -/
structure IsDigits (s : List Char) : Prop where
  chars : ∀ c ∈ s, c.isDigit = true ∨ c = '.'
  point : s.count '.' ≤ 1
  digit : ∃ c ∈ s, c.isDigit = true

/-- Whether a token can be spelled: a word or a number is of the form that is read as one. -/
def IsWellFormed : Token → Prop
  | identifier name => IsIdentifier name ∧ isReserved name = false
  | number digits => IsDigits digits
  | _ => True

/-- A token as it is written. -/
def spelling : Token → List Char
  | operator op => op.spelling.toList
  | null => "NULL".toList
  | comma => [',']
  | leftParen => ['(']
  | rightParen => [')']
  | identifier name => name
  | text content => Text.quote content
  | number digits => digits
  | comment content => '-' :: '-' :: content

/-- Tokens with a space between each two of them. -/
def spaced (tokens : List Token) : List Char :=
  [' '].intercalate (tokens.map spelling)

end Token

namespace Lexer

variable {s : List Char} {tokens : List Token} {token : Token}

/-! ## Identifiers -/

/-- An identifier goes on over a whole text if each of its dots has another identifier behind it. -/
theorem spanIdentifier_eq_self_iff : spanIdentifier s = (s, []) ↔
    (∀ c ∈ s, isNameChar c = true ∨ c = '.') ∧
      ∀ before behind, s = before ++ '.' :: behind → behind.head?.any isNameStart = true := by
  have hdot : isNameChar '.' = false := by decide
  induction s with
  | nil => simp [spanIdentifier]
  | cons c s ih =>
    have hstep : spanIdentifier (c :: s) = (c :: s, []) ↔
        (isNameChar c = true ∨ c = '.' ∧ s.head?.any isNameStart = true) ∧
          spanIdentifier s = (s, []) := by
      rw [spanIdentifier]
      split
      · rename_i hc
        rw [Bool.or_eq_true, Bool.and_eq_true, beq_iff_eq] at hc
        simp [hc, Prod.ext_iff]
      · rename_i hc
        rw [Bool.or_eq_true, Bool.and_eq_true, beq_iff_eq] at hc
        simp [hc]
    rw [hstep, List.forall_mem_cons]
    refine (and_congr_right' ih).trans ?_
    constructor
    · rintro ⟨hc, hchars, hdots⟩
      refine ⟨⟨hc.imp_right And.left, hchars⟩, fun before behind h => ?_⟩
      cases before with
      | nil =>
        obtain ⟨rfl, rfl⟩ := List.cons.inj h
        rw [hdot] at hc
        exact (hc.resolve_left Bool.false_ne_true).2
      | cons d before => exact hdots before behind (List.cons.inj h).2
    · rintro ⟨⟨hc, hchars⟩, hdots⟩
      refine ⟨hc.imp_right fun hc => ⟨hc, hdots [] s (by rw [hc, List.nil_append])⟩, hchars, ?_⟩
      intro before behind h
      exact hdots (c :: before) behind (congrArg (c :: ·) h)

theorem isName_iff : IsName s ↔ Token.IsIdentifier s := by
  constructor
  · rintro ⟨c, t, rfl, hc, hspan⟩
    obtain ⟨hchars, hdots⟩ := spanIdentifier_eq_self_iff.mp hspan
    refine ⟨hc, List.forall_mem_cons.mpr ⟨.inl (isNameChar_of_isNameStart hc), hchars⟩, ?_⟩
    intro before behind h
    cases before with
    | nil =>
      obtain ⟨rfl, -⟩ := List.cons.inj h
      exact absurd hc (by decide)
    | cons d before => exact hdots before behind (List.cons.inj h).2
  · rintro ⟨hstart, hchars, hdots⟩
    obtain ⟨c, hhead, hc⟩ := (Option.any_eq_true ..).mp hstart
    obtain ⟨t, rfl⟩ := List.head?_eq_some_iff.mp hhead
    refine ⟨c, t, rfl, hc, spanIdentifier_eq_self_iff.mpr ⟨fun d hd => ?_, ?_⟩⟩
    · exact hchars d (List.mem_cons_of_mem c hd)
    · exact fun before behind h => hdots (c :: before) behind (congrArg (c :: ·) h)

/-- A word is an identifier unless it is reserved. -/
theorem ofWord_eq_identifier_iff : ofWord s = .identifier s ↔ isReserved s = false := by
  have hkeyword : Operator.ofKeyword? s = none ↔
      (Operator.keywords.map Operator.spelling).any (fun w => Text.sameWord w.toList s) = false := by
    rw [Operator.ofKeyword?, List.find?_eq_none, List.any_eq_false, List.forall_mem_map]
  have hnull : Text.sameWord "NULL".toList s = Text.sameWord s "NULL".toList := BEq.comm
  rw [isReserved, reservedWords, List.any_cons, Bool.or_eq_false_iff, ← hkeyword, hnull, ofWord]
  cases Text.sameWord s "NULL".toList with
  | true => simp
  | false => cases Operator.ofKeyword? s <;> simp

/-! ## Numbers -/

theorem count_point_cons (c : Char) (s : List Char) :
    (c :: s).count '.' = s.count '.' + (c == '.').toNat := by
  rw [List.count_cons]
  cases c == '.' <;> rfl

/-- A number goes on over a whole text of digits with one point at most. -/
theorem spanNumber_eq_self_iff {pointSeen : Bool} : spanNumber pointSeen s = (s, []) ↔
    (∀ c ∈ s, c.isDigit = true ∨ c = '.') ∧ s.count '.' + pointSeen.toNat ≤ 1 := by
  induction s generalizing pointSeen with
  | nil => simp [spanNumber, Bool.toNat_le]
  | cons c s ih =>
    have hstep : spanNumber pointSeen (c :: s) = (c :: s, []) ↔
        isNumberChar pointSeen c = true ∧ spanNumber (pointSeen || c == '.') s = (s, []) := by
      rw [spanNumber_cons]
      split
      · rename_i hc
        simp [hc, Prod.ext_iff]
      · rename_i hc
        simp [hc]
    rw [hstep, List.forall_mem_cons, count_point_cons, isNumberChar, ← beq_iff_eq (a := c)]
    refine (and_congr_right' ih).trans ?_
    cases hc : c == '.' with
    | false => simp [and_assoc]
    | true =>
      obtain rfl := beq_iff_eq.mp hc
      have hdigit : '.'.isDigit = false := rfl
      cases pointSeen <;> simp [hdigit]

theorem isNumber_iff : IsNumber s ↔ Token.IsDigits s := by
  constructor
  · rintro ⟨c, t, rfl, hc, hspan⟩
    obtain ⟨hchars, hpoint⟩ := spanNumber_eq_self_iff.mp hspan
    refine ⟨List.forall_mem_cons.mpr ⟨isDigit_or_of_startsNumber hc, hchars⟩, ?_, ?_⟩
    · rw [count_point_cons]
      exact hpoint
    · rw [Bool.or_eq_true, Bool.and_eq_true] at hc
      rcases hc with hc | ⟨-, hahead⟩
      · exact ⟨c, List.mem_cons_self, hc⟩
      · obtain ⟨d, hd, hdigit⟩ := (Option.any_eq_true ..).mp hahead
        exact ⟨d, List.mem_cons_of_mem c (List.mem_of_mem_head? hd), hdigit⟩
  · rintro ⟨hchars, hpoint, d, hd, hdigit⟩
    obtain ⟨c, t, rfl⟩ := List.exists_cons_of_ne_nil (List.ne_nil_of_mem hd)
    obtain ⟨hc, htail⟩ := List.forall_mem_cons.mp hchars
    rw [count_point_cons] at hpoint
    refine ⟨c, t, rfl, ?_, spanNumber_eq_self_iff.mpr ⟨htail, hpoint⟩⟩
    rcases hc with hc | rfl
    · rw [hc, Bool.true_or]
    -- a point has digits only behind it, and one of them at least
    · cases t with
      | nil =>
        obtain rfl : d = '.' := by simpa using hd
        cases hdigit
      | cons e t =>
        have he : e ≠ '.' := by
          rintro rfl
          simp at hpoint
        have hdigit := (List.forall_mem_cons.mp htail).1.resolve_right he
        simp [hdigit]

/-! ## Deciding the form -/

instance : DecidablePred Token.IsIdentifier
  | [] => isFalse fun h => Bool.false_ne_true h.start
  | c :: s => decidable_of_iff (isNameStart c = true ∧ spanIdentifier s = (s, [])) <| by
    rw [← isName_iff]
    exact ⟨fun h => ⟨c, s, rfl, h⟩, fun ⟨_, _, hs, h⟩ => by cases hs; exact h⟩

instance : DecidablePred Token.IsDigits := fun s =>
  decidable_of_iff (s.all (fun c => c.isDigit || c == '.') = true ∧ s.count '.' ≤ 1 ∧
    s.any Char.isDigit = true) <| by
    simp only [List.all_eq_true, List.any_eq_true, Bool.or_eq_true, beq_iff_eq]
    exact ⟨fun ⟨hchars, hpoint, hdigit⟩ => ⟨hchars, hpoint, hdigit⟩,
      fun ⟨hchars, hpoint, hdigit⟩ => ⟨hchars, hpoint, hdigit⟩⟩

instance : DecidablePred Token.IsWellFormed
  | .identifier name => inferInstanceAs (Decidable (Token.IsIdentifier name ∧ isReserved name = false))
  | .number digits => inferInstanceAs (Decidable (Token.IsDigits digits))
  | .operator _ | .null | .comma | .leftParen | .rightParen | .text _ | .comment _ =>
    .isTrue trivial

/-! ## Tokens -/

/-- The form of a token is that of one that is read from a text. -/
theorem isLexed_iff : IsLexed token ↔ token.IsWellFormed := by
  cases token with
  | identifier name => exact and_congr isName_iff ofWord_eq_identifier_iff
  | number digits => exact isNumber_iff
  | _ => exact Iff.rfl

theorem scans_operator (op : Operator) : Scans op.spelling.toList (.operator op) := by
  have hkeyword {c : Char} {s : List Char} {op : Operator} (hc : isNameStart c = true)
      (hspan : spanIdentifier s = (s, [])) (hword : ofWord (c :: s) = .operator op) :
      Scans (c :: s) (.operator op) :=
    hword ▸ IsName.scans ⟨c, s, rfl, hc, hspan⟩
  cases op with
  | connective op => cases op <;> exact hkeyword (by decide) (by decide) rfl
  | comparison op => exact scans_comparison op
  | arithmetic op =>
    cases op with
    | sub =>
      refine ⟨'-', [], rfl, by decide, fun rest hrest => ?_⟩
      have hdash : rest.head? ≠ some '-' := hrest.head?_ne (by decide)
      exact scan_eq_ok_iff.mpr (.symbol (fun h => hdash h.2) rfl rfl)
    | add => exact ⟨'+', [], rfl, by decide, fun rest hrest => rfl⟩
    | mul => exact ⟨'*', [], rfl, by decide, fun rest hrest => rfl⟩
    | div => exact ⟨'/', [], rfl, by decide, fun rest hrest => rfl⟩
  | function op => cases op <;> exact hkeyword (by decide) (by decide) rfl
  | negation => exact hkeyword (by decide) (by decide) rfl

theorem IsLexed.scans (h : IsLexed token) (hcomment : isComment token = false) :
    Scans token.spelling token := by
  cases token with
  | operator op => exact scans_operator op
  | null =>
    have hname : IsName "NULL".toList := ⟨'N', "ULL".toList, rfl, by decide⟩
    exact hname.scans
  | comma => exact ⟨',', [], rfl, by decide, fun rest hrest => rfl⟩
  | leftParen => exact ⟨'(', [], rfl, by decide, fun rest hrest => rfl⟩
  | rightParen => exact ⟨')', [], rfl, by decide, fun rest hrest => rfl⟩
  | identifier name =>
    obtain ⟨hname, hword⟩ := h
    have hscans := hname.scans
    rwa [hword] at hscans
  | text content => exact scans_quote content
  | number digits => exact IsNumber.scans h
  | comment content => cases hcomment

/-! ## Lists of tokens -/

theorem tokens_spaced (h : ∀ token ∈ tokens, Scans token.spelling token) :
    Lexer.tokens (Token.spaced tokens) = .ok tokens := by
  induction tokens with
  | nil =>
    rw [Token.spaced, List.map_nil, List.intercalate_nil, Lexer.tokens]
  | cons token tokens ih =>
    obtain ⟨htoken, htokens⟩ := List.forall_mem_cons.mp h
    cases tokens with
    | nil =>
      have hnil : Lexer.tokens [] = .ok [] := by rw [Lexer.tokens]
      have hread : Lexer.tokens (token.spelling ++ []) = (Lexer.tokens []).map (token :: ·) :=
        htoken.tokens_append endsToken_nil
      rw [List.append_nil, hnil] at hread
      rw [Token.spaced, List.map_singleton, List.intercalate_singleton, hread]
      rfl
    | cons next tokens =>
      have hspaced : Token.spaced (token :: next :: tokens) =
          token.spelling ++ ' ' :: Token.spaced (next :: tokens) := by
        simp [Token.spaced, List.intercalate]
      rw [hspaced, htoken.tokens_append (Text.begins_cons (by decide) _), tokens_blank (by decide),
        ih htokens]
      rfl

/-- Reading undoes writing: tokens that are no comments are read back from their spellings with spaces
between them, each and in order, if they are well-formed, and not otherwise. -/
theorem tokens_spaced_iff (h : ∀ token ∈ tokens, isComment token = false) :
    Lexer.tokens (Token.spaced tokens) = .ok tokens ↔ ∀ token ∈ tokens, token.IsWellFormed := by
  constructor
  · intro hread token htoken
    exact isLexed_iff.mp (isLexed_of_tokens hread token htoken)
  · intro hform
    refine tokens_spaced fun token htoken => ?_
    exact (isLexed_iff.mpr (hform token htoken)).scans (h token htoken)

/-- Tokens that would be others without spaces between them: two symbols that would be one, or the start
of a comment, and numbers next to each other and to a word. -/
def neighbours : List Token :=
  [.operator (.comparison .lt), .operator (.comparison .eq), .operator (.arithmetic .sub),
    .operator (.arithmetic .sub), .number "5.".toList, .number ".5".toList,
    .identifier "t.x1".toList, .text "it's".toList, .null]

theorem tokens_spaced_neighbours :
    Token.spaced neighbours = "< = - - 5. .5 t.x1 'it''s' NULL".toList ∧
      (∀ token ∈ neighbours, isComment token = false) ∧
      (∀ token ∈ neighbours, token.IsWellFormed) ∧
      Lexer.tokens (Token.spaced neighbours) = .ok neighbours := by
  have hcomment : ∀ token ∈ neighbours, isComment token = false := by decide
  have hform : ∀ token ∈ neighbours, token.IsWellFormed := by decide +kernel
  exact ⟨by decide, hcomment, hform, (tokens_spaced_iff hcomment).mpr hform⟩

/-- The tokens of a text are read from their spellings as well. -/
theorem tokens_spaced_of_meaningful (h : meaningful s = .ok tokens) :
    Lexer.tokens (Token.spaced tokens) = .ok tokens := by
  refine tokens_spaced fun token htoken => (isLexed_of_meaningful h token htoken).scans ?_
  unfold meaningful at h
  split at h
  · cases h
    simpa using (List.mem_filter.mp htoken).2
  · cases h

end Lexer

end Relational
