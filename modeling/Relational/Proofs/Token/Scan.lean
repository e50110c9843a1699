import Relational.Proofs.Pattern.Reading
import Relational.Token.Lexer

/-!
# How a token is read

What a token is read from is told by its first character and by what stands behind it: a comment goes
on to the end of its line, a word and a number as far as their characters do, a quoted text up to its
closing quote (`Lexer.Scanned`). These ways exclude each other, so the reader goes one of them and
comes to nothing else (`Lexer.scan_eq_ok_iff`). What holds of every token that is read is shown way by
way.
-/

namespace Relational.Lexer

open Text (Begins)

variable {c : Char} {s rest : List Char} {token : Token}

/-! ## First characters -/

/-- The characters that are tokens by themselves, but for the symbols of operators. -/
def marks : List (Char × Token) :=
  [(',', .comma), ('(', .leftParen), (')', .rightParen)]

/-- The characters that the symbols of operators begin with. -/
def symbolStarts : List Char :=
  ['!', '<', '>', '=', '+', '-', '*', '/']

theorem isNameStart_of_isDigit (hc : c.isDigit = true) : isNameStart c = false := by
  have hall : ∀ n ∈ List.range' 48 10, isNameStart (Char.ofNat n) = false := by decide
  rw [Char.isDigit, Bool.and_eq_true, decide_eq_true_eq, decide_eq_true_eq] at hc
  have hn := hall c.toNat (List.mem_range'_1.mpr ⟨hc.1, Nat.lt_succ_of_le hc.2⟩)
  rwa [Char.ofNat_toNat] at hn

theorem isDigit_or_of_startsNumber {ahead : Bool} (hc : (c.isDigit || (c == '.' && ahead)) = true) :
    c.isDigit = true ∨ c = '.' := by
  rw [Bool.or_eq_true, Bool.and_eq_true, beq_iff_eq] at hc
  exact hc.imp_right And.left

theorem isNameStart_of_startsNumber {ahead : Bool}
    (hc : (c.isDigit || (c == '.' && ahead)) = true) : isNameStart c = false := by
  rcases isDigit_or_of_startsNumber hc with hdigit | rfl
  · exact isNameStart_of_isDigit hdigit
  · decide

theorem isNameStart_of_mem_marks (h : (c, token) ∈ marks) : isNameStart c = false := by
  have hall : ∀ mark ∈ marks, isNameStart mark.1 = false := by decide
  exact hall _ h

theorem isComment_of_mem_marks (h : (c, token) ∈ marks) : isComment token = false := by
  have hall : ∀ mark ∈ marks, isComment mark.2 = false := by decide
  exact hall _ h

theorem mem_symbolStarts {op : Operator} {length : Nat}
    (h : Operator.symbol? (c :: s) = some (op, length)) : c ∈ symbolStarts := by
  unfold Operator.symbol? at h
  split at h
  case h_11 => cases h
  all_goals
    rename_i heq
    cases heq
    decide

theorem isNameStart_of_symbol? {op : Operator} {length : Nat}
    (h : Operator.symbol? (c :: s) = some (op, length)) : isNameStart c = false := by
  have hall : (symbolStarts.all fun c => !isNameStart c) = true := by decide
  simpa using List.all_eq_true.mp hall c (mem_symbolStarts h)

/-! ## Ways to read a token -/

/-- The ways in which a token is read from its first character and what stands behind it, and what is
left behind the token. -/
inductive Scanned (c : Char) (s : List Char) : Token → List Char → Prop where
  | comment {content rest : List Char} (hc : c = '-') (hs : s = '-' :: (content ++ rest))
      (hcontent : '\n' ∉ content) (hrest : Begins (· == '\n') rest) :
      Scanned c s (.comment content) rest
  | word {name rest : List Char} {token : Token} (hc : isNameStart c = true)
      (hspan : spanIdentifier s = (name, rest)) (htoken : ofWord (c :: name) = token) :
      Scanned c s token rest
  | number {digits rest : List Char}
      (hc : (c.isDigit || (c == '.' && s.head?.any Char.isDigit)) = true)
      (hspan : spanNumber (c == '.') s = (digits, rest)) : Scanned c s (.number (c :: digits)) rest
  | text {content rest : List Char} (hc : c = '\'') (hspan : spanQuoted s = some (content, rest)) :
      Scanned c s (.text content) rest
  | mark {token : Token} {rest : List Char} (hc : (c, token) ∈ marks) (hrest : s = rest) :
      Scanned c s token rest
  | symbol {op : Operator} {length : Nat} {rest : List Char} (hdash : ¬(c = '-' ∧ s.head? = some '-'))
      (hop : Operator.symbol? (c :: s) = some (op, length)) (hrest : s.drop (length - 1) = rest) :
      Scanned c s (.operator op) rest

theorem span_line {content : List Char} (hcontent : '\n' ∉ content)
    (hrest : Begins (· == '\n') rest) :
    (content ++ rest).takeWhile (· != '\n') = content ∧
      (content ++ rest).dropWhile (· != '\n') = rest := by
  have hall : ∀ c ∈ content, (c != '\n') = true := fun c hc => by
    simpa using ne_of_mem_of_not_mem hc hcontent
  have hend : Begins (fun c => !(c != '\n')) rest := by simpa [Begins] using hrest
  exact ⟨Pattern.takeWhile_append hall hend, Pattern.dropWhile_append hall hend⟩

theorem begins_dropWhile_line (s : List Char) :
    Begins (· == '\n') (s.dropWhile (· != '\n')) := by
  simpa [bne] using Text.begins_dropWhile (· != '\n') s

theorem not_mem_takeWhile_line (s : List Char) : '\n' ∉ s.takeWhile (· != '\n') := fun hbreak => by
  simpa using List.mem_takeWhile_imp hbreak

theorem scanned_of_scan (h : scan c s = .ok (token, rest)) : Scanned c s token rest := by
  unfold scan at h
  split at h
  · rename_i hdash
    obtain ⟨s, rfl⟩ := List.head?_eq_some_iff.mp hdash.2
    cases h
    have hline : '-' :: s = '-' :: (s.takeWhile (· != '\n') ++ s.dropWhile (· != '\n')) := by
      rw [List.takeWhile_append_dropWhile]
    exact .comment hdash.1 hline (not_mem_takeWhile_line s) (begins_dropWhile_line s)
  split at h
  · rename_i hstart
    cases h
    exact .word hstart rfl rfl
  split at h
  · rename_i hstart
    cases h
    exact .number hstart rfl
  split at h
  · rename_i hquote
    split at h
    · rename_i hspan
      cases h
      exact .text hquote hspan
    · cases h
  iterate 3
    split at h
    · rename_i hmark
      cases h
      exact .mark (by simp [marks, hmark]) rfl
  rename_i hdash _ _ _ _ _ _
  split at h
  · rename_i hop
    cases h
    exact .symbol hdash hop rfl
  · cases h

theorem Scanned.scan (h : Scanned c s token rest) : scan c s = .ok (token, rest) := by
  have hdash : isNameStart '-' = false := by decide
  cases h with
  | comment hc hs hcontent hrest =>
    obtain ⟨htake, hdrop⟩ := span_line hcontent hrest
    rw [Lexer.scan, if_pos ⟨hc, by rw [hs]; rfl⟩, hs, List.drop_one, List.tail_cons, htake, hdrop]
  | word hc hspan htoken =>
    have hne : c ≠ '-' := by
      rintro rfl
      rw [hc] at hdash
      cases hdash
    rw [Lexer.scan, if_neg fun h => hne h.1, if_pos hc, hspan, ← htoken]
  | number hc hspan =>
    have hne : c ≠ '-' := by
      rintro rfl
      cases hc
    rw [Lexer.scan, if_neg fun h => hne h.1, if_neg (by simp [isNameStart_of_startsNumber hc]), if_pos hc, hspan]
  | text hc hspan =>
    have hquote : isNameStart '\'' = false := by decide
    simp [Lexer.scan, hc, hquote, hspan]
  | mark hc hrest =>
    rw [← hrest]
    simp only [marks, List.mem_cons, Prod.mk.injEq, List.not_mem_nil, or_false] at hc
    obtain ⟨rfl, rfl⟩ | ⟨rfl, rfl⟩ | ⟨rfl, rfl⟩ := hc <;> rfl
  | symbol hcomment hop hrest =>
    have hall : (symbolStarts.all fun c => !c.isDigit && c ∉ ['.', '\'', ',', '(', ')']) = true := by
      decide
    obtain ⟨hdigit, hpoint, hquote, hcomma, hleft, hright⟩ : c.isDigit = false ∧ c ≠ '.' ∧
        c ≠ '\'' ∧ c ≠ ',' ∧ c ≠ '(' ∧ c ≠ ')' := by
      simpa using List.all_eq_true.mp hall c (mem_symbolStarts hop)
    have hstart := isNameStart_of_symbol? hop
    rw [Lexer.scan, if_neg hcomment, if_neg (by simp [hstart]), if_neg (by simp [hdigit, hpoint]),
      if_neg hquote, if_neg hcomma, if_neg hleft, if_neg hright, hop]
    simp only [hrest]

/-- A token is read in one of the ways, and what is read in one of them is what the reader comes to. -/
theorem scan_eq_ok_iff : scan c s = .ok (token, rest) ↔ Scanned c s token rest :=
  ⟨scanned_of_scan, Scanned.scan⟩

end Relational.Lexer
