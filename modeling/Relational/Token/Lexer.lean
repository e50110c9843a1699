import Relational.Error
import Relational.Text.Word

/-!
# Cutting a text into tokens

`Lexer.scan` reads the token that begins with a character, and `Lexer.tokens` a whole text. What is
left behind a token is no longer than what stood behind its first character (`length_scan_le`), so
reading ends.
-/

namespace Relational.Lexer

/-- The identifier characters at the start of a text. A dot belongs to an identifier if another
identifier begins behind it. -/
def spanIdentifier : List Char → List Char × List Char
  | [] => ([], [])
  | c :: s =>
    if isNameChar c || (c == '.' && s.head?.any isNameStart) then
      let (name, rest) := spanIdentifier s
      (c :: name, rest)
    else ([], c :: s)

/-- The digits at the start of a text, with one point at most among them. -/
def spanNumber (pointSeen : Bool) : List Char → List Char × List Char
  | [] => ([], [])
  | c :: s =>
    if c.isDigit || (c == '.' && !pointSeen) then
      let (number, rest) := spanNumber (pointSeen || c == '.') s
      (c :: number, rest)
    else ([], c :: s)

/-- The content of a quoted text whose opening quote has been read: up to the first quote that does
not stand before another. -/
def spanQuoted : List Char → Option (List Char × List Char)
  | [] => none
  | '\'' :: '\'' :: s => (spanQuoted s).map fun (content, rest) => ('\'' :: content, rest)
  | c :: s =>
    if c = '\'' then some ([], s)
    else (spanQuoted s).map fun (content, rest) => (c :: content, rest)

/-- The token of a word: a null, an operator or an identifier. -/
def ofWord (word : List Char) : Token :=
  if Text.sameWord word "NULL".toList then .null
  else match Operator.ofKeyword? word with
    | some op => .operator op
    | none => .identifier word

/-- Reads the token that begins with `c`, with `s` behind it; `c` is no blank. -/
def scan (c : Char) (s : List Char) : Except SyntaxFault (Token × List Char) :=
  if c = '-' ∧ s.head? = some '-' then
    let content := s.drop 1 |>.takeWhile (· != '\n')
    .ok (.comment content, s.drop 1 |>.dropWhile (· != '\n'))
  else if isNameStart c then
    let (name, rest) := spanIdentifier s
    .ok (ofWord (c :: name), rest)
  else if c.isDigit || (c == '.' && s.head?.any Char.isDigit) then
    let (number, rest) := spanNumber (c == '.') s
    .ok (.number (c :: number), rest)
  else if c = '\'' then
    match spanQuoted s with
    | some (content, rest) => .ok (.text content, rest)
    | none => .error .unclosedText
  else if c = ',' then .ok (.comma, s)
  else if c = '(' then .ok (.leftParen, s)
  else if c = ')' then .ok (.rightParen, s)
  else match Operator.symbol? (c :: s) with
    | some (op, length) => .ok (.operator op, s.drop (length - 1))
    | none => .error (.unknownCharacter c)

theorem length_spanIdentifier_le (s : List Char) : (spanIdentifier s).2.length ≤ s.length := by
  induction s with
  | nil => simp [spanIdentifier]
  | cons c s ih =>
    unfold spanIdentifier
    split
    · simpa using Nat.le_succ_of_le ih
    · simp

theorem length_spanNumber_le (pointSeen : Bool) (s : List Char) :
    (spanNumber pointSeen s).2.length ≤ s.length := by
  induction s generalizing pointSeen with
  | nil => simp [spanNumber]
  | cons c s ih =>
    unfold spanNumber
    split
    · simpa using Nat.le_succ_of_le (ih _)
    · simp

theorem length_spanQuoted_le {s content rest : List Char}
    (h : spanQuoted s = some (content, rest)) : rest.length ≤ s.length := by
  fun_induction spanQuoted s generalizing content with
  | case1 => simp at h
  | case2 s ih =>
    obtain ⟨⟨_, _⟩, hs, he⟩ := Option.map_eq_some_iff.mp h
    cases he
    have := ih hs
    simp only [List.length_cons]
    omega
  | case3 s _ => simp_all
  | case4 c s _ _ ih =>
    obtain ⟨⟨_, _⟩, hs, he⟩ := Option.map_eq_some_iff.mp h
    cases he
    have := ih hs
    simp only [List.length_cons]
    omega

/-- Behind a token stands no more than behind its first character. -/
theorem length_scan_le {c : Char} {s rest : List Char} {token : Token}
    (h : scan c s = .ok (token, rest)) : rest.length ≤ s.length := by
  unfold scan at h
  split at h
  · cases h
    exact Nat.le_trans (List.dropWhile_sublist _).length_le (by simp)
  split at h
  · cases h
    exact length_spanIdentifier_le s
  split at h
  · cases h
    exact length_spanNumber_le _ s
  split at h
  · split at h
    · cases h
      exact length_spanQuoted_le ‹_›
    · cases h
  split at h
  · cases h; exact Nat.le_refl _
  split at h
  · cases h; exact Nat.le_refl _
  split at h
  · cases h; exact Nat.le_refl _
  split at h
  · cases h; simp
  · cases h

/-- The tokens of a text, comments included. -/
def tokens : List Char → Except SyntaxFault (List Token)
  | [] => .ok []
  | c :: s =>
    if isBlank c then tokens s
    else
      match h : scan c s with
      | .error fault => .error fault
      | .ok (token, rest) =>
        have := length_scan_le h
        (tokens rest).map (token :: ·)
termination_by s => s.length

/-- Whether a token is a comment. -/
def isComment : Token → Bool
  | .comment _ => true
  | _ => false

/-- The tokens of a text without its comments. -/
def meaningful (s : List Char) : Except Error (List Token) :=
  match tokens s with
  | .ok tokens => .ok (tokens.filter fun token => !isComment token)
  | .error fault => .error (.syntaxError fault)

end Relational.Lexer
