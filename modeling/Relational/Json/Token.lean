import Relational.Json

/-!
# Cutting JSON into tokens

`Json.tokens?` cuts a text into brackets, separators, texts, numbers and words. A text is read in
steps: its closing quote is found (`spanQuoted`); its escapes are read (`units?`), and only with
this done it is a token; the code units that are written as numbers are joined (`join?`), those
beyond the basic plane in pairs, when the text is asked for.
-/

namespace Relational.Json

inductive Token where
  | openArray
  | closeArray
  | openObject
  | closeObject
  | colon
  | comma
  /-- A text, as it is written between its quotes. -/
  | string (written : List Char)
  /-- A number, a truth value or a null. -/
  | atom (json : Json)

/-! ## Texts -/

/-- The inside of a text whose opening quote has been read, with its escapes, and what is behind the
closing quote. -/
def spanQuoted : List Char → Option (List Char × List Char)
  | [] => none
  | '"' :: s => some ([], s)
  | '\\' :: c :: s => (spanQuoted s).map fun (inside, rest) => ('\\' :: c :: inside, rest)
  | c :: s => (spanQuoted s).map fun (inside, rest) => (c :: inside, rest)

/-- A character of a text, or a code unit that is written as a number. -/
inductive Unit16 where
  | char (c : Char)
  | unit (n : Nat)
deriving DecidableEq

def hexDigit? (c : Char) : Option Nat :=
  if c.isDigit then some (c.toNat - '0'.toNat)
  else if 'a' ≤ c ∧ c ≤ 'f' then some (c.toNat - 'a'.toNat + 10)
  else if 'A' ≤ c ∧ c ≤ 'F' then some (c.toNat - 'A'.toNat + 10)
  else none

/-- The character that a letter behind a backslash stands for. -/
def escaped? : Char → Option Char
  | '"' => some '"'
  | '\\' => some '\\'
  | '/' => some '/'
  | 'b' => some '\x08'
  | 'f' => some '\x0c'
  | 'n' => some '\n'
  | 'r' => some '\r'
  | 't' => some '\t'
  | _ => none

/-- The characters and code units of the inside of a text. -/
def units? : List Char → Option (List Unit16)
  | [] => some []
  | '\\' :: 'u' :: a :: b :: c :: d :: s => do
    let high := (← hexDigit? a) * 16 + (← hexDigit? b)
    let low := (← hexDigit? c) * 16 + (← hexDigit? d)
    return .unit (high * 256 + low) :: (← units? s)
  | '\\' :: c :: s => do return .char (← escaped? c) :: (← units? s)
  | c :: s => if c.toNat < 0x20 then none else do return .char c :: (← units? s)

/-- The characters of characters and code units; a unit of a pair stands beside its other half. -/
def join? : List Unit16 → Option (List Char)
  | [] => some []
  | .char c :: s => (join? s).map (c :: ·)
  | .unit high :: .unit low :: s =>
    if 0xD800 ≤ high ∧ high < 0xDC00 ∧ 0xDC00 ≤ low ∧ low < 0xE000 then
      (join? s).map (Char.ofNat (0x10000 + (high - 0xD800) * 0x400 + (low - 0xDC00)) :: ·)
    else if 0xD800 ≤ high ∧ high < 0xE000 then none
    else (join? (.unit low :: s)).map (Char.ofNat high :: ·)
  | .unit n :: s =>
    if 0xD800 ≤ n ∧ n < 0xE000 then none else (join? s).map (Char.ofNat n :: ·)

/-- The text that is written between two quotes. -/
def unescape? (written : List Char) : Option String :=
  (units? written).bind join? |>.map String.ofList

/-! ## Numbers -/

/-- The characters that numbers and words consist of. -/
def isAtomChar (c : Char) : Bool :=
  c.isAlphanum || c == '-' || c == '+' || c == '.'

/-- Whether a text is digits, and a zero only if alone. -/
def isWhole (s : List Char) : Bool :=
  Integer.isDigits s && (s.head? != some '0' || s.length == 1)

/-- Whether a text is an exponent, or nothing. -/
def isExponent : List Char → Bool
  | [] => true
  | c :: s =>
    (c == 'e' || c == 'E') &&
      match s with
      | '-' :: s => Integer.isDigits s
      | '+' :: s => Integer.isDigits s
      | s => Integer.isDigits s

/-- Whether a text is a number: a minus at most, a whole part, and places and an exponent at most.
-/
def isNumber (s : List Char) : Bool :=
  let unsigned := match s with
    | '-' :: s => s
    | s => s
  let rest := unsigned.dropWhile Char.isDigit
  isWhole (unsigned.takeWhile Char.isDigit) &&
    match rest with
    | '.' :: s => !(s.takeWhile Char.isDigit).isEmpty && isExponent (s.dropWhile Char.isDigit)
    | s => isExponent s

/-- What a word or a number stands for. -/
def atom? (s : List Char) : Option Json :=
  if s = "null".toList then some null
  else if s = "true".toList then some (bool true)
  else if s = "false".toList then some (bool false)
  else if isNumber s then some (number s)
  else none

/-! ## Tokens -/

def isJsonBlank (c : Char) : Bool :=
  c == ' ' || c == '\n' || c == '\r' || c == '\t'

/-- The token that begins with a character, with a text behind it, and what is behind the token. -/
def scan? (c : Char) (s : List Char) : Option (Token × List Char) :=
  if c = '[' then some (.openArray, s)
  else if c = ']' then some (.closeArray, s)
  else if c = openBrace then some (.openObject, s)
  else if c = closeBrace then some (.closeObject, s)
  else if c = ':' then some (.colon, s)
  else if c = ',' then some (.comma, s)
  else if c = '"' then do
    let (written, rest) ← spanQuoted s
    let _ ← units? written
    return (.string written, rest)
  else do
    let json ← atom? (c :: s.takeWhile isAtomChar)
    return (.atom json, s.dropWhile isAtomChar)

theorem length_spanQuoted_le {s inside rest : List Char} (h : spanQuoted s = some (inside, rest)) :
    rest.length ≤ s.length := by
  fun_induction spanQuoted s generalizing inside with
  | case1 => simp at h
  | case2 s => simp_all
  | case3 c s ih =>
    obtain ⟨⟨_, _⟩, hs, he⟩ := Option.map_eq_some_iff.mp h
    cases he
    have := ih hs
    simp only [List.length_cons]
    omega
  | case4 c s _ _ ih =>
    obtain ⟨⟨_, _⟩, hs, he⟩ := Option.map_eq_some_iff.mp h
    cases he
    have := ih hs
    simp only [List.length_cons]
    omega

/-- Behind a token stands no more than behind its first character. -/
theorem length_scan?_le {c : Char} {s rest : List Char} {token : Token}
    (h : scan? c s = some (token, rest)) : rest.length ≤ s.length := by
  unfold scan? at h
  iterate 6
    split at h
    · cases h; exact Nat.le_refl _
  split at h
  · obtain ⟨⟨written, behind⟩, hs, h⟩ := Option.bind_eq_some_iff.mp h
    obtain ⟨units, -, h⟩ := Option.bind_eq_some_iff.mp h
    cases h
    exact length_spanQuoted_le hs
  · obtain ⟨json, -, h⟩ := Option.bind_eq_some_iff.mp h
    cases h
    exact (List.dropWhile_sublist _).length_le

/-- The tokens of a text. -/
def tokens? : List Char → Option (List Token)
  | [] => some []
  | c :: s =>
    if isJsonBlank c then tokens? s
    else
      match h : scan? c s with
      | none => none
      | some (token, rest) =>
        have := length_scan?_le h
        (tokens? rest).map (token :: ·)
termination_by s => s.length

end Relational.Json
