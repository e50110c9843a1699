import Relational.Text.CodeRange

/-!
# White space

The Unicode property White_Space, and taking blanks off the ends of a text or splitting it at them.
-/

namespace Relational

/-- The 25 code points with the property White_Space. -/
def blankRanges : List (Nat × Nat) :=
  [(0x9, 0xD), (0x20, 0x20), (0x85, 0x85), (0xA0, 0xA0), (0x1680, 0x1680), (0x2000, 0x200A),
   (0x2028, 0x2029), (0x202F, 0x202F), (0x205F, 0x205F), (0x3000, 0x3000)]

/-- White space of any script, line breaks included. -/
def isBlank (c : Char) : Bool :=
  CodeRange.contains blankRanges c.toNat

namespace Text

/-- The text without the blanks before it. -/
def trimStart (s : List Char) : List Char :=
  s.dropWhile isBlank

/-- The text without the blanks after it. -/
def trimEnd : List Char → List Char
  | [] => []
  | c :: s =>
    match trimEnd s with
    | [] => if isBlank c then [] else [c]
    | rest => c :: rest

/-- The text without the blanks around it. -/
def trim (s : List Char) : List Char :=
  trimEnd (trimStart s)

/-- The words of a text: its longest stretches without a blank. -/
def words (s : List Char) : List (List Char) :=
  go [] s
where
  go (word : List Char) : List Char → List (List Char)
    | [] => if word.isEmpty then [] else [word.reverse]
    | c :: s =>
      if isBlank c then
        if word.isEmpty then go [] s else word.reverse :: go [] s
      else go (c :: word) s

end Text

end Relational
