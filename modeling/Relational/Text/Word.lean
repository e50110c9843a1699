import Relational.Text.Added
import Relational.Text.Alphabetic
import Relational.Text.Mark
import Relational.Text.Numeric

/-!
# Characters of names

Two readings of "a character of a name". The characters of a word, which statement patterns use,
take in combining marks, connectors and joiners, all as of Unicode 16.0; the characters of an
identifier, which conditions use, take in numbers of every kind, as of Unicode 17.0.
-/

namespace Relational

/-- The code points of general category Pc: the low line and its relatives. -/
def connectorRanges : List (Nat × Nat) :=
  [(0x5F, 0x5F), (0x203F, 0x2040), (0x2054, 0x2054), (0xFE33, 0xFE34), (0xFE4D, 0xFE4F),
   (0xFF3F, 0xFF3F)]

/-- The two joiners, which have no width. -/
def joinerRanges : List (Nat × Nat) :=
  [(0x200C, 0x200D)]

/-- A character of a word in a statement pattern. -/
def isWordChar (c : Char) : Bool :=
  (isAlphabetic c || isMark c || isDecimalDigit c || CodeRange.contains connectorRanges c.toNat ||
    CodeRange.contains joinerRanges c.toNat) && !isAdded c

/-- A digit of a number in a statement pattern. -/
def isWordDigit (c : Char) : Bool :=
  isDecimalDigit c && !isAdded c

/-- The first character of an identifier. -/
def isNameStart (c : Char) : Bool :=
  isAlphabetic c || c == '_'

/-- A later character of an identifier. -/
def isNameChar (c : Char) : Bool :=
  isAlphabetic c || isNumeric c || c == '_'

theorem isNameChar_of_isNameStart {c : Char} (h : isNameStart c = true) : isNameChar c = true := by
  simp only [isNameStart, isNameChar, Bool.or_eq_true] at h ⊢
  rcases h with h | h
  · exact .inl (.inl h)
  · exact .inr h

end Relational
