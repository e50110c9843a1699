/-!
# Keywords in any case

Two readings of "the same word in another case". Words that have been cut out of a text are compared
by their ASCII letters only (`sameWord`). A statement pattern goes by simple case folding, under
which the long s and the Kelvin sign are an S and a K (`sameLetter`).
-/

namespace Relational.Text

/-- Equal but for the case of ASCII letters. -/
def sameWord (s t : List Char) : Bool :=
  s.map Char.toLower == t.map Char.toLower

/-- Whether a character stands for a capital ASCII letter of a pattern. -/
def sameLetter (letter c : Char) : Bool :=
  c.toUpper == letter || (letter == 'S' && c == '\u017f') || (letter == 'K' && c == '\u212a')

/-- An ASCII letter, or one of the two characters that fold to one. -/
def isFoldedLetter (c : Char) : Bool :=
  c.isAlpha || c == '\u017f' || c == '\u212a'

end Relational.Text
