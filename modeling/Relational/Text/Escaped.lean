import Relational.Text.Printable

/-!
# Text shown inside a message

A text that a message shows stands between double quotes, with escapes for the quotes, the
backslash, the usual control characters and whatever has no shape of its own.
-/

namespace Relational.Text

/-- A character by its code point in hexadecimal. -/
def codePoint (c : Char) : List Char :=
  '\\' :: 'u' :: '\x7b' :: (Nat.toDigits 16 c.toNat ++ ['\x7d'])

/-- A character as it is shown inside double quotes. -/
def escapeChar (c : Char) : List Char :=
  match c with
  | '\x00' => ['\\', '0']
  | '\t' => ['\\', 't']
  | '\r' => ['\\', 'r']
  | '\n' => ['\\', 'n']
  | '\\' => ['\\', '\\']
  | '"' => ['\\', '"']
  | c => if !isCombining c && isPrintable c then [c] else codePoint c

/-- A text between double quotes, with its escapes. -/
def escape (s : List Char) : List Char :=
  '"' :: (s.flatMap escapeChar ++ ['"'])

end Relational.Text
