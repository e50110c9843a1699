import Relational.Operator
import Relational.Text.Escaped

/-!
# Tokens

What conditions and lists of values are made of.
-/

namespace Relational

inductive Token where
  | operator (op : Operator)
  | null
  | comma
  | leftParen
  | rightParen
  | identifier (name : List Char)
  | text (content : List Char)
  | number (digits : List Char)
  | comment (content : List Char)
deriving DecidableEq

namespace Token

/-- A name and a text behind it, as a message shows them. -/
def shownAs (name : String) (content : List Char) : String :=
  name ++ "(" ++ String.ofList (Text.escape content) ++ ")"

/-- The token as a message shows it. -/
def shown : Token → String
  | operator op => "Operator(" ++ op.name ++ ")"
  | null => "Null"
  | comma => "Comma"
  | leftParen => "LParen"
  | rightParen => "RParen"
  | identifier name => shownAs "Identifier" name
  | text content => shownAs "String" content
  | number digits => shownAs "Number" digits
  | comment content => shownAs "Comment" content

end Token

end Relational
