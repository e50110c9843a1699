import Relational.Value

/-!
# Keys

The text under which an index and a row identity know a value, and the key of several values. A null
has no key. The parts of a key are joined by `#`, and a `#` or a backslash inside a part stands
behind a backslash, so that the parts can be told apart.
-/

namespace Relational

namespace Value

/-- The key of a value. The two zeros are equal numbers and have one key. -/
def key? : Value → Option (List Char)
  | null => none
  | float x => some (if x.isZero then ['0'] else floatText x)
  | int n => some n.toText
  | text content => some content.toList

end Value

namespace Key

/-- A part of a key, with what would be taken for the end of a part behind a backslash. -/
def escapePart : List Char → List Char
  | [] => []
  | c :: s => if c = '\\' ∨ c = '#' then '\\' :: c :: escapePart s else c :: escapePart s

/-- The parts with a `#` between them. -/
def join : List (List Char) → List Char
  | [] => []
  | [part] => part
  | part :: parts => part ++ '#' :: join parts

/-- The key of several values, if none of them is a null. -/
def ofValues? (values : List Value) : Option String :=
  (values.mapM Value.key?).map fun parts => String.ofList (join (parts.map escapePart))

end Key

end Relational
