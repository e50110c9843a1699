import Relational.Error
import Relational.Text.Blank

/-!
# Lists and groups in a text

A list has commas between its items (`Text.splitCommas`), and the rows of an insertion are groups in
parentheses (`Text.groups`). What stands between quotes is neither comma nor parenthesis.
-/

namespace Relational.Text

/-- The stretches of a text between its commas, the first one apart. Commas inside parentheses or
between quotes do not count. -/
def stretches (depth : Nat) (quoted : Bool) : List Char → List Char × List (List Char)
  | [] => ([], [])
  | c :: s =>
    if c = ',' ∧ depth = 0 ∧ !quoted then
      let (first, more) := stretches depth quoted s
      ([], first :: more)
    else
      let depth' :=
        if quoted then depth
        else if c = '(' then depth + 1
        else if c = ')' then depth - 1
        else depth
      let (first, more) := stretches depth' (if c = '\'' then !quoted else quoted) s
      (c :: first, more)

/-- The items of a list, without the blanks around them; a blank text is the empty list. -/
def splitCommas (s : List Char) : List (List Char) :=
  match stretches 0 false s with
  | (first, []) => if (trim first).isEmpty then [] else [trim first]
  | (first, more) => trim first :: more.map trim

/-- Reads on in a list of groups, `depth` parentheses deep and inside quotes or not; `current` is
what has been read of the group, last character first. -/
def scanGroups (current : List Char) (depth : Nat) (quoted : Bool) :
    List Char → Except SyntaxFault (List (List Char))
  | [] => if depth ≠ 0 ∨ quoted then .error .unclosedGroup else .ok []
  | c :: s =>
    if quoted then scanGroups (c :: current) depth (c != '\'') s
    else if c = '\'' then scanGroups (c :: current) depth true s
    else if c = '(' then
      scanGroups (if 0 < depth then c :: current else current) (depth + 1) false s
    else if c = ')' then
      match depth with
      | 0 => .error .unopenedGroup
      | 1 => do return trim current.reverse :: (← scanGroups [] 0 false s)
      | depth + 2 => scanGroups (c :: current) (depth + 1) false s
    else if 0 < depth then scanGroups (c :: current) depth false s
    else if c = ',' ∨ isBlank c then scanGroups current 0 false s
    else .error (.strayCharacter c)

/-- The contents of the groups of a text, without the blanks around them. -/
def groups (s : List Char) : Except SyntaxFault (List (List Char)) :=
  scanGroups [] 0 false s

end Relational.Text
