import Relational.Text.Quoted
import Relational.Text.Word
import Relational.Value

/-!
# Operands

The two sides of a comparison: a constant or a column, kept beside the text it was written as.
-/

namespace Relational

inductive Reference where
  | constant (value : Value)
  | column (name : String)
deriving DecidableEq

/-- What an operand means, and its text. -/
structure Operand where
  raw : String
  meaning : Reference
deriving DecidableEq

namespace Operand

/-- Whether a text is an identifier: a letter or a low line, then letters, numbers and low lines. -/
def isIdentifier : List Char → Bool
  | [] => false
  | c :: s => isNameStart c && s.all isNameChar

/-- The text before the first dot and the one behind it, if there is a dot. -/
def splitDot : List Char → Option (List Char × List Char)
  | [] => none
  | c :: s =>
    if c = '.' then some ([], s) else (splitDot s).map fun (before, behind) => (c :: before, behind)

/-- Whether a text is an identifier, or two with a dot between them. -/
def isColumnReference (s : List Char) : Bool :=
  match splitDot s with
  | none => isIdentifier s
  | some (table, column) => isIdentifier table && isIdentifier column

/-- Whether a text is digits with one point among them, behind a minus at most. -/
def isFloatLiteral (s : List Char) : Bool :=
  let unsigned := match s with
    | '-' :: r => r
    | r => r
  match splitDot unsigned with
  | none => false
  | some (whole, fraction) =>
    !(whole.isEmpty && fraction.isEmpty) && whole.all Char.isDigit && fraction.all Char.isDigit

/-- The text inside a pair of quotes, if the text has them around it. -/
def unquoted? : List Char → Option (List Char)
  | '\'' :: s => if s.getLast? = some '\'' then some s.dropLast else none
  | _ => none

/-- Reads what a text without blanks around it means. -/
def Reference.read (s : List Char) : Except Error Reference :=
  match unquoted? s with
  | some inner => .ok (.constant (.text (String.ofList (Text.undoubleQuotes inner))))
  | none =>
    if Text.sameWord "NULL".toList s then .ok (.constant .null)
    else match Integer.ofText? s with
      | some n => .ok (.constant (.int n))
      | none =>
        match if isFloatLiteral s then Binary64.ofText? s else none with
        | some x => .ok (.constant (.float x))
        | none =>
          if isColumnReference s then .ok (.column (String.ofList s))
          else .error (.syntaxError (.unreadableValue (String.ofList s)))

/-- Reads an operand: a text between quotes, a null, a number or a column. -/
def read (s : List Char) : Except Error Operand :=
  let s := Text.trim s
  (Reference.read s).map fun meaning => ⟨String.ofList s, meaning⟩

/-- The text of a constant: a text between quotes, a whole float with one place, anything else as it
is shown. -/
def literal : Value → List Char
  | .text content => Text.quote content.toList
  | .float x =>
    match x.whole? with
    | some n => floatLiteral x n
    | none => Value.floatText x
  | .int n => n.toText
  | .null => "NULL".toList
where
  /-- A whole float: its exact digits, behind a minus if the float has one. -/
  floatLiteral (x : Binary64) (n : Int) : List Char :=
    let magnitude := Integer.digits n.natAbs ++ ['.', '0']
    match x with
    | .finite true _ => '-' :: magnitude
    | _ => magnitude

/-- The operand of a constant that has been worked out. -/
def constant (value : Value) : Operand :=
  ⟨String.ofList (literal value), .constant value⟩

/-- The operand of a column. -/
def column (name : String) : Operand :=
  ⟨name, .column name⟩

def isColumn (operand : Operand) : Bool :=
  match operand.meaning with
  | .column _ => true
  | .constant _ => false

def columnName? (operand : Operand) : Option String :=
  match operand.meaning with
  | .column name => some name
  | .constant _ => none

def value? (operand : Operand) : Option Value :=
  match operand.meaning with
  | .constant value => some value
  | .column _ => none

/-- Reads the operand's own text again. -/
def reread (operand : Operand) : Except Error Operand :=
  read operand.raw.toList

end Operand

end Relational
