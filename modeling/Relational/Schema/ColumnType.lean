import Relational.Value

/-!
# Column types

What a column takes in (`coerce`), what it can be compared with (`checkComparable`), and how a
constant looks as a value of the column (`stored?`).
-/

namespace Relational

inductive ColumnType where
  | int
  | float
  | varchar (limit : Nat)
  | date
  | bit
deriving DecidableEq

namespace ColumnType

def shown : ColumnType → String
  | int => "INT"
  | float => "FLOAT"
  | varchar limit => "VARCHAR(" ++ toString limit ++ ")"
  | date => "DATE"
  | bit => "BIT"

def isNumeric : ColumnType → Bool
  | int => true
  | float => true
  | _ => false

def isVarchar : ColumnType → Bool
  | varchar _ => true
  | _ => false

def isDate : ColumnType → Bool
  | date => true
  | _ => false

/-- Whether the column holds texts. -/
def isTextual (type : ColumnType) : Bool :=
  type.isVarchar || type.isDate

/-- Whether a text has the shape of a date: four digits, two and two, with dashes between them. -/
def isDateText : List Char → Bool
  | [y1, y2, y3, y4, '-', m1, m2, '-', d1, d2] => [y1, y2, y3, y4, m1, m2, d1, d2].all Char.isDigit
  | _ => false

/-- The whole number that a float is equal to, if it fits. -/
def wholeNumber? (x : Binary64) : Option Integer :=
  x.whole?.bind Integer.ofInt?

/-- The value that a column stores for a value it is given. -/
def coerce (type : ColumnType) (column : String) (value : Value) : Except Error Value :=
  let mismatch := .error (.typeMismatch type.shown value.typeName)
  match type, value with
  | _, .null => .ok .null
  | int, .int n => .ok (.int n)
  | int, .float x =>
    match wholeNumber? x with
    | some n => .ok (.int n)
    | none => mismatch
  | float, .int n => .ok (.float (.ofInt n.val))
  | float, .float x => .ok (.float x)
  | varchar limit, .text s =>
    if limit < s.length then .error (.constraint (.textTooLong column limit s.length))
    else .ok (.text s)
  | date, .text s => if isDateText s.toList then .ok (.text s) else mismatch
  | bit, .int n => if n.val = 0 ∨ n.val = 1 then .ok (.int n) else mismatch
  | _, _ => mismatch

/-- Whether a constant can be compared with the column: texts with texts, numbers with the rest. -/
def checkComparable (type : ColumnType) (value : Value) : Except Error Unit :=
  let fits := match value with
    | .null => true
    | .int _ => !type.isTextual
    | .float _ => !type.isTextual
    | .text _ => type.isTextual
  if fits then .ok () else .error (.typeMismatch type.shown value.typeName)

/-- The constant in the form in which the column would store an equal value, if it can store one. -/
def stored? (type : ColumnType) (value : Value) : Option Value :=
  match type, value with
  | int, .int n => some (.int n)
  | bit, .int n => some (.int n)
  | int, .float x => (wholeNumber? x).map .int
  | bit, .float x => (wholeNumber? x).map .int
  | float, .int n =>
    let x := Binary64.ofInt n.val
    if x.whole? = some n.val then some (.float x) else none
  | float, .float x => some (.float x)
  | varchar _, .text s => some (.text s)
  | date, .text s => some (.text s)
  | _, _ => none

end ColumnType

end Relational
