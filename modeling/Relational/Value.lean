import Relational.Error
import Relational.Number.Notation

/-!
# Values

What a cell holds: a whole number, a floating-point number, a text or nothing. Numbers of both kinds
are compared exactly, as places on one line; texts go by code points; a text does not compare with a
number.
-/

namespace Relational

inductive Value where
  | int (n : Integer)
  | float (x : Binary64)
  | text (content : String)
  | null
deriving DecidableEq

namespace Value

instance : Inhabited Value := ⟨.null⟩

def isNull : Value → Bool
  | null => true
  | _ => false

def typeName : Value → String
  | int _ => "INT"
  | float _ => "FLOAT"
  | text _ => "VARCHAR"
  | null => "NULL"

/-- Floats are written with the fewest digits that read back, never with an exponent, and whole ones
without a point. -/
def floatFormat : FloatFormat := ⟨.up, fun _ => true, false⟩

/-- The text of a float. -/
def floatText : Binary64 → List Char
  | .nan => "NaN".toList
  | .infinite false => "inf".toList
  | .infinite true => "-inf".toList
  | .finite negative m => floatFormat.finite negative m

/-- The value as it is shown. -/
def shown : Value → String
  | int n => String.ofList n.toText
  | float x => String.ofList (floatText x)
  | text content => content
  | null => "NULL"

/-- The place of a number on the line, if the value is a number. -/
def place? : Value → Option Binary64.Place
  | int n => some (.ofInt n.val)
  | float x => x.place?
  | _ => none

/-- The order of two values. There is none beside a null or what is not a number; a text beside a
number is an error. -/
def order (l r : Value) : Except Error (Option Ordering) :=
  match l, r with
  | null, _ => .ok none
  | _, null => .ok none
  | text s, text t => .ok (some (compare s t))
  | int m, int n => .ok (some (compare m.val n.val))
  | int m, float y => .ok (m.order? y)
  | float x, int n => .ok ((n.order? x).map Ordering.swap)
  | text s, r => .error (.typeMismatch (text s).typeName r.typeName)
  | l, text t => .error (.typeMismatch l.typeName (text t).typeName)
  | l, r => .ok <|
    match l.place?, r.place? with
    | some p, some q => some (p.order q)
    | _, _ => none

/-- Whether two values are equal; a null is equal to a null only. -/
def equal (l r : Value) : Except Error Bool :=
  if l.isNull || r.isNull then .ok (l.isNull && r.isNull)
  else (l.order r).map (· == some .eq)

end Value

namespace Comparison

/-- Whether the comparison allows the order of its two sides. -/
def allows : Comparison → Ordering → Bool
  | eq, o => o == .eq
  | ne, o => o != .eq
  | lt, o => o == .lt
  | gt, o => o == .gt
  | le, o => o != .gt
  | ge, o => o != .lt

/-- Whether two values compare as the comparison asks. Sides without an order pass none of the four
directed comparisons. -/
def holds (op : Comparison) (l r : Value) : Except Error Bool :=
  match op with
  | eq => l.equal r
  | ne => (l.equal r).map (!·)
  | op => (l.order r).map fun o => o.any op.allows

end Comparison

/-- Reads an operator; what spells none is an error. -/
def Operator.read (s : List Char) : Except Error Operator :=
  match ofText? s with
  | some op => .ok op
  | none => .error (.operator (String.ofList s))

/-- Whether two values compare as an operator asks; only comparisons ask. -/
def Operator.holds (op : Operator) (l r : Value) : Except Error Bool :=
  match op with
  | comparison op => op.holds l r
  | op => .error (.operator op.spelling)

end Relational
