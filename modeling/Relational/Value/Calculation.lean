import Relational.Text.Case
import Relational.Value

/-!
# Calculating with values

Arithmetic and text functions on constants. Two whole numbers give a whole number, exactly or not at
all; a float on either side makes the calculation one on floats; a null on either side gives a null.
-/

namespace Relational

namespace Value

/-- A number as a float, rounded once. -/
def toFloat? : Value → Option Binary64
  | int n => some (.ofInt n.val)
  | float x => some x
  | _ => none

end Value

namespace Arithmetic

/-- The calculation on whole numbers. -/
def ofIntegers (op : Arithmetic) (a b : Integer) : Except Error Integer :=
  let result := match op with
    | add => a.add? b
    | sub => a.sub? b
    | mul => a.mul? b
    | div => a.div? b
  if op = div ∧ b.val = 0 then .error (.expression .divisionByZero)
  else match result with
    | some n => .ok n
    | none => .error (.expression .overflow)

/-- The calculation on floats. -/
def ofFloats (op : Arithmetic) (x y : Binary64) : Except Error Binary64 :=
  match op with
  | add => .ok (x.add y)
  | sub => .ok (x.sub y)
  | mul => .ok (x.mul y)
  | div => if y.isZero then .error (.expression .divisionByZero) else .ok (x.div y)

end Arithmetic

namespace Operator

/-- The calculation that an operator makes on two numbers, if it makes one. -/
def arithmetic? : Operator → Except Error Arithmetic
  | arithmetic op => .ok op
  | op => .error (.operator op.spelling)

/-- The value of two constants under an operator. -/
def calculate (op : Operator) (l r : Value) : Except Error Value :=
  match l, r with
  | .null, _ => .ok .null
  | _, .null => .ok .null
  | .int a, .int b => do
    let op ← op.arithmetic?
    return .int (← op.ofIntegers a b)
  | l, r =>
    match l.toFloat?, r.toFloat? with
    | some x, some y => do
      let op ← op.arithmetic?
      return .float (← op.ofFloats x y)
    | _, _ => .error (.typeMismatch l.typeName r.typeName)

/-- The value of a text under an operator; only text functions have one. -/
def applyTo (op : Operator) (argument : Value) : Except Error Value :=
  match argument with
  | .null => .ok .null
  | .text content =>
    match op with
    | function .len => .ok (.int (.ofLength content.length))
    | function .upper => .ok (.text (String.ofList (Text.upper content.toList)))
    | function .lower => .ok (.text (String.ofList (Text.lower content.toList)))
    | op => .error (.operator op.spelling)
  | argument => .error (.typeMismatch op.spelling argument.typeName)

end Operator

namespace Value

/-- The value behind a minus. -/
def negate : Value → Except Error Value
  | int n =>
    match n.neg? with
    | some m => .ok (.int m)
    | none => .error (.expression .overflow)
  | float x => .ok (.float x.neg)
  | null => .ok .null
  | text content => .error (.typeMismatch "-" (text content).typeName)

end Value

end Relational
