import Relational.Operand

/-!
# Conditions

The tree of a condition. The tree type also holds trees that are no condition, such as a comparison
of comparisons; `Condition.check` tells them apart.
-/

namespace Relational

inductive Condition where
  | and (left right : Condition)
  | or (left right : Condition)
  | compare (op : Operator) (left right : Condition)
  | column (operand : Operand)
  | value (operand : Operand)
deriving DecidableEq

namespace Condition

instance : Inhabited Condition := ⟨.value ⟨"NULL", .constant .null⟩⟩

/-- The leaf of an operand. -/
def leaf (operand : Operand) : Condition :=
  if operand.isColumn then column operand else value operand

def isLeaf : Condition → Bool
  | column _ => true
  | value _ => true
  | _ => false

/-- The condition as it is shown: connectives in parentheses, operands as they were written. -/
def shown : Condition → String
  | and left right => "(" ++ left.shown ++ " AND " ++ right.shown ++ ")"
  | or left right => "(" ++ left.shown ++ " OR " ++ right.shown ++ ")"
  | compare op left right => left.shown ++ " " ++ op.spelling ++ " " ++ right.shown
  | column operand => operand.raw
  | value operand => operand.raw

/-- Whether a tree is a condition: leaves stand under comparisons and nowhere else. -/
def check : Condition → Except Error Unit
  | and left right =>
    if left.isLeaf || right.isLeaf then
      .error (.tree (.leafUnderConnective (and left right).shown))
    else do
      left.check
      right.check
  | or left right =>
    if left.isLeaf || right.isLeaf then
      .error (.tree (.leafUnderConnective (or left right).shown))
    else do
      left.check
      right.check
  | compare op left right =>
    if !op.isComparison then .error (.operator op.spelling)
    else if !left.isLeaf || !right.isLeaf then
      .error (.tree (.treeUnderComparison (compare op left right).shown))
    else .ok ()
  | column operand => .error (.tree (.loneOperand (column operand).shown))
  | value operand => .error (.tree (.loneOperand (value operand).shown))

/-- A comparison of a constant with a column, the other way round. -/
def columnFirst? : Condition → Option Condition
  | compare op (value constant) (column c) => some (compare op.inverted (column c) (value constant))
  | _ => none

/-- The condition that `NOT` makes of another: comparisons are negated, connectives exchanged. -/
def negate : Condition → Except Error Condition
  | and left right => return or (← left.negate) (← right.negate)
  | or left right => return and (← left.negate) (← right.negate)
  | compare op left right =>
    match op.negated? with
    | some op => .ok (compare op left right)
    | none => .error (.operator op.spelling)
  | c@(column _) => .error (.expression (.negatedLeaf c.shown))
  | c@(value _) => .error (.expression (.negatedLeaf c.shown))

end Condition

end Relational
