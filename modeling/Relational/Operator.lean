import Relational.Text.Blank
import Relational.Text.Keyword

/-!
# Operators

The operators of conditions and of constant expressions, by kind, with their spellings. A symbol is
read longest first; a keyword is read in any case.
-/

namespace Relational

inductive Connective where
  | and
  | or
deriving DecidableEq

inductive Comparison where
  | eq
  | ne
  | lt
  | gt
  | le
  | ge
deriving DecidableEq

inductive Arithmetic where
  | add
  | sub
  | mul
  | div
deriving DecidableEq

inductive TextFunction where
  | len
  | upper
  | lower
deriving DecidableEq

inductive Operator where
  | connective (op : Connective)
  | comparison (op : Comparison)
  | arithmetic (op : Arithmetic)
  | function (op : TextFunction)
  | negation
deriving DecidableEq

namespace Comparison

def spelling : Comparison → String
  | eq => "="
  | ne => "!="
  | lt => "<"
  | gt => ">"
  | le => "<="
  | ge => ">="

/-- The comparison of the two sides the other way round. -/
def inverted : Comparison → Comparison
  | lt => gt
  | gt => lt
  | le => ge
  | ge => le
  | op => op

/-- The comparison that `NOT` makes of it. -/
def negated : Comparison → Comparison
  | eq => ne
  | ne => eq
  | lt => ge
  | ge => lt
  | gt => le
  | le => gt

end Comparison

def Arithmetic.spelling : Arithmetic → String
  | add => "+"
  | sub => "-"
  | mul => "*"
  | div => "/"

def TextFunction.spelling : TextFunction → String
  | len => "LEN"
  | upper => "UPPER"
  | lower => "LOWER"

namespace Operator

def spelling : Operator → String
  | connective .and => "AND"
  | connective .or => "OR"
  | comparison op => op.spelling
  | arithmetic op => op.spelling
  | function op => op.spelling
  | negation => "NOT"

/-- The name under which a message shows the operator. -/
def name : Operator → String
  | connective .and => "And"
  | connective .or => "Or"
  | comparison .eq => "Eq"
  | comparison .ne => "Ne"
  | comparison .lt => "Lt"
  | comparison .gt => "Gt"
  | comparison .le => "Le"
  | comparison .ge => "Ge"
  | arithmetic .add => "Add"
  | arithmetic .sub => "Sub"
  | arithmetic .mul => "Mul"
  | arithmetic .div => "Div"
  | function .len => "Len"
  | function .upper => "Upper"
  | function .lower => "Lower"
  | negation => "Not"

/-- How many operands the operator takes. -/
def arity : Operator → Nat
  | function _ => 1
  | negation => 1
  | _ => 2

def isComparison : Operator → Bool
  | comparison _ => true
  | _ => false

/-- The operator of the two operands the other way round. -/
def inverted : Operator → Operator
  | comparison op => comparison op.inverted
  | op => op

/-- The operator that `NOT` makes of a comparison. -/
def negated? : Operator → Option Operator
  | comparison op => some (comparison op.negated)
  | _ => none

/-- The symbol at the start of a text and its length; of two symbols the longer. -/
def symbol? : List Char → Option (Operator × Nat)
  | '!' :: '=' :: _ => some (comparison .ne, 2)
  | '<' :: '=' :: _ => some (comparison .le, 2)
  | '>' :: '=' :: _ => some (comparison .ge, 2)
  | '=' :: _ => some (comparison .eq, 1)
  | '<' :: _ => some (comparison .lt, 1)
  | '>' :: _ => some (comparison .gt, 1)
  | '+' :: _ => some (arithmetic .add, 1)
  | '-' :: _ => some (arithmetic .sub, 1)
  | '*' :: _ => some (arithmetic .mul, 1)
  | '/' :: _ => some (arithmetic .div, 1)
  | _ => none

/-- The operators that are written as words. -/
def keywords : List Operator :=
  [connective .and, connective .or, negation, function .len, function .upper, function .lower]

/-- The operator that a word spells, in any case. -/
def ofKeyword? (word : List Char) : Option Operator :=
  keywords.find? fun op => Text.sameWord op.spelling.toList word

/-- The operator that a whole text spells, blanks around it aside. -/
def ofText? (s : List Char) : Option Operator :=
  let s := Text.trim s
  match symbol? s with
  | some (op, length) => if length = s.length then some op else ofKeyword? s
  | none => ofKeyword? s

end Operator

end Relational
