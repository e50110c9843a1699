import Relational.Condition
import Relational.Token.Lexer
import Relational.Value.Calculation

/-!
# Reading conditions and values

Recursive descent over tokens. Each reader returns what it read and the tokens behind it, with the
proof that they are fewer, so the readers end on every list of tokens: each call leaves fewer
tokens, or passes the same ones to a reader further down the grammar, and four times the tokens and
the reader's place in the grammar falls at either. Operands are worked out as they are read; `NOT`
is pushed down to the comparisons as it is read.

The grammar, loosest first:

* a condition is alternatives joined by `OR`, an alternative is parts joined by `AND`;
* a part is `NOT` and a part, a condition in parentheses, or two operands with a comparison between;
* an operand is a sum of products of factors; a factor is a constant, a column, a factor behind a
  minus, a function of an operand, or an operand in parentheses.
-/

namespace Relational

/-- The value of an operand that an operation works on; a column has none yet. -/
def Operand.need (operand : Operand) (operation : String) : Except Error Value :=
  match operand.meaning with
  | .constant value => .ok value
  | .column _ => .error (.expression (.columnOperand operation operand.raw))

namespace Parser

/-- What was read from the start of `tokens`, and the fewer tokens behind it. -/
structure Read (α : Type) (tokens : List Token) where
  result : α
  rest : List Token
  length_lt : rest.length < tokens.length

/-- The tokens behind one that has to come first. -/
def expect (expected : Token) : (tokens : List Token) → Except Error (Read Unit tokens)
  | [] => .error (.syntaxError (.expectedToken expected none))
  | token :: rest =>
    if token = expected then .ok ⟨(), rest, by simp⟩
    else .error (.syntaxError (.expectedToken expected (some token)))

/-- Two operands worked out as one. -/
def combine (op : Arithmetic) (left right : Operand) : Except Error Operand := do
  let l ← left.need op.spelling
  let r ← right.need op.spelling
  return .constant (← (Operator.arithmetic op).calculate l r)

/-- Plus or minus. -/
def sumOperator? : Token → Option Arithmetic
  | .operator (.arithmetic .add) => some .add
  | .operator (.arithmetic .sub) => some .sub
  | _ => none

/-- Times or divided by. -/
def productOperator? : Token → Option Arithmetic
  | .operator (.arithmetic .mul) => some .mul
  | .operator (.arithmetic .div) => some .div
  | _ => none

mutual

/-- Reads a sum. -/
def operand (tokens : List Token) : Except Error (Read Operand tokens) := do
  let first ← term tokens
  have := first.length_lt
  let sum ← sums first.result first.rest
  return ⟨sum.1.1, sum.1.2, by have := sum.2; omega⟩
termination_by 4 * tokens.length + 3

/-- Reads on behind the first terms of a sum. -/
def sums (left : Operand) (tokens : List Token) :
    Except Error { r : Operand × List Token // r.2.length ≤ tokens.length } :=
  match tokens with
  | [] => .ok ⟨(left, []), Nat.le_refl _⟩
  | token :: tokens =>
    match sumOperator? token with
    | none => .ok ⟨(left, token :: tokens), Nat.le_refl _⟩
    | some op => do
      let right ← term tokens
      have := right.length_lt
      let sum ← sums (← combine op left right.result) right.rest
      return ⟨sum.1, by have := sum.2; simp only [List.length_cons]; omega⟩
termination_by 4 * tokens.length

/-- Reads a product. -/
def term (tokens : List Token) : Except Error (Read Operand tokens) := do
  let first ← factor tokens
  have := first.length_lt
  let product ← products first.result first.rest
  return ⟨product.1.1, product.1.2, by have := product.2; omega⟩
termination_by 4 * tokens.length + 2

/-- Reads on behind the first factors of a product. -/
def products (left : Operand) (tokens : List Token) :
    Except Error { r : Operand × List Token // r.2.length ≤ tokens.length } :=
  match tokens with
  | [] => .ok ⟨(left, []), Nat.le_refl _⟩
  | token :: tokens =>
    match productOperator? token with
    | none => .ok ⟨(left, token :: tokens), Nat.le_refl _⟩
    | some op => do
      let right ← factor tokens
      have := right.length_lt
      let product ← products (← combine op left right.result) right.rest
      return ⟨product.1, by have := product.2; simp only [List.length_cons]; omega⟩
termination_by 4 * tokens.length

/-- Reads a factor. -/
def factor (tokens : List Token) : Except Error (Read Operand tokens) :=
  match tokens with
  | [] => .error (.syntaxError (.expectedOperand none))
  | .number digits :: rest => do
    return ⟨← Operand.read digits, rest, by simp⟩
  | .text content :: rest => .ok ⟨.constant (.text (String.ofList content)), rest, by simp⟩
  | .null :: rest => .ok ⟨.constant .null, rest, by simp⟩
  | .identifier name :: rest => do
    return ⟨← Operand.read name, rest, by simp⟩
  | .operator (.arithmetic .sub) :: rest => do
    let argument ← factor rest
    let value ← argument.result.need "-"
    return ⟨.constant (← value.negate), argument.rest, by
      have := argument.length_lt
      simp only [List.length_cons]; omega⟩
  | .operator (.function f) :: rest => do
    let inside ← expect .leftParen rest
    have := inside.length_lt
    let argument ← operand inside.rest
    let behind ← expect .rightParen argument.rest
    let value ← argument.result.need f.spelling
    return ⟨.constant (← (Operator.function f).applyTo value), behind.rest, by
      have := argument.length_lt
      have := behind.length_lt
      simp only [List.length_cons]; omega⟩
  | .leftParen :: rest => do
    let inside ← operand rest
    let behind ← expect .rightParen inside.rest
    return ⟨inside.result, behind.rest, by
      have := inside.length_lt
      have := behind.length_lt
      simp only [List.length_cons]; omega⟩
  | token :: _ => .error (.syntaxError (.expectedOperand (some token)))
termination_by 4 * tokens.length + 1

end

/-- Reads two operands with a comparison between them. -/
def comparison (tokens : List Token) : Except Error (Read Condition tokens) := do
  let left ← operand tokens
  match h : left.rest with
  | .operator (.comparison op) :: rest => do
    let right ← operand rest
    return ⟨.compare (.comparison op) (.leaf left.result) (.leaf right.result), right.rest, by
      have h₁ := left.length_lt
      have h₂ := right.length_lt
      rw [h, List.length_cons] at h₁
      omega⟩
  | token :: _ => .error (.syntaxError (.expectedComparison (some token)))
  | [] => .error (.syntaxError (.expectedComparison none))

/-- Whether the tokens go on with an operand that a closing parenthesis has ended a part of. -/
def continuesOperand : List Token → Bool
  | .operator (.comparison _) :: _ => true
  | .operator (.arithmetic _) :: _ => true
  | _ => false

mutual

/-- Reads a condition. -/
def condition (tokens : List Token) : Except Error (Read Condition tokens) := do
  let first ← alternative tokens
  have := first.length_lt
  let whole ← alternatives first.result first.rest
  return ⟨whole.1.1, whole.1.2, by have := whole.2; omega⟩
termination_by 4 * tokens.length + 3

/-- Reads on behind the first alternatives of a condition. -/
def alternatives (left : Condition) (tokens : List Token) :
    Except Error { r : Condition × List Token // r.2.length ≤ tokens.length } :=
  match tokens with
  | .operator (.connective .or) :: tokens => do
    let right ← alternative tokens
    have := right.length_lt
    let whole ← alternatives (.or left right.result) right.rest
    return ⟨whole.1, by have := whole.2; simp only [List.length_cons]; omega⟩
  | tokens => .ok ⟨(left, tokens), Nat.le_refl _⟩
termination_by 4 * tokens.length

/-- Reads parts joined by `AND`. -/
def alternative (tokens : List Token) : Except Error (Read Condition tokens) := do
  let first ← part tokens
  have := first.length_lt
  let whole ← parts first.result first.rest
  return ⟨whole.1.1, whole.1.2, by have := whole.2; omega⟩
termination_by 4 * tokens.length + 2

/-- Reads on behind the first parts of an alternative. -/
def parts (left : Condition) (tokens : List Token) :
    Except Error { r : Condition × List Token // r.2.length ≤ tokens.length } :=
  match tokens with
  | .operator (.connective .and) :: tokens => do
    let right ← part tokens
    have := right.length_lt
    let whole ← parts (.and left right.result) right.rest
    return ⟨whole.1, by have := whole.2; simp only [List.length_cons]; omega⟩
  | tokens => .ok ⟨(left, tokens), Nat.le_refl _⟩
termination_by 4 * tokens.length

/-- Reads a part. A parenthesis may open a condition or an operand: the condition is tried first,
and given up if it cannot be read or if an operand goes on behind its closing parenthesis. -/
def part (tokens : List Token) : Except Error (Read Condition tokens) :=
  match tokens with
  | .operator .negation :: rest => do
    let negated ← part rest
    return ⟨← negated.result.negate, negated.rest, by
      have := negated.length_lt
      simp only [List.length_cons]; omega⟩
  | .leftParen :: rest =>
    match condition rest with
    | .ok ⟨inside, .rightParen :: behind, h⟩ =>
      if continuesOperand behind then comparison (.leftParen :: rest)
      else .ok ⟨inside, behind, by simp only [List.length_cons] at h ⊢; omega⟩
    | _ => comparison (.leftParen :: rest)
  | tokens => comparison tokens
termination_by 4 * tokens.length + 1

end

/-- Reads values with commas between them, up to the end. -/
def values (tokens : List Token) : Except Error (List Value) := do
  let first ← operand tokens
  let value ← first.result.need "VALUES"
  match h : first.rest with
  | [] => return [value]
  | .comma :: rest =>
    have : rest.length < tokens.length := by
      have := first.length_lt
      simp only [h, List.length_cons] at this
      omega
    return value :: (← values rest)
  | token :: _ => .error (.syntaxError (.expectedComma token))
termination_by tokens.length

end Parser

namespace Condition

/-- The condition that tokens write. -/
def ofTokens (tokens : List Token) : Except Error Condition := do
  if tokens.isEmpty then .error (.syntaxError .emptyCondition)
  let whole ← Parser.condition tokens
  match whole.rest with
  | [] => return whole.result
  | token :: _ => .error (.syntaxError (.leftover token))

/-- Reads a condition. -/
def read (s : List Char) : Except Error Condition := do
  ofTokens (← Lexer.meaningful s)

end Condition

namespace Value

/-- Reads a list of constants with commas between them; a text without tokens is the empty list. -/
def readList (s : List Char) : Except Error (List Value) := do
  match ← Lexer.meaningful s with
  | [] => return []
  | tokens => Parser.values tokens

end Value

end Relational
