import Relational.Number.Binary64

/-!
# Shortest decimals

The decimal that writes a floating-point number: of those that read back to the number, the ones
with the fewest digits, and of these the nearest. `Magnitude.shortest` searches the two neighbours
of the number on each decimal grid, from one digit up, and keeps what reads back.
-/

namespace Relational

/-- `digits * 10 ^ exponent`. -/
structure Decimal where
  digits : Nat
  exponent : Int
deriving DecidableEq

/-- Which of two equally near decimals of one length is taken. -/
inductive Tie where
  | up
  | even
deriving DecidableEq

namespace Decimal

/-- The units of a decimal as a quotient. -/
def num (d : Decimal) : Nat := d.digits * Nat.pow 10 d.exponent.toNat * Magnitude.one

def den (d : Decimal) : Nat := Nat.pow 10 (-d.exponent).toNat

/-- The magnitude that a decimal reads as. -/
def magnitude? (d : Decimal) : Option Magnitude :=
  Magnitude.nearest? d.num d.den

/-- Moves the zeros at the end of the digits into the exponent, `fuel` of them at most. -/
def dropZeros : Nat → Decimal → Decimal
  | 0, d => d
  | fuel + 1, d =>
    if d.digits % 10 = 0 then dropZeros fuel ⟨d.digits / 10, d.exponent + 1⟩ else d

/-- The same decimal with no zero at the end of its digits. -/
def strip (d : Decimal) : Decimal :=
  if d.digits = 0 then ⟨0, 0⟩ else dropZeros (Nat.toDigits 10 d.digits).length d

end Decimal

/-- Whether the whole number above `num / den` is taken and not the one below. -/
def Tie.takesAbove (tie : Tie) (num den : Nat) : Bool :=
  match compare (2 * (num % den)) den with
  | .lt => false
  | .gt => true
  | .eq => tie == .up || num / den % 2 == 1

namespace Magnitude

/-- The least `k` with the number below `10 ^ k`. -/
def decimalPoint (m : Magnitude) : Int :=
  if one ≤ m.units then (Nat.toDigits 10 (m.units / one)).length
  else 1 - (Nat.toDigits 10 ((one - 1) / m.units)).length

/-- The exact decimal of a number. -/
def exact (m : Magnitude) : Decimal :=
  ⟨m.units * Nat.pow 5 1074, -1074⟩

/-- Of two decimals the one that reads back; where both do, the choice is given. -/
def pick? (m : Magnitude) (takesAbove : Bool) (below above : Decimal) : Option Decimal :=
  if below.magnitude? = some m then
    if takesAbove = true ∧ above.magnitude? = some m then some above else some below
  else if above.magnitude? = some m then some above
  else none

/-- The decimal of `count` digits that reads back, if there is one; of two, the nearer. -/
def candidate? (tie : Tie) (m : Magnitude) (count : Nat) : Option Decimal :=
  let exponent := m.decimalPoint - count
  let num := m.units * Nat.pow 10 (-exponent).toNat
  let den := one * Nat.pow 10 exponent.toNat
  m.pick? (tie.takesAbove num den) ⟨num / den, exponent⟩ ⟨num / den + 1, exponent⟩

/-- The shortest decimal that reads back to the number, and the nearest of those. -/
def shortest (tie : Tie) (m : Magnitude) : Decimal :=
  if m.mantissa = 0 then ⟨0, 0⟩
  else ((List.range 17).findSome? fun i => m.candidate? tie (i + 1)).getD m.exact |>.strip

end Magnitude

end Relational
