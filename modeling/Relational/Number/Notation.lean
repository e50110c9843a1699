import Relational.Number.Decimal

/-!
# Written numbers

How a decimal is laid out, as a record of the choices that a format makes, and how a decimal is
read. A format picks its digits with `Magnitude.shortest`.
-/

namespace Relational

/-- The choices of a format for finite numbers. -/
structure FloatFormat where
  /-- Which of two equally near decimals is written. -/
  tie : Tie
  /-- Whether a number whose leading digit stands for `10 ^ e` is written without an exponent. -/
  isPlain : Int → Bool
  /-- Whether a whole number is written with `.0`. -/
  showsPoint : Bool

namespace Decimal

/-- The digits with the point where the exponent puts it. -/
def plain (showsPoint : Bool) (d : Decimal) : List Char :=
  let ds := Nat.toDigits 10 d.digits
  if 0 ≤ d.exponent then
    ds ++ List.replicate d.exponent.toNat '0' ++ if showsPoint then ['.', '0'] else []
  else
    let places := (-d.exponent).toNat
    if places < ds.length then
      ds.take (ds.length - places) ++ '.' :: ds.drop (ds.length - places)
    else '0' :: '.' :: (List.replicate (places - ds.length) '0' ++ ds)

/-- The power of ten that the leading digit stands for. -/
def leading (d : Decimal) : Int :=
  (Nat.toDigits 10 d.digits).length - 1 + d.exponent

/-- One digit, the others behind a point, and the exponent with its sign. -/
def scientific (d : Decimal) : List Char :=
  let mantissa := match Nat.toDigits 10 d.digits with
    | c :: c' :: cs => c :: '.' :: c' :: cs
    | cs => cs
  let sign := if d.leading < 0 then '-' else '+'
  mantissa ++ 'e' :: sign :: Nat.toDigits 10 d.leading.natAbs

end Decimal

namespace FloatFormat

/-- A magnitude in a format. -/
def magnitude (f : FloatFormat) (m : Magnitude) : List Char :=
  let d := m.shortest f.tie
  if f.isPlain d.leading then d.plain f.showsPoint else d.scientific

/-- A finite number in a format; a zero keeps its sign. -/
def finite (f : FloatFormat) (negative : Bool) (m : Magnitude) : List Char :=
  if negative then '-' :: f.magnitude m else f.magnitude m

end FloatFormat

namespace Binary64

/-- The digits that a text begins with, those behind a point that comes next, and the rest. -/
def spanMantissa (s : List Char) : List Char × List Char × List Char :=
  let whole := s.takeWhile Char.isDigit
  match s.dropWhile Char.isDigit with
  | '.' :: rest => (whole, rest.takeWhile Char.isDigit, rest.dropWhile Char.isDigit)
  | rest => (whole, [], rest)

/-- Reads digits with a point at most: `1`, `1.`, `.5` or `1.5`. Returns the digits without the
point, how many of them stand behind it, and the rest. -/
def readMantissa? (s : List Char) : Option (Nat × Nat × List Char) :=
  let (whole, fraction, rest) := spanMantissa s
  if whole.isEmpty && fraction.isEmpty then none
  else some (Nat.ofDigitChars 10 (whole ++ fraction) 0, fraction.length, rest)

/-- Reads an exponent, or nothing, up to the end of the text. -/
def readExponent? : List Char → Option Int
  | [] => some 0
  | c :: s => if c == 'e' || c == 'E' then Integer.readInt? s else none

/-- An exponent that stands behind so many characters, brought near zero. The digits before it stand
for less than `10 ^ length`, and for no less than `10 ^ -length` unless they are all zero; so where
the exponent changes, the number is beyond all floats, or next to zero, before and after. -/
def boundedExponent (length : Nat) (exponent : Int) : Int :=
  max (-(length + 400)) (min (length + 400) exponent)

/-- Reads a number without its sign. -/
def readMagnitude? (negative : Bool) (s : List Char) : Option Binary64 :=
  match String.ofList (s.map Char.toLower) with
  | "inf" | "infinity" => some (infinite negative)
  | "nan" => some nan
  | _ => do
    let (digits, places, rest) ← readMantissa? s
    let exponent ← readExponent? rest
    some (ofDecimal negative digits (boundedExponent s.length exponent - places))

/-- Reads a number: a sign at most, then digits with a point and an exponent at most, or the name of
an infinity or of what is not a number, in any case. -/
def ofText? : List Char → Option Binary64
  | '-' :: s => readMagnitude? true s
  | '+' :: s => readMagnitude? false s
  | s => readMagnitude? false s

end Binary64

end Relational
