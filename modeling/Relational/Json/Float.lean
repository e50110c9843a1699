import Relational.Json

/-!
# Floats in JSON

How a number of a document is read as a float. Its digits are taken into a whole number of 64 bits,
as far as they fit (`Json.takeDigits`), and those left over only count for the place of the point.
The whole number is then rounded to a float, and scaled by a power of ten, itself a float
(`Json.scaled?`). Each step rounds, so the result can be a neighbour of the float that is nearest to
the number.
-/

namespace Relational.Json

/-- Takes digits into a whole number as long as it fits into 64 bits, and returns the digits behind
them. -/
def takeDigits (n : Nat) : List Char → Nat × List Char
  | [] => (n, [])
  | c :: s =>
    let taken := n * 10 + (c.toNat - '0'.toNat)
    if taken < 18446744073709551616 then takeDigits taken s else (n, c :: s)

/-- The float nearest to a power of ten, infinite from `10 ^ 309` up. -/
def tenPow (n : Nat) : Binary64 :=
  .ofDecimal false 1 (min n 309)

/-- A float divided by ten so many times. More than 308 times are two steps, because floats have no
greater power of ten. -/
def scaledDown (x : Binary64) (places : Nat) : Binary64 :=
  if places ≤ 308 then x.div (tenPow places)
  else (x.div (tenPow 308)).div (tenPow (min (places - 308) 308))

/-- The float of `digits * 10 ^ exponent`, if it is finite. -/
def scaled? (digits : Nat) (exponent : Int) : Option Binary64 :=
  let x := Binary64.ofInt digits
  if exponent < 0 then some (scaledDown x (-exponent).toNat)
  else if digits = 0 then some x
  else match x.mul (tenPow exponent.toNat) with
    | .finite negative m => some (.finite negative m)
    | _ => none

/-- A number without its sign as a float. -/
def magnitude? (written : List Char) : Option Binary64 := do
  let (whole, fraction, rest) := Binary64.spanMantissa written
  let exponent ← Binary64.readExponent? rest
  let (n, more) := takeDigits 0 whole
  let (digits, dropped) := takeDigits n fraction
  scaled? digits (exponent + more.length - (fraction.length - dropped.length : Nat))

/-- A number as a float; those beyond all floats are none. -/
def float? : Json → Option Binary64
  | number ('-' :: written) => (magnitude? written).map Binary64.neg
  | number written => magnitude? written
  | _ => none

end Relational.Json
