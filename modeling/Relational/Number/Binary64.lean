import Relational.Number.Integer

/-!
# Floating-point numbers

Numbers of the 64-bit binary format. A finite number is a whole number of *units*, the unit being
`2 ^ -1074`, the least positive number of the format; so comparing and calculating is done on whole
numbers, exactly, and the result is rounded once (`Binary64.round`).
-/

namespace Relational

/-- The size of a finite number in normal form: `mantissa * 2 ^ scale` units. The mantissa has 53
bits at most, and no fewer unless the scale is zero. -/
structure Magnitude where
  mantissa : Nat
  scale : Nat
  mantissa_lt : mantissa < 9007199254740992
  scale_le : scale ≤ 2045
  normal : scale = 0 ∨ 4503599627370496 ≤ mantissa
deriving DecidableEq

namespace Magnitude

/-- How many units there are in one. -/
def one : Nat := Nat.pow 2 1074

/-- The size in units. -/
def units (m : Magnitude) : Nat :=
  m.mantissa * Nat.pow 2 m.scale

def zero : Magnitude := ⟨0, 0, by decide, by decide, .inl rfl⟩

instance : Inhabited Magnitude := ⟨zero⟩

/-- The whole number nearest to `num / den`; of two, the even one. -/
def roundToEven (num den : Nat) : Nat :=
  let q := num / den
  let r := num % den
  if 2 * r < den then q
  else if den < 2 * r then q + 1
  else if q % 2 = 0 then q else q + 1

/-- `mantissa * 2 ^ scale` units in normal form; the mantissa may have reached
`2 ^ 53`. -/
def normalize? (mantissa scale : Nat) : Option Magnitude :=
  if h : mantissa < 9007199254740992 then
    if h' : scale ≤ 2045 ∧ (scale = 0 ∨ 4503599627370496 ≤ mantissa) then
      some ⟨mantissa, scale, h, h'.1, h'.2⟩
    else none
  else if h' : scale + 1 ≤ 2045 then
    some ⟨4503599627370496, scale + 1, by decide, h', .inr (Nat.le_refl _)⟩
  else none

/-- The magnitude nearest to `num / den` units, unless that is beyond all of them. The scale is the
least one at which the mantissa has no more than 53 bits. -/
def nearest? (num den : Nat) : Option Magnitude :=
  let scale := (num / den).log2 - 52
  normalize? (roundToEven num (den * Nat.pow 2 scale)) scale

end Magnitude

/-- A number of the 64-bit binary format; what is not a number is one value. -/
inductive Binary64 where
  | nan
  | infinite (negative : Bool)
  | finite (negative : Bool) (magnitude : Magnitude)
deriving DecidableEq

namespace Binary64

instance : Inhabited Binary64 := ⟨.nan⟩

/-- The number nearest to `num / den` units; beyond the largest one, infinity. -/
def round (negative : Bool) (num den : Nat) : Binary64 :=
  match Magnitude.nearest? num den with
  | some m => finite negative m
  | none => infinite negative

/-- The number nearest to a whole number. -/
def ofInt (n : Int) : Binary64 :=
  round (n < 0) (n.natAbs * Magnitude.one) 1

/-- The number nearest to `digits * 10 ^ exponent`. -/
def ofDecimal (negative : Bool) (digits : Nat) (exponent : Int) : Binary64 :=
  round negative (digits * Nat.pow 10 exponent.toNat * Magnitude.one)
    (Nat.pow 10 (-exponent).toNat)

def zero (negative : Bool) : Binary64 := finite negative .zero

/-- A zero of either sign. -/
def isZero : Binary64 → Bool
  | finite _ m => m.mantissa = 0
  | _ => false

/-! ## Order -/

/-- The place of a number on the line: which end it is at, if it is infinite, else its units. -/
structure Place where
  side : Int
  units : Int
deriving DecidableEq

/-- Places are in order of side, then of units. -/
def Place.order (p q : Place) : Ordering :=
  (compare p.side q.side).then (compare p.units q.units)

/-- The place of a whole number. -/
def Place.ofInt (n : Int) : Place := ⟨0, n * Magnitude.one⟩

/-- The units of a finite number with their sign. -/
def signed (negative : Bool) (n : Nat) : Int :=
  if negative then -(n : Int) else n

/-- The place of a number, if it is one. -/
def place? : Binary64 → Option Place
  | nan => none
  | infinite negative => some ⟨if negative then -1 else 1, 0⟩
  | finite negative m => some ⟨0, signed negative m.units⟩

/-- The whole number that a float is equal to. -/
def whole? : Binary64 → Option Int
  | finite negative m =>
    if m.units % Magnitude.one = 0 then some (signed negative (m.units / Magnitude.one)) else none
  | _ => none

/-! ## Whole numbers beside floats -/

/-- The whole part of a float, cut toward zero; where that does not fit, the nearest whole number. -/
def truncated : Binary64 → Integer
  | nan => 0
  | infinite negative => .clamp (signed negative 9223372036854775808)
  | finite negative m => .clamp (signed negative (m.units / Magnitude.one))

/-- The units of a finite number beyond its whole part, with its sign. -/
def fraction : Binary64 → Int
  | finite negative m => signed negative (m.units % Magnitude.one)
  | _ => 0

end Binary64

/-- The order of a whole number and a float. A float beyond all whole numbers of 64 bits is told by
that; otherwise the whole part of the float decides, and if it is the number, the rest does. -/
def Integer.order? (n : Integer) (x : Binary64) : Option Ordering :=
  x.place?.map fun place =>
    if place.order (.ofInt 9223372036854775808) != .lt then .lt
    else if place.order (.ofInt (-9223372036854775808)) == .lt then .gt
    else (compare n.val x.truncated.val).then (compare 0 x.fraction)

namespace Binary64

/-! ## Arithmetic -/

def neg : Binary64 → Binary64
  | nan => nan
  | infinite negative => infinite !negative
  | finite negative m => finite (!negative) m

/-- The number nearest to a sum of units; a sum of zero is negative only if both sides are. -/
def roundSum (bothNegative : Bool) (n : Int) : Binary64 :=
  if n = 0 then zero bothNegative else round (n < 0) n.natAbs 1

def add : Binary64 → Binary64 → Binary64
  | nan, _ => nan
  | _, nan => nan
  | infinite s, infinite t => if s = t then infinite s else nan
  | infinite s, finite _ _ => infinite s
  | finite _ _, infinite t => infinite t
  | finite s a, finite t b => roundSum (s && t) (signed s a.units + signed t b.units)

def sub (x y : Binary64) : Binary64 :=
  add x (neg y)

def mul : Binary64 → Binary64 → Binary64
  | nan, _ => nan
  | _, nan => nan
  | infinite s, infinite t => infinite (s != t)
  | infinite s, finite t b => if b.mantissa = 0 then nan else infinite (s != t)
  | finite s a, infinite t => if a.mantissa = 0 then nan else infinite (s != t)
  | finite s a, finite t b => round (s != t) (a.units * b.units) Magnitude.one

def div : Binary64 → Binary64 → Binary64
  | nan, _ => nan
  | _, nan => nan
  | infinite _, infinite _ => nan
  | infinite s, finite t _ => infinite (s != t)
  | finite s _, infinite t => zero (s != t)
  | finite s a, finite t b =>
    if b.mantissa = 0 then if a.mantissa = 0 then nan else infinite (s != t)
    else round (s != t) (a.units * Magnitude.one) b.units

end Binary64

end Relational
