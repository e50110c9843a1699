/-!
# Whole numbers

Signed whole numbers of 64 bits. An operation whose exact result does not fit has none
(`ofInt?_eq_some_iff`), so nothing wraps.
-/

namespace Relational

/-- A whole number from `-2 ^ 63` to `2 ^ 63 - 1`. -/
structure Integer where
  val : Int
  le_val : -9223372036854775808 ≤ val
  val_lt : val < 9223372036854775808
deriving DecidableEq

namespace Integer

/-- The whole number, if it fits. -/
def ofInt? (n : Int) : Option Integer :=
  if h : -9223372036854775808 ≤ n ∧ n < 9223372036854775808 then some ⟨n, h.1, h.2⟩ else none

theorem ofInt?_eq_some_iff {n : Int} {a : Integer} : ofInt? n = some a ↔ a.val = n := by
  obtain ⟨v, h1, h2⟩ := a
  unfold ofInt?
  split
  · simp [eq_comm]
  · rename_i h
    refine ⟨nofun, fun e => ?_⟩
    subst e
    exact absurd ⟨h1, h2⟩ h

theorem ofInt?_val (a : Integer) : ofInt? a.val = some a :=
  ofInt?_eq_some_iff.mpr rfl

/-- The whole number nearest to `n` of those that fit. -/
def clamp (n : Int) : Integer :=
  ⟨max (-9223372036854775808) (min n 9223372036854775807), by omega, by omega⟩

theorem val_clamp {n : Int} (hle : -9223372036854775808 ≤ n) (hlt : n < 9223372036854775808) :
    (clamp n).val = n := by
  have hval : (clamp n).val = max (-9223372036854775808) (min n 9223372036854775807) := rfl
  omega

instance : OfNat Integer 0 := ⟨0, by decide, by decide⟩

instance : Inhabited Integer := ⟨0⟩

/-- The length of a list, which never reaches the limit in practice, as a whole number. -/
def ofLength (n : Nat) : Integer :=
  (ofInt? n).getD 0

theorem val_ofLength {n : Nat} (h : n < 9223372036854775808) : (ofLength n).val = n := by
  have hfits : ofInt? n = some ⟨n, by omega, by omega⟩ := ofInt?_eq_some_iff.mpr rfl
  rw [ofLength, hfits, Option.getD_some]

@[simp] theorem ofLength_zero : ofLength 0 = 0 :=
  congrArg (·.getD 0) (ofInt?_val 0)

instance (priority := low) (n : Nat) : OfNat Integer n := ⟨ofLength n⟩

def add? (a b : Integer) : Option Integer := ofInt? (a.val + b.val)

def sub? (a b : Integer) : Option Integer := ofInt? (a.val - b.val)

def mul? (a b : Integer) : Option Integer := ofInt? (a.val * b.val)

/-- The quotient rounded toward zero; `b` is not zero. -/
def div? (a b : Integer) : Option Integer := ofInt? (a.val.tdiv b.val)

def neg? (a : Integer) : Option Integer := ofInt? (-a.val)

/-- The digits of a natural number. -/
def digits (n : Nat) : List Char :=
  Nat.toDigits 10 n

/-- The text of an integer: its digits, behind a minus if it is negative. -/
def signedDigits (n : Int) : List Char :=
  if n < 0 then '-' :: digits n.natAbs else digits n.natAbs

/-- The text of a whole number. -/
def toText (a : Integer) : List Char :=
  signedDigits a.val

/-- Whether a text is one or more of the digits `0` to `9`. -/
def isDigits (s : List Char) : Bool :=
  !s.isEmpty && s.all Char.isDigit

/-- The natural number that a text of digits writes. -/
def ofDigits? (s : List Char) : Option Nat :=
  if isDigits s then some (Nat.ofDigitChars 10 s 0) else none

/-- Reads one sign at most, then digits. -/
def readInt? : List Char → Option Int
  | '-' :: s => (ofDigits? s).map fun n => -(n : Int)
  | '+' :: s => (ofDigits? s).map fun n => (n : Int)
  | s => (ofDigits? s).map fun n => (n : Int)

/-- Reads a whole number: one sign at most, then digits, and the number has to fit. -/
def ofText? (s : List Char) : Option Integer :=
  (readInt? s).bind ofInt?

end Integer

end Relational
