import Relational.Proofs.Number.Rounding

/-!
# Whole numbers beside floats

A whole number and a float are told apart by the range of the float, by its whole part and by the sign
of what it has beyond that (`Integer.order?`). The whole part and the rest decide as the units would
(`Binary64.compare_units`), and within the range the whole part fits (`Binary64.truncated_finite`); a
float beyond the range is beyond every whole number of 64 bits. So the order is the one of the two
places on the line (`Integer.order?_eq`), although no whole number is turned into a float for it.
-/

namespace Relational

open Std

namespace Binary64

/-! ## Places -/

namespace Place

instance : TransCmp order :=
  inferInstanceAs (TransCmp (compareLex (compareOn side) (compareOn units)))

/-- Whole numbers are in the order of their places. -/
theorem order_ofInt (m n : Int) : (ofInt m).order (ofInt n) = compare m n := by
  have hone : (0 : Int) < Magnitude.one := Int.natCast_pos.mpr Magnitude.one_pos
  have hside : compare (ofInt m).side (ofInt n).side = .eq := rfl
  rw [order, hside, Ordering.eq_then]
  cases h : compare m n with
  | lt => exact Int.compare_eq_lt.mpr (Int.mul_lt_mul_of_pos_right (Int.compare_eq_lt.mp h) hone)
  | eq => rw [LawfulEqCmp.compare_eq_iff_eq.mp h, LawfulEqCmp.compare_eq_iff_eq]
  | gt => exact Int.compare_eq_gt.mpr (Int.mul_lt_mul_of_pos_right (Int.compare_eq_gt.mp h) hone)

/-- Finite numbers are in the order of their units. -/
theorem order_finite (a b : Int) : order ⟨0, a⟩ ⟨0, b⟩ = compare a b := by
  have hside : compare (0 : Int) 0 = .eq := rfl
  rw [order, hside, Ordering.eq_then]

end Place

/-! ## Whole parts -/

theorem signed_false (n : Nat) : signed false n = n := rfl

theorem signed_true (n : Nat) : signed true n = -(n : Int) := rfl

/-- A whole number stands to units as it stands to their whole part, or, if it is the whole part, as
nothing stands to the rest. -/
theorem compare_units {one : Nat} (hone : 0 < one) (n : Int) (negative : Bool) (units : Nat) :
    compare (n * one) (signed negative units) =
      (compare n (signed negative (units / one))).then
        (compare 0 (signed negative (units % one))) := by
  have hunits : one * (units / one) + units % one = units := Nat.div_add_mod units one
  have hrest : units % one < one := Nat.mod_lt units hone
  generalize units / one = whole at hunits ⊢
  generalize units % one = rest at hunits hrest ⊢
  have hsigned : signed negative units = signed negative whole * one + signed negative rest := by
    rw [← hunits]
    cases negative <;> simp only [signed, Int.natCast_add, Int.natCast_mul] <;> grind
  have hbounds : -(one : Int) < signed negative rest ∧ signed negative rest < one := by
    cases negative <;> simp only [signed] <;> omega
  rw [hsigned]
  generalize signed negative whole = w at *
  generalize signed negative rest = r at *
  rcases Int.lt_trichotomy n w with hlt | rfl | hgt
  · -- one less in the whole part outweighs any rest
    have hmul := Int.mul_le_mul_of_nonneg_right (Int.add_one_le_of_lt hlt) (Int.natCast_nonneg one)
    rw [Int.add_mul] at hmul
    rw [Int.compare_eq_lt.mpr hlt, Ordering.lt_then, Int.compare_eq_lt]
    omega
  · rw [Int.compare_eq_eq.mpr rfl, Ordering.eq_then]
    cases h : compare 0 r with
    | lt =>
      rw [Int.compare_eq_lt] at h ⊢
      omega
    | eq =>
      rw [LawfulEqCmp.compare_eq_iff_eq] at h ⊢
      omega
    | gt =>
      rw [Int.compare_eq_gt] at h ⊢
      omega
  · have hmul := Int.mul_le_mul_of_nonneg_right (Int.add_one_le_of_lt hgt) (Int.natCast_nonneg one)
    rw [Int.add_mul] at hmul
    rw [Int.compare_eq_gt.mpr hgt, Ordering.gt_then, Int.compare_eq_gt]
    omega

/-- A whole part that fits is cut off as it is. -/
theorem truncated_finite {negative : Bool} {m : Magnitude}
    (hle : -9223372036854775808 * (Magnitude.one : Int) ≤ signed negative m.units)
    (hlt : signed negative m.units < 9223372036854775808 * (Magnitude.one : Int)) :
    (finite negative m).truncated.val = signed negative (m.units / Magnitude.one) := by
  have hone := Magnitude.one_pos
  rw [truncated]
  generalize Magnitude.one = one at *
  cases negative with
  | false =>
    rw [signed_false] at hlt ⊢
    have hwhole : m.units / one < 9223372036854775808 := by
      rw [Nat.div_lt_iff_lt_mul hone]
      omega
    generalize m.units / one = whole at hwhole ⊢
    exact Integer.val_clamp (by omega) (by omega)
  | true =>
    rw [signed_true] at hle ⊢
    have hwhole : m.units / one ≤ 9223372036854775808 := by
      refine Nat.div_le_of_le_mul ?_
      omega
    generalize m.units / one = whole at hwhole ⊢
    exact Integer.val_clamp (by omega) (by omega)

/-- The units of a float between two whole numbers. -/
theorem exists_finite {x : Binary64} {place : Place} {low high : Int} (hplace : x.place? = some place)
    (hlow : ((Place.ofInt low).order place).isLE = true)
    (hhigh : place.order (.ofInt high) = .lt) :
    ∃ negative m, x = finite negative m ∧ low * Magnitude.one ≤ signed negative m.units ∧
      signed negative m.units < high * Magnitude.one := by
  cases x with
  | nan => cases hplace
  | infinite negative =>
    obtain rfl := Option.some.inj hplace
    cases negative with
    | false => cases hhigh
    | true => cases hlow
  | finite negative m =>
    obtain rfl := Option.some.inj hplace
    rw [Place.ofInt, Place.order_finite] at hlow hhigh
    exact ⟨negative, m, rfl, Int.isLE_compare.mp hlow, Int.compare_eq_lt.mp hhigh⟩

end Binary64

open Binary64 in
/-- A whole number and a float are in the order of their places. -/
theorem Integer.order?_eq (n : Integer) (x : Binary64) :
    n.order? x = x.place?.map (Place.ofInt n.val).order := by
  have hlow : ((Place.ofInt (-9223372036854775808)).order (.ofInt n.val)).isLE = true := by
    rw [Place.order_ofInt, Int.isLE_compare]
    exact n.le_val
  have hhigh : (Place.ofInt n.val).order (.ofInt 9223372036854775808) = .lt := by
    rw [Place.order_ofInt, Int.compare_eq_lt]
    exact n.val_lt
  rw [Integer.order?]
  refine Option.map_congr fun place hplace => ?_
  split
  · rename_i habove
    have hle : ((Place.ofInt 9223372036854775808).order place).isLE = true := by
      rw [← Place.order_swap]
      cases h : place.order (.ofInt 9223372036854775808) <;> simp_all
    exact (TransCmp.lt_of_lt_of_isLE hhigh hle).symm
  · rename_i habove
    have hupper : place.order (.ofInt 9223372036854775808) = .lt := by simpa using habove
    split
    · rename_i hbelow
      have hlt := TransCmp.lt_of_lt_of_isLE (beq_iff_eq.mp hbelow) hlow
      exact (OrientedCmp.gt_iff_lt.mpr hlt).symm
    · rename_i hbelow
      have hlower : ((Place.ofInt (-9223372036854775808)).order place).isLE = true := by
        rw [← Place.order_swap]
        cases h : place.order (.ofInt (-9223372036854775808)) <;> simp_all
      obtain ⟨negative, m, rfl, hle, hlt⟩ := exists_finite hplace hlower hupper
      obtain rfl := Option.some.inj hplace
      rw [truncated_finite hle hlt, Place.ofInt, Place.order_finite,
        compare_units Magnitude.one_pos, fraction]

end Relational
