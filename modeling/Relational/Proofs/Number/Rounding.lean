import Mathlib.Algebra.Group.Nat.Defs
import Relational.Number.Binary64

/-!
# Rounding

Rounding a quotient of units depends on the quotient only (`Magnitude.nearest?_mul`) and gives back
what is a magnitude already (`Magnitude.nearest?_units`). So a magnitude is determined by its units
(`Magnitude.units_inj`), and floats have one place on the line if they are equal or both zero
(`Binary64.place?_eq_iff`).
-/

namespace Relational

namespace Magnitude

theorem one_pos : 0 < one := by
  decide +kernel

/-! ## Quotients -/

theorem roundToEven_mul {k : Nat} (hk : 0 < k) (num den : Nat) :
    roundToEven (k * num) (k * den) = roundToEven num den := by
  have hdouble (a : Nat) : 2 * (k * a) = k * (2 * a) := Nat.mul_left_comm 2 k a
  simp only [roundToEven, Nat.mul_div_mul_left _ _ hk, Nat.mul_mod_mul_left, hdouble,
    Nat.mul_lt_mul_left hk]

theorem roundToEven_mul_self {den : Nat} (hden : 0 < den) (n : Nat) :
    roundToEven (n * den) den = n := by
  simp [roundToEven, Nat.mul_div_cancel n hden, hden]

theorem nearest?_mul {k : Nat} (hk : 0 < k) (num den : Nat) :
    nearest? (k * num) (k * den) = nearest? num den := by
  simp only [nearest?, Nat.mul_div_mul_left _ _ hk, Nat.mul_assoc, roundToEven_mul hk]

theorem normalize?_eq_some_self (m : Magnitude) : normalize? m.mantissa m.scale = some m := by
  rw [normalize?, dif_pos m.mantissa_lt, dif_pos ⟨m.scale_le, m.normal⟩]

/-- The scale at which a magnitude is rounded is its own. -/
theorem log2_units_sub (m : Magnitude) : m.units.log2 - 52 = m.scale := by
  obtain ⟨mantissa, scale, hlt, -, hnormal⟩ := m
  simp only [units, Nat.pow_eq]
  rcases Decidable.em (mantissa = 0) with hzero | hzero
  · have hscale : scale = 0 := hnormal.resolve_right (by omega)
    simp [hzero, hscale, Nat.log2_zero]
  · have hpos : mantissa * 2 ^ scale ≠ 0 :=
      Nat.mul_ne_zero hzero (Nat.pos_iff_ne_zero.mp (Nat.two_pow_pos scale))
    have hupper : mantissa * 2 ^ scale < 2 ^ (53 + scale) := by
      rw [Nat.pow_add]
      exact Nat.mul_lt_mul_of_pos_right hlt (Nat.pow_pos (by decide))
    have hlog : (mantissa * 2 ^ scale).log2 < 53 + scale := (Nat.log2_lt hpos).mpr hupper
    rcases hnormal with hscale | hlarge
    · omega
    · have hlower : 2 ^ (52 + scale) ≤ mantissa * 2 ^ scale := by
        rw [Nat.pow_add]
        exact Nat.mul_le_mul_right _ hlarge
      have := (Nat.le_log2 hpos).mpr hlower
      omega

/-- A magnitude rounds to itself. -/
theorem nearest?_units (m : Magnitude) : nearest? m.units 1 = some m := by
  rw [nearest?, Nat.div_one, log2_units_sub, Nat.one_mul]
  have hpow : 0 < Nat.pow 2 m.scale := Nat.pow_pos (by decide)
  rw [units, roundToEven_mul_self hpow, normalize?_eq_some_self]

/-- A quotient that is a magnitude rounds to it. -/
theorem nearest?_of_eq {num den : Nat} (hden : 0 < den) {m : Magnitude}
    (h : num = den * m.units) : nearest? num den = some m := by
  rw [h, ← nearest?_units m, ← nearest?_mul hden m.units 1, Nat.mul_one]

/-- A quotient is rounded to a multiple of the power of two at which it has 53 bits. -/
theorem two_pow_dvd_units {num den : Nat} {m : Magnitude} (h : nearest? num den = some m) :
    2 ^ ((num / den).log2 - 52) ∣ m.units := by
  unfold nearest? normalize? at h
  dsimp only at h
  split at h
  · split at h
    · rw [← Option.some.inj h]
      exact Nat.dvd_mul_left _ _
    · cases h
  · split at h
    · rw [← Option.some.inj h]
      exact Nat.dvd_mul_left_of_dvd (Nat.pow_dvd_pow 2 (Nat.le_succ _)) _
    · cases h

/-- A multiple of a power of two is rounded to one. -/
theorem two_pow_dvd_units_of_mul {k p : Nat} {m : Magnitude}
    (h : nearest? (k * Nat.pow 2 p) 1 = some m) : Nat.pow 2 p ∣ m.units := by
  rw [Nat.pow_eq] at h ⊢
  have hunits := two_pow_dvd_units h
  rw [Nat.div_one] at hunits
  rcases Nat.le_total p ((k * 2 ^ p).log2 - 52) with hscale | hscale
  · exact Nat.dvd_trans (Nat.pow_dvd_pow 2 hscale) hunits
  · rw [nearest?, Nat.div_one] at h
    generalize hs : (k * 2 ^ p).log2 - 52 = scale at h hscale
    have hexact : k * 2 ^ p = k * 2 ^ (p - scale) * 2 ^ scale := by
      rw [Nat.mul_assoc, ← Nat.pow_add, Nat.sub_add_cancel hscale]
    have hlt : k * 2 ^ (p - scale) < 9007199254740992 := by
      have hlog : k * 2 ^ p < 2 ^ (53 + scale) :=
        Nat.lt_of_lt_of_le Nat.lt_log2_self (Nat.pow_le_pow_right (by decide) (by omega))
      rw [hexact, Nat.pow_add] at hlog
      exact Nat.lt_of_mul_lt_mul_right hlog
    rw [Nat.one_mul, hexact, Nat.pow_eq, roundToEven_mul_self (Nat.two_pow_pos scale), normalize?,
      dif_pos hlt] at h
    split at h
    · rw [← Option.some.inj h]
      exact ⟨k, hexact.symm.trans (Nat.mul_comm _ _)⟩
    · cases h

theorem units_inj {m m' : Magnitude} : m.units = m'.units ↔ m = m' := by
  refine ⟨fun h => ?_, fun h => h ▸ rfl⟩
  have hm := nearest?_units m
  rw [h, nearest?_units] at hm
  exact (Option.some.inj hm).symm

theorem units_eq_zero_iff {m : Magnitude} : m.units = 0 ↔ m.mantissa = 0 := by
  have hpow : Nat.pow 2 m.scale ≠ 0 := Nat.pos_iff_ne_zero.mp (Nat.two_pow_pos m.scale)
  rw [units, Nat.mul_eq_zero, or_iff_left hpow]

theorem eq_zero_iff {m : Magnitude} : m = zero ↔ m.mantissa = 0 := by
  rw [← units_inj, ← units_eq_zero_iff]
  rfl

end Magnitude

namespace Binary64

/-! ## Places -/

theorem Place.order_eq_iff {p q : Place} : p.order q = .eq ↔ p = q := by
  obtain ⟨side, units⟩ := p
  obtain ⟨side', units'⟩ := q
  simp [Place.order, Ordering.then_eq_eq]

theorem Place.order_swap (p q : Place) : (p.order q).swap = q.order p := by
  rw [Place.order, Ordering.swap_then, Place.order, ← Std.OrientedCmp.eq_swap,
    ← Std.OrientedCmp.eq_swap]

theorem signed_eq_iff {s t : Bool} {a b : Nat} :
    signed s a = signed t b ↔ a = b ∧ (s = t ∨ a = 0) := by
  cases s <;> cases t <;> simp [signed] <;> omega

theorem natAbs_signed (s : Bool) (n : Nat) : (signed s n).natAbs = n := by
  cases s <;> simp [signed]

theorem signed_natAbs (n : Int) : signed (decide (n < 0)) n.natAbs = n := by
  rcases Decidable.em (n < 0) with hn | hn
  · rw [signed, decide_eq_true hn, if_pos rfl, Int.ofNat_natAbs_of_nonpos (by omega), Int.neg_neg]
  · rw [signed, decide_eq_false hn, if_neg Bool.false_ne_true, Int.natAbs_of_nonneg (by omega)]

theorem signed_mul (s : Bool) (n k : Nat) : signed s (n * k) = signed s n * k := by
  cases s with
  | false => exact Int.natCast_mul n k
  | true => exact (congrArg Neg.neg (Int.natCast_mul n k)).trans (Int.neg_mul _ _).symm

/-- The units of a whole number, whichever its sign. -/
theorem units_eq_of_signed {s : Bool} {units one : Nat} {n : Int}
    (h : signed s units = n * one) : units = n.natAbs * one := by
  have habs := congrArg Int.natAbs h
  rwa [natAbs_signed, Int.natAbs_mul, Int.natAbs_natCast] at habs

theorem isZero_finite {s : Bool} {m : Magnitude} : (finite s m).isZero = true ↔ m.units = 0 := by
  rw [Magnitude.units_eq_zero_iff, isZero, decide_eq_true_iff]

theorem place?_eq_none_iff {x : Binary64} : x.place? = none ↔ x = nan := by
  cases x <;> simp [place?]

/-- Numbers have one place if they are equal, or zeros of different signs. -/
theorem place?_eq_iff {x y : Binary64} :
    x.place? = y.place? ↔ x = y ∨ x.isZero = true ∧ y.isZero = true := by
  cases x with
  | nan => cases y <;> simp [place?, isZero]
  | infinite s =>
    cases y with
    | nan => simp [place?, isZero]
    | infinite t => cases s <;> cases t <;> simp [place?, isZero]
    | finite t m => cases s <;> simp [place?, isZero]
  | finite s m =>
    cases y with
    | nan => simp [place?, isZero]
    | infinite t => cases t <;> simp [place?, isZero]
    | finite t m' =>
      rw [isZero_finite, isZero_finite]
      simp only [place?, Option.some.injEq, Place.mk.injEq, true_and, finite.injEq,
        ← Magnitude.units_inj]
      rw [signed_eq_iff]
      constructor
      · rintro ⟨hunits, rfl | hzero⟩
        · exact .inl ⟨rfl, hunits⟩
        · exact .inr ⟨hzero, hunits ▸ hzero⟩
      · rintro (⟨rfl, hunits⟩ | ⟨hm, hm'⟩)
        · exact ⟨hunits, .inl rfl⟩
        · exact ⟨hm.trans hm'.symm, .inr hm⟩

/-! ## Whole numbers -/

theorem round_eq_finite {negative : Bool} {num den : Nat} {m : Magnitude}
    (h : Magnitude.nearest? num den = some m) : round negative num den = finite negative m := by
  unfold round
  rw [h]

/-- A float is equal to a whole number if it is at its place. -/
theorem whole?_eq_some_iff {x : Binary64} {n : Int} :
    x.whole? = some n ↔ x.place? = some (.ofInt n) := by
  cases x with
  | nan => simp [whole?, place?]
  | infinite s =>
    refine iff_of_false nofun fun h => ?_
    have hside := congrArg Place.side (Option.some.inj h)
    simp only [Place.ofInt] at hside
    cases s <;> simp at hside
  | finite s m =>
    have hone := Magnitude.one_pos
    simp only [whole?, place?, Place.ofInt, Option.some.injEq, Place.mk.injEq, true_and]
    generalize Magnitude.one = one at hone ⊢
    constructor
    · intro h
      split at h
      · rename_i hdvd
        have hunits : m.units = m.units / one * one :=
          (Nat.div_mul_cancel (Nat.dvd_of_mod_eq_zero hdvd)).symm
        rw [← Option.some.inj h, hunits]
        rw [Nat.mul_div_cancel _ hone, signed_mul]
      · simp at h
    · intro h
      have hunits : m.units = n.natAbs * one := units_eq_of_signed h
      rw [hunits] at h ⊢
      rw [Nat.mul_mod_left, if_pos rfl, Nat.mul_div_cancel _ hone, Option.some.injEq]
      have hone' : (one : Int) ≠ 0 := by omega
      refine Int.eq_of_mul_eq_mul_right hone' ?_
      rw [← h, signed_mul]

/-- A whole number that some float is equal to is equal to the float nearest to it. -/
theorem whole?_ofInt {x : Binary64} {n : Int} (h : x.whole? = some n) :
    (ofInt n).whole? = some n := by
  cases x with
  | nan => simp [whole?] at h
  | infinite s => simp [whole?] at h
  | finite s m =>
    rw [whole?_eq_some_iff] at h ⊢
    simp only [place?, Place.ofInt, Option.some.injEq, Place.mk.injEq, true_and] at h
    have hunits : m.units = n.natAbs * Magnitude.one := units_eq_of_signed h
    rw [ofInt, round_eq_finite (hunits ▸ Magnitude.nearest?_units m), place?, Place.ofInt, hunits,
      signed_mul, signed_natAbs]

end Binary64

end Relational
