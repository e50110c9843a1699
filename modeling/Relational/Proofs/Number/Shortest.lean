import Relational.Proofs.Number.Digits
import Relational.Proofs.Number.Rounding
import Relational.Value

/-!
# Shortest decimals read back

The decimal that writes a magnitude is read as this magnitude (`Magnitude.magnitude?_shortest`),
whichever of the candidates is taken. Written without an exponent it is a text of digits with a
point at most, which reads as the same quotient (`Decimal.readMantissa?_plain`); so the text of a
float reads back to the float (`Value.ofText?_floatText`), and no two floats have one text.
-/

namespace Relational

namespace Decimal

theorem den_pos (d : Decimal) : 0 < d.den := Nat.pow_pos (by decide)

/-- The magnitude of a decimal is that of its quotient. -/
theorem magnitude?_congr {d d' : Decimal} {k : Nat} (hk : 0 < k) (hnum : d.num = k * d'.num)
    (hden : d.den = k * d'.den) : d.magnitude? = d'.magnitude? := by
  rw [magnitude?, hnum, hden, Magnitude.nearest?_mul hk, magnitude?]

theorem magnitude?_zero (e : Int) : (⟨0, e⟩ : Decimal).magnitude? = some .zero := by
  refine Magnitude.nearest?_of_eq (den_pos _) ?_
  rw [num, Nat.zero_mul, Nat.zero_mul, Magnitude.units_eq_zero_iff.mpr rfl, Nat.mul_zero]

/-- A zero at the end of the digits is worth the same in the exponent. -/
theorem magnitude?_shift (n : Nat) (e : Int) :
    (⟨10 * n, e⟩ : Decimal).magnitude? = (⟨n, e + 1⟩ : Decimal).magnitude? := by
  rcases Decidable.em (e < 0) with he | he
  · refine magnitude?_congr (k := 10) (by decide) ?_ ?_
    · have h : e.toNat = 0 := by omega
      have h' : (e + 1).toNat = 0 := by omega
      simp only [num, h, h', Nat.mul_assoc]
    · have h : (-e).toNat = (-(e + 1)).toNat + 1 := by omega
      simp only [den, h, Nat.pow_eq, Nat.pow_succ, Nat.mul_comm]
  · refine magnitude?_congr (k := 1) (by decide) ?_ ?_
    · have h : (e + 1).toNat = e.toNat + 1 := by omega
      simp only [num, h, Nat.pow_eq, Nat.pow_succ, Nat.one_mul]
      rw [Nat.mul_comm 10 n, Nat.mul_assoc n, Nat.mul_comm 10]
    · have h : (-e).toNat = 0 := by omega
      have h' : (-(e + 1)).toNat = 0 := by omega
      simp only [den, h, h', Nat.one_mul]

theorem magnitude?_dropZeros (fuel : Nat) (d : Decimal) :
    (dropZeros fuel d).magnitude? = d.magnitude? := by
  induction fuel generalizing d with
  | zero => rfl
  | succ fuel ih =>
    rw [dropZeros]
    split
    · rename_i h
      have hd : 10 * (d.digits / 10) = d.digits := by omega
      rw [ih, ← magnitude?_shift, hd]
    · rfl

theorem magnitude?_strip (d : Decimal) : d.strip.magnitude? = d.magnitude? := by
  rw [strip]
  split
  · rename_i h
    obtain ⟨digits, e⟩ := d
    obtain rfl : digits = 0 := h
    rw [magnitude?_zero, magnitude?_zero]
  · exact magnitude?_dropZeros _ d

end Decimal

namespace Magnitude

theorem magnitude?_of_digits {d : Decimal} {m : Magnitude} {f : Nat}
    (hdigits : d.digits = m.units * f) (hexponent : d.exponent.toNat = 0)
    (hden : d.den = f * one) : d.magnitude? = some m := by
  refine nearest?_of_eq d.den_pos ?_
  rw [Decimal.num, hdigits, hexponent, hden, show Nat.pow 10 0 = 1 from rfl, Nat.mul_one,
    Nat.mul_assoc, Nat.mul_comm]

theorem den_exact (m : Magnitude) : m.exact.den = Nat.pow 5 1074 * one := by
  have hexponent : (-m.exact.exponent).toNat = 1074 := rfl
  rw [Decimal.den, hexponent]
  decide +kernel

theorem magnitude?_exact (m : Magnitude) : m.exact.magnitude? = some m :=
  magnitude?_of_digits rfl rfl (den_exact m)

theorem magnitude?_pick? {m : Magnitude} {takesAbove : Bool} {below above d : Decimal}
    (h : m.pick? takesAbove below above = some d) : d.magnitude? = some m := by
  unfold pick? at h
  split at h
  · rename_i hbelow
    split at h
    · rename_i habove
      exact Option.some.inj h ▸ habove.2
    · exact Option.some.inj h ▸ hbelow
  · split at h
    · rename_i habove
      exact Option.some.inj h ▸ habove
    · simp at h

/-- The decimal that writes a magnitude is read as this magnitude. -/
theorem magnitude?_shortest (tie : Tie) (m : Magnitude) :
    (m.shortest tie).magnitude? = some m := by
  unfold shortest
  split
  · rename_i h
    rw [Decimal.magnitude?_zero, eq_zero_iff.mpr h]
  · rw [Decimal.magnitude?_strip]
    cases hfound : (List.range 17).findSome? fun i => m.candidate? tie (i + 1) with
    | none => exact magnitude?_exact m
    | some d =>
      obtain ⟨i, -, hi⟩ := List.exists_of_findSome?_eq_some hfound
      exact magnitude?_pick? hi

/-- A decimal without places is a whole number, so it rounds to one. -/
theorem one_dvd_units {d : Decimal} {m : Magnitude} (hexponent : 0 ≤ d.exponent)
    (h : d.magnitude? = some m) : one ∣ m.units := by
  have hzero : (-d.exponent).toNat = 0 := by omega
  obtain ⟨p, hone⟩ : ∃ p, one = Nat.pow 2 p := ⟨1074, by decide +kernel⟩
  rw [Decimal.magnitude?, Decimal.den, hzero, Decimal.num, hone] at h
  rw [hone]
  exact two_pow_dvd_units_of_mul h

end Magnitude

/-! ## Reading digits with a point -/

namespace Binary64

variable {whole fraction : List Char}

theorem span_digits (h : ∀ c ∈ whole, c.isDigit = true) :
    whole.takeWhile Char.isDigit = whole ∧ whole.dropWhile Char.isDigit = [] := by
  have htake : (whole ++ []).takeWhile Char.isDigit = whole ++ [] :=
    List.takeWhile_append_of_pos h
  have hdrop : (whole ++ []).dropWhile Char.isDigit = [] := List.dropWhile_append_of_pos h
  rw [List.append_nil] at htake hdrop
  exact ⟨htake, hdrop⟩

theorem spanMantissa_digits (h : ∀ c ∈ whole, c.isDigit = true) :
    spanMantissa whole = (whole, [], []) := by
  rw [spanMantissa, (span_digits h).2, (span_digits h).1]

theorem spanMantissa_point (h : ∀ c ∈ whole, c.isDigit = true)
    (h' : ∀ c ∈ fraction, c.isDigit = true) :
    spanMantissa (whole ++ '.' :: fraction) = (whole, fraction, []) := by
  have hdrop : (whole ++ '.' :: fraction).dropWhile Char.isDigit = '.' :: fraction := by
    rw [List.dropWhile_append_of_pos h, List.dropWhile_cons_of_neg (by decide)]
  have htake : (whole ++ '.' :: fraction).takeWhile Char.isDigit = whole := by
    rw [List.takeWhile_append_of_pos h, List.takeWhile_cons_of_neg (by decide), List.append_nil]
  rw [spanMantissa, hdrop, htake]
  simp only [span_digits h']

end Binary64

namespace Decimal

theorem isDigit_replicate {n : Nat} {c : Char} (h : c ∈ List.replicate n '0') :
    c.isDigit = true := by
  rw [(List.mem_replicate.mp h).2]
  decide

theorem plain_of_nonneg {d : Decimal} (h : 0 ≤ d.exponent) :
    d.plain false = Nat.toDigits 10 d.digits ++ List.replicate d.exponent.toNat '0' := by
  rw [plain, if_pos h, if_neg (by decide), List.append_nil]

/-- The two sides of the point of a decimal: digits, which are those of the decimal, and as many behind
the point as the decimal has places. -/
structure Sides (d : Decimal) (whole fraction : List Char) : Prop where
  whole_ne_nil : whole ≠ []
  whole_digits : ∀ c ∈ whole, c.isDigit = true
  fraction_digits : ∀ c ∈ fraction, c.isDigit = true
  length : fraction.length = (-d.exponent).toNat
  value : Nat.ofDigitChars 10 (whole ++ fraction) 0 = d.digits
  head : whole = ['0'] ∨ whole.head? = (Nat.toDigits 10 d.digits).head?

/-- A decimal with places is written with a point. -/
theorem exists_sides {d : Decimal} (h : d.exponent < 0) (showsPoint : Bool) :
    ∃ whole fraction, d.plain showsPoint = whole ++ '.' :: fraction ∧ d.Sides whole fraction := by
  obtain ⟨digits, e⟩ := d
  have hne : Nat.toDigits 10 digits ≠ [] := Nat.toDigits_ne_nil
  have hdigit {c : Char} (hc : c ∈ Nat.toDigits 10 digits) : c.isDigit = true := isDigit_toDigits hc
  unfold plain
  dsimp only at h ⊢
  rw [if_neg (Int.not_le.mpr h)]
  split
  · rename_i hplaces
    have htake : (Nat.toDigits 10 digits).length - (-e).toNat ≠ 0 := by omega
    refine ⟨_, _, rfl, ?_, fun c hc => hdigit (List.mem_of_mem_take hc),
      fun c hc => hdigit (List.mem_of_mem_drop hc), ?_, ?_, .inr ?_⟩
    · rw [ne_eq, List.take_eq_nil_iff]
      exact fun h => h.elim htake hne
    · rw [List.length_drop]
      dsimp only
      omega
    · simp [List.take_append_drop]
    · rw [List.head?_take, if_neg htake]
  · rename_i hplaces
    refine ⟨['0'], _, rfl, List.cons_ne_nil _ _, List.all_eq_true.mp (by decide), fun c hc => ?_, ?_,
      ?_, .inl rfl⟩
    · exact (List.mem_append.mp hc).elim isDigit_replicate hdigit
    · rw [List.length_append, List.length_replicate]
      dsimp only
      omega
    · simp [Nat.ofDigitChars_append, Nat.ofDigitChars_cons]

/-- A decimal without an exponent reads as the same quotient. -/
theorem readMantissa?_plain (d : Decimal) :
    Binary64.readMantissa? (d.plain false) =
      some (d.digits * Nat.pow 10 d.exponent.toNat, (-d.exponent).toNat, []) := by
  by_cases he : 0 ≤ d.exponent
  · have hne : Nat.toDigits 10 d.digits ≠ [] := Nat.toDigits_ne_nil
    have hdigits : ∀ c ∈ Nat.toDigits 10 d.digits ++ List.replicate d.exponent.toNat '0',
        c.isDigit = true := by
      intro c hc
      exact (List.mem_append.mp hc).elim isDigit_toDigits isDigit_replicate
    have hplaces : (-d.exponent).toNat = 0 := by omega
    rw [plain_of_nonneg he, Binary64.readMantissa?, Binary64.spanMantissa_digits hdigits]
    simp [hne, hplaces, Nat.ofDigitChars_append, Nat.mul_comm]
  · obtain ⟨whole, fraction, htext, hsides⟩ := exists_sides (Int.not_le.mp he) false
    have hempty : whole.isEmpty = false := List.isEmpty_eq_false_iff.mpr hsides.whole_ne_nil
    have hexponent : d.exponent.toNat = 0 := by omega
    rw [htext, Binary64.readMantissa?,
      Binary64.spanMantissa_point hsides.whole_digits hsides.fraction_digits]
    simp [hempty, hexponent, hsides.value, hsides.length]

theorem plain_eq_cons (d : Decimal) : ∃ c s, d.plain false = c :: s ∧ c.isDigit = true := by
  by_cases he : 0 ≤ d.exponent
  · obtain ⟨c, s, hs⟩ : ∃ c s, Nat.toDigits 10 d.digits = c :: s :=
      List.exists_cons_of_ne_nil Nat.toDigits_ne_nil
    exact ⟨c, _, by rw [plain_of_nonneg he, hs]; rfl, isDigit_toDigits (hs ▸ List.mem_cons_self)⟩
  · obtain ⟨whole, fraction, htext, hsides⟩ := exists_sides (Int.not_le.mp he) false
    obtain ⟨c, whole, rfl⟩ := List.exists_cons_of_ne_nil hsides.whole_ne_nil
    exact ⟨c, _, htext, hsides.whole_digits c List.mem_cons_self⟩

/-- A text is digits with a point between them. -/
def IsPointed (s : List Char) : Prop :=
  ∃ c whole fraction, s = c :: (whole ++ '.' :: fraction) ∧ (∀ d ∈ c :: whole, d.isDigit = true) ∧
    ∀ d ∈ fraction, d.isDigit = true

theorem isPointed_append {whole fraction : List Char} (hne : whole ≠ [])
    (hwhole : ∀ d ∈ whole, d.isDigit = true) (hfraction : ∀ d ∈ fraction, d.isDigit = true) :
    IsPointed (whole ++ '.' :: fraction) := by
  obtain ⟨c, whole, rfl⟩ := List.exists_cons_of_ne_nil hne
  exact ⟨c, whole, fraction, rfl, hwhole, hfraction⟩

/-- A decimal with places has digits on both sides of its point. -/
theorem isPointed_plain {d : Decimal} (h : d.exponent < 0) : IsPointed (d.plain false) := by
  obtain ⟨whole, fraction, htext, hsides⟩ := exists_sides h false
  rw [htext]
  exact isPointed_append hsides.whole_ne_nil hsides.whole_digits hsides.fraction_digits

end Decimal

/-! ## Texts of floats -/

namespace Binary64

theorem toLower_of_isDigit {c : Char} (h : c.isDigit = true) : c.toLower = c := by
  have hle : c.toNat ≤ '9'.toNat := (Char.isDigit_iff_toNat.mp h).2
  have hupper : ¬(c.val ≥ 'A'.val ∧ c.val ≤ 'Z'.val) := by
    rintro ⟨hA, -⟩
    have hA : 'A'.toNat ≤ c.toNat := hA
    exact absurd (Nat.le_trans hA hle) (by decide)
  delta Char.toLower
  exact dif_neg hupper

/-- A text that begins with a digit is read as digits with a point and an exponent at most. -/
theorem readMagnitude?_cons {negative : Bool} {c : Char} {s : List Char} (h : c.isDigit = true) :
    readMagnitude? negative (c :: s) = (do
      let (digits, places, rest) ← readMantissa? (c :: s)
      let exponent ← readExponent? rest
      some (ofDecimal negative digits (boundedExponent (c :: s).length exponent - places))) := by
  have hne {t : String} {d : Char} {u : List Char} (ht : t.toList = d :: u)
      (hd : d.isDigit = false) : String.ofList ((c :: s).map Char.toLower) ≠ t := by
    rintro rfl
    rw [String.toList_ofList, List.map_cons, toLower_of_isDigit h] at ht
    rw [← (List.cons.inj ht).1, h] at hd
    simp at hd
  unfold readMagnitude?
  split
  · rename_i heq
    exact absurd heq (hne rfl (by decide))
  · rename_i heq
    exact absurd heq (hne rfl (by decide))
  · rename_i heq
    exact absurd heq (hne rfl (by decide))
  · rfl

/-- A text that begins with a digit has no sign. -/
theorem ofText?_cons {c : Char} {s : List Char} (h : c.isDigit = true) :
    ofText? (c :: s) = readMagnitude? false (c :: s) := by
  rw [ofText?]
  · rintro t ⟨⟩
    cases h
  · rintro t ⟨⟩
    cases h

theorem readMagnitude?_plain {negative : Bool} {d : Decimal} {m : Magnitude}
    (h : d.magnitude? = some m) :
    readMagnitude? negative (d.plain false) = some (finite negative m) := by
  obtain ⟨c, s, hs, hc⟩ := d.plain_eq_cons
  have hread := d.readMantissa?_plain
  rw [hs] at hread ⊢
  rw [readMagnitude?_cons hc, hread]
  have hbound : boundedExponent (c :: s).length 0 = 0 := by
    rw [boundedExponent]
    omega
  have hround : ofDecimal negative (d.digits * Nat.pow 10 d.exponent.toNat)
      (0 - (-d.exponent).toNat) = finite negative m := by
    refine round_eq_finite ?_
    rw [← h, Decimal.magnitude?]
    have hzero : (0 - ((-d.exponent).toNat : Int)).toNat = 0 := by omega
    have hneg : (-(0 - ((-d.exponent).toNat : Int))).toNat = (-d.exponent).toNat := by omega
    rw [hzero, hneg, Decimal.num, Decimal.den, show Nat.pow 10 0 = 1 from rfl, Nat.mul_one]
  simp only [Option.bind_eq_bind, Option.bind_some, readExponent?, hbound, hround]

end Binary64

namespace Value

/-- The text of a float, without an exponent, reads back to the float. -/
theorem ofText?_floatText (x : Binary64) : Binary64.ofText? (floatText x) = some x := by
  cases x with
  | nan => decide
  | infinite s => cases s <;> decide
  | finite s m =>
    have hread (negative : Bool) : Binary64.readMagnitude? negative (floatFormat.magnitude m) =
        some (.finite negative m) :=
      Binary64.readMagnitude?_plain (Magnitude.magnitude?_shortest .up m)
    cases s with
    | true => exact hread true
    | false =>
      obtain ⟨c, t, ht, hc⟩ := (m.shortest .up).plain_eq_cons
      have hformat : floatFormat.magnitude m = c :: t := ht
      have htext : floatText (.finite false m) = c :: t := ht
      have hread := hread false
      rw [hformat] at hread
      rw [htext, Binary64.ofText?_cons hc, hread]

theorem floatText_inj {x y : Binary64} : floatText x = floatText y ↔ x = y := by
  refine ⟨fun h => ?_, fun h => h ▸ rfl⟩
  have hx := ofText?_floatText x
  rw [h, ofText?_floatText] at hx
  exact (Option.some.inj hx).symm

end Value

end Relational
