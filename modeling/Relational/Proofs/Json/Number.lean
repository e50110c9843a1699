import Relational.Proofs.Json.Document
import Relational.Proofs.Number.Shortest

/-!
# Numbers in JSON

What is written for a whole number or a float is a number of JSON (`isWritten_ofInteger`,
`isWritten_ofFloat`): no zero stands before other digits, digits stand on both sides of a point, and
behind an exponent. A whole number reads back (`integer?_ofInteger`, `nat?_ofNat`). What becomes of a
float is another matter: one that is not finite is written as a null.
-/

namespace Relational.Json

/-! ## Whole parts -/

theorem digitChar_ne_zero : ∀ d < 10, d ≠ 0 → Nat.digitChar d ≠ '0' := by decide

/-- The digits of a number begin with a zero only if that is all. -/
theorem head?_toDigits_ne {n : Nat} (h : n ≠ 0) : (Nat.toDigits 10 n).head? ≠ some '0' := by
  induction n using Nat.strongRecOn with
  | ind n ih =>
    rcases Nat.lt_or_ge n 10 with hn | hn
    · rw [Nat.toDigits_of_lt_base hn, List.head?_cons]
      exact fun he => digitChar_ne_zero n hn h (Option.some.inj he)
    · rw [Nat.toDigits_of_base_le (by decide) hn, List.head?_append,
        Option.or_of_isSome (List.isSome_head?.mpr Nat.toDigits_ne_nil)]
      exact ih (n / 10) (by omega) (by omega)

theorem isWhole_toDigits (n : Nat) : isWhole (Nat.toDigits 10 n) = true := by
  rw [isWhole, Integer.isDigits_toDigits, Bool.true_and, Bool.or_eq_true, bne_iff_ne, beq_iff_eq]
  rcases Decidable.em (n = 0) with rfl | hn
  · exact .inr rfl
  · exact .inl (head?_toDigits_ne hn)

/-! ## Numbers -/

/-- What can stand behind the whole part of a number. -/
def isTail : List Char → Bool
  | '.' :: s => !(s.takeWhile Char.isDigit).isEmpty && isExponent (s.dropWhile Char.isDigit)
  | s => isExponent s

/-- The text does not begin with a digit. -/
def EndsDigits (s : List Char) : Prop :=
  ∀ c ∈ s.head?, c.isDigit = false

variable {whole fraction tail s : List Char}

theorem span_whole (h : ∀ c ∈ whole, c.isDigit = true) (hends : EndsDigits tail) :
    (whole ++ tail).takeWhile Char.isDigit = whole ∧
      (whole ++ tail).dropWhile Char.isDigit = tail := by
  rw [List.takeWhile_append_of_pos h, List.dropWhile_append_of_pos h]
  cases tail with
  | nil => simp
  | cons c tail =>
    have hc := hends c rfl
    rw [List.takeWhile_cons_of_neg (by simp [hc]), List.dropWhile_cons_of_neg (by simp [hc])]
    simp

theorem isDigit_of_isWhole (h : isWhole whole = true) : ∀ c ∈ whole, c.isDigit = true := by
  rw [isWhole, Bool.and_eq_true, Integer.isDigits, Bool.and_eq_true] at h
  exact List.all_eq_true.mp h.1.2

theorem eq_cons_of_isWhole (h : isWhole whole = true) :
    ∃ c s, whole = c :: s ∧ c.isDigit = true := by
  cases whole with
  | nil => simp [isWhole, Integer.isDigits] at h
  | cons c s => exact ⟨c, s, rfl, isDigit_of_isWhole h c List.mem_cons_self⟩

/-- A text is what can be read as a number: with a minus at most in front of the whole part. -/
def IsUnsigned (s : List Char) : Prop :=
  ∃ whole tail, s = whole ++ tail ∧ isWhole whole = true ∧ EndsDigits tail ∧ isTail tail = true ∧
    ∀ c ∈ tail, isAtomChar c = true

/-- A text that does not begin with a minus is a number if it is one behind a minus. -/
theorem isNumber_cons {c : Char} (hc : c ≠ '-') (h : isNumber ('-' :: c :: s) = true) :
    isNumber (c :: s) = true := by
  unfold isNumber at h ⊢
  dsimp only at h ⊢
  split
  · rename_i he
    exact absurd (List.cons.inj he).1 hc
  · exact h

theorem isNumber_of_isUnsigned (h : IsUnsigned s) :
    isNumber s = true ∧ isNumber ('-' :: s) = true := by
  obtain ⟨whole, tail, rfl, hwhole, hends, htail, -⟩ := h
  obtain ⟨htake, hdrop⟩ := span_whole (isDigit_of_isWhole hwhole) hends
  have hsigned : isNumber ('-' :: (whole ++ tail)) = true := by
    simp only [isNumber, htake, hdrop, hwhole, Bool.true_and]
    exact htail
  refine ⟨?_, hsigned⟩
  obtain ⟨c, s, rfl, hc⟩ := eq_cons_of_isWhole hwhole
  refine isNumber_cons ?_ hsigned
  rintro rfl
  exact absurd hc (by decide)

theorem isAtomChar_of_isDigit {c : Char} (h : c.isDigit = true) : isAtomChar c = true := by
  simp [isAtomChar, Char.isAlphanum, h]

theorem IsUnsigned.atoms (h : IsUnsigned s) : ∀ c ∈ s, isAtomChar c = true := by
  obtain ⟨whole, tail, rfl, hwhole, -, -, htail⟩ := h
  intro c hc
  exact (List.mem_append.mp hc).elim
    (fun hc => isAtomChar_of_isDigit (isDigit_of_isWhole hwhole c hc)) (htail c)

/-- A number is no word. -/
theorem atom?_of_isNumber {c : Char} (hc : c.isAlpha = false) (h : isNumber (c :: s) = true) :
    atom? (c :: s) = some (number (c :: s)) := by
  have hne {word : String} {d : Char} {rest : List Char} (hword : word.toList = d :: rest)
      (hd : d.isAlpha = true) : c :: s ≠ word.toList := by
    rw [hword]
    rintro he
    rw [(List.cons.inj he).1, hd] at hc
    simp at hc
  rw [atom?, if_neg (hne rfl (by decide)), if_neg (hne rfl (by decide)),
    if_neg (hne rfl (by decide)), if_pos h]

theorem isAlpha_of_isDigit {c : Char} (h : c.isDigit = true) : c.isAlpha = false := by
  have hle : c.toNat ≤ 57 := (Char.isDigit_iff_toNat.mp h).2
  have hval : c.toNat = c.val.toNat := rfl
  have hA : 'A'.val.toNat = 65 := rfl
  have ha : 'a'.val.toNat = 97 := rfl
  delta Char.isAlpha Char.isUpper Char.isLower
  simp only [Bool.or_eq_false_iff, Bool.and_eq_false_iff, decide_eq_false_iff_not, ge_iff_le,
    UInt32.le_iff_toNat_le]
  omega

theorem IsUnsigned.isWritten (h : IsUnsigned s) (negative : Bool) :
    (number (if negative then '-' :: s else s)).IsWritten := by
  obtain ⟨hplain, hsigned⟩ := isNumber_of_isUnsigned h
  cases negative with
  | true =>
    refine .number (List.forall_mem_cons.mpr ⟨by decide, h.atoms⟩) ?_
    exact atom?_of_isNumber (by decide) hsigned
  | false =>
    have hatoms := h.atoms
    obtain ⟨whole, tail, rfl, hwhole, -⟩ := h
    obtain ⟨c, t, rfl, hc⟩ := eq_cons_of_isWhole hwhole
    exact .number hatoms (atom?_of_isNumber (isAlpha_of_isDigit hc) hplain)

/-! ## Whole numbers -/

theorem isUnsigned_toDigits (n : Nat) : IsUnsigned (Nat.toDigits 10 n) :=
  ⟨_, [], (List.append_nil _).symm, isWhole_toDigits n, by simp [EndsDigits], rfl, by simp⟩

theorem isWritten_ofNat (n : Nat) : (ofNat n).IsWritten :=
  (isUnsigned_toDigits n).isWritten false

theorem isWritten_ofInteger (n : Integer) : (ofInteger n).IsWritten := by
  have h := (isUnsigned_toDigits n.val.natAbs).isWritten (decide (n.val < 0))
  simp only [decide_eq_true_eq] at h
  exact h

theorem int?_signedDigits (n : Int) : (number (Integer.signedDigits n)).int? = some n := by
  have hzero : Integer.signedDigits n ≠ ['-', '0'] := by
    unfold Integer.signedDigits Integer.digits
    split
    · intro h
      have hn : n.natAbs ≠ 0 := by omega
      exact head?_toDigits_ne hn (by rw [(List.cons.inj h).2]; rfl)
    · intro h
      have hc := Decimal.isDigit_toDigits (h ▸ List.mem_cons_self : '-' ∈ Nat.toDigits 10 n.natAbs)
      exact absurd hc (by decide)
  rw [int?, if_neg hzero, Integer.readInt?_signedDigits]

@[simp] theorem integer?_ofInteger (n : Integer) : (ofInteger n).integer? = some n := by
  rw [integer?, ofInteger, Integer.toText, int?_signedDigits, Option.bind_some, Integer.ofInt?_val]

theorem nat?_of_int? {json : Json} {n : Int} (h : json.int? = some n)
    (hfits : 0 ≤ n ∧ n < 18446744073709551616) : json.nat? = some n.toNat := by
  have hread : json.nat? = json.int?.bind fun n =>
      if 0 ≤ n ∧ n < 18446744073709551616 then some n.toNat else none := rfl
  rw [hread, h, Option.bind_some, if_pos hfits]

theorem nat?_ofNat {n : Nat} (h : n < 18446744073709551616) : (ofNat n).nat? = some n := by
  have hdigits : Integer.digits n = Integer.signedDigits n := by
    rw [Integer.signedDigits, if_neg (by omega), Int.natAbs_natCast]
  rw [ofNat, hdigits, nat?_of_int? (int?_signedDigits n) (by omega), Int.toNat_natCast]

/-! ## Floats -/

/-- Only zero is written with the digit zero, and without an exponent. -/
theorem digits_shortest_ne_zero (tie : Tie) (m : Magnitude) :
    (m.shortest tie).digits ≠ 0 ∨ (m.shortest tie).exponent = 0 := by
  rcases Decidable.em (m.mantissa = 0) with hm | hm
  · exact .inr (by rw [Magnitude.shortest, if_pos hm])
  · refine .inl fun hdigits => hm ?_
    have hread := Magnitude.magnitude?_shortest tie m
    have hzero : m.shortest tie = ⟨0, (m.shortest tie).exponent⟩ := by rw [← hdigits]
    rw [hzero, Decimal.magnitude?_zero] at hread
    exact Magnitude.eq_zero_iff.mp (Option.some.inj hread).symm

theorem isTail_point (hne : fraction ≠ []) (h : ∀ c ∈ fraction, c.isDigit = true)
    (hends : EndsDigits s) (hs : isExponent s = true) : isTail ('.' :: (fraction ++ s)) = true := by
  obtain ⟨htake, hdrop⟩ := span_whole h hends
  simp only [isTail, htake, hdrop, hs, Bool.and_true]
  simpa using hne

theorem isUnsigned_point (hwhole : isWhole whole = true) (hne : fraction ≠ [])
    (h : ∀ c ∈ fraction, c.isDigit = true) : IsUnsigned (whole ++ '.' :: fraction) := by
  have htail := isTail_point (s := []) hne h (by simp [EndsDigits]) rfl
  rw [List.append_nil] at htail
  refine ⟨whole, '.' :: fraction, rfl, hwhole, ?_, htail, ?_⟩
  · intro c hc
    rw [← Option.some.inj hc]
    decide
  · exact List.forall_mem_cons.mpr ⟨by decide, fun c hc => isAtomChar_of_isDigit (h c hc)⟩

theorem isWhole_of_head? (hne : whole ≠ []) (h : ∀ c ∈ whole, c.isDigit = true)
    (hhead : whole.head? ≠ some '0') : isWhole whole = true := by
  rw [isWhole, Integer.isDigits_of_forall hne h, Bool.true_and, Bool.or_eq_true, bne_iff_ne]
  exact .inl hhead

/-- A decimal without an exponent is a number. -/
theorem isUnsigned_plain {d : Decimal} (h : d.digits ≠ 0 ∨ d.exponent = 0) :
    IsUnsigned (d.plain true) := by
  by_cases he : 0 ≤ d.exponent
  · have hne : Nat.toDigits 10 d.digits ≠ [] := Nat.toDigits_ne_nil
    rw [Decimal.plain, if_pos he, if_pos rfl]
    refine isUnsigned_point ?_ (by simp) (List.forall_mem_singleton.mpr (by decide))
    rcases h with h | h
    · refine isWhole_of_head? (by simp [hne]) (fun c hc => ?_) ?_
      · exact (List.mem_append.mp hc).elim Decimal.isDigit_toDigits Decimal.isDigit_replicate
      · rw [List.head?_append, Option.or_of_isSome (List.isSome_head?.mpr hne)]
        exact head?_toDigits_ne h
    · rw [h]
      simpa using isWhole_toDigits d.digits
  · obtain ⟨whole, fraction, htext, hsides⟩ := Decimal.exists_sides (Int.not_le.mp he) true
    have hdigits : d.digits ≠ 0 := h.resolve_right (by omega)
    have hfraction : fraction ≠ [] := by
      rw [ne_eq, ← List.length_eq_zero_iff, hsides.length]
      omega
    rw [htext]
    refine isUnsigned_point ?_ hfraction hsides.fraction_digits
    rcases hsides.head with rfl | hhead
    · rfl
    · refine isWhole_of_head? hsides.whole_ne_nil hsides.whole_digits ?_
      rw [hhead]
      exact head?_toDigits_ne hdigits

/-- A decimal with an exponent is a number. -/
theorem isUnsigned_scientific (d : Decimal) : IsUnsigned d.scientific := by
  obtain ⟨sign, hsign⟩ : ∃ sign, sign = if d.leading < 0 then '-' else '+' := ⟨_, rfl⟩
  obtain ⟨c, s, hs⟩ : ∃ c s, Nat.toDigits 10 d.digits = c :: s :=
    List.exists_cons_of_ne_nil Nat.toDigits_ne_nil
  have hall : ∀ a ∈ c :: s, a.isDigit = true := by
    rw [← hs]
    exact fun _ => Decimal.isDigit_toDigits
  obtain ⟨hc, hdigits⟩ := List.forall_mem_cons.mp hall
  have hwhole : isWhole [c] = true := by simp [isWhole, Integer.isDigits, hc]
  have hexponent : isExponent ('e' :: sign :: Nat.toDigits 10 d.leading.natAbs) = true := by
    rw [hsign]
    split <;> exact Integer.isDigits_toDigits _
  have hends : EndsDigits ('e' :: sign :: Nat.toDigits 10 d.leading.natAbs) := by
    simp [EndsDigits]
  have hatoms : ∀ c ∈ 'e' :: sign :: Nat.toDigits 10 d.leading.natAbs, isAtomChar c = true := by
    refine List.forall_mem_cons.mpr ⟨by decide, List.forall_mem_cons.mpr ⟨?_, ?_⟩⟩
    · rw [hsign]
      split <;> decide
    · exact fun c hc => isAtomChar_of_isDigit (Decimal.isDigit_toDigits hc)
  cases s with
  | nil =>
    refine ⟨[c], _, ?_, hwhole, hends, hexponent, hatoms⟩
    rw [Decimal.scientific, hs, hsign]
  | cons c' s =>
    refine ⟨[c], '.' :: (c' :: s ++ 'e' :: sign :: Nat.toDigits 10 d.leading.natAbs), ?_, hwhole,
      by simp [EndsDigits], isTail_point (by simp) hdigits hends hexponent, ?_⟩
    · rw [Decimal.scientific, hs, hsign]
      rfl
    · refine List.forall_mem_cons.mpr ⟨by decide, fun a ha => ?_⟩
      exact (List.mem_append.mp ha).elim (fun ha => isAtomChar_of_isDigit (hdigits a ha)) (hatoms a)

/-- A number or a null, as it is written for a float. -/
theorem isWritten_ofFloat (x : Binary64) : (ofFloat x).IsWritten := by
  cases x with
  | nan => exact .null
  | infinite negative => exact .null
  | finite negative m =>
    have h : IsUnsigned (floatFormat.magnitude m) := by
      unfold FloatFormat.magnitude
      dsimp only
      split
      · exact isUnsigned_plain (digits_shortest_ne_zero _ m)
      · exact isUnsigned_scientific _
    exact h.isWritten negative

end Relational.Json
