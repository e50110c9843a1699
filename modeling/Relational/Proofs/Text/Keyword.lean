import Relational.Proofs.Text.Blank
import Relational.Text.Keyword

/-!
# Keywords

What it takes for a text to spell a keyword (`Text.spells`): a pattern reads more characters as the
letters of a keyword than there are in ASCII, but no blank (`Text.sameLetter_of_isBlank`) and no mark of
punctuation. A word that is a keyword but for the case of ASCII letters spells it
(`Text.spells_of_sameWord`).
-/

namespace Relational.Text

variable {letter c : Char} {word s : List Char}

/-! ## Capitals -/

theorem isUpper_iff : c.isUpper = true ↔ 65 ≤ c.toNat ∧ c.toNat ≤ 90 := by
  delta Char.isUpper
  rw [decide_eq_true_eq, ge_iff_le, UInt32.le_iff_toNat_le, UInt32.le_iff_toNat_le]
  rfl

theorem toNat_toLower (c : Char) :
    c.toLower.toNat = if 65 ≤ c.toNat ∧ c.toNat ≤ 90 then c.toNat + 32 else c.toNat := by
  delta Char.toLower
  split
  · rename_i h
    have hc : 65 ≤ c.toNat ∧ c.toNat ≤ 90 := h
    rw [if_pos hc]
    change (c.val + 32).toNat = c.val.toNat + 32
    rw [UInt32.toNat_add]
    change (c.toNat + 32) % 2 ^ 32 = c.toNat + 32
    omega
  · rename_i h
    have hc : ¬(65 ≤ c.toNat ∧ c.toNat ≤ 90) := h
    rw [if_neg hc]

theorem toNat_toUpper (c : Char) :
    c.toUpper.toNat = if 97 ≤ c.toNat ∧ c.toNat ≤ 122 then c.toNat - 32 else c.toNat := by
  delta Char.toUpper
  split
  · rename_i h
    have hc : 97 ≤ c.toNat ∧ c.toNat ≤ 122 := h
    rw [if_pos hc]
    -- `2 ^ 32 - 32`, the difference of the letters as a number of 32 bits
    change (c.val + 4294967264).toNat = c.val.toNat - 32
    rw [UInt32.toNat_add]
    change (c.toNat + 4294967264) % 2 ^ 32 = c.toNat - 32
    omega
  · rename_i h
    have hc : ¬(97 ≤ c.toNat ∧ c.toNat ≤ 122) := h
    rw [if_neg hc]

/-- Characters that are the same in small letters are the same in capitals. -/
theorem toUpper_eq_of_toLower_eq (hletter : letter.isUpper = true)
    (h : letter.toLower = c.toLower) : c.toUpper = letter := by
  have hnat := congrArg Char.toNat h
  rw [isUpper_iff] at hletter
  rw [toNat_toLower, toNat_toLower] at hnat
  rw [← Char.toNat_inj, toNat_toUpper]
  grind

theorem isAlpha_of_isUpper_toUpper (h : c.toUpper.isUpper = true) : c.isAlpha = true := by
  delta Char.isAlpha
  rw [Bool.or_eq_true]
  cases hlower : c.isLower with
  | true => exact .inr rfl
  | false =>
    have hc : c.toUpper = c := by
      delta Char.isLower at hlower
      delta Char.toUpper
      rw [dif_neg]
      simpa using hlower
    exact .inl (by rwa [hc] at h)

/-! ## Letters of keywords -/

theorem isFoldedLetter_of_sameLetter (hletter : letter.isUpper = true)
    (h : sameLetter letter c = true) : isFoldedLetter c = true := by
  simp only [sameLetter, Bool.or_eq_true, Bool.and_eq_true, beq_iff_eq] at h
  simp only [isFoldedLetter, Bool.or_eq_true, beq_iff_eq]
  rcases h with (h | ⟨-, h⟩) | ⟨-, h⟩
  · exact .inl (.inl (isAlpha_of_isUpper_toUpper (h ▸ hletter)))
  · exact .inl (.inr h)
  · exact .inr h

/-- A name may begin with a letter. -/
theorem isNameStart_of_isFoldedLetter (h : isFoldedLetter c = true) : isNameStart c = true := by
  have hletters : ∀ n ∈ List.range' 65 26 ++ List.range' 97 26, isNameStart (Char.ofNat n) = true := by
    decide
  simp only [isFoldedLetter, Bool.or_eq_true, beq_iff_eq] at h
  rcases h with (h | rfl) | rfl
  · delta Char.isAlpha Char.isLower at h
    rw [Bool.or_eq_true, isUpper_iff, Bool.and_eq_true, decide_eq_true_eq, decide_eq_true_eq] at h
    have hc := hletters c.toNat (by
      rw [List.mem_append, List.mem_range'_1, List.mem_range'_1]
      exact h.imp (And.imp_right Nat.lt_succ_of_le) (And.imp_right Nat.lt_succ_of_le))
    rwa [Char.ofNat_toNat] at hc
  · decide
  · decide +kernel

/-- No blank is a letter of a keyword. -/
theorem sameLetter_of_isBlank (hletter : letter.isUpper = true) (hc : isBlank c = true) :
    sameLetter letter c = false := by
  cases h : sameLetter letter c with
  | false => rfl
  | true =>
    have hblank := isBlank_eq_false_of (p := isFoldedLetter) (by decide)
      (isFoldedLetter_of_sameLetter hletter h)
    rw [hc] at hblank
    cases hblank

theorem sameLetter_self (hletter : letter.isUpper = true) : sameLetter letter letter = true := by
  simp [sameLetter, toUpper_eq_of_toLower_eq hletter rfl]

/-- The capital that a character stands for. -/
theorem eq_of_sameLetter (hletter : letter.isUpper = true) (h : sameLetter letter c = true) :
    letter = if c = '\u017f' then 'S' else if c = '\u212a' then 'K' else c.toUpper := by
  simp only [sameLetter, Bool.or_eq_true, Bool.and_eq_true, beq_iff_eq] at h
  rcases h with (rfl | ⟨rfl, rfl⟩) | ⟨rfl, rfl⟩
  · have hlong : c ≠ '\u017f' := by
      rintro rfl
      exact absurd hletter (by decide)
    have hkelvin : c ≠ '\u212a' := by
      rintro rfl
      exact absurd hletter (by decide)
    rw [if_neg hlong, if_neg hkelvin]
  · rfl
  · rfl

/-- A character stands for no other capital. -/
theorem sameLetter_eq_false_of_ne {other : Char} (hletter : letter.isUpper = true)
    (hother : other.isUpper = true) (hne : other ≠ letter) (h : sameLetter letter c = true) :
    sameLetter other c = false := by
  cases hsame : sameLetter other c with
  | false => rfl
  | true => exact absurd ((eq_of_sameLetter hother hsame).trans (eq_of_sameLetter hletter h).symm) hne

/-! ## Spelling -/

/-- Whether a text spells a keyword, as patterns read it. -/
def spells : List Char → List Char → Bool
  | [], [] => true
  | letter :: word, c :: s => sameLetter letter c && spells word s
  | _, _ => false

theorem exists_cons_of_spells (h : spells (letter :: word) s = true) :
    ∃ c t, s = c :: t ∧ sameLetter letter c = true ∧ spells word t = true := by
  cases s with
  | nil => cases h
  | cons c t =>
    rw [spells, Bool.and_eq_true] at h
    exact ⟨c, t, rfl, h.1, h.2⟩

/-- A text that spells a keyword has no other characters than letters. -/
theorem isFoldedLetter_of_spells (hword : ∀ letter ∈ word, letter.isUpper = true)
    (h : spells word s = true) : ∀ c ∈ s, isFoldedLetter c = true := by
  induction word generalizing s with
  | nil =>
    cases s with
    | nil => simp
    | cons c s => cases h
  | cons letter word ih =>
    obtain ⟨hletter, hword⟩ := List.forall_mem_cons.mp hword
    cases s with
    | nil => cases h
    | cons c s =>
      rw [spells, Bool.and_eq_true] at h
      exact List.forall_mem_cons.mpr ⟨isFoldedLetter_of_sameLetter hletter h.1, ih hword h.2⟩

theorem spells_eq_false_of_mem (hword : ∀ letter ∈ word, letter.isUpper = true) (hmem : c ∈ s)
    (hc : isFoldedLetter c = false) : spells word s = false := by
  cases h : spells word s with
  | false => rfl
  | true =>
    have hfolded := isFoldedLetter_of_spells hword h c hmem
    rw [hc] at hfolded
    cases hfolded

theorem spells_of_sameWord (hword : ∀ letter ∈ word, letter.isUpper = true)
    (h : sameWord word s = true) : spells word s = true := by
  rw [sameWord, beq_iff_eq] at h
  induction word generalizing s with
  | nil =>
    rw [List.map_nil, eq_comm, List.map_eq_nil_iff] at h
    rw [h]
    rfl
  | cons letter word ih =>
    obtain ⟨hletter, hword⟩ := List.forall_mem_cons.mp hword
    cases s with
    | nil => cases h
    | cons c s =>
      obtain ⟨hc, hs⟩ := List.cons.inj h
      have hsame : sameLetter letter c = true := by
        simp [sameLetter, toUpper_eq_of_toLower_eq hletter hc]
      rw [spells, hsame, ih hword hs, Bool.true_and]

end Relational.Text
