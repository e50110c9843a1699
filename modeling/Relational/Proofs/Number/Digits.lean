import Relational.Number.Integer

/-!
# Digits

The text of a whole number reads back (`Integer.ofText?_toText`): its digits are digits and stand for the
number. A text in which there is anything else than digits, but for a sign in front of them, is no
whole number (`Integer.readInt?_eq_none`).
-/

namespace Relational

theorem Decimal.isDigit_toDigits {n : Nat} {c : Char} (h : c ∈ Nat.toDigits 10 n) :
    c.isDigit = true :=
  Nat.isDigit_of_mem_toDigits (by decide) (by decide) h

namespace Integer

variable {c : Char} {s : List Char}

theorem isDigits_of_forall (hne : s ≠ []) (h : ∀ c ∈ s, c.isDigit = true) : isDigits s = true := by
  rw [isDigits, Bool.and_eq_true, List.all_eq_true]
  exact ⟨by simpa using hne, h⟩

theorem isDigits_toDigits (n : Nat) : isDigits (Nat.toDigits 10 n) = true :=
  isDigits_of_forall Nat.toDigits_ne_nil fun _ => Decimal.isDigit_toDigits

theorem ofDigits?_toDigits (n : Nat) : ofDigits? (Nat.toDigits 10 n) = some n := by
  rw [ofDigits?, if_pos (isDigits_toDigits n), Nat.ofDigitChars_ten_toDigits]

theorem ofDigits?_eq_none (hmem : c ∈ s) (hc : c.isDigit = false) : ofDigits? s = none := by
  refine if_neg fun h => ?_
  rw [isDigits, Bool.and_eq_true, List.all_eq_true] at h
  rw [h.2 c hmem] at hc
  cases hc

/-- A text that begins with a digit has no sign. -/
theorem readInt?_cons (hc : c.isDigit = true) :
    readInt? (c :: s) = (ofDigits? (c :: s)).map fun n : Nat => (n : Int) := by
  rw [readInt?]
  · cases ofDigits? (c :: s) <;> rfl
  · rintro t ⟨⟩
    cases hc
  · rintro t ⟨⟩
    cases hc

theorem readInt?_toDigits (n : Nat) : readInt? (Nat.toDigits 10 n) = some (n : Int) := by
  have hread := ofDigits?_toDigits n
  obtain ⟨c, s, hs⟩ := List.exists_cons_of_ne_nil (Nat.toDigits_ne_nil (b := 10) (n := n))
  have hc : c.isDigit = true := Decimal.isDigit_toDigits (hs ▸ List.mem_cons_self)
  rw [hs] at hread ⊢
  rw [readInt?_cons hc, hread, Option.map_some]

theorem readInt?_signedDigits (n : Int) : readInt? (signedDigits n) = some n := by
  unfold signedDigits
  split
  · have hn : -(n.natAbs : Int) = n := by omega
    rw [readInt?, digits, ofDigits?_toDigits]
    exact congrArg some hn
  · have hn : (n.natAbs : Int) = n := by omega
    rw [digits, readInt?_toDigits, hn]

/-- The text of a whole number reads back. -/
theorem ofText?_toText (n : Integer) : ofText? n.toText = some n := by
  rw [ofText?, toText, readInt?_signedDigits, Option.bind_some, ofInt?_val]

/-- What is no digit can stand only in front of a whole number. -/
theorem readInt?_eq_none {d : Char} (hmem : d ∈ s) (hd : d.isDigit = false) :
    readInt? (c :: s) = none := by
  have hnone := ofDigits?_eq_none hmem hd
  unfold readInt?
  split
  · rename_i heq
    rw [← (List.cons.inj heq).2, hnone]
    rfl
  · rename_i heq
    rw [← (List.cons.inj heq).2, hnone]
    rfl
  · rw [ofDigits?_eq_none (List.mem_cons_of_mem c hmem) hd]
    rfl

end Integer

end Relational
