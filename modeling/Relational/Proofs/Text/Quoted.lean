import Mathlib.Algebra.Ring.Parity
import Relational.Text.Quoted

/-!
# Texts that close their quotes

A text can be passed over by whoever counts quotes if it closes those that it opens
(`Text.isClosed`). A quoted text does, whatever stands in it (`Text.isClosed_quote`): a quote that is
written twice closes and opens again.
-/

namespace Relational.Text

variable {p : Char → Bool} {quoted : Bool} {s t : List Char}

/-- Whether a text closes its quotes and has only characters of a class outside of them; `quoted`
tells whether quotes are open in front of it. -/
def isClosed (p : Char → Bool) (quoted : Bool) : List Char → Bool
  | [] => !quoted
  | c :: s =>
    if c = '\'' then isClosed p (!quoted) s else (quoted || p c) && isClosed p quoted s

theorem isClosed_append (hs : isClosed p quoted s = true) (ht : isClosed p false t = true) :
    isClosed p quoted (s ++ t) = true := by
  induction s generalizing quoted with
  | nil =>
    obtain rfl : quoted = false := by simpa [isClosed] using hs
    exact ht
  | cons c s ih =>
    rw [List.cons_append, isClosed]
    rw [isClosed] at hs
    split
    · rename_i hc
      rw [if_pos hc] at hs
      exact ih hs
    · rename_i hc
      rw [if_neg hc, Bool.and_eq_true] at hs
      rw [hs.1, ih hs.2, Bool.true_and]

theorem isClosed_doubleQuotes (s t : List Char) :
    isClosed p true (doubleQuotes s ++ t) = isClosed p true t := by
  induction s with
  | nil => rfl
  | cons c s ih =>
    rw [doubleQuotes]
    split
    · exact ih
    · rename_i hc
      rw [List.cons_append, isClosed, if_neg hc, ih, Bool.true_or, Bool.true_and]

theorem isClosed_quote (s : List Char) : isClosed p false (quote s) = true :=
  isClosed_doubleQuotes s ['\'']

theorem isClosed_of_forall (hp : ∀ c ∈ s, p c = true) (hs : '\'' ∉ s) :
    isClosed p false s = true := by
  induction s with
  | nil => rfl
  | cons c s ih =>
    obtain ⟨hc, hp⟩ := List.forall_mem_cons.mp hp
    rw [List.mem_cons, not_or] at hs
    rw [isClosed, if_neg (Ne.symm hs.1), hc, ih hp hs.2]
    rfl

/-- The quotes of a text that closes them are even in number, but for the one in front of it. -/
theorem odd_count_iff_of_isClosed (h : isClosed p quoted s = true) :
    Odd (s.count '\'') ↔ quoted = true := by
  induction s generalizing quoted with
  | nil => simpa [isClosed] using h
  | cons c s ih =>
    rw [isClosed] at h
    by_cases hc : c = '\''
    · rw [if_pos hc] at h
      rw [hc, List.count_cons_self, Nat.odd_add_one, ih h]
      simp
    · rw [if_neg hc, Bool.and_eq_true] at h
      rw [List.count_cons_of_ne hc, ih h.2]

end Relational.Text
