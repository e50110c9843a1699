/-!
# Ranges of code points

A character property is a list of closed ranges of code points, ascending and apart, so that a look
up stops at the first range that begins past the code point.
-/

namespace Relational.CodeRange

/-- Whether `n` lies in one of the ascending ranges. -/
def contains : List (Nat × Nat) → Nat → Bool
  | [], _ => false
  | (first, last) :: ranges, n => if n < first then false else n ≤ last || contains ranges n

/-- A code point found lies in one of the ranges. -/
theorem exists_of_contains {ranges : List (Nat × Nat)} {n : Nat} (h : contains ranges n = true) :
    ∃ r ∈ ranges, r.1 ≤ n ∧ n ≤ r.2 := by
  induction ranges with
  | nil => simp [contains] at h
  | cons r ranges ih =>
    obtain ⟨first, last⟩ := r
    unfold contains at h
    split at h
    · exact absurd h (by decide)
    · rename_i hf
      rcases (Bool.or_eq_true _ _).mp h with hl | hr
      · exact ⟨_, List.mem_cons_self, by omega, by simpa using hl⟩
      · obtain ⟨r, hr, hle⟩ := ih hr
        exact ⟨r, List.mem_cons_of_mem _ hr, hle⟩

end Relational.CodeRange
