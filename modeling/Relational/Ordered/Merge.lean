import Relational.Ordered.Map

/-!
# Merging sorted maps

Two maps are gone through once, side by side: the entries of the second that come before an entry of
the first are passed over, and what is left either begins with its key or does not have it
(`startsWith_dropWhile`).

* `mem_merge`, `ascending_merge`: which entries a merged list has, and that it is ascending;
* `get?_union`: a union holds what the second map holds, or else what the first holds.
-/

namespace Relational

open Std

namespace SortedMap

variable {κ α : Type} [Ord κ]

/-- Whether an entry comes before a key. -/
def isBelow (k : κ) (e : κ × α) : Bool :=
  compare e.1 k == .lt

/-- Whether the first entry has a key. -/
def startsWith (k : κ) : List (κ × α) → Bool
  | [] => false
  | e :: _ => compare k e.1 == .eq

/-- The entries of two ascending lists in one; of two with one key, that of the second stays. -/
def merge : List (κ × α) → List (κ × α) → List (κ × α)
  | [], r => r
  | e :: l, r =>
    let after := r.dropWhile (isBelow e.1)
    let rest := merge l after
    r.takeWhile (isBelow e.1) ++ if startsWith e.1 after then rest else e :: rest

/-! ## Passing over entries -/

theorem find?_dropWhile [TransOrd κ] {j k : κ} (h : (compare j k).isLE) (r : List (κ × α)) :
    find? k (r.dropWhile (isBelow j)) = find? k r := by
  induction r with
  | nil => rfl
  | cons d r ih =>
    rw [List.dropWhile_cons]
    split
    · rename_i hd
      have hlt : compare d.1 k = .lt :=
        TransCmp.lt_of_lt_of_isLE (by simpa [isBelow] using hd) h
      rw [ih, find?, OrientedCmp.gt_of_lt hlt]
    · rfl

theorem startsWith_dropWhile [TransOrd κ] (k : κ) (r : List (κ × α)) :
    startsWith k (r.dropWhile (isBelow k)) = (find? k r).isSome := by
  induction r with
  | nil => rfl
  | cons d r ih =>
    rw [List.dropWhile_cons, find?]
    split
    · rename_i hd
      have hlt : compare d.1 k = .lt := by simpa [isBelow] using hd
      rw [ih, OrientedCmp.gt_of_lt hlt]
    · rename_i hd
      rw [startsWith]
      split
      · rename_i h
        simp [h]
      · rename_i h
        simp [h]
      · rename_i h
        exact absurd (OrientedCmp.lt_of_gt h) (by simpa [isBelow] using hd)

/-! ## Unions -/

theorem mem_merge [TransOrd κ] {l : List (κ × α)}
    (hl : l.Pairwise fun a b => compare a.1 b.1 = .lt) {r : List (κ × α)} {e : κ × α} :
    e ∈ merge l r ↔ e ∈ r ∨ e ∈ l ∧ find? e.1 r = none := by
  induction l generalizing r with
  | nil => simp [merge]
  | cons d l ih =>
    obtain ⟨hd, hl'⟩ := List.pairwise_cons.mp hl
    have hr : e ∈ r ↔ e ∈ r.takeWhile (isBelow d.1) ∨ e ∈ r.dropWhile (isBelow d.1) := by
      rw [← List.mem_append, List.takeWhile_append_dropWhile]
    have hrest : e ∈ merge l (r.dropWhile (isBelow d.1)) ↔
        e ∈ r.dropWhile (isBelow d.1) ∨ e ∈ l ∧ find? e.1 r = none := by
      rw [ih hl']
      refine or_congr_right (and_congr_right fun he => ?_)
      rw [find?_dropWhile (by simp [hd e he])]
    have hkey : startsWith d.1 (r.dropWhile (isBelow d.1)) = true ↔ find? d.1 r ≠ none := by
      rw [startsWith_dropWhile, Option.isSome_iff_ne_none]
    simp only [merge, List.mem_append, List.mem_cons]
    split
    · rename_i h
      rw [hrest, hr, or_assoc]
      refine or_congr_right <| or_congr_right
        ⟨fun h' => ⟨.inr h'.1, h'.2⟩, fun h' => ⟨?_, h'.2⟩⟩
      rcases h'.1 with rfl | h''
      · exact absurd h'.2 (hkey.mp h)
      · exact h''
    · rename_i h
      have hn : find? d.1 r = none := Decidable.not_not.mp fun hn => h (hkey.mpr hn)
      rw [List.mem_cons, hrest, hr]
      constructor
      · rintro (h1 | rfl | h1 | h1)
        · exact .inl (.inl h1)
        · exact .inr ⟨.inl rfl, hn⟩
        · exact .inl (.inr h1)
        · exact .inr ⟨.inr h1.1, h1.2⟩
      · rintro ((h1 | h1) | ⟨rfl | h1, h2⟩)
        · exact .inl h1
        · exact .inr (.inr (.inl h1))
        · exact .inr (.inl rfl)
        · exact .inr (.inr (.inr ⟨h1, h2⟩))

theorem isLE_of_mem_dropWhile [TransOrd κ] {k : κ} {r : List (κ × α)}
    (hr : r.Pairwise fun a b => compare a.1 b.1 = .lt) {e : κ × α}
    (he : e ∈ r.dropWhile (isBelow k)) : (compare k e.1).isLE := by
  induction r with
  | nil => simp at he
  | cons d r ih =>
    obtain ⟨hd, hr'⟩ := List.pairwise_cons.mp hr
    rw [List.dropWhile_cons] at he
    split at he
    · exact ih hr' he
    · rename_i h
      have hk : (compare k d.1).isLE := Ordering.isLE_iff_ne_gt.mpr fun hg =>
        h (by simp [isBelow, OrientedCmp.lt_of_gt hg])
      rcases List.mem_cons.mp he with rfl | he
      · exact hk
      · exact TransCmp.isLE_trans hk (by simp [hd e he])

theorem lt_of_mem_dropWhile [TransOrd κ] {k : κ} {r : List (κ × α)}
    (hr : r.Pairwise fun a b => compare a.1 b.1 = .lt)
    (hk : startsWith k (r.dropWhile (isBelow k)) ≠ true) {e : κ × α}
    (he : e ∈ r.dropWhile (isBelow k)) : compare k e.1 = .lt := by
  have hs := hr.sublist (List.dropWhile_sublist (isBelow k))
  have hle : ∀ d ∈ r.dropWhile (isBelow k), (compare k d.1).isLE :=
    fun _ => isLE_of_mem_dropWhile hr
  generalize r.dropWhile (isBelow k) = after at hs hle hk he
  cases after with
  | nil => simp at he
  | cons d after =>
    have hd : compare k d.1 = .lt :=
      (Ordering.isLE_iff_eq_lt_or_eq_eq.mp (hle d List.mem_cons_self)).resolve_right fun h =>
        hk (by simp [startsWith, h])
    rcases List.mem_cons.mp he with rfl | he
    · exact hd
    · exact TransCmp.lt_trans hd ((List.pairwise_cons.mp hs).1 e he)

theorem ascending_merge [TransOrd κ] {l r : List (κ × α)}
    (hl : l.Pairwise fun a b => compare a.1 b.1 = .lt)
    (hr : r.Pairwise fun a b => compare a.1 b.1 = .lt) :
    (merge l r).Pairwise fun a b => compare a.1 b.1 = .lt := by
  induction l generalizing r with
  | nil => exact hr
  | cons d l ih =>
    obtain ⟨hd, hl'⟩ := List.pairwise_cons.mp hl
    have hrest := ih hl' (hr.sublist (List.dropWhile_sublist (isBelow d.1)))
    have hle : ∀ e ∈ merge l (r.dropWhile (isBelow d.1)), (compare d.1 e.1).isLE := by
      intro e he
      rcases (mem_merge hl').mp he with he | ⟨he, -⟩
      · exact isLE_of_mem_dropWhile hr he
      · simp [hd e he]
    simp only [merge]
    refine List.pairwise_append.mpr
      ⟨hr.sublist (List.takeWhile_sublist _), ?_, fun a ha b hb => ?_⟩
    · split
      · exact hrest
      · rename_i h
        refine .cons (fun e he => ?_) hrest
        rcases (mem_merge hl').mp he with he | ⟨he, -⟩
        · exact lt_of_mem_dropWhile hr h he
        · exact hd e he
    · have had : compare a.1 d.1 = .lt := by
        simpa [isBelow] using List.all_eq_true.mp List.all_takeWhile a ha
      refine TransCmp.lt_of_lt_of_isLE had ?_
      split at hb
      · exact hle b hb
      · rcases List.mem_cons.mp hb with rfl | hb
        · simp
        · exact hle b hb

/-- The entries of both maps; of two with one key, that of the second. -/
def union [TransOrd κ] (m m' : SortedMap κ α) : SortedMap κ α :=
  ⟨merge m.entries m'.entries, ascending_merge m.ascending m'.ascending⟩

theorem get?_union [TransOrd κ] [LawfulEqOrd κ] (m m' : SortedMap κ α) (k : κ) :
    (m.union m').get? k = (m'.get? k).or (m.get? k) := by
  apply Option.ext
  intro v
  rw [← mem_entries_iff, union, mem_merge m.ascending, mem_entries_iff, mem_entries_iff,
    Option.or_eq_some_iff, and_comm]
  rfl

/-- The map with one entry. -/
def single (k : κ) (v : α) : SortedMap κ α := ⟨[(k, v)], List.pairwise_singleton ..⟩

/-- The map of a list of entries; of two with one key, the later stays. -/
def ofList [TransOrd κ] (l : List (κ × α)) : SortedMap κ α :=
  l.foldr (fun e m => (single e.1 e.2).union m) empty

end SortedMap

end Relational
