import Relational.Ordered.Map

/-!
# Searching sorted maps

Whoever asks a map about many keys first makes a balanced tree of its keys, which answers each
question in a few steps. The tree has the keys of the map in their order (`keys_ofKeys`), and it
answers as the map does (`contains_searchTree`).
-/

namespace Relational

open Std

/-- Keys in a tree: those on the left of a key come before it, those on its right behind it. -/
inductive SearchTree (κ : Type) where
  | leaf
  | node (left : SearchTree κ) (key : κ) (right : SearchTree κ)

namespace SearchTree

variable {κ : Type}

/-- The keys from left to right. -/
def keys : SearchTree κ → List κ
  | leaf => []
  | node left key right => left.keys ++ key :: right.keys

/-- Whether a key is in the tree. -/
def contains [Ord κ] (k : κ) : SearchTree κ → Bool
  | leaf => false
  | node left key right =>
    match compare k key with
    | .lt => left.contains k
    | .eq => true
    | .gt => right.contains k

/-- A tree of so many levels of the first keys of a list, and the keys that it has no room for. -/
def take : Nat → List κ → SearchTree κ × List κ
  | 0, l => (leaf, l)
  | levels + 1, l =>
    match take levels l with
    | (left, []) => (left, [])
    | (left, key :: rest) =>
      let (right, rest) := take levels rest
      (node left key right, rest)

/-- The tree of all keys of a list. -/
def ofKeys (l : List κ) : SearchTree κ :=
  (take (l.length.log2 + 1) l).1

theorem keys_take (levels : Nat) (l : List κ) :
    (take levels l).1.keys ++ (take levels l).2 = l := by
  induction levels generalizing l with
  | zero => rfl
  | succ levels ih =>
    have hl := ih l
    rw [take]
    split
    · rename_i left h
      simpa [h] using hl
    · rename_i left key rest h
      rw [h] at hl
      rw [keys, List.append_assoc, List.cons_append, ih rest]
      exact hl

theorem length_take (levels : Nat) (l : List κ) :
    (take levels l).2.length = l.length - (Nat.pow 2 levels - 1) := by
  induction levels generalizing l with
  | zero => simp [take]
  | succ levels ih =>
    have hl := ih l
    have hp : 0 < Nat.pow 2 levels := Nat.pow_pos (by decide)
    have hs : Nat.pow 2 (levels + 1) = Nat.pow 2 levels * 2 := rfl
    rw [take]
    split
    · rename_i left h
      rw [h] at hl
      simp only [List.length_nil] at hl ⊢
      omega
    · rename_i left key rest h
      rw [h] at hl
      simp only [List.length_cons] at hl
      simp only [ih rest]
      omega

theorem keys_ofKeys (l : List κ) : (ofKeys l).keys = l := by
  have h : (take (l.length.log2 + 1) l).2 = [] := by
    rw [← List.length_eq_zero_iff, length_take]
    have : l.length < Nat.pow 2 (l.length.log2 + 1) := Nat.lt_log2_self
    omega
  have hk := keys_take (l.length.log2 + 1) l
  rwa [h, List.append_nil] at hk

theorem contains_eq_any [Ord κ] [TransOrd κ] {t : SearchTree κ}
    (h : t.keys.Pairwise fun a b => compare a b = .lt) (k : κ) :
    t.contains k = t.keys.any fun j => compare k j == .eq := by
  induction t with
  | leaf => rfl
  | node left key right ihl ihr =>
    obtain ⟨hl, hkr, hc⟩ := List.pairwise_append.mp h
    obtain ⟨hk, hr⟩ := List.pairwise_cons.mp hkr
    rw [contains, keys, List.any_append, List.any_cons]
    split
    · rename_i hlt
      have hn : right.keys.any (fun j => compare k j == .eq) = false :=
        List.any_eq_false.mpr fun j hj => by simp [TransCmp.lt_trans hlt (hk j hj)]
      rw [ihl hl, hn, hlt]
      simp
    · rename_i heq
      simp [heq]
    · rename_i hgt
      have hn : left.keys.any (fun j => compare k j == .eq) = false := by
        refine List.any_eq_false.mpr fun j hj => ?_
        have := TransCmp.lt_trans (hc j hj key List.mem_cons_self) (OrientedCmp.lt_of_gt hgt)
        simp [OrientedCmp.gt_of_lt this]
      rw [ihr hr, hn, hgt]
      simp

end SearchTree

namespace SortedMap

variable {κ α β : Type} [Ord κ]

/-- The keys of a map in a tree. -/
def searchTree (m : SortedMap κ α) : SearchTree κ :=
  .ofKeys m.keys

theorem isSome_find? [TransOrd κ] {l : List (κ × α)}
    (hl : l.Pairwise fun a b => compare a.1 b.1 = .lt) (k : κ) :
    (find? k l).isSome = l.any fun e => compare k e.1 == .eq := by
  induction l with
  | nil => rfl
  | cons d l ih =>
    obtain ⟨hd, hl'⟩ := List.pairwise_cons.mp hl
    rw [find?, List.any_cons]
    split
    · rename_i hlt
      have hn : l.any (fun e => compare k e.1 == .eq) = false :=
        List.any_eq_false.mpr fun e he => by simp [TransCmp.lt_trans hlt (hd e he)]
      rw [hn, hlt]
      rfl
    · rename_i heq
      simp [heq]
    · rename_i hgt
      rw [ih hl', hgt]
      simp

theorem contains_searchTree [TransOrd κ] (m : SortedMap κ α) (k : κ) :
    m.searchTree.contains k = m.contains k := by
  have hk : m.searchTree.keys = m.keys := SearchTree.keys_ofKeys _
  have ha : m.keys.Pairwise fun a b => compare a b = .lt := m.ascending.map _ fun _ _ h => h
  rw [SearchTree.contains_eq_any (hk ▸ ha), hk, contains, get?, isSome_find? m.ascending, keys,
    List.any_map]
  rfl

/-- Keeps the entries whose keys another map has. -/
def restrict (m : SortedMap κ α) (m' : SortedMap κ β) : SortedMap κ α :=
  let tree := m'.searchTree
  m.filter fun k _ => tree.contains k

/-- Keeps the entries whose keys another map does not have. -/
def without (m : SortedMap κ α) (m' : SortedMap κ β) : SortedMap κ α :=
  let tree := m'.searchTree
  m.filter fun k _ => !tree.contains k

theorem restrict_eq_filter [TransOrd κ] (m : SortedMap κ α) (m' : SortedMap κ β) :
    m.restrict m' = m.filter fun k _ => m'.contains k := by
  simp only [restrict, contains_searchTree]

theorem without_eq_filter [TransOrd κ] (m : SortedMap κ α) (m' : SortedMap κ β) :
    m.without m' = m.filter fun k _ => !m'.contains k := by
  simp only [without, contains_searchTree]

end SortedMap

end Relational
