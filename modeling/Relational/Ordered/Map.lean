/-!
# Sorted maps

A map is the list of its entries in ascending order of their keys, each key once, so that equal maps
are equal lists (`ext`) and going through a map is going through a list.

* `get?_insert_self`, `get?_insert_of_ne`: what a key holds after a write;
* `get?_erase_self`, `get?_erase_of_ne`: what a key holds after a removal;
* `mem_entries_iff`: the entries are the keys that hold something;
* `ext`: maps that agree on every key are equal.
-/

namespace Relational

open Std

/-- Entries in ascending order of their keys, each key once. -/
structure SortedMap (κ : Type) (α : Type) [Ord κ] where
  entries : List (κ × α)
  ascending : entries.Pairwise fun a b => compare a.1 b.1 = .lt

namespace SortedMap

variable {κ α β : Type} [Ord κ]

instance [DecidableEq κ] [DecidableEq α] : DecidableEq (SortedMap κ α) := fun a b =>
  decidable_of_iff (a.entries = b.entries) <| by
    cases a; cases b; simp

/-- The map without entries. -/
def empty : SortedMap κ α := ⟨[], .nil⟩

instance : EmptyCollection (SortedMap κ α) := ⟨empty⟩

instance : Inhabited (SortedMap κ α) := ⟨empty⟩

/-- What an ascending list of entries holds under a key. -/
def find? (k : κ) : List (κ × α) → Option α
  | [] => none
  | (k', v) :: l =>
    match compare k k' with
    | .lt => none
    | .eq => some v
    | .gt => find? k l

/-- The value under a key. -/
def get? (m : SortedMap κ α) (k : κ) : Option α :=
  find? k m.entries

/-- Whether a key is present. -/
def contains (m : SortedMap κ α) (k : κ) : Bool :=
  (m.get? k).isSome

/-- The keys, in ascending order. -/
def keys (m : SortedMap κ α) : List κ :=
  m.entries.map (·.1)

/-- The values, in ascending order of their keys. -/
def values (m : SortedMap κ α) : List α :=
  m.entries.map (·.2)

/-- The number of entries. -/
def size (m : SortedMap κ α) : Nat :=
  m.entries.length

def isEmpty (m : SortedMap κ α) : Bool :=
  m.entries.isEmpty

/-- Writes an entry into an ascending list, in place of one with the same key. -/
def place (k : κ) (v : α) : List (κ × α) → List (κ × α)
  | [] => [(k, v)]
  | e :: l =>
    match compare k e.1 with
    | .lt => (k, v) :: e :: l
    | .eq => (k, v) :: l
    | .gt => e :: place k v l

theorem mem_of_mem_place {k : κ} {v : α} {e : κ × α} {l : List (κ × α)} (h : e ∈ place k v l) :
    e = (k, v) ∨ e ∈ l := by
  induction l with
  | nil => exact .inl (by simpa [place] using h)
  | cons d l ih =>
    unfold place at h
    split at h
    · exact (List.mem_cons.mp h).imp_right id
    · exact (List.mem_cons.mp h).imp_right (List.mem_cons_of_mem _)
    · rcases List.mem_cons.mp h with h | h
      · exact .inr (h ▸ List.mem_cons_self)
      · exact (ih h).imp_right (List.mem_cons_of_mem _)

theorem ascending_place [TransOrd κ] (k : κ) (v : α) {l : List (κ × α)}
    (h : l.Pairwise fun a b => compare a.1 b.1 = .lt) :
    (place k v l).Pairwise fun a b => compare a.1 b.1 = .lt := by
  induction l with
  | nil => simp [place]
  | cons d l ih =>
    obtain ⟨hd, hl⟩ := List.pairwise_cons.mp h
    unfold place
    split
    · rename_i hlt
      refine .cons (fun e he => ?_) h
      rcases List.mem_cons.mp he with rfl | he
      · exact hlt
      · exact TransCmp.lt_trans hlt (hd e he)
    · rename_i heq
      exact .cons (fun e he => TransCmp.lt_of_eq_of_lt heq (hd e he)) hl
    · rename_i hgt
      refine .cons (fun e he => ?_) (ih hl)
      rcases mem_of_mem_place he with rfl | he
      · exact OrientedCmp.lt_of_gt hgt
      · exact hd e he

/-- Puts a value under a key, in place of the one there. -/
def insert [TransOrd κ] (m : SortedMap κ α) (k : κ) (v : α) : SortedMap κ α :=
  ⟨place k v m.entries, ascending_place k v m.ascending⟩

/-- Keeps the entries that pass a test. -/
def filter (m : SortedMap κ α) (p : κ → α → Bool) : SortedMap κ α :=
  ⟨m.entries.filter fun e => p e.1 e.2, m.ascending.filter _⟩

/-- Takes a key away. -/
def erase (m : SortedMap κ α) (k : κ) : SortedMap κ α :=
  m.filter fun k' _ => compare k k' != .eq

/-- Replaces every value by a function of its key and itself. -/
def map (m : SortedMap κ α) (f : κ → α → β) : SortedMap κ β :=
  ⟨m.entries.map fun e => (e.1, f e.1 e.2), m.ascending.map _ fun _ _ h => h⟩

/-! ## Looking up -/

theorem find?_place_self [TransOrd κ] (k : κ) (v : α) (l : List (κ × α)) :
    find? k (place k v l) = some v := by
  induction l with
  | nil => simp [place, find?]
  | cons d l ih =>
    unfold place
    split
    · simp [find?]
    · simp [find?]
    · rename_i h
      simp [find?, h, ih]

theorem find?_place_of_ne [TransOrd κ] {k k' : κ} (h : compare k' k ≠ .eq) (v : α)
    (l : List (κ × α)) (hl : l.Pairwise fun a b => compare a.1 b.1 = .lt) :
    find? k' (place k v l) = find? k' l := by
  induction l with
  | nil =>
    simp only [place, find?]
    split <;> simp_all
  | cons d l ih =>
    obtain ⟨hd, hl'⟩ := List.pairwise_cons.mp hl
    unfold place
    split
    · rename_i hlt
      rw [find?]
      split
      · rename_i h1
        rw [find?, TransCmp.lt_trans h1 hlt]
      · rename_i h1
        exact absurd h1 h
      · rfl
    · rename_i heq
      rw [find?, find?]
      have hc : compare k' d.1 = compare k' k := (TransCmp.congr_right heq).symm
      rw [hc]
      split
      · rfl
      · rename_i h1
        exact absurd h1 h
      · rfl
    · rw [find?, find?]
      split
      · rfl
      · rfl
      · exact ih hl'

theorem get?_insert_self [TransOrd κ] (m : SortedMap κ α) (k : κ) (v : α) :
    (m.insert k v).get? k = some v :=
  find?_place_self k v m.entries

theorem get?_insert_of_ne [TransOrd κ] (m : SortedMap κ α) {k k' : κ} (h : compare k' k ≠ .eq)
    (v : α) : (m.insert k v).get? k' = m.get? k' :=
  find?_place_of_ne h v m.entries m.ascending

theorem get?_empty (k : κ) : (empty : SortedMap κ α).get? k = none := rfl

theorem find?_eq_some_iff [TransOrd κ] [LawfulEqOrd κ] {k : κ} {v : α} {l : List (κ × α)}
    (hl : l.Pairwise fun a b => compare a.1 b.1 = .lt) : find? k l = some v ↔ (k, v) ∈ l := by
  induction l with
  | nil => simp [find?]
  | cons d l ih =>
    obtain ⟨hd, hl'⟩ := List.pairwise_cons.mp hl
    obtain ⟨k', v'⟩ := d
    rw [find?, List.mem_cons]
    split
    · rename_i hlt
      refine ⟨nofun, fun h => ?_⟩
      rcases h with h | h
      · cases h
        simp at hlt
      · have h2 := TransCmp.lt_trans hlt (hd _ h)
        simp at h2
    · rename_i heq
      obtain rfl := LawfulEqCmp.eq_of_compare heq
      refine ⟨fun h => .inl (by simpa using h.symm), fun h => ?_⟩
      rcases h with h | h
      · simpa using h.symm
      · have h2 := hd _ h
        simp at h2
    · rename_i hgt
      rw [ih hl']
      refine ⟨.inr, fun h => ?_⟩
      rcases h with h | h
      · cases h
        simp at hgt
      · exact h

/-- The entries are the keys that hold something. -/
theorem mem_entries_iff [TransOrd κ] [LawfulEqOrd κ] {m : SortedMap κ α} {k : κ} {v : α} :
    (k, v) ∈ m.entries ↔ m.get? k = some v :=
  (find?_eq_some_iff m.ascending).symm

theorem eq_of_mem_iff [TransOrd κ] {l l' : List (κ × α)}
    (hl : l.Pairwise fun a b => compare a.1 b.1 = .lt)
    (hl' : l'.Pairwise fun a b => compare a.1 b.1 = .lt) (h : ∀ e, e ∈ l ↔ e ∈ l') : l = l' := by
  induction l generalizing l' with
  | nil =>
    cases l' with
    | nil => rfl
    | cons d l' => exact absurd ((h d).mpr List.mem_cons_self) List.not_mem_nil
  | cons d l ih =>
    obtain ⟨hd, hl₂⟩ := List.pairwise_cons.mp hl
    cases l' with
    | nil => exact absurd ((h d).mp List.mem_cons_self) List.not_mem_nil
    | cons d' l' =>
      obtain ⟨hd', hl₂'⟩ := List.pairwise_cons.mp hl'
      have hdd : d = d' := by
        rcases List.mem_cons.mp ((h d).mp List.mem_cons_self) with e | m
        · exact e
        · rcases List.mem_cons.mp ((h d').mpr List.mem_cons_self) with e | m'
          · exact e.symm
          · have := TransCmp.lt_trans (hd' d m) (hd d' m')
            simp at this
      subst hdd
      rw [ih hl₂ hl₂' fun e => ?_]
      constructor
      · intro he
        rcases List.mem_cons.mp ((h e).mp (List.mem_cons_of_mem _ he)) with rfl | m
        · have := hd e he
          simp at this
        · exact m
      · intro he
        rcases List.mem_cons.mp ((h e).mpr (List.mem_cons_of_mem _ he)) with rfl | m
        · have := hd' e he
          simp at this
        · exact m

/-- Maps that agree on every key are equal. -/
theorem ext [TransOrd κ] [LawfulEqOrd κ] {m m' : SortedMap κ α} (h : ∀ k, m.get? k = m'.get? k) :
    m = m' := by
  have he : m.entries = m'.entries := eq_of_mem_iff m.ascending m'.ascending fun ⟨k, v⟩ => by
    rw [mem_entries_iff, mem_entries_iff, h]
  cases m; cases m'; simp_all

theorem mem_entries_filter {m : SortedMap κ α} {p : κ → α → Bool} {e : κ × α} :
    e ∈ (m.filter p).entries ↔ e ∈ m.entries ∧ p e.1 e.2 = true :=
  List.mem_filter

theorem get?_erase_self [TransOrd κ] [LawfulEqOrd κ] (m : SortedMap κ α) (k : κ) :
    (m.erase k).get? k = none := by
  cases h : (m.erase k).get? k with
  | none => rfl
  | some v =>
    have := (mem_entries_filter.mp (mem_entries_iff.mpr h)).2
    simp at this

theorem get?_erase_of_ne [TransOrd κ] [LawfulEqOrd κ] (m : SortedMap κ α) {k k' : κ}
    (h : k' ≠ k) : (m.erase k).get? k' = m.get? k' := by
  apply Option.ext
  intro v
  rw [← mem_entries_iff, ← mem_entries_iff, erase, mem_entries_filter]
  refine ⟨fun h => h.1, fun hm => ⟨hm, ?_⟩⟩
  simpa using Ne.symm h

end SortedMap

end Relational
