import Relational.Ordered.Search
import Relational.Ordered.Set

/-!
# Looking up in sorted maps

What a key holds in a map that was made from others, one equation for each way of making it:
`get?_filter`, `get?_map`, `get?_insert`, `get?_erase`, `get?_restrict`, `get?_without`,
`get?_ofList`. Proofs about maps go by these and by `SortedMap.ext`, and do not look at the list of
entries.
-/

namespace Relational.SortedMap

open Std

variable {κ α β : Type} [Ord κ]

theorem contains_iff {m : SortedMap κ α} {k : κ} : m.contains k = true ↔ ∃ v, m.get? k = some v :=
  Option.isSome_iff_exists

theorem contains_eq_false_iff {m : SortedMap κ α} {k : κ} :
    m.contains k = false ↔ m.get? k = none := by
  simp [contains]

theorem contains_of_get? {m : SortedMap κ α} {k : κ} {v : α} (h : m.get? k = some v) :
    m.contains k = true :=
  contains_iff.mpr ⟨v, h⟩

theorem isEmpty_iff {m : SortedMap κ α} : m.isEmpty = true ↔ m.entries = [] :=
  List.isEmpty_iff

variable [TransOrd κ] [LawfulEqOrd κ]

theorem get?_insert [DecidableEq κ] (m : SortedMap κ α) (k k' : κ) (v : α) :
    (m.insert k v).get? k' = if k' = k then some v else m.get? k' := by
  split
  · rename_i h
    rw [h, get?_insert_self]
  · rename_i h
    exact get?_insert_of_ne m (fun he => h (LawfulEqCmp.eq_of_compare he)) v

theorem get?_erase [DecidableEq κ] (m : SortedMap κ α) (k k' : κ) :
    (m.erase k).get? k' = if k' = k then none else m.get? k' := by
  split
  · rename_i h
    rw [h, get?_erase_self]
  · rename_i h
    exact get?_erase_of_ne m h

theorem get?_filter (m : SortedMap κ α) (p : κ → α → Bool) (k : κ) :
    (m.filter p).get? k = (m.get? k).filter (p k) := by
  apply Option.ext
  intro v
  rw [← mem_entries_iff, mem_entries_filter, mem_entries_iff, Option.filter_eq_some_iff]

theorem get?_map (m : SortedMap κ α) (f : κ → α → β) (k : κ) :
    (m.map f).get? k = (m.get? k).map (f k) := by
  apply Option.ext
  intro v
  rw [← mem_entries_iff, Option.map_eq_some_iff, map, List.mem_map]
  constructor
  · rintro ⟨⟨k', a⟩, hm, he⟩
    obtain ⟨rfl, rfl⟩ := Prod.mk.inj he
    exact ⟨a, mem_entries_iff.mp hm, rfl⟩
  · rintro ⟨a, ha, rfl⟩
    exact ⟨(k, a), mem_entries_iff.mpr ha, rfl⟩

theorem get?_restrict (m : SortedMap κ α) (m' : SortedMap κ β) (k : κ) :
    (m.restrict m').get? k = if m'.contains k then m.get? k else none := by
  rw [restrict_eq_filter, get?_filter]
  cases m.get? k <;> simp [Option.filter]

theorem get?_without (m : SortedMap κ α) (m' : SortedMap κ β) (k : κ) :
    (m.without m').get? k = if m'.contains k then none else m.get? k := by
  rw [without_eq_filter, get?_filter]
  cases m.get? k <;> cases m'.contains k <;> simp [Option.filter]

theorem contains_map (m : SortedMap κ α) (f : κ → α → β) (k : κ) :
    (m.map f).contains k = m.contains k := by
  rw [contains, get?_map, Option.isSome_map, contains]

theorem contains_insert [DecidableEq κ] (m : SortedMap κ α) (k k' : κ) (v : α) :
    (m.insert k v).contains k' = (decide (k' = k) || m.contains k') := by
  rw [contains, get?_insert]
  split <;> simp_all [contains]

theorem contains_erase [DecidableEq κ] (m : SortedMap κ α) (k k' : κ) :
    (m.erase k).contains k' = (decide (k' ≠ k) && m.contains k') := by
  rw [contains, get?_erase]
  split <;> simp_all [contains]

/-- A map that holds a value under a key already is not changed by putting it there. -/
theorem insert_of_get? [DecidableEq κ] {m : SortedMap κ α} {k : κ} {v : α} (h : m.get? k = some v) :
    m.insert k v = m := by
  refine ext fun k' => ?_
  rw [get?_insert]
  split
  · rename_i hk
    rw [hk, h]
  · rfl

theorem isEmpty_iff_get? {m : SortedMap κ α} : m.isEmpty = true ↔ ∀ k, m.get? k = none := by
  rw [isEmpty_iff]
  constructor
  · intro h k
    rw [get?, h, find?]
  · intro h
    refine List.eq_nil_iff_forall_not_mem.mpr ?_
    rintro ⟨k, v⟩ hm
    simpa [h k] using mem_entries_iff.mp hm

theorem isEmpty_eq_false_iff {m : SortedMap κ α} :
    m.isEmpty = false ↔ ∃ k, m.contains k = true := by
  rw [← Bool.not_eq_true, isEmpty_iff_get?]
  simp [contains, Option.isSome_iff_ne_none]

theorem mem_keys_iff {m : SortedMap κ α} {k : κ} : k ∈ m.keys ↔ m.contains k = true := by
  rw [contains_iff, keys, List.mem_map]
  constructor
  · rintro ⟨⟨_, v⟩, hmem, rfl⟩
    exact ⟨v, mem_entries_iff.mp hmem⟩
  · rintro ⟨v, hv⟩
    exact ⟨(k, v), mem_entries_iff.mpr hv, rfl⟩

theorem forall_mem_values {m : SortedMap κ α} {p : α → Prop} :
    (∀ v ∈ m.values, p v) ↔ ∀ k v, m.get? k = some v → p v := by
  simp only [values, List.forall_mem_map]
  exact ⟨fun h k v hk => h (k, v) (mem_entries_iff.mpr hk),
    fun h ⟨k, v⟩ hm => h k v (mem_entries_iff.mp hm)⟩

/-- No key is there twice: two entries with one key are one entry. -/
theorem size_le_one_iff {m : SortedMap κ α} :
    m.size ≤ 1 ↔ ∀ k k', m.contains k = true → m.contains k' = true → k = k' := by
  obtain ⟨l, hl⟩ := m
  simp only [size, contains_iff, ← mem_entries_iff]
  match l, hl with
  | [], _ => simp
  | [(a, v)], _ =>
    simp only [List.length_cons, List.length_nil, Nat.le_refl, List.mem_singleton, true_iff]
    rintro k k' ⟨_, h⟩ ⟨_, h'⟩
    rw [(Prod.mk.inj h).1, (Prod.mk.inj h').1]
  | (a, v) :: (b, w) :: l, hl =>
    have hab : compare a b = .lt := (List.pairwise_cons.mp hl).1 _ List.mem_cons_self
    refine iff_of_false (by simp) fun h => ?_
    have he : a = b := h a b ⟨v, List.mem_cons_self⟩ ⟨w, List.mem_cons_of_mem _ List.mem_cons_self⟩
    simp [he] at hab

/-! ## Lists of entries -/

omit [TransOrd κ] in
theorem get?_single [DecidableEq κ] (k k' : κ) (v : α) :
    (single k v).get? k' = if k' = k then some v else none := by
  simp only [single, get?, find?]
  split
  · rename_i h
    rw [if_neg fun he => by simp [he] at h]
  · rename_i h
    rw [if_pos (LawfulEqCmp.eq_of_compare h)]
  · rename_i h
    rw [if_neg fun he => by simp [he] at h]

theorem get?_ofList_cons [DecidableEq κ] (e : κ × α) (l : List (κ × α)) (k : κ) :
    (ofList (e :: l)).get? k = ((ofList l).get? k).or (if k = e.1 then some e.2 else none) := by
  rw [ofList, List.foldr_cons, get?_union, get?_single]
  rfl

theorem mem_of_get?_ofList [DecidableEq κ] {l : List (κ × α)} {k : κ} {v : α}
    (h : (ofList l).get? k = some v) : (k, v) ∈ l := by
  induction l with
  | nil => simp [ofList, get?_empty] at h
  | cons e l ih =>
    rw [get?_ofList_cons, Option.or_eq_some_iff] at h
    rcases h with h | ⟨-, h⟩
    · exact List.mem_cons_of_mem _ (ih h)
    · split at h
      · rename_i hk
        obtain ⟨a, b⟩ := e
        obtain rfl : a = k := hk.symm
        obtain rfl : b = v := Option.some.inj h
        exact List.mem_cons_self
      · simp at h

theorem contains_ofList [DecidableEq κ] (l : List (κ × α)) (k : κ) :
    (ofList l).contains k = true ↔ ∃ v, (k, v) ∈ l := by
  refine ⟨fun h => (contains_iff.mp h).imp fun _ => mem_of_get?_ofList, ?_⟩
  rintro ⟨v, hv⟩
  induction l with
  | nil => simp at hv
  | cons e l ih =>
    rw [contains, get?_ofList_cons, Option.isSome_or, Bool.or_eq_true]
    rcases List.mem_cons.mp hv with rfl | hv
    · exact .inr (by simp)
    · exact .inl (ih hv)

/-- Where each key of a list has one value, the map of the list holds its entries. -/
theorem get?_ofList_iff [DecidableEq κ] {l : List (κ × α)}
    (hl : ∀ k v w, (k, v) ∈ l → (k, w) ∈ l → v = w) {k : κ} {v : α} :
    (ofList l).get? k = some v ↔ (k, v) ∈ l := by
  refine ⟨mem_of_get?_ofList, fun h => ?_⟩
  obtain ⟨w, hw⟩ := contains_iff.mp ((contains_ofList l k).mpr ⟨v, h⟩)
  rw [hw, hl k w v (mem_of_get?_ofList hw) h]

/-- The entries of a map make the map. -/
theorem ofList_entries [DecidableEq κ] (m : SortedMap κ α) : ofList m.entries = m := by
  refine ext fun k => Option.ext fun v => ?_
  rw [get?_ofList_iff, mem_entries_iff]
  intro k v w hv hw
  exact Option.some.inj ((mem_entries_iff.mp hv).symm.trans (mem_entries_iff.mp hw))

/-- What is inserted last under a key is there. -/
theorem get?_foldl_insert {β : Type} [DecidableEq κ] (key : β → κ) (value : β → α) (l : List β)
    (m : SortedMap κ α) (k : κ) :
    (l.foldl (fun m b => m.insert (key b) (value b)) m).get? k =
      ((l.reverse.find? (key · = k)).map value).or (m.get? k) := by
  induction l generalizing m with
  | nil => rfl
  | cons b l ih =>
    rw [List.foldl_cons, ih, List.reverse_cons, List.find?_append, Option.map_or, Option.or_assoc,
      get?_insert]
    by_cases hkey : key b = k
    · simp [hkey]
    · simp [hkey, Ne.symm hkey]

/-- A test of keys is made before or after the map of a list is made. -/
theorem filter_ofList [DecidableEq κ] (l : List (κ × α)) (p : κ → Bool) :
    (ofList l).filter (fun k _ => p k) = ofList (l.filter fun e => p e.1) := by
  refine ext fun k => ?_
  rw [get?_filter]
  induction l with
  | nil => rfl
  | cons e l ih =>
    rw [get?_ofList_cons]
    by_cases he : p e.1 = true
    · rw [List.filter_cons, if_pos he, get?_ofList_cons, ← ih]
      by_cases hk : k = e.1
      · rw [if_pos hk, hk, he]
        cases (ofList l).get? e.1 <;> rfl
      · rw [if_neg hk, Option.or_none, Option.or_none]
    · rw [List.filter_cons, if_neg he, ← ih]
      by_cases hk : k = e.1
      · have hp : p e.1 = false := by simpa using he
        rw [if_pos hk, hk, hp]
        cases (ofList l).get? e.1 <;> rfl
      · rw [if_neg hk, Option.or_none]

end Relational.SortedMap

namespace Relational.SortedSet

open Std SortedMap

variable {α : Type} [Ord α] [TransOrd α] [LawfulEqOrd α]

theorem contains_add [DecidableEq α] (s : SortedSet α) (a b : α) :
    (s.add a).contains b = true ↔ b = a ∨ s.contains b = true := by
  rw [add, contains_insert, Bool.or_eq_true, decide_eq_true_iff]

theorem contains_ofElements [DecidableEq α] (l : List α) (a : α) :
    (ofElements l).contains a = true ↔ a ∈ l := by
  rw [ofElements, contains_ofList]
  simp

theorem contains_ofKeys {β : Type} (m : SortedMap α β) (a : α) :
    (ofKeys m).contains a = m.contains a :=
  contains_map m _ a

/-- Sets with the same elements are equal. -/
theorem ext_contains {s t : SortedSet α} (h : ∀ a, s.contains a = t.contains a) : s = t := by
  refine SortedMap.ext fun a => ?_
  have ha := h a
  simp only [SortedMap.contains] at ha
  cases hs : s.get? a <;> cases ht : t.get? a <;> simp_all

end Relational.SortedSet
