import Relational.Proofs.Ordered.Lookup
import Relational.Table.Index

/-!
# What an index knows

An index knows rows (`Index.Knows`) where every key leads to the rows that have it and to no others,
and no entry is without rows. Adding and removing one row keeps it so (`Knows.add`, `Knows.remove`),
and so do the passes over many rows (`Knows.foldl_add`, `Knows.foldl_remove`).

* `Index.Describes`: an index over the rows of a table;
* `describes_build`: an index is built over any rows;
* `Describes.insert`, `Describes.without`: it follows what is inserted and deleted;
* `Knows.ext`: what an index knows determines it.
-/

namespace Relational

open Std

/-! ## Keys of rows -/

theorem Key.ofValues?_eq_none_iff {values : List Value} :
    Key.ofValues? values = none ↔ Value.null ∈ values := by
  have key?_eq_none : ∀ v : Value, v.key? = none ↔ v = .null := by
    intro v
    cases v <;> simp [Value.key?]
  rw [Key.ofValues?, Option.map_eq_none_iff]
  induction values with
  | nil => simp
  | cons v values ih =>
    rw [List.mapM_cons, List.mem_cons, @eq_comm _ Value.null, ← key?_eq_none v]
    cases hv : v.key? <;> cases hvs : values.mapM Value.key? <;> simp_all

/-- A row has a key under some columns where none of them is a null. -/
theorem Row.key?_eq_none_iff {row : Row} {columns : List String} :
    row.key? columns = none ↔ ∃ column ∈ columns, row.cell column = .null := by
  rw [Row.key?, Key.ofValues?_eq_none_iff, List.mem_map]

namespace Index

variable {index : Index} {id : RowId} {row : Row}

/-! ## Adding and removing one row -/

theorem columns_add : (index.add id row).columns = index.columns := by
  unfold add
  split <;> rfl

theorem unique_add : (index.add id row).unique = index.unique := by
  unfold add
  split <;> rfl

theorem columns_remove : (index.remove id row).columns = index.columns := by
  unfold remove
  split
  · rfl
  · split
    · rfl
    · dsimp only
      split <;> rfl

theorem unique_remove : (index.remove id row).unique = index.unique := by
  unfold remove
  split
  · rfl
  · split
    · rfl
    · dsimp only
      split <;> rfl

theorem key?_add (other : Row) : (index.add id row).key? other = index.key? other := by
  rw [key?, columns_add, key?]

theorem key?_remove (other : Row) : (index.remove id row).key? other = index.key? other := by
  rw [key?, columns_remove, key?]

theorem get?_add (key : String) :
    (index.add id row).entries.get? key =
      if index.key? row = some key then some ((index.lookup key).add id)
      else index.entries.get? key := by
  unfold add
  cases hk : index.key? row with
  | none => simp
  | some k =>
    simp only [SortedMap.get?_insert, Option.some.injEq]
    by_cases h : key = k
    · simp [h]
    · rw [if_neg h, if_neg (Ne.symm h)]

theorem contains_lookup_add {key : String} {i : RowId} :
    ((index.add id row).lookup key).contains i = true ↔
      index.key? row = some key ∧ i = id ∨ (index.lookup key).contains i = true := by
  rw [lookup, get?_add]
  by_cases h : index.key? row = some key
  · rw [if_pos h, Option.getD_some, SortedSet.contains_add]
    simp [h]
  · rw [if_neg h, ← lookup]
    simp [h]

theorem get?_remove (key : String) :
    (index.remove id row).entries.get? key =
      if index.key? row = some key then
        (index.entries.get? key).bind fun ids =>
          if (SortedMap.erase ids id).isEmpty then none else some (SortedMap.erase ids id)
      else index.entries.get? key := by
  unfold remove
  cases hk : index.key? row with
  | none => simp
  | some k =>
    simp only [Option.some.injEq]
    by_cases h : k = key
    · subst h
      rw [if_pos rfl]
      cases hids : index.entries.get? k with
      | none => simpa using hids
      | some ids =>
        simp only [Option.bind_some]
        split
        · exact SortedMap.get?_erase_self _ _
        · exact SortedMap.get?_insert_self _ _ _
    · rw [if_neg h]
      cases hids : index.entries.get? k with
      | none => rfl
      | some ids =>
        simp only []
        split
        · simp only [SortedMap.get?_erase, if_neg (Ne.symm h)]
        · simp only [SortedMap.get?_insert, if_neg (Ne.symm h)]

theorem contains_lookup_remove {key : String} {i : RowId} :
    ((index.remove id row).lookup key).contains i = true ↔
      (index.lookup key).contains i = true ∧ ¬(index.key? row = some key ∧ i = id) := by
  rw [lookup, get?_remove, lookup]
  by_cases h : index.key? row = some key
  · rw [if_pos h]
    cases index.entries.get? key with
    | none => simp [SortedMap.contains, SortedMap.get?_empty]
    | some ids =>
      have he : (SortedMap.erase ids id).contains i = true ↔
          SortedMap.contains ids i = true ∧ i ≠ id := by
        rw [SortedMap.contains_erase, Bool.and_eq_true, decide_eq_true_iff, and_comm]
      simp only [Option.bind_some, h, true_and, Option.getD_some, ← ne_eq, ← he]
      split
      · rename_i hn
        simp [SortedMap.contains, SortedMap.isEmpty_iff_get?.mp hn, SortedMap.get?_empty]
      · rfl
  · rw [if_neg h]
    simp [h]

/-! ## Knowing rows -/

/-- Each key leads to the rows that have it, and no entry is without rows. -/
structure Knows (index : Index) (R : RowId → Row → Prop) : Prop where
  mem (key : String) (id : RowId) :
    (index.lookup key).contains id = true ↔ ∃ row, R id row ∧ index.key? row = some key
  nonempty {key : String} {ids : SortedSet RowId} :
    index.entries.get? key = some ids → ids.isEmpty = false

theorem knows_ofDefinition (definition : IndexDefinition) :
    (ofDefinition definition).Knows fun _ _ => False where
  mem key id := by simp [ofDefinition, lookup, SortedMap.get?_empty, SortedMap.contains]
  nonempty h := by simp [ofDefinition, SortedMap.get?_empty] at h

variable {R : RowId → Row → Prop}

theorem Knows.congr {R' : RowId → Row → Prop} (h : index.Knows R)
    (hR : ∀ i r, R i r ↔ R' i r) : index.Knows R' :=
  funext (fun i => funext fun r => propext (hR i r)) ▸ h

theorem Knows.add (h : index.Knows R) :
    (index.add id row).Knows fun i r => R i r ∨ i = id ∧ r = row where
  mem key i := by
    rw [contains_lookup_add, h.mem]
    simp only [key?_add]
    constructor
    · rintro (⟨hk, rfl⟩ | ⟨r, hr, hk⟩)
      · exact ⟨row, .inr ⟨rfl, rfl⟩, hk⟩
      · exact ⟨r, .inl hr, hk⟩
    · rintro ⟨r, hr | ⟨rfl, rfl⟩, hk⟩
      · exact .inr ⟨r, hr, hk⟩
      · exact .inl ⟨hk, rfl⟩
  nonempty {key ids} hids := by
    rw [get?_add] at hids
    split at hids
    · rw [← Option.some.inj hids]
      exact SortedMap.isEmpty_eq_false_iff.mpr
        ⟨id, (SortedSet.contains_add _ _ _).mpr (.inl rfl)⟩
    · exact h.nonempty hids

/-- The row that is taken away is the one known under its identity, if one is. -/
theorem Knows.remove (h : index.Knows R) (hrow : ∀ r, R id r → r = row) :
    (index.remove id row).Knows fun i r => R i r ∧ i ≠ id where
  mem key i := by
    rw [contains_lookup_remove, h.mem]
    simp only [key?_remove]
    constructor
    · rintro ⟨⟨r, hr, hk⟩, hne⟩
      refine ⟨r, ⟨hr, ?_⟩, hk⟩
      rintro rfl
      exact hne ⟨hrow r hr ▸ hk, rfl⟩
    · rintro ⟨r, ⟨hr, hne⟩, hk⟩
      exact ⟨⟨r, hr, hk⟩, fun h => hne h.2⟩
  nonempty {key ids} hids := by
    rw [get?_remove] at hids
    split at hids
    · obtain ⟨ids', -, hids⟩ := Option.bind_eq_some_iff.mp hids
      split at hids
      · simp at hids
      · rename_i hne
        rw [← Option.some.inj hids]
        simpa using hne
    · exact h.nonempty hids

/-! ## Passing over many rows -/

theorem Knows.foldl_add (h : index.Knows R) (l : List (RowId × Row)) :
    (l.foldl (fun index (id, row) => index.add id row) index).Knows
      fun i r => R i r ∨ (i, r) ∈ l := by
  induction l generalizing index R with
  | nil => simpa using h
  | cons e l ih =>
    obtain ⟨id, row⟩ := e
    have hadd : (index.add id row).Knows fun i r => R i r ∨ i = id ∧ r = row := h.add
    refine (ih hadd).congr fun i r => ?_
    simp [or_assoc]

theorem Knows.foldl_remove (h : index.Knows R) (l : List (RowId × Row))
    (hl : ∀ id row, (id, row) ∈ l → ∀ r, R id r → r = row) :
    (l.foldl (fun index (id, row) => index.remove id row) index).Knows
      fun i r => R i r ∧ ∀ row, (i, row) ∉ l := by
  induction l generalizing index R with
  | nil => simpa using h
  | cons e l ih =>
    obtain ⟨id, row⟩ := e
    have hremove := h.remove (hl id row List.mem_cons_self)
    refine (ih hremove fun i r hm r' hr' => ?_).congr fun i r => ?_
    · exact hl i r (List.mem_cons_of_mem _ hm) r' hr'.1
    · simp only [List.mem_cons, Prod.mk.injEq, not_or, not_and, and_assoc]
      refine and_congr_right fun _ => ⟨fun h r => ⟨fun hi => absurd hi h.1, h.2 r⟩, fun h => ?_⟩
      exact ⟨fun hi => (h row).1 hi rfl, fun r => (h r).2⟩

theorem columns_foldl_add (l : List (RowId × Row)) :
    (l.foldl (fun index (id, row) => index.add id row) index).columns = index.columns := by
  induction l generalizing index with
  | nil => rfl
  | cons e l ih => rw [List.foldl_cons, ih, columns_add]

theorem unique_foldl_add (l : List (RowId × Row)) :
    (l.foldl (fun index (id, row) => index.add id row) index).unique = index.unique := by
  induction l generalizing index with
  | nil => rfl
  | cons e l ih => rw [List.foldl_cons, ih, unique_add]

theorem columns_build (definition : IndexDefinition) (rows : SortedMap RowId Row) :
    (build definition rows).columns = definition.columns :=
  columns_foldl_add _

theorem unique_build (definition : IndexDefinition) (rows : SortedMap RowId Row) :
    (build definition rows).unique = definition.unique :=
  unique_foldl_add _

theorem columns_removeAll (gone : SortedMap RowId Row) :
    (index.removeAll gone).columns = index.columns := by
  rw [removeAll]
  induction gone.entries generalizing index with
  | nil => rfl
  | cons e l ih => rw [List.foldl_cons, ih, columns_remove]

theorem unique_removeAll (gone : SortedMap RowId Row) :
    (index.removeAll gone).unique = index.unique := by
  rw [removeAll]
  induction gone.entries generalizing index with
  | nil => rfl
  | cons e l ih => rw [List.foldl_cons, ih, unique_remove]

/-! ## Describing a table -/

/-- The rows of a table that an index knows: each key leads to the stored rows that have it, no
entry is without rows, a row with a null under an indexed column is in no entry, and a unique index
leads each key to one row at most. -/
structure Describes (index : Index) (rows : SortedMap RowId Row) : Prop where
  mem (key : String) (id : RowId) :
    (index.lookup key).contains id = true ↔
      ∃ row, rows.get? id = some row ∧ row.key? index.columns = some key
  nonempty (key : String) (ids : SortedSet RowId) :
    index.entries.get? key = some ids → ids.isEmpty = false
  nulls (id : RowId) (row : Row) (column : String) :
    rows.get? id = some row → column ∈ index.columns → row.cell column = .null →
      ∀ key, (index.lookup key).contains id = false
  unique (key : String) : index.unique = true → (index.lookup key).size ≤ 1

variable {rows : SortedMap RowId Row}

/-- A unique index is one where no two rows have one key. -/
theorem describes_iff : index.Describes rows ↔
    index.Knows (fun i r => rows.get? i = some r) ∧
      (index.unique = true → ∀ key i j, (index.lookup key).contains i = true →
        (index.lookup key).contains j = true → i = j) := by
  constructor
  · intro h
    refine ⟨⟨h.mem, h.nonempty _ _⟩, fun hu key i j hi hj => ?_⟩
    exact SortedMap.size_le_one_iff.mp (h.unique key hu) i j hi hj
  · rintro ⟨h, hu⟩
    refine ⟨h.mem, fun _ _ => h.nonempty, fun id row column hrow hc hn key => ?_, fun key hi => ?_⟩
    · rw [← Bool.not_eq_true, h.mem]
      rintro ⟨r, hr, hk⟩
      obtain rfl : r = row := Option.some.inj (hr.symm.trans hrow)
      have hnone : Row.key? r index.columns = none := Row.key?_eq_none_iff.mpr ⟨column, hc, hn⟩
      rw [key?, hnone] at hk
      simp at hk
    · exact SortedMap.size_le_one_iff.mpr (hu hi key)

theorem Describes.knows (h : index.Describes rows) :
    index.Knows fun i r => rows.get? i = some r :=
  (describes_iff.mp h).1

/-- No entry has more than one row where there are no duplicates. -/
theorem hasDuplicates_eq_false_iff :
    index.hasDuplicates = false ↔
      ∀ key i j, (index.lookup key).contains i = true →
        (index.lookup key).contains j = true → i = j := by
  rw [hasDuplicates, List.any_eq_false]
  simp only [decide_eq_true_eq, Nat.not_lt]
  rw [SortedMap.forall_mem_values]
  refine ⟨fun h key i j hi hj => ?_, fun h key ids hids => ?_⟩
  · rw [lookup] at hi hj
    cases hids : index.entries.get? key with
    | none => simp [hids, SortedMap.contains, SortedMap.get?_empty] at hi
    | some ids =>
      rw [hids] at hi hj
      exact SortedMap.size_le_one_iff.mp (h key ids hids) i j hi hj
  · refine SortedMap.size_le_one_iff.mpr fun i j => ?_
    have := h key i j
    rwa [lookup, hids] at this

/-- An index is built over any rows; a unique one needs rows without duplicates. -/
theorem describes_build {definition : IndexDefinition}
    (h : definition.unique = true → (build definition rows).hasDuplicates = false) :
    (build definition rows).Describes rows := by
  refine describes_iff.mpr ⟨?_, fun hu => hasDuplicates_eq_false_iff.mp (h ?_)⟩
  · refine ((knows_ofDefinition definition).foldl_add rows.entries).congr fun i r => ?_
    rw [false_or, SortedMap.mem_entries_iff]
  · rwa [unique_build] at hu

/-- A row under a new identity is added. A unique index has to be without its key. -/
theorem Describes.insert (h : index.Describes rows) (hid : rows.contains id = false)
    (hunique : index.unique = true → ∀ key, index.key? row = some key →
      index.entries.contains key = false) :
    (index.add id row).Describes (rows.insert id row) := by
  obtain ⟨hknows, hone⟩ := describes_iff.mp h
  rw [SortedMap.contains_eq_false_iff] at hid
  have hadd : (index.add id row).Knows fun i r => rows.get? i = some r ∨ i = id ∧ r = row :=
    hknows.add
  refine describes_iff.mpr ⟨hadd.congr fun i r => ?_, ?_⟩
  · rw [SortedMap.get?_insert]
    by_cases hi : i = id
    · simp [hi, hid, eq_comm]
    · simp [hi]
  · rw [unique_add]
    intro hu key i j hi hj
    rw [contains_lookup_add] at hi hj
    by_cases hk : index.key? row = some key
    · have hnone := SortedMap.contains_eq_false_iff.mp (hunique hu key hk)
      have hempty : index.lookup key = .empty := by rw [lookup, hnone, Option.getD_none]
      simp only [hempty, SortedMap.contains, SortedMap.get?_empty, hk] at hi hj
      simp_all
    · exact hone hu key i j (by simpa [hk] using hi) (by simpa [hk] using hj)

/-- The rows of some identities are removed. -/
theorem Describes.without (h : index.Describes rows) (ids : SortedSet RowId) :
    (index.removeAll (rows.restrict ids)).Describes (rows.without ids) := by
  obtain ⟨hknows, hone⟩ := describes_iff.mp h
  have hremove : (index.removeAll (rows.restrict ids)).Knows
      fun i r => (rows.without ids).get? i = some r := by
    refine (hknows.foldl_remove (rows.restrict ids).entries ?_).congr fun i r => ?_
    · intro i row hm r hr
      have hrow := SortedMap.mem_entries_iff.mp hm
      rw [SortedMap.get?_restrict] at hrow
      split at hrow
      · exact Option.some.inj (hr.symm.trans hrow)
      · simp at hrow
    · simp only [SortedMap.mem_entries_iff, SortedMap.get?_restrict, SortedMap.get?_without]
      cases ids.contains i with
      | false => simp
      | true => simp_all
  refine describes_iff.mpr ⟨hremove, fun hu key i j hi hj => ?_⟩
  rw [unique_removeAll] at hu
  have hsub : ∀ i, ((index.removeAll (rows.restrict ids)).lookup key).contains i = true →
      (index.lookup key).contains i = true := by
    intro i hi
    obtain ⟨r, hr, hk⟩ := (hremove.mem key i).mp hi
    rw [SortedMap.get?_without] at hr
    refine (hknows.mem key i).mpr ⟨r, ?_, ?_⟩
    · split at hr
      · simp at hr
      · exact hr
    · rwa [key?, columns_removeAll] at hk
  exact hone hu key i j (hsub i hi) (hsub j hj)

/-! ## What is known determines the index -/

/-- An index that knows rows is determined by what it knows. -/
theorem Knows.ext {index' : Index} (h : index.Knows R) (h' : index'.Knows R)
    (hc : index.columns = index'.columns) (hu : index.unique = index'.unique) :
    index = index' := by
  have hmem : ∀ key, index.lookup key = index'.lookup key := fun key =>
    SortedSet.ext_contains fun i => Bool.eq_iff_iff.mpr <| by
      simp only [h.mem, h'.mem, key?, hc]
  have hget : index.entries = index'.entries := SortedMap.ext fun key => by
    have hk := hmem key
    rw [lookup, lookup] at hk
    cases hi : index.entries.get? key with
    | none =>
      cases hj : index'.entries.get? key with
      | none => rfl
      | some ids =>
        have hne := h'.nonempty hj
        rw [hi, hj, Option.getD_none, Option.getD_some] at hk
        rw [← hk] at hne
        simp [SortedMap.isEmpty, SortedMap.empty] at hne
    | some ids =>
      cases hj : index'.entries.get? key with
      | none =>
        have hne := h.nonempty hi
        rw [hi, hj, Option.getD_none, Option.getD_some] at hk
        rw [hk] at hne
        simp [SortedMap.isEmpty, SortedMap.empty] at hne
      | some ids' => rw [hi, hj, Option.getD_some, Option.getD_some] at hk; rw [hk]
  cases index; cases index'
  simp_all

end Index

end Relational
