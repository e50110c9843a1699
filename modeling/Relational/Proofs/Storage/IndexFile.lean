import Mathlib.Algebra.Group.Nat.Defs
import Relational.Proofs.Ordered.Lookup
import Relational.Storage.IndexFile

/-!
# Index files read back

Reading undoes writing (`IndexFile.decode?_encode`), whatever stands behind what was written: so the
readers of the parts of an index can be put one behind the other as its writers are
(`IndexFile.Reads`). A count has eight bytes, so this holds of what is written with fewer than
`2 ^ 64` bytes: no list in it has more items.
-/

namespace Relational.IndexFile

variable {α β : Type}

/-! ## Readers -/

theorem bind_apply (x : Reader α) (f : α → Reader β) (bytes : List UInt8) :
    (x >>= f) bytes = (x bytes).bind fun (a, bytes) => f a bytes := rfl

/-- A reader takes what was written and no more. -/
def Reads (bytes : List UInt8) (reader : Reader α) (a : α) : Prop :=
  bytes.length < 2 ^ 64 → ∀ rest, reader (bytes ++ rest) = some (a, rest)

theorem reads_pure (a : α) : Reads [] (pure a) a :=
  fun _ _ => rfl

theorem Reads.bind {bytes more : List UInt8} {reader : Reader α} {f : α → Reader β} {a : α} {b : β}
    (h : Reads bytes reader a) (h' : Reads more (f a) b) : Reads (bytes ++ more) (reader >>= f) b := by
  intro hlength rest
  rw [List.length_append] at hlength
  rw [bind_apply, List.append_assoc, h (by omega), Option.bind_some]
  exact h' (by omega) rest

/-- What is made of what was read. -/
theorem Reads.map {bytes : List UInt8} {reader : Reader α} {a : α} (h : Reads bytes reader a)
    (g : α → β) : Reads bytes (reader >>= fun a => pure (g a)) (g a) := by
  have hbind := h.bind (f := fun a => pure (g a)) (reads_pure (g a))
  rw [List.append_nil] at hbind
  exact hbind

/-! ## Counts and lists -/

theorem readBytes_encodeBytes {width n : Nat} (h : n < 256 ^ width) (rest : List UInt8) :
    readBytes width (encodeBytes width n ++ rest) = some (n, rest) := by
  induction width generalizing n with
  | zero =>
    obtain rfl : n = 0 := by simpa using h
    rfl
  | succ width ih =>
    have hlow : (UInt8.ofNat n).toNat = n % 256 := rfl
    have hhigh : n / 256 < 256 ^ width := by
      rw [Nat.pow_succ] at h
      omega
    rw [readBytes, bind_apply]
    change ((readBytes width (encodeBytes width (n / 256) ++ rest)).bind _) = _
    rw [ih hhigh]
    change some ((UInt8.ofNat n).toNat + 256 * (n / 256), rest) = _
    rw [hlow, Nat.mod_add_div]

theorem reads_encodeCount {n : Nat} (h : n < 2 ^ 64) : Reads (encodeCount n) readCount n :=
  fun _ => readBytes_encodeBytes h

theorem reads_items {item : α → List UInt8} {reader : Reader α} {l : List α}
    (h : ∀ a ∈ l, Reads (item a) reader a) :
    Reads (l.flatMap item) (readItems reader l.length) l := by
  induction l with
  | nil => exact reads_pure []
  | cons a l ih =>
    obtain ⟨ha, hl⟩ := List.forall_mem_cons.mp h
    exact ha.bind ((ih hl).map (a :: ·))

/-- A list has no more items than bytes, if each item has some. -/
theorem length_le_length_flatMap {item : α → List UInt8} {l : List α} (h : ∀ a ∈ l, item a ≠ []) :
    l.length ≤ (l.flatMap item).length := by
  induction l with
  | nil => exact Nat.zero_le _
  | cons a l ih =>
    obtain ⟨ha, hl⟩ := List.forall_mem_cons.mp h
    have hpos := List.length_pos_iff.mpr ha
    have hle := ih hl
    rw [List.flatMap_cons, List.length_append, List.length_cons]
    omega

theorem reads_encodeList {item : α → List UInt8} {reader : Reader α} {l : List α}
    (hne : ∀ a, item a ≠ []) (h : ∀ a, Reads (item a) reader a) :
    Reads (encodeList item l) (readList reader) l := by
  intro hlength
  have hle := length_le_length_flatMap fun a (_ : a ∈ l) => hne a
  have hcount : l.length < 2 ^ 64 := by
    rw [encodeList, List.length_append] at hlength
    omega
  exact (reads_encodeCount hcount).bind (reads_items fun a _ => h a) hlength

theorem encodeList_ne_nil (item : α → List UInt8) (l : List α) : encodeList item l ≠ [] := by
  simp [encodeList, encodeCount, encodeBytes]

/-! ## The parts of an index -/

theorem reads_encodeText (s : String) : Reads (encodeText s) readText s := by
  have hbytes : encodeText s = encodeList (fun b => [b]) (Text.toBytes s.toList) := by
    rw [encodeList, encodeText, List.flatMap_singleton']
  have hlist : Reads (encodeList (fun b => [b]) (Text.toBytes s.toList)) (readList readByte)
      (Text.toBytes s.toList) :=
    reads_encodeList (fun b => List.cons_ne_nil b []) fun b _ rest => rfl
  rw [hbytes]
  intro hlength rest
  rw [readText, bind_apply, hlist hlength, Option.bind_some]
  dsimp only
  rw [Text.ofBytes?_toBytes]
  change some (String.ofList s.toList, rest) = _
  rw [String.ofList_toList]

theorem encodeText_ne_nil (s : String) : encodeText s ≠ [] := by
  simp [encodeText, encodeCount, encodeBytes]

theorem reads_encodeBool (b : Bool) : Reads (encodeBool b) readBool b := by
  cases b <;> exact fun _ _ => rfl

theorem reads_encodeId (id : RowId) : Reads (encodeId id) readId id :=
  (reads_encodeList encodeText_ne_nil reads_encodeText).map RowId.mk

theorem ofElements_elements (ids : SortedSet RowId) :
    SortedSet.ofElements ids.elements = ids := by
  rw [SortedSet.ofElements, SortedSet.elements, SortedMap.keys, List.map_map]
  exact (congrArg SortedMap.ofList (List.map_id ids.entries)).trans (SortedMap.ofList_entries ids)

theorem reads_encodeEntry (entry : String × SortedSet RowId) :
    Reads (encodeEntry entry) readEntry entry := by
  obtain ⟨key, ids⟩ := entry
  have hids : Reads (encodeList encodeId ids.elements) (readList readId) ids.elements :=
    reads_encodeList (fun _ => encodeList_ne_nil _ _) reads_encodeId
  have hentry := hids.map fun l => (key, SortedSet.ofElements l)
  rw [ofElements_elements] at hentry
  have hread : readEntry = readText >>= fun key =>
      readList readId >>= fun l => pure (key, SortedSet.ofElements l) := rfl
  rw [encodeEntry, hread]
  exact (reads_encodeText key).bind hentry

theorem encodeEntry_ne_nil (entry : String × SortedSet RowId) : encodeEntry entry ≠ [] := by
  simp [encodeEntry, encodeText_ne_nil]

theorem reads_encode (index : Index) :
    Reads (encode index) (readList readText >>= fun columns => readBool >>= fun unique =>
      readList readEntry >>= fun entries => pure (⟨columns, unique, .ofList entries⟩ : Index))
      index := by
  have hcolumns : Reads (encodeList encodeText index.columns) (readList readText) index.columns :=
    reads_encodeList encodeText_ne_nil reads_encodeText
  have hentries : Reads (encodeList encodeEntry index.entries.entries) (readList readEntry)
      index.entries.entries :=
    reads_encodeList encodeEntry_ne_nil reads_encodeEntry
  have hindex := hentries.map fun l => (⟨index.columns, index.unique, .ofList l⟩ : Index)
  rw [SortedMap.ofList_entries] at hindex
  rw [encode, List.append_assoc]
  exact hcolumns.bind ((reads_encodeBool index.unique).bind hindex)

theorem decode?_eq (bytes : List UInt8) :
    decode? bytes = ((readList readText >>= fun columns => readBool >>= fun unique =>
      readList readEntry >>= fun entries =>
        pure (⟨columns, unique, .ofList entries⟩ : Index)) bytes).map Prod.fst := rfl

/-- The content of an index file is decoded to what was encoded. -/
theorem decode?_encode {index : Index} (h : (encode index).length < 2 ^ 64) :
    decode? (encode index) = some index := by
  have hread := reads_encode index h []
  rw [List.append_nil] at hread
  rw [decode?_eq, hread, Option.map_some]

end Relational.IndexFile
