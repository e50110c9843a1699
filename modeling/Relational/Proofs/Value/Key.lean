import Relational.Proofs.Number.Shortest
import Relational.Proofs.Schema
import Relational.Proofs.Value.Comparison

/-!
# Keys of values

The texts under which values are known tell them apart as comparing does: floats have one key where
they have one place (`Value.key?_float_eq_iff`), and the key of one value tells its text
(`Key.ofValues?_singleton_eq_iff`). So a cell of a column equals a constant exactly if the constant,
as the column stores it, has the key of the cell (`ColumnType.decides_of_has`). This is false of
what is not a number: its key is a text like any other, but it equals nothing.
-/

namespace Relational

/-! ## Texts of numbers -/

theorem Integer.toText_inj {m n : Integer} : m.toText = n.toText ↔ m = n := by
  refine ⟨fun h => ?_, fun h => h ▸ rfl⟩
  have hdigits (k : Nat) : '-' ∉ digits k := fun hmem =>
    absurd (Decimal.isDigit_toDigits hmem) (by decide)
  have hval : m.val = n.val := by
    rw [toText, toText, signedDigits, signedDigits] at h
    have hinj {j k : Nat} (h : digits j = digits k) : j = k := by
      have hj := Nat.ofDigitChars_ten_toDigits (n := j)
      rw [digits] at h
      rwa [h, digits, Nat.ofDigitChars_ten_toDigits, eq_comm] at hj
    split at h
    · split at h
      · have := hinj (List.cons.inj h).2
        omega
      · exact absurd (h ▸ List.mem_cons_self) (hdigits _)
    · split at h
      · exact absurd (h.symm ▸ List.mem_cons_self) (hdigits _)
      · have := hinj h
        omega
  exact Value.compare_val_eq_iff.mp (Std.LawfulEqCmp.compare_eq_iff_eq.mpr hval)

namespace Value

theorem floatText_zero : floatText (.finite false .zero) = ['0'] := by decide

theorem floatText_ne_zero {x : Binary64} (h : x.isZero = false) : floatText x ≠ ['0'] := by
  rw [← floatText_zero, ne_eq, floatText_inj]
  rintro rfl
  simp [Binary64.isZero, Magnitude.zero] at h

/-- Floats have one key where they have one place on the line. -/
theorem key?_float_eq_iff {x y : Binary64} :
    (float x).key? = (float y).key? ↔ x.place? = y.place? := by
  rw [Binary64.place?_eq_iff, key?, key?, Option.some.injEq]
  cases hx : x.isZero with
  | true =>
    cases hy : y.isZero with
    | true => simp
    | false =>
      refine iff_of_false (fun h => floatText_ne_zero hy (by simpa using h.symm)) ?_
      rintro (rfl | h)
      · simp [hx] at hy
      · simp at h
  | false =>
    cases hy : y.isZero with
    | true =>
      refine iff_of_false (fun h => floatText_ne_zero hx (by simpa using h)) ?_
      rintro (rfl | h)
      · simp [hx] at hy
      · simp at h
    | false => simp [floatText_inj]

theorem key?_int_eq_iff {m n : Integer} : (int m).key? = (int n).key? ↔ m = n := by
  rw [key?, key?, Option.some.injEq, Integer.toText_inj]

theorem key?_text_eq_iff {s t : String} : (text s).key? = (text t).key? ↔ s = t := by
  rw [key?, key?, Option.some.injEq, String.toList_inj]

theorem key?_eq_none_iff {v : Value} : v.key? = none ↔ v = .null := by
  cases v <;> simp [key?]

end Value

/-! ## Keys -/

namespace Key

theorem escapePart_inj {s t : List Char} : escapePart s = escapePart t ↔ s = t := by
  refine ⟨fun h => ?_, fun h => h ▸ rfl⟩
  induction s generalizing t with
  | nil =>
    cases t with
    | nil => rfl
    | cons d t =>
      rw [escapePart, escapePart] at h
      split at h <;> simp at h
  | cons c s ih =>
    cases t with
    | nil =>
      rw [escapePart, escapePart] at h
      split at h <;> simp at h
    | cons d t =>
      rw [escapePart, escapePart] at h
      split at h
      · split at h
        · obtain ⟨rfl, hs⟩ := List.cons.inj (List.cons.inj h).2
          rw [ih hs]
        · rename_i hd
          exact absurd (.inl (List.cons.inj h).1.symm) hd
      · rename_i hc
        split at h
        · exact absurd (.inl (List.cons.inj h).1) hc
        · obtain ⟨rfl, hs⟩ := List.cons.inj h
          rw [ih hs]

theorem ofValues?_singleton (v : Value) :
    ofValues? [v] = v.key?.map fun part => String.ofList (escapePart part) := by
  rw [ofValues?]
  cases h : v.key? <;> simp [h, join]

/-- The key of one value tells what the value is known by. -/
theorem ofValues?_singleton_eq_iff {v w : Value} :
    ofValues? [v] = ofValues? [w] ↔ v.key? = w.key? := by
  rw [ofValues?_singleton, ofValues?_singleton]
  cases v.key? <;> cases w.key? <;>
    simp [← String.toList_inj, String.toList_ofList, escapePart_inj]

end Key

/-! ## Cells and constants -/

namespace ColumnType

variable {type : ColumnType} {cell value : Value}

theorem wholeNumber?_eq_some_iff {x : Binary64} {n : Integer} :
    wholeNumber? x = some n ↔ x.place? = some (.ofInt n.val) := by
  rw [wholeNumber?, Option.bind_eq_some_iff, ← Binary64.whole?_eq_some_iff]
  refine ⟨fun ⟨z, hz, hn⟩ => ?_, fun h => ⟨n.val, h, Integer.ofInt?_val n⟩⟩
  rw [Integer.ofInt?_eq_some_iff.mp hn, hz]

theorem key_whole_iff {x : Binary64} {m : Integer} :
    (∃ key, (wholeNumber? x).map Value.int = some key ∧ key.key? = (Value.int m).key?) ↔
      x.place? = some (.ofInt m.val) := by
  rw [← wholeNumber?_eq_some_iff]
  constructor
  · rintro ⟨key, hkey, h⟩
    obtain ⟨n, hn, rfl⟩ := Option.map_eq_some_iff.mp hkey
    rwa [← Value.key?_int_eq_iff.mp h]
  · exact fun h => ⟨.int m, by rw [h]; rfl, rfl⟩

theorem key_stored_int_iff {y : Binary64} {n : Integer} :
    (∃ key, float.stored? (.int n) = some key ∧ key.key? = (Value.float y).key?) ↔
      y.place? = some (.ofInt n.val) := by
  simp only [stored?]
  constructor
  · rintro ⟨key, hkey, h⟩
    split at hkey
    · rename_i hwhole
      rw [← Option.some.inj hkey, Value.key?_float_eq_iff] at h
      rw [← h, ← Binary64.whole?_eq_some_iff, hwhole]
    · simp at hkey
  · intro h
    have hwhole := Binary64.whole?_ofInt (Binary64.whole?_eq_some_iff.mpr h)
    refine ⟨_, if_pos hwhole, Value.key?_float_eq_iff.mpr ?_⟩
    rw [h, ← Binary64.whole?_eq_some_iff, hwhole]

/-- Whether a cell equals a constant is decided by their keys: the cell equals the constant exactly
if the constant, as the column stores it, has the key of the cell. -/
def Decides (type : ColumnType) (cell value : Value) : Prop :=
  ∃ b, cell.equal value = .ok b ∧
    (b = true ↔ ∃ key, type.stored? value = some key ∧ key.key? = cell.key?)

theorem decides_null (hnull : value ≠ .null) : type.Decides .null value := by
  refine ⟨false, ?_, iff_of_false (by simp) ?_⟩
  · cases value <;> first | rfl | exact absurd rfl hnull
  · rintro ⟨key, hkey, h⟩
    obtain rfl := Value.key?_eq_none_iff.mp h
    cases type <;> cases value <;> simp [stored?] at hkey

theorem decides_int (m : Integer) (htype : type = .int ∨ type = .bit)
    (hvalue : type.checkComparable value = .ok ()) (hnull : value ≠ .null) :
    type.Decides (.int m) value := by
  have hnumeric : type.isTextual = false := by rcases htype with rfl | rfl <;> rfl
  cases value with
  | null => exact absurd rfl hnull
  | text t => simp [checkComparable, hnumeric] at hvalue
  | int n =>
    refine ⟨_, Value.equal_int m n, ?_⟩
    rcases htype with rfl | rfl <;> simp [stored?, Value.key?_int_eq_iff, eq_comm]
  | float x =>
    refine ⟨_, Value.equal_int_float m x, ?_⟩
    rw [decide_eq_true_iff, ← key_whole_iff]
    rcases htype with rfl | rfl <;> rfl

theorem decides_text (s : String) (htype : type.isTextual = true)
    (hvalue : type.checkComparable value = .ok ()) (hnull : value ≠ .null) :
    type.Decides (.text s) value := by
  have hstored (t : String) : type.stored? (.text t) = some (.text t) := by
    cases type <;> first | rfl | simp [isTextual, isVarchar, isDate] at htype
  cases value with
  | null => exact absurd rfl hnull
  | int n => simp [checkComparable, htype] at hvalue
  | float x => simp [checkComparable, htype] at hvalue
  | text t =>
    refine ⟨_, Value.equal_text s t, ?_⟩
    simp [hstored, Value.key?_text_eq_iff, eq_comm]

theorem decides_float (y : Binary64) (hvalue : float.checkComparable value = .ok ())
    (hnull : value ≠ .null) (hnan : value ≠ .float .nan) : float.Decides (.float y) value := by
  cases value with
  | null => exact absurd rfl hnull
  | text t => simp [checkComparable, isTextual, isVarchar, isDate] at hvalue
  | int n =>
    refine ⟨_, Value.equal_float_int y n, ?_⟩
    rw [decide_eq_true_iff, key_stored_int_iff]
  | float x =>
    refine ⟨_, Value.equal_float y fun h => hnan (congrArg _ h), ?_⟩
    simp [stored?, Value.key?_float_eq_iff, eq_comm]

/-- Keys decide for every cell that a column has, and every constant that is comparable with the
column, but for nulls and what is not a number. -/
theorem decides_of_has (hcell : type.Has cell) (hvalue : type.checkComparable value = .ok ())
    (hnull : value ≠ .null) (hnan : value ≠ .float .nan) : type.Decides cell value := by
  cases cell with
  | null => exact decides_null hnull
  | int m =>
    cases type with
    | int => exact decides_int m (.inl rfl) hvalue hnull
    | bit => exact decides_int m (.inr rfl) hvalue hnull
    | _ => exact hcell.elim
  | text s =>
    cases type with
    | varchar limit => exact decides_text s rfl hvalue hnull
    | date => exact decides_text s rfl hvalue hnull
    | _ => exact hcell.elim
  | float y =>
    cases type with
    | float => exact decides_float y hvalue hnull hnan
    | _ => exact hcell.elim

/-- Two cells of one column can be compared, and have one key if they are equal. -/
theorem equal_of_has {cell' : Value} (h : type.Has cell) (h' : type.Has cell') :
    ∃ b, cell.equal cell' = .ok b ∧ (b = true → cell.key? = cell'.key?) := by
  cases cell with
  | null =>
    refine ⟨cell'.isNull, by cases cell' <;> rfl, fun hnull => ?_⟩
    cases cell' <;> first | rfl | simp [Value.isNull] at hnull
  | int m =>
    cases cell' with
    | null => exact ⟨false, rfl, by simp⟩
    | int n => exact ⟨_, Value.equal_int m n, by simp +contextual⟩
    | _ => cases type <;> first | exact h.elim | exact h'.elim
  | text s =>
    cases cell' with
    | null => exact ⟨false, rfl, by simp⟩
    | text t => exact ⟨_, Value.equal_text s t, by simp +contextual⟩
    | _ => cases type <;> first | exact h.elim | exact h'.elim
  | float x =>
    cases cell' with
    | null => exact ⟨false, rfl, by simp⟩
    | float y =>
      by_cases hy : y = .nan
      · refine ⟨false, ?_, by simp⟩
        rw [hy]
        cases x <;> rfl
      · refine ⟨_, Value.equal_float x hy, fun heq => ?_⟩
        exact Value.key?_float_eq_iff.mpr (of_decide_eq_true heq)
    | _ => cases type <;> first | exact h.elim | exact h'.elim

end ColumnType

end Relational
