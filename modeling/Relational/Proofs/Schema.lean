import Relational.Proofs.Ordered.Lookup
import Relational.Proofs.Outcome
import Relational.Schema

/-!
# Rows of schemas

Which names a schema has a column for, and what the rows are that it stores: a row that is validated
fits (`fits_of_validate`), which is to have a cell for each column, that the column takes in
(`Column.Takes`), and no other cells.
-/

namespace Relational

variable {schema : Schema} {names : List String}

namespace Schema

theorem column?_isSome_iff {name : String} :
    (schema.column? name).isSome = true ↔ name ∈ schema.columnNames := by
  rw [column?, List.find?_isSome, columnNames, List.mem_map]
  simp

/-- Names are searched for one without a column. -/
theorem find?_missing_eq_none_iff :
    names.find? (fun name => (schema.column? name).isNone) = none ↔
      ∀ name ∈ names, name ∈ schema.columnNames := by
  rw [List.find?_eq_none]
  refine forall_congr' fun name => imp_congr_right fun _ => ?_
  rw [← column?_isSome_iff, Option.isNone_iff_eq_none, ← ne_eq, Option.isSome_iff_ne_none]

theorem find?_missing_eq_some {name : String}
    (h : names.find? (fun name => (schema.column? name).isNone) = some name) :
    ¬∀ name ∈ names, name ∈ schema.columnNames :=
  fun hall => by rw [find?_missing_eq_none_iff.mpr hall] at h; simp at h

/-- Of columns with different names, each is the one of its name. -/
theorem column?_eq_some_iff (hnodup : schema.columnNames.Nodup) {name : String} {column : Column} :
    schema.column? name = some column ↔ column ∈ schema.columns ∧ column.name = name := by
  rw [column?]
  rw [columnNames] at hnodup
  generalize schema.columns = columns at hnodup ⊢
  induction columns with
  | nil => simp
  | cons c columns ih =>
    obtain ⟨hc, hcolumns⟩ := List.nodup_cons.mp hnodup
    rw [List.find?_cons]
    split
    · rename_i hname
      have hname : c.name = name := by simpa using hname
      rw [Option.some.injEq, List.mem_cons]
      constructor
      · rintro rfl
        exact ⟨.inl rfl, hname⟩
      · rintro ⟨rfl | hmem, h⟩
        · rfl
        · exact absurd (List.mem_map.mpr ⟨column, hmem, h.trans hname.symm⟩) hc
    · rename_i hname
      rw [ih hcolumns, List.mem_cons]
      refine ⟨fun h => ⟨.inr h.1, h.2⟩, fun h => ⟨h.1.resolve_left ?_, h.2⟩⟩
      rintro rfl
      simp [h.2] at hname

end Schema

/-! ## Cells -/

/-- The values that a column of a type has: a null, or what is of the kind of the type. -/
def ColumnType.Has : ColumnType → Value → Prop
  | _, .null => True
  | int, .int _ => True
  | float, .float _ => True
  | varchar _, .text _ => True
  | date, .text _ => True
  | bit, .int _ => True
  | _, _ => False

theorem ColumnType.has_null (type : ColumnType) : type.Has .null := by
  cases type <;> trivial

/-- What a column of a type stores for the values that it takes in. -/
inductive ColumnType.Coerces : ColumnType → Value → Value → Prop where
  | null {type : ColumnType} : Coerces type .null .null
  | int {n : Integer} : Coerces int (.int n) (.int n)
  | whole {x : Binary64} {n : Integer} (hwhole : wholeNumber? x = some n) :
      Coerces int (.float x) (.int n)
  | widened {n : Integer} : Coerces float (.int n) (.float (.ofInt n.val))
  | float {x : Binary64} : Coerces float (.float x) (.float x)
  | varchar {limit : Nat} {s : String} (hlength : s.length ≤ limit) :
      Coerces (varchar limit) (.text s) (.text s)
  | date {s : String} (hdate : isDateText s.toList = true) : Coerces date (.text s) (.text s)
  | bit {n : Integer} (hbit : n.val = 0 ∨ n.val = 1) : Coerces bit (.int n) (.int n)

theorem ColumnType.coerce_eq_ok_iff {type : ColumnType} {column : String} {value stored : Value} :
    type.coerce column value = .ok stored ↔ type.Coerces value stored := by
  constructor
  · intro h
    unfold coerce at h
    dsimp only at h
    split at h
    · cases h
      exact .null
    · cases h
      exact .int
    · split at h
      · rename_i hwhole
        cases h
        exact .whole hwhole
      · cases h
    · cases h
      exact .widened
    · cases h
      exact .float
    · split at h
      · cases h
      · rename_i hlength
        cases h
        exact .varchar (Nat.not_lt.mp hlength)
    · split at h
      · rename_i hdate
        cases h
        exact .date hdate
      · cases h
    · split at h
      · rename_i hbit
        cases h
        exact .bit hbit
      · cases h
    · cases h
  · intro h
    cases h with
    | null => cases type <;> rfl
    | int | widened | float => rfl
    | whole hwhole => simp only [coerce, hwhole]
    | varchar hlength => exact if_neg (Nat.not_lt.mpr hlength)
    | date hdate => exact if_pos hdate
    | bit hbit => exact if_pos hbit

theorem ColumnType.has_of_coerce {type : ColumnType} {column : String} {value stored : Value}
    (h : type.coerce column value = .ok stored) : type.Has stored := by
  cases coerce_eq_ok_iff.mp h with
  | null => exact type.has_null
  | _ => trivial

/-- A type makes nothing else of a value that it has made. -/
theorem ColumnType.coerce_of_coerce {type : ColumnType} {column : String} {value stored : Value}
    (h : type.coerce column value = .ok stored) : type.coerce column stored = .ok stored := by
  cases coerce_eq_ok_iff.mp h with
  | whole => rfl
  | widened => rfl
  | _ => exact h

/-- The values that a column of a type can store: a null, or what is of the kind of the type and within
its bounds. -/
def ColumnType.Admits : ColumnType → Value → Prop
  | _, .null => True
  | int, .int _ => True
  | float, .float _ => True
  | varchar limit, .text s => s.length ≤ limit
  | date, .text s => isDateText s.toList = true
  | bit, .int n => n.val = 0 ∨ n.val = 1
  | _, _ => False

/-- A type leaves those values as they are that it can store, and no others. -/
theorem ColumnType.coerce_eq_self_iff {type : ColumnType} {column : String} {value : Value} :
    type.coerce column value = .ok value ↔ type.Admits value := by
  rw [coerce_eq_ok_iff]
  constructor
  · intro h
    cases h with
    | null => cases type <;> trivial
    | int | float => trivial
    | varchar hlength => exact hlength
    | date hdate => exact hdate
    | bit hbit => exact hbit
  · intro h
    unfold Admits at h
    split at h
    · exact .null
    · exact .int
    · exact .float
    · exact .varchar h
    · exact .date h
    · exact .bit h
    · cases h

/-- A column takes a value in: its type leaves the value as it is, and the value is a null only where
one may be. -/
structure Column.Takes (column : Column) (value : Value) : Prop where
  coerce : column.type.coerce column.name value = .ok value
  ne_null : column.nullable = false ∨ column.primaryKey = true → value ≠ .null

theorem Column.Takes.has {column : Column} {value : Value} (h : column.Takes value) :
    column.type.Has value :=
  ColumnType.has_of_coerce h.coerce

/-- The row has a cell for each column, which the column takes in, and no other cells. -/
structure Row.Fits (row : Row) (columns : List Column) : Prop where
  cell (column : Column) : column ∈ columns → ∃ value, row.get? column.name = some value ∧
    column.Takes value
  only (name : String) : row.contains name = true → name ∈ columns.map (·.name)

namespace Schema

theorem storeCells_spec {columns : List Column} {row stored result : Row}
    (hnodup : (columns.map (·.name)).Nodup) (h : storeCells columns row stored = .ok result) :
    (∀ name, name ∉ columns.map (·.name) → result.get? name = stored.get? name) ∧
      ∀ column ∈ columns, ∃ value, result.get? column.name = some value ∧ column.Takes value := by
  induction columns generalizing row stored with
  | nil => cases h; simp
  | cons c columns ih =>
    obtain ⟨hc, hcolumns⟩ := List.nodup_cons.mp hnodup
    simp only [storeCells, bind_eq_ok_iff, guard_eq_ok_iff] at h
    obtain ⟨value, hvalue, hnull, h⟩ := h
    obtain ⟨hrest, hcells⟩ := ih hcolumns h
    constructor
    · intro name hname
      rw [List.map_cons, List.mem_cons, not_or] at hname
      rw [hrest name hname.2, SortedMap.get?_insert, if_neg hname.1]
    · intro column hcolumn
      rcases List.mem_cons.mp hcolumn with rfl | hcolumn
      · refine ⟨value, ?_, ColumnType.coerce_of_coerce hvalue, ?_⟩
        · rw [hrest _ hc, SortedMap.get?_insert, if_pos rfl]
        · rintro hmust rfl
          simp [Value.isNull, hmust] at hnull
      · exact hcells column hcolumn

/-- A row is stored if there is a column for each of its names, and then cell by cell. -/
theorem validate_eq_ok_iff {row stored : Row} :
    schema.validate row = .ok stored ↔
      (∀ name ∈ row.keys, name ∈ schema.columnNames) ∧
        storeCells schema.columns row .empty = .ok stored := by
  unfold validate
  split
  · rename_i hmissing
    exact ⟨nofun, fun h => absurd h.1 (find?_missing_eq_some hmissing)⟩
  · rename_i hfound
    exact (and_iff_right (find?_missing_eq_none_iff.mp hfound)).symm

theorem fits_of_validate (hnodup : schema.columnNames.Nodup) {row stored : Row}
    (h : schema.validate row = .ok stored) : stored.Fits schema.columns := by
  obtain ⟨hrest, hcells⟩ := storeCells_spec hnodup (validate_eq_ok_iff.mp h).2
  refine ⟨hcells, fun name hname => ?_⟩
  rcases Decidable.em (name ∈ schema.columns.map (·.name)) with hmem | hmem
  · exact hmem
  · rw [SortedMap.contains, hrest name hmem, SortedMap.get?_empty] at hname
    simp at hname

end Schema

end Relational
