import Relational.Proofs.Value.Key

/-!
# Looking a constant up

A column can be searched by keys in place of comparisons: what it stores equals a constant exactly if the
constant, as the column would store it, has the same key (`ColumnType.equal_iff_stored?`). Where the column
can store no equal value there is no key to look for, and nothing is equal.
-/

namespace Relational.ColumnType

variable {type : ColumnType} {column : String} {value cell constant : Value}

/-- What a column stores can be compared with a constant that is comparable with the column, and equals it
exactly if the constant, as the column would store it, has the same key. -/
theorem equal_iff_stored? (hcell : type.coerce column value = .ok cell)
    (hcomparable : type.checkComparable constant = .ok ()) (hnull : constant ≠ .null)
    (hnan : constant ≠ .float .nan) :
    (∃ b, cell.equal constant = .ok b) ∧
      (cell.equal constant = .ok true ↔
        ∃ stored, type.stored? constant = some stored ∧ stored.key? = cell.key?) := by
  obtain ⟨b, hequal, hdecides⟩ := decides_of_has (has_of_coerce hcell) hcomparable hnull hnan
  refine ⟨⟨b, hequal⟩, ?_⟩
  rw [hequal, Except.ok.injEq, hdecides]

/-- A column of floats stores a negative zero, and the whole number zero is looked up under its key. -/
theorem equal_iff_stored?_zero :
    float.coerce "f" (.float (.zero true)) = .ok (.float (.zero true)) ∧
      float.checkComparable (.int 0) = .ok () ∧ Value.int 0 ≠ .null ∧ Value.int 0 ≠ .float .nan ∧
      (∃ b, (Value.float (.zero true)).equal (.int 0) = .ok b) ∧
      ((Value.float (.zero true)).equal (.int 0) = .ok true ↔
        ∃ stored, float.stored? (.int 0) = some stored ∧
          stored.key? = (Value.float (.zero true)).key?) :=
  ⟨rfl, rfl, nofun, nofun,
    @equal_iff_stored? .float "f" (.float (.zero true)) _ _ rfl rfl nofun nofun⟩

end Relational.ColumnType
