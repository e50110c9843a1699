import Relational.Ordered.Set
import Relational.Value.Key

/-!
# Rows and their identities

A row holds a value under each of its columns. A stored row is known by the key of its primary key
values; a row of a join by the identities of its parts, in the order in which the tables were
joined.
-/

namespace Relational

open Std

/-- The values of a row under the names of their columns. -/
abbrev Row := SortedMap String Value

/-- What a row is known by: one key for each table it comes from. -/
structure RowId where
  parts : List String
deriving DecidableEq

namespace RowId

instance : Ord RowId := ⟨fun a b => compare a.parts b.parts⟩

instance : TransOrd RowId where
  eq_swap {a b} :=
    let h : compare a.parts b.parts = (compare b.parts a.parts).swap := OrientedCmp.eq_swap
    h
  isLE_trans {a b c} :=
    let h : (compare a.parts b.parts).isLE → (compare b.parts c.parts).isLE →
        (compare a.parts c.parts).isLE := TransCmp.isLE_trans
    h

instance : LawfulEqOrd RowId where
  compare_self {a} :=
    let h : compare a.parts a.parts = .eq := ReflCmp.compare_self
    h
  eq_of_compare {a b} h := by
    cases a; cases b
    exact congrArg mk (LawfulEqCmp.eq_of_compare h)

/-- The identity of a stored row. -/
def ofKey (key : String) : RowId := ⟨[key]⟩

/-- The identity of two rows joined. -/
def join (left right : RowId) : RowId := ⟨left.parts ++ right.parts⟩

/-- The identity of the row that the table at a position contributes. -/
def part? (id : RowId) (position : Nat) : Option RowId :=
  id.parts[position]?.map ofKey

/-- How many tables the row comes from. -/
def width (id : RowId) : Nat := id.parts.length

/-- The identity as it is shown. -/
def shown (id : RowId) : String :=
  String.intercalate "|" id.parts

end RowId

namespace Row

/-- The value under a column; a column that the row does not hold is a null. -/
def cell (row : Row) (column : String) : Value :=
  (row.get? column).getD .null

/-- The key of a row under some columns, if none of them is a null. -/
def key? (row : Row) (columns : List String) : Option String :=
  Key.ofValues? (columns.map row.cell)

/-- The row under some columns only; under all of them, if none is named. -/
def project (row : Row) (columns : List String) : Row :=
  if columns.isEmpty then row else row.filter fun name _ => columns.contains name

end Row

end Relational
