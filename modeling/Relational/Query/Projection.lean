import Relational.Query.Aggregate
import Relational.Query.Evaluation
import Relational.Text.Grouped

/-!
# Projections

What a query shows of its rows: columns, with a row for each row, or aggregates, in one row. The two
cannot be mixed.
-/

namespace Relational

inductive Projection where
  | columns (columns : List (String × String))
  | aggregates (aggregates : List Aggregate)
deriving DecidableEq

namespace Projection

/-- Reads the items of a list that is no single star: columns and aggregates, each in their order.
-/
def readItems (list : List Char) (scope : Scope) :
    List (List Char) → Except Error (List (String × String) × List Aggregate)
  | [] => .ok ([], [])
  | item :: items => do
    match Aggregate.read? item with
    | some aggregate =>
      let aggregate ← aggregate.validate scope
      let items ← readItems list scope items
      return (items.1, aggregate :: items.2)
    | none =>
      if item = ['*'] ∨ item = [] then .error (.syntaxError (.badSelectList (String.ofList list)))
      let (source, column) ← scope.resolve (String.ofList item)
      let items ← readItems list scope items
      return ((source.name, column) :: items.1, items.2)

/-- Reads what a query shows; a star alone stands for all columns. -/
def read (list : List Char) (scope : Scope) : Except Error Projection := do
  let items := Text.splitCommas list
  if items = [['*']] then return .columns scope.columns
  match ← readItems list scope items with
  | (column :: more, []) => return .columns (column :: more)
  | ([], aggregate :: more) => return .aggregates (aggregate :: more)
  | _ => .error (.expression .mixedSelection)

/-- The cell of a column; a row without the cell shows a null. -/
def cell (row : JoinedRow) (source column : String) : Value :=
  ((row.get? source).bind (·.get? column)).getD .null

/-- The names over the shown columns. -/
def fields : Projection → List String
  | .columns list => list.map fun (source, column) => Scope.qualified source column
  | .aggregates list => list.map Aggregate.shown

/-- What is shown of rows. -/
def apply (projection : Projection) (rows : JoinedRows) : Except Error (List (List Value)) :=
  match projection with
  | .columns list => .ok <| rows.values.map fun row =>
      list.map fun (source, column) => cell row source column
  | .aggregates list => do return [← list.mapM fun aggregate => aggregate.apply rows]

end Projection

end Relational
