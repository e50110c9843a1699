import Relational.Query.Scope
import Relational.Statement.Reader

/-!
# Aggregates

What a query says about all of its rows at once: how many there are, how many hold something in a
column, and the least and the greatest value of a column.
-/

namespace Relational

inductive AggregateFunction where
  | count
  | min
  | max
deriving DecidableEq

def AggregateFunction.shown : AggregateFunction → String
  | count => "COUNT"
  | min => "MIN"
  | max => "MAX"

/-- What an aggregate is taken over. -/
inductive AggregateTarget where
  | rows
  | column (source column : String)
deriving DecidableEq

/-- An aggregate as it is written, and what it is taken over once that has been found. -/
structure Aggregate where
  function : AggregateFunction
  column : String
  target : Option AggregateTarget
deriving DecidableEq

/-! ## Reading -/

namespace Pattern

def aggregateFunction : Pattern AggregateFunction :=
  orElse (do keyword "COUNT"; return .count) <|
    orElse (do keyword "MIN"; return .min) (do keyword "MAX"; return .max)

/-- A function and a column, or a star for all rows, in parentheses. -/
def aggregate : Pattern Aggregate := do
  blanks
  let function ← aggregateFunction
  blanks
  char '('
  blanks
  let column ← orElse (do char '*'; return ['*']) reference
  blanks
  char ')'
  blanks
  return ⟨function, String.ofList column, none⟩

end Pattern

namespace Aggregate

/-- The aggregate that a text is, if it is one. -/
def read? (s : List Char) : Option Aggregate :=
  Pattern.aggregate.whole? s

def shown (aggregate : Aggregate) : String :=
  aggregate.function.shown ++ "(" ++ aggregate.column ++ ")"

/-! ## Finding the column -/

/-- Whether a type has a least and a greatest value. -/
def hasExtremes (type : ColumnType) : Bool :=
  type.isNumeric || type.isTextual

/-- Finds what the aggregate is taken over. -/
def findTarget (aggregate : Aggregate) (scope : Scope) : Except Error AggregateTarget := do
  if aggregate.column = "*" then
    if aggregate.function ≠ .count then
      .error (.expression (.starNotSupported aggregate.function.shown))
    return .rows
  let (source, name) ← scope.resolve aggregate.column
  match source.column? name with
  | none => .error (.unknownColumn aggregate.column)
  | some column =>
    if aggregate.function ≠ .count && !hasExtremes column.type then
      .error (.unsupportedType aggregate.function.shown aggregate.column column.type.shown)
    return .column source.name name

/-- The aggregate with what it is taken over. -/
def validate (aggregate : Aggregate) (scope : Scope) : Except Error Aggregate := do
  return { aggregate with target := some (← aggregate.findTarget scope) }

/-! ## Applying -/

/-- The values of a column that are no nulls, in the order of the rows. -/
def valuesOf (source column : String) (rows : JoinedRows) : List Value :=
  rows.values.filterMap fun row =>
    ((row.get? source).bind (·.get? column)).filter fun value => !value.isNull

/-- The value of a list that no later one stands in a wanted order to; the first, unless a later one
takes its place. -/
def extreme (wanted : Ordering) (best : Value) : List Value → Except Error Value
  | [] => .ok best
  | value :: values => do
    let order ← value.order best
    extreme wanted (if order = some wanted then value else best) values

/-- The least or the greatest of some values; a null, if there is none. -/
def extremeOf (wanted : Ordering) : List Value → Except Error Value
  | [] => .ok .null
  | value :: values => extreme wanted value values

/-- The value of the aggregate over rows. -/
def apply (aggregate : Aggregate) (rows : JoinedRows) : Except Error Value :=
  match aggregate.target with
  | none => .error (.expression (.notValidated aggregate.shown))
  | some .rows => .ok (.int (.ofLength rows.size))
  | some (.column source column) =>
    let values := valuesOf source column rows
    match aggregate.function with
    | .count => .ok (.int (.ofLength values.length))
    | .min => extremeOf .lt values
    | .max => extremeOf .gt values

end Aggregate

end Relational
