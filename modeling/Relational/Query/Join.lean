import Relational.Query.Scope
import Relational.Statement.Reader
import Relational.Store

/-!
# Joins

A join adds the rows of one more table to the rows of a query: those whose cell equals a cell of a
table before it. A null equals nothing here.
-/

namespace Relational

/-- A join as it is written. -/
structure JoinClause where
  table : String
  nickname : Option String
  left : String
  right : String
deriving DecidableEq

/-- A join between a column of a table that came before and a column of the table it adds. -/
structure Join where
  target : Source
  leftTable : String
  leftColumn : String
  rightColumn : String
deriving DecidableEq

/-! ## Reading -/

namespace Pattern

/-- A join; the alias is left out if the rest can be read without one. -/
def join : Pattern JoinClause := do
  let _ ← optional do
    keyword "INNER"
    gap
  keyword "JOIN"
  gap
  let table ← name
  let nickname ← optionalLast aliasName
  gap
  keyword "ON"
  gap
  let left ← reference
  blanks
  char '='
  blanks
  let right ← reference
  return ⟨table, nickname.map String.ofList, String.ofList left, String.ofList right⟩

end Pattern

namespace JoinClause

/-- Reads joins, with nothing but blanks between them. -/
def readAll (s : List Char) : Except Error (List JoinClause) :=
  match h : Pattern.join.search? s with
  | none =>
    let left := Text.trim s
    if left.isEmpty then .ok [] else .error (.syntaxError (.unreadableJoin (String.ofList left)))
  | some (before, clause, rest) =>
    have := Pattern.length_lt_of_search? h
    let before := Text.trim before
    if before.isEmpty then do return clause :: (← readAll rest)
    else .error (.syntaxError (.unreadableJoin (String.ofList before)))
termination_by s.length

/-! ## Finding the tables -/

/-- Finds the two columns of a join that adds `target`: one of them has to be of the target, the
other of a table before it. -/
def orient (clause : JoinClause) (scope : Scope) (target : Source) : Except Error Join := do
  let (leftSource, leftColumn) ← scope.resolve clause.left
  let (rightSource, rightColumn) ← scope.resolve clause.right
  let leftIsTarget := leftSource.name == target.name
  let rightIsTarget := rightSource.name == target.name
  if rightIsTarget && !leftIsTarget then
    return ⟨target, leftSource.name, leftColumn, rightColumn⟩
  else if leftIsTarget && !rightIsTarget then
    return ⟨target, rightSource.name, rightColumn, leftColumn⟩
  else .error (.expression (.unjoinedTable clause.left clause.right target.name))

/-- Finds the tables and the columns of joins, and adds the tables to the scope. -/
def bind (tables : Database) (scope : Scope) : List JoinClause → Except Error (List Join × Scope)
  | [] => .ok ([], scope)
  | clause :: clauses => do
    match tables.get? clause.table with
    | none => .error (.table (.tableMissing clause.table))
    | some table =>
      let target : Source := ⟨table, clause.nickname, false⟩
      let scope ← scope.add target
      let join ← clause.orient scope target
      let (joins, scope) ← bind tables scope clauses
      return (join :: joins, scope)

end JoinClause

/-! ## Joining -/

namespace Join

/-- Whether two cells are joined. -/
def agree (left right : Value) : Except Error Bool :=
  if left.isNull || right.isNull then .ok false else left.equal right

/-- The rows that a join makes of one row. -/
def extendRow (join : Join) (id : RowId) (row : JoinedRow) :
    Except Error (List (RowId × JoinedRow)) :=
  let left := ((row.get? join.leftTable).map (·.cell join.leftColumn)).getD .null
  join.target.table.rows.entries.filterMapM fun (targetId, targetRow) => do
    if ← agree left (targetRow.cell join.rightColumn) then
      return some (id.join targetId, row.insert join.target.name targetRow)
    else return none

/-- Rows of a query with the rows of one more table. -/
def extend (join : Join) (rows : JoinedRows) : Except Error JoinedRows := do
  return .ofList (← rows.entries.flatMapM fun (id, row) => join.extendRow id row)

/-- Rows of the first table with the rows of all joined tables. -/
def extendAll : List Join → JoinedRows → Except Error JoinedRows
  | [], rows => .ok rows
  | join :: joins, rows => do extendAll joins (← join.extend rows)

/-- The position of a joined table in the identities of joined rows; the first table stands at
zero. -/
def position? (joins : List Join) (name : String) : Option Nat :=
  (joins.findIdx? fun join => join.target.name == name).map (· + 1)

end Join

end Relational
