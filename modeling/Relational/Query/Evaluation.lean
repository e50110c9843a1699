import Relational.Condition
import Relational.Query.Join

/-!
# Evaluating conditions

A condition picks rows of a query. Each comparison first picks rows of one table, by an index, by
the primary key or by looking at every row, and these are then joined with the other tables; `AND`
and `OR` work on the joined rows.
-/

namespace Relational

/-- The tables of a query: the one it starts from, the joins, and what names stand for. -/
structure Query where
  first : Source
  joins : List Join
  scope : Scope
deriving DecidableEq

namespace Query

/-- The query that starts from a source and has the joins of some clauses. -/
def build (tables : Database) (first : Source) (joins : List Char) : Except Error Query := do
  let scope ← Scope.empty.add first
  let clauses ← JoinClause.readAll joins
  let (joins, scope) ← JoinClause.bind tables scope clauses
  return ⟨first, joins, scope⟩

/-- All rows of the query. -/
def rows (query : Query) : Except Error JoinedRows :=
  Join.extendAll query.joins query.first.rows

/-- The rows of the query in which a source contributes one of some rows. -/
def expand (query : Query) (source : Source) (ids : SortedSet RowId) : Except Error JoinedRows :=
  if source.name = query.first.name then
    Join.extendAll query.joins (source.group (source.table.select (some ids) []))
  else
    match Join.position? query.joins source.name with
    | none => .error (.table (.notInQuery source.name))
    | some position => do
      let joined ← query.rows
      let tree := SortedMap.searchTree ids
      return joined.filter fun id _ => (id.part? position).any tree.contains

/-- The column that an operand of a condition stands for. -/
def resolve (query : Query) (operand : Operand) : Except Error (Source × String) :=
  match operand.columnName? with
  | some name => query.scope.resolve name
  | none => .error (.tree (.misplaced operand.raw))

/-- The value that an operand of a condition stands for. -/
def constant (operand : Operand) : Except Error Value :=
  match operand.value? with
  | some value => .ok value
  | none => .error (.tree (.misplaced operand.raw))

end Query

/-- Finds the rows of a list that pass a test. -/
def Row.findAll (test : Row → Except Error Bool) (rows : List (RowId × Row)) :
    Except Error (SortedSet RowId) := do
  let found ← rows.filterM fun (_, row) => test row
  return .ofElements (found.map (·.1))

namespace Source

/-- How the rows are found whose column equals a constant. -/
inductive Lookup where
  | index (name : String)
  | primaryKey (position : Nat)
  | scan
deriving DecidableEq

/-- An index of the column alone goes first, then the primary key. Only an equality with a value
that is no null can use them. -/
def lookup (source : Source) (op : Operator) (column : String) (value : Value) : Lookup :=
  if op ≠ .comparison .eq ∨ value.isNull ∨ source.scanned then .scan
  else match source.table.schema.indexedColumns.get? column with
    | some index => .index index
    | none =>
      match source.table.schema.primaryKeys.findIdx? (· == column) with
      | some position => .primaryKey position
      | none => .scan

/-- The rows whose column compares with a constant as an operator asks. -/
def find (source : Source) (op : Operator) (column : Column) (value : Value) :
    Except Error (SortedSet RowId) :=
  match source.lookup op column.name value with
  | .index index =>
    match column.type.stored? value with
    | some key => source.table.findByIndex index key
    | none => .ok .empty
  | .primaryKey position =>
    match column.type.stored? value with
    | some key => source.table.findByPrimaryKey position key
    | none => .ok .empty
  | .scan =>
    Row.findAll (fun row => op.holds (row.cell column.name) value) source.table.rows.entries

end Source

namespace Query

/-- Two columns of one table. -/
def compareColumns (query : Query) (op : Operator) (left right : Operand) :
    Except Error JoinedRows := do
  let (leftSource, leftColumn) ← query.resolve left
  let (rightSource, rightColumn) ← query.resolve right
  if leftSource.name ≠ rightSource.name then
    .error (.expression (.columnsOfTwoTables left.raw right.raw))
  let ids ← Row.findAll (fun row => op.holds (row.cell leftColumn) (row.cell rightColumn))
    leftSource.table.rows.entries
  query.expand leftSource ids

/-- A column and a constant. -/
def compareConstant (query : Query) (op : Operator) (left right : Operand) :
    Except Error JoinedRows := do
  let (source, name) ← query.resolve left
  match source.column? name with
  | none => .error (.unknownColumn left.raw)
  | some column =>
    let value ← constant right
    column.type.checkComparable value
    query.expand source (← source.find op column value)

/-- Two constants pick all rows or none. -/
def compareConstants (query : Query) (op : Operator) (left right : Operand) :
    Except Error JoinedRows := do
  let l ← constant left
  let r ← constant right
  if ← op.holds l r then query.rows else return .empty

/-- The rows of the query that a condition picks. -/
def evaluate (query : Query) : Condition → Except Error JoinedRows
  | .and left right => do
    let left ← query.evaluate left
    let right ← query.evaluate right
    return left.restrict right
  | .or left right => do
    let left ← query.evaluate left
    let right ← query.evaluate right
    return right.union left
  | tree@(.compare op left right) =>
    if !op.isComparison then .error (.operator op.spelling)
    else match left, right with
      | .column l, .column r => query.compareColumns op l r
      | .value l, .column r => query.compareConstant op.inverted r l
      | .column l, .value r => query.compareConstant op l r
      | .value l, .value r => query.compareConstants op l r
      | _, _ => .error (.tree (.misplaced tree.shown))
  | tree => .error (.tree (.misplaced tree.shown))

end Query

end Relational
