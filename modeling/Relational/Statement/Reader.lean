import Relational.Pattern
import Relational.Statement
import Relational.Text.Grouped

/-!
# Reading statements

Each kind of statement has a pattern, and a text is a statement of the first kind whose pattern it
fits. A text that fits a pattern can still be faulty: its kind is known then, and the fault is kept
in the statement. A text that fits none is no statement.
-/

namespace Relational

namespace Pattern

def isParenthesis (c : Char) : Bool :=
  c == '(' || c == ')'

/-- Whether each parenthesis of a text is closed before the next one opens; `inside` tells whether
one is open. -/
def isFlat (inside : Bool) : List Char → Bool
  | [] => !inside
  | c :: s =>
    if c = '(' then !inside && isFlat true s
    else if c = ')' then inside && isFlat false s
    else isFlat inside s

/-- What stands in the parentheses around the rest of the text, if it passes a test. -/
def enclosed (p : List Char → Bool) : Pattern (List Char)
  | '(' :: s =>
    if s.getLast? = some ')' ∧ p s.dropLast then [(s.dropLast, [])] else []
  | _ => []

/-- Two keywords in front of something. -/
def opening (first second : String) : Pattern Unit := do
  keyword first
  gap
  keyword second
  gap

/-- A name behind two keywords. -/
def named (first second : String) : Pattern String := do
  opening first second
  name

/-- A condition up to the end of the text, if there is one. -/
def condition? : Pattern (Option (List Char)) :=
  optional do
    gap
    keyword "WHERE"
    gap
    remainder

def createTable : Pattern (String × List Char) := do
  let table ← named "CREATE" "TABLE"
  blanks
  return (table, ← enclosed (isFlat false))

/-- An index name, its table, its columns and whether it is unique. -/
def createIndex : Pattern (String × String × List Char × Bool) := do
  keyword "CREATE"
  gap
  let unique ← optional do
    keyword "UNIQUE"
    gap
  keyword "INDEX"
  gap
  let index ← name
  gap
  keyword "ON"
  gap
  let table ← name
  blanks
  let columns ← enclosed fun s => !s.any isParenthesis
  return (index, table, columns, unique.isSome)

def use : Pattern String := do
  keyword "USE"
  gap
  name

/-- A list of columns in parentheses. -/
def columnList : Pattern (List Char) := do
  char '('
  let columns ← many fun c => !isParenthesis c
  char ')'
  blanks
  return columns

/-- A table, its columns if they are listed, and the rows. The keyword in front of the rows may be
the end of the word that begins with the table. -/
def insert : Pattern (String × Option (List Char) × List Char) := do
  opening "INSERT" "INTO"
  let table ← orElse word (wordButLast "VALUES".length)
  blanks
  let columns ← optional columnList
  keyword "VALUES"
  blanks
  let rows ← enclosed fun _ => true
  return (String.ofList table, columns, '(' :: (rows ++ [')']))

def delete : Pattern (String × Option (List Char)) := do
  let table ← named "DELETE" "FROM"
  return (table, ← condition?)

/-- A second name behind a table, with or without `AS`. -/
def aliasName : Pattern (List Char) := do
  gap
  let _ ← optional do
    keyword "AS"
    gap
  word

/-- A name that may be two names with a dot between them. -/
def reference : Pattern (List Char) :=
  many1 fun c => isWordChar c || c == '.'

/-- A join behind a table. -/
def joined : Pattern Unit := do
  gap
  let _ ← optional do
    keyword "INNER"
    gap
  keyword "JOIN"
  gap
  let _ ← word
  let _ ← optional aliasName
  gap
  keyword "ON"
  gap
  let _ ← reference
  blanks
  char '='
  blanks
  let _ ← reference

/-- The columns, up to a blank. Where nothing but blanks stands in their place, the last but one of
these is taken for a column. -/
def columns : Pattern Stretch :=
  orElse
    (do
      gap
      stretch upToBlank)
    fun s =>
      let count := (s.takeWhile isBlank).length
      if 3 ≤ count then [(⟨s.drop (count - 2), s.drop (count - 1)⟩, s.drop (count - 1))] else []

/-- A table and its alias. -/
def aliasedTable : Pattern Unit := do
  let _ ← word
  let _ ← optional aliasName

/-- The list of columns, the table with its alias, the joins and the condition. -/
def select : Pattern (Stretch × Stretch × Stretch × Option (List Char)) := do
  keyword "SELECT"
  let columns ← columns
  gap
  keyword "FROM"
  gap
  let table ← stretch aliasedTable
  let joins ← stretch (star joined)
  let condition ← condition?
  finish
  return (columns, table, joins, condition)

end Pattern

namespace Statement

/-- The words that cannot be an alias. -/
def reservedWords : List String := ["WHERE", "JOIN", "INNER", "ON", "AS"]

/-- A table and its alias. -/
def readTable (s : List Char) : Except SyntaxFault (String × Option String) := do
  let (table, nickname) ← match Text.words s with
    | [table] => .ok (table, none)
    | [table, nickname] => .ok (table, some nickname)
    | [table, separator, nickname] =>
      if Text.sameWord separator "AS".toList then .ok (table, some nickname)
      else .error (.unreadableTable (String.ofList s))
    | _ => .error (.unreadableTable (String.ofList s))
  match nickname with
  | none => return (String.ofList table, none)
  | some nickname =>
    if reservedWords.any fun reserved => Text.sameWord reserved.toList nickname then
      .error (.reservedAlias (String.ofList nickname))
    return (String.ofList table, some (String.ofList nickname))

def readIndex (index table : String) (columns : List Char) (unique : Bool) :
    Except SyntaxFault Statement :=
  let columns := Text.splitCommas columns
  if columns.isEmpty || columns.any List.isEmpty then .error (.missingIndexColumns index)
  else .ok (createIndex ⟨index, columns.map String.ofList, unique⟩ table)

def readInsert (table : String) (columns : Option (List Char)) (rows : List Char) :
    Except SyntaxFault Statement := do
  let rows ← Text.groups rows
  if rows.isEmpty then .error .missingValues
  return insert table (columns.map fun s => (Text.splitCommas s).map String.ofList) rows

def readSelect (columns table joins : List Char) (condition : Option (List Char)) :
    Except SyntaxFault Statement := do
  let (table, nickname) ← readTable table
  return select ⟨columns, table, nickname, joins, condition⟩

/-- The statement that was read, or the fault in one of its kind. -/
def orFaulty (kind : StatementKind) : Except SyntaxFault Statement → Statement
  | .ok statement => statement
  | .error fault => faulty kind fault

/-- A text as a statement of a kind. -/
def readAs? (kind : StatementKind) (s : List Char) : Option Statement :=
  match kind with
  | .createDatabase => ((Pattern.named "CREATE" "DATABASE").whole? s).map createDatabase
  | .dropDatabase => ((Pattern.named "DROP" "DATABASE").whole? s).map dropDatabase
  | .createTable => (Pattern.createTable.whole? s).map fun (table, definition) =>
      createTable table definition
  | .dropTable => ((Pattern.named "DROP" "TABLE").whole? s).map dropTable
  | .createIndex => (Pattern.createIndex.whole? s).map fun (index, table, columns, unique) =>
      orFaulty .createIndex (readIndex index table columns unique)
  | .use => (Pattern.use.whole? s).map use
  | .insert => (Pattern.insert.whole? s).map fun (table, columns, rows) =>
      orFaulty .insert (readInsert table columns rows)
  | .delete => (Pattern.delete.whole? s).map fun (table, condition) => delete table condition
  | .select => (Pattern.select.whole? s).map fun (columns, table, joins, condition) =>
      orFaulty .select (readSelect columns.text table.text joins.text condition)

/-- The kinds of statements, in the order in which they are tried. -/
def kinds : List StatementKind :=
  [.createDatabase, .dropDatabase, .createTable, .dropTable, .createIndex, .use, .insert, .delete,
   .select]

/-- Reads a statement that has no blanks around it. -/
def read? (s : List Char) : Option Statement :=
  kinds.findSome? fun kind => readAs? kind s

end Statement

end Relational
