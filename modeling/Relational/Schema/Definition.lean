import Relational.Pattern
import Relational.Schema
import Relational.Text.Case
import Relational.Text.Grouped

/-!
# Table definitions

The definition of a table is a list of column definitions and of keys over several columns. A column
definition is a name, a type with a length at most, and constraints. A unique key of one column is a
constraint of that column; one of several columns is a unique index.
-/

namespace Relational

/-- A key of a table: its columns, and whether it is the primary key. -/
structure KeyDefinition where
  isPrimary : Bool
  columns : List String
deriving DecidableEq

namespace Pattern

/-- The kind of a key, which is primary or not, and its columns. -/
def keyDefinition : Pattern (Bool × List Char) := do
  let isPrimary ← orElse
    (do keyword "PRIMARY"; gap; keyword "KEY"; return true)
    (do keyword "UNIQUE"; return false)
  blanks
  char '('
  let columns ← many fun c => c ≠ '(' && c ≠ ')'
  char ')'
  return (isPrimary, columns)

/-- The digits of a length in parentheses. -/
def typeLength : Pattern (List Char) := do
  blanks
  char '('
  blanks
  let digits ← many1 isWordDigit
  blanks
  char ')'
  return digits

/-- The name, the type, its length and the constraints of a column. -/
def columnDefinition : Pattern (String × List Char × Option (List Char) × List Char) := do
  let column ← name
  gap
  let type ← many1 Text.isFoldedLetter
  let length ← optional typeLength
  let constraints ← ahead
  return (column, type, length, constraints)

end Pattern

namespace ColumnType

/-- The type of a name in capitals and a length. A length has the digits `0` to `9` only and fits
into 64 bits. -/
def ofName (type : String) (length : Option (List Char)) : Except SyntaxFault ColumnType :=
  let isVarchar := type == "VARCHAR" || type == "CHAR"
  match length with
  | none =>
    if type = "INT" ∨ type = "INTEGER" then .ok int
    else if type = "FLOAT" ∨ type = "REAL" ∨ type = "DOUBLE" then .ok float
    else if type = "DATE" then .ok date
    else if type = "BIT" then .ok bit
    else if isVarchar then .error .expectedLength
    else .error (.unknownType type)
  | some digits =>
    if isVarchar then
      match Integer.ofDigits? digits with
      | some n => if n < 18446744073709551616 then .ok (varchar n) else .error .expectedLength
      | none => .error .expectedLength
    else .error (.unknownType type)

end ColumnType

namespace Column

/-- Puts constraints on a column, given as words in capitals. -/
def constrain (column : Column) : List String → Except SyntaxFault Column
  | [] => .ok column
  | "PRIMARY" :: "KEY" :: words =>
    constrain { column with primaryKey := true, nullable := false } words
  | "NOT" :: "NULL" :: words => constrain { column with nullable := false } words
  | "NULL" :: words => constrain column words
  | "UNIQUE" :: words => constrain { column with unique := true } words
  | word :: _ => .error (.unknownConstraint word)

/-- Reads the definition of a column. -/
def ofDefinition (s : List Char) : Except SyntaxFault Column :=
  match Pattern.columnDefinition.first? s with
  | none => .error (.unreadableColumn (String.ofList s))
  | some ((name, type, length, constraints), _) => do
    let type ← ColumnType.ofName (String.ofList (Text.upper type)) length
    let words := (Text.words constraints).map fun word => String.ofList (Text.upper word)
    constrain ⟨name, type, true, false, false⟩ words

end Column

namespace KeyDefinition

/-- Reads a key definition, if a text is one. -/
def read? (s : List Char) : Option (Except SyntaxFault KeyDefinition) :=
  (Pattern.keyDefinition.whole? s).map fun (isPrimary, columns) =>
    let names := Text.splitCommas columns
    if names.isEmpty || names.any List.isEmpty then .error (.missingKeyColumns (String.ofList s))
    else .ok ⟨isPrimary, names.map String.ofList⟩

end KeyDefinition

namespace Schema

/-- What a definition lists: columns, the primary key if it is listed apart, and unique keys. -/
structure Outline where
  columns : List Column
  primaryKey : Option (List String)
  uniqueKeys : List (List String)

/-- Takes an item of a definition in. -/
def Outline.add (outline : Outline) (item : List Char) : Except SyntaxFault Outline := do
  if item.isEmpty then .error .expectedColumn
  match KeyDefinition.read? item with
  | some key =>
    let key ← key
    if !key.isPrimary then
      return { outline with uniqueKeys := outline.uniqueKeys ++ [key.columns] }
    if outline.primaryKey.isSome then .error .severalPrimaryKeys
    return { outline with primaryKey := some key.columns }
  | none =>
    let column ← Column.ofDefinition item
    if outline.columns.any fun other => other.name == column.name then
      .error (.repeatedColumn column.name)
    return { outline with columns := outline.columns ++ [column] }

/-- The columns of the primary key, which is defined once: apart, or with one column. -/
def Outline.primaryKeys (outline : Outline) : Except SyntaxFault (List String) :=
  let marked := (outline.columns.filter (·.primaryKey)).map (·.name)
  match outline.primaryKey, marked with
  | some names, [] => .ok names
  | none, [] => .ok []
  | none, [name] => .ok [name]
  | _, _ => .error .severalPrimaryKeys

/-- Replaces the first column of a name. -/
def updateColumn (name : String) (f : Column → Column) : List Column → List Column
  | [] => []
  | column :: columns =>
    if column.name = name then f column :: columns else column :: updateColumn name f columns

/-- Makes the columns of a key primary. -/
def markPrimary (columns : List Column) : List String → Except Error (List Column)
  | [] => .ok columns
  | name :: names =>
    if columns.any (·.name == name) then
      markPrimary
        (updateColumn name (fun c => { c with primaryKey := true, nullable := false }) columns)
        names
    else .error (.unknownColumn name)

/-- The name of the index that a unique key of several columns has. -/
def uniqueIndexName (table : String) (columns : List String) : String :=
  "uq_" ++ table ++ "_" ++ String.intercalate "_" columns

/-- Puts unique keys into a schema. -/
def addUniqueKeys (schema : Schema) : List (List String) → Except Error Schema
  | [] => .ok schema
  | names :: keys =>
    match names.find? fun name => (schema.column? name).isNone with
    | some name => .error (.unknownColumn name)
    | none =>
      match names with
      | [name] =>
        let columns := updateColumn name (fun c => { c with unique := true }) schema.columns
        addUniqueKeys { schema with columns } keys
      | names =>
        addUniqueKeys
          { schema with
            indexes := schema.indexes ++ [⟨uniqueIndexName schema.name names, names, true⟩] }
          keys

/-- Marks a fault as an error. -/
def orSyntaxError {α : Type} : Except SyntaxFault α → Except Error α
  | .ok a => .ok a
  | .error fault => .error (.syntaxError fault)

/-- Reads the definition of a table. -/
def ofDefinition (table : String) (s : List Char) : Except Error Schema := do
  let outline ← orSyntaxError ((Text.splitCommas s).foldlM Outline.add ⟨[], none, []⟩)
  let primaryKeys ← orSyntaxError outline.primaryKeys
  let columns ← markPrimary outline.columns primaryKeys
  addUniqueKeys ⟨table, columns, primaryKeys, []⟩ outline.uniqueKeys

end Schema

end Relational
