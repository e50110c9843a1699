import Relational.Error
import Relational.Schema

/-!
# Statements

What a script can ask for. Parts that are read only when the statement is carried out (column
definitions, the values of a row, a condition, a list of joins) are kept as the texts they were
written as.
-/

namespace Relational

/-- The parts of a `SELECT`, as they were written. -/
structure Selection where
  columns : List Char
  table : String
  nickname : Option String
  joins : List Char
  condition : Option (List Char)
deriving DecidableEq

/-- The kinds of statements. -/
inductive StatementKind where
  | createDatabase
  | dropDatabase
  | createTable
  | dropTable
  | createIndex
  | use
  | insert
  | delete
  | select
deriving DecidableEq

inductive Statement where
  | createDatabase (name : String)
  | dropDatabase (name : String)
  | createTable (name : String) (definition : List Char)
  | dropTable (name : String)
  | createIndex (definition : IndexDefinition) (table : String)
  | use (name : String)
  | insert (table : String) (columns : Option (List String)) (rows : List (List Char))
  | delete (table : String) (condition : Option (List Char))
  | select (selection : Selection)
  /-- A statement of a known kind that cannot be carried out as it is written. -/
  | faulty (kind : StatementKind) (fault : SyntaxFault)
deriving DecidableEq

namespace Statement

def kind : Statement → StatementKind
  | createDatabase _ => .createDatabase
  | dropDatabase _ => .dropDatabase
  | createTable _ _ => .createTable
  | dropTable _ => .dropTable
  | createIndex _ _ => .createIndex
  | use _ => .use
  | insert _ _ _ => .insert
  | delete _ _ => .delete
  | select _ => .select
  | faulty kind _ => kind

end Statement

end Relational
