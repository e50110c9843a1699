import Relational.Operand
import Relational.Query.Source

/-!
# Scopes

The sources of a query, each under another name, and what a name stands for among them. An alias
goes before a table's own name. A column is written alone, if only one source has it, or behind the
name of a source and a dot.
-/

namespace Relational

/-- The sources of a query, in the order in which it names them. -/
structure Scope where
  sources : List Source
deriving DecidableEq

namespace Scope

def empty : Scope := ⟨[]⟩

/-- The scope with a source more; its name must not be in use. -/
def add (scope : Scope) (source : Source) : Except Error Scope :=
  if scope.sources.any fun other => other.name == source.name then
    .error (.table (.nameTaken source.name))
  else .ok ⟨scope.sources ++ [source]⟩

/-- The position of the source that a name stands for. -/
def position? (scope : Scope) (name : String) : Option Nat :=
  match scope.sources.findIdx? fun source => source.nickname == some name with
  | some position => some position
  | none => scope.sources.findIdx? fun source => source.table.schema.name == name

/-- The source that a name stands for, if there is one. -/
def source? (scope : Scope) (name : String) : Option Source :=
  match scope.sources.find? fun source => source.nickname == some name with
  | some source => some source
  | none => scope.sources.find? fun source => source.table.schema.name == name

/-- The source that a name stands for. -/
def source (scope : Scope) (name : String) : Except Error Source :=
  match scope.source? name with
  | some source => .ok source
  | none => .error (.table (.notInQuery name))

/-- The source and the column that a reference stands for. -/
def resolve (scope : Scope) (reference : String) : Except Error (Source × String) :=
  match Operand.splitDot reference.toList with
  | some (qualifier, column) =>
    let column := String.ofList column
    match scope.source? (String.ofList qualifier) with
    | none => .error (.unknownColumn reference)
    | some source =>
      if source.hasColumn column then .ok (source, column)
      else .error (.unknownColumn reference)
  | none =>
    match scope.sources.filter (·.hasColumn reference) with
    | [] => .error (.unknownColumn reference)
    | [source] => .ok (source, reference)
    | _ => .error (.ambiguousColumn reference)

/-- The columns of every source, each with the name of its source. -/
def columns (scope : Scope) : List (String × String) :=
  scope.sources.flatMap fun source =>
    source.table.schema.columnNames.map fun column => (source.name, column)

/-- A column behind the name of its source and a dot. -/
def qualified (source column : String) : String :=
  source ++ "." ++ column

end Scope

end Relational
