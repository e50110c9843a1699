import Relational.Schema

/-!
# Indexes

An index knows the rows by the key of some of their columns. A row with a null among these columns
is in no entry; an entry without rows is dropped.
-/

namespace Relational

structure Index where
  columns : List String
  unique : Bool
  entries : SortedMap String (SortedSet RowId)
deriving DecidableEq

namespace Index

/-- The index of a definition, without rows. -/
def ofDefinition (definition : IndexDefinition) : Index :=
  ⟨definition.columns, definition.unique, .empty⟩

def key? (index : Index) (row : Row) : Option String :=
  row.key? index.columns

/-- The rows under a key. -/
def lookup (index : Index) (key : String) : SortedSet RowId :=
  (index.entries.get? key).getD .empty

/-- The index with a row more. -/
def add (index : Index) (id : RowId) (row : Row) : Index :=
  match index.key? row with
  | none => index
  | some key => { index with entries := index.entries.insert key ((index.lookup key).add id) }

/-- The index with a row less. -/
def remove (index : Index) (id : RowId) (row : Row) : Index :=
  match index.key? row with
  | none => index
  | some key =>
    match index.entries.get? key with
    | none => index
    | some ids =>
      let left := SortedMap.erase ids id
      if left.isEmpty then { index with entries := index.entries.erase key }
      else { index with entries := index.entries.insert key left }

/-- The index with some rows less. -/
def removeAll (index : Index) (rows : SortedMap RowId Row) : Index :=
  rows.entries.foldl (fun index (id, row) => index.remove id row) index

/-- The index of a definition over rows. -/
def build (definition : IndexDefinition) (rows : SortedMap RowId Row) : Index :=
  rows.entries.foldl (fun index (id, row) => index.add id row) (ofDefinition definition)

/-- Whether two rows have one key. -/
def hasDuplicates (index : Index) : Bool :=
  index.entries.values.any fun ids => 1 < ids.size

end Index

end Relational
