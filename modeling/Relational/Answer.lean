import Relational.Value

/-!
# Answers

What a statement gives back: a table of values, messages, or an error.
-/

namespace Relational

structure Answer where
  fields : List String
  rows : List (List Value)
  messages : List String
  error : Option String
deriving DecidableEq

namespace Answer

def ofMessage (message : String) : Answer := ⟨[], [], [message], none⟩

def ofRows (fields : List String) (rows : List (List Value)) : Answer := ⟨fields, rows, [], none⟩

def ofError (error : String) : Answer := ⟨[], [], [], some error⟩

def isError (answer : Answer) : Bool :=
  answer.error.isSome

/-- Whether the answer has a table, be it without rows. -/
def hasRows (answer : Answer) : Bool :=
  !answer.fields.isEmpty

end Answer

end Relational
