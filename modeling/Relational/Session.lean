import Relational.Ordered.Map

/-!
# Sessions

Each session uses one database at most.
-/

namespace Relational

/-- What a session is known by: how many were opened before it. -/
abbrev SessionId := Nat

/-- The databases that sessions use. -/
structure Sessions where
  databases : SortedMap SessionId String
deriving DecidableEq

namespace Sessions

def empty : Sessions := ⟨.empty⟩

/-- The database that a session uses. -/
def database? (sessions : Sessions) (session : SessionId) : Option String :=
  sessions.databases.get? session

def use (sessions : Sessions) (session : SessionId) (database : String) : Sessions :=
  ⟨sessions.databases.insert session database⟩

def close (sessions : Sessions) (session : SessionId) : Sessions :=
  ⟨sessions.databases.erase session⟩

/-- No session uses the database any more. -/
def forget (sessions : Sessions) (database : String) : Sessions :=
  ⟨sessions.databases.filter fun _ used => used != database⟩

end Sessions

end Relational
