/-!
# Paths

A path is written as segments with slashes between them. A segment leads to what has its name; but
`..` leads back to the directory above, and `.` and the empty segment stay where they are
(`Path.stays`).
-/

namespace Relational

/-- The segments of a path as it is written, from the first to the last slash. -/
structure Path where
  segments : List String
deriving DecidableEq

namespace Path

/-- The path that a text writes. -/
def ofText (s : String) : Path :=
  ⟨split [] s.toList⟩
where
  split (segment : List Char) : List Char → List String
    | [] => [String.ofList segment.reverse]
    | c :: s =>
      if c = '/' then String.ofList segment.reverse :: split [] s else split (c :: segment) s

/-- Whether a segment stays where it is. -/
def stays (segment : String) : Bool :=
  segment == "" || segment == "."

/-- The segments up to the last that is not empty. -/
def trimmed (path : Path) : List String :=
  (path.segments.reverse.dropWhile (· == "")).reverse

/-- The segments that lead somewhere. -/
def leading (path : Path) : List String :=
  path.segments.filter fun segment => !stays segment

/-- A path behind another. One that begins with a slash does not depend on the other. -/
def join (path other : Path) : Path :=
  match other.segments with
  | "" :: _ :: _ => other
  | segments =>
    if path.segments.getLast? = some "" then ⟨path.segments.dropLast ++ segments⟩
    else ⟨path.segments ++ segments⟩

/-- How many bytes the path is written with. -/
def size (path : Path) : Nat :=
  path.segments.foldl (fun n segment => n + segment.utf8ByteSize + 1) 0 - 1

/-- Whether a disk takes the path at all. -/
def isUsable (path : Path) : Bool :=
  path.size < 4096 && path.segments.all fun segment => !segment.toList.contains '\x00'

/-- Whether something can have a name. -/
def isName (name : String) : Bool :=
  !stays name && name != ".." && name.utf8ByteSize ≤ 255

end Path

end Relational
