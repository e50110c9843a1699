import Relational.Disk.Path
import Relational.Ordered.Map
import Relational.Text.Bytes

/-!
# Disks

A tree of directories and files, as a map from places. A path leads from the root to a place, and
each segment of it has to be taken from a directory (`Disk.walk?`). Every change of a disk can fail,
some of them halfway, and a list of changes stops at the first that fails (`Disk.applyAll`).
-/

namespace Relational

/-- The names on the way from the root. -/
abbrev Place := List String

/-- The content of a file, worked out when it is looked at: a file that is written again and again
costs no more than its place until then. -/
structure Content where
  bytes : Unit → List UInt8

namespace Content

def ofBytes (bytes : List UInt8) : Content := ⟨fun _ => bytes⟩

theorem ext {a b : Content} (h : a.bytes () = b.bytes ()) : a = b := by
  obtain ⟨f⟩ := a
  obtain ⟨g⟩ := b
  exact congrArg Content.mk (funext fun _ => h)

instance : DecidableEq Content := fun a b =>
  if h : a.bytes () = b.bytes () then isTrue (ext h) else isFalse fun e => h (e ▸ rfl)

end Content

inductive DiskEntry where
  | directory
  | file (content : Content)
deriving DecidableEq

/-- What stands at each place below the root; the root is a directory. -/
structure Disk where
  entries : SortedMap Place DiskEntry
deriving DecidableEq

inductive DiskChange where
  /-- Makes a directory and those above it, where they are missing. -/
  | makeDirectory (path : Path)
  /-- Looks into a directory. -/
  | readDirectory (path : Path)
  /-- Writes a whole file, in place of the one there. -/
  | write (path : Path) (content : Content)
  | removeFile (path : Path)
  /-- Removes a directory and all below it. -/
  | removeTree (path : Path)
deriving DecidableEq

namespace Disk

def empty : Disk := ⟨.empty⟩

/-! ## Looking -/

def entry? (disk : Disk) (place : Place) : Option DiskEntry :=
  if place = [] then some .directory else disk.entries.get? place

def isDirectory (disk : Disk) (place : Place) : Bool :=
  disk.entry? place == some .directory

/-- The place that segments lead to from another, if there is something. -/
def walk? (disk : Disk) (place : Place) : List String → Option Place
  | [] => some place
  | segment :: segments =>
    if !disk.isDirectory place then none
    else if Path.stays segment then disk.walk? place segments
    else if segment = ".." then disk.walk? place.dropLast segments
    else if (disk.entry? (place ++ [segment])).isSome then disk.walk? (place ++ [segment]) segments
    else none

/-- The place that a path leads to, if there is something. -/
def find? (disk : Disk) (path : Path) : Option Place :=
  if path.isUsable then disk.walk? [] path.segments else none

def hasEntry (disk : Disk) (path : Path) : Bool :=
  (disk.find? path).isSome

/-- The content of a file. -/
def file? (disk : Disk) (path : Path) : Option (List UInt8) :=
  match (disk.find? path).bind disk.entry? with
  | some (.file content) => some (content.bytes ())
  | _ => none

/-- The names in a directory and what stands under them. -/
def children (disk : Disk) (place : Place) : List (String × DiskEntry) :=
  disk.entries.entries.filterMap fun (other, entry) =>
    match other.getLast? with
    | some name => if other.dropLast = place then some (name, entry) else none
    | none => none

/-- The names in the directory that a path leads to and what stands under them, if it is one. -/
def children? (disk : Disk) (path : Path) : Option (List (String × DiskEntry)) :=
  (disk.find? path).bind fun place =>
    if disk.isDirectory place then some (disk.children place) else none

/-! ## Changing -/

/-- Makes the directories along segments, from a directory that is there; tells whether they are all
there then. -/
def makeAlong (disk : Disk) (place : Place) : List String → Bool × Disk
  | [] => (true, disk)
  | segment :: segments =>
    if segment = ".." then disk.makeAlong place.dropLast segments
    else
      let below := place ++ [segment]
      match disk.entry? below with
      | some .directory => disk.makeAlong below segments
      | some (.file _) => (false, disk)
      | none =>
        if Path.isName segment then
          makeAlong ⟨disk.entries.insert below .directory⟩ below segments
        else (false, disk)

/-- Makes the directories along a path. A path that ends in `.` needs the directory before the dot,
so this one is not made. -/
def makeDirectory (disk : Disk) (path : Path) : Bool × Disk :=
  if !path.isUsable then (false, disk)
  else if path.trimmed.getLast? = some "." then
    match disk.makeAlong [] path.leading.dropLast with
    | (true, disk) => ((disk.children? path).isSome, disk)
    | (false, disk) => (false, disk)
  else disk.makeAlong [] path.leading

/-- The place where a file can be written under a path. -/
def writable? (disk : Disk) (path : Path) : Option Place :=
  match path.segments.getLast?, disk.find? ⟨path.segments.dropLast⟩ with
  | some name, some place =>
    if path.isUsable && Path.isName name && disk.isDirectory place &&
        !disk.isDirectory (place ++ [name]) then
      some (place ++ [name])
    else none
  | _, _ => none

/-- The disk without what is below a place. -/
def emptied (disk : Disk) (place : Place) : Disk :=
  ⟨disk.entries.filter fun other _ => other = place || !place.isPrefixOf other⟩

/-- Removes a directory and all below it: first what is below, and then the directory, under its
path. A path that leads through what was below leads nowhere then, and the directory is left there;
one that ends in `.` or `..` cannot be removed. -/
def removeTree (disk : Disk) (path : Path) : Bool × Disk :=
  match disk.find? path with
  | none => (false, disk)
  | some place =>
    if !disk.isDirectory place then (false, disk)
    else
      let disk := disk.emptied place
      match disk.walk? [] path.trimmed.dropLast with
      | none => (true, disk)
      | some _ =>
        if path.trimmed.getLast?.any Path.isName then (true, ⟨disk.entries.erase place⟩)
        else (false, disk)

/-- Makes a change, and tells whether it could be made. -/
def apply (disk : Disk) : DiskChange → Bool × Disk
  | .makeDirectory path => disk.makeDirectory path
  | .readDirectory path => ((disk.children? path).isSome, disk)
  | .write path content =>
    match disk.writable? path with
    | some place => (true, ⟨disk.entries.insert place (.file content)⟩)
    | none => (false, disk)
  | .removeFile path =>
    match disk.find? path with
    | none => (false, disk)
    | some place =>
      if disk.isDirectory place then (false, disk) else (true, ⟨disk.entries.erase place⟩)
  | .removeTree path => disk.removeTree path

/-- Makes changes up to the first that cannot be made, and tells whether all were made. -/
def applyAll (disk : Disk) : List DiskChange → Bool × Disk
  | [] => (true, disk)
  | change :: changes =>
    match disk.apply change with
    | (true, disk) => disk.applyAll changes
    | (false, disk) => (false, disk)

/-- Changes that make another disk out of a disk: what is gone is removed, the deepest first; then
what is new or different is written, directories before what is in them. -/
def difference (old new : Disk) : List DiskChange :=
  let removed := old.entries.entries.reverse.filterMap fun (place, entry) =>
    match entry, new.entries.get? place with
    | .directory, some .directory => none
    | .file _, some (.file _) => none
    | .directory, _ => some (.removeTree ⟨place⟩)
    | .file _, _ => some (.removeFile ⟨place⟩)
  let written := new.entries.entries.filterMap fun (place, entry) =>
    if old.entries.get? place = some entry then none
    else match entry with
      | .directory => some (.makeDirectory ⟨place⟩)
      | .file content => some (.write ⟨place⟩ content)
  removed ++ written

end Disk

end Relational
