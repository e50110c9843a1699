import Relational.Table.Index
import Relational.Text.Bytes

/-!
# Index files

An index is stored as bytes: counts take eight bytes, the lowest first; a list is the count of its
items and the items; a text is a list of the bytes of its UTF-8 form; a truth value is one byte.
Bytes behind the index are passed over.
-/

namespace Relational.IndexFile

/-! ## Writing -/

/-- A number in so many bytes, the lowest first. -/
def encodeBytes : Nat → Nat → List UInt8
  | 0, _ => []
  | width + 1, n => UInt8.ofNat n :: encodeBytes width (n / 256)

def encodeCount (n : Nat) : List UInt8 :=
  encodeBytes 8 n

def encodeList {α : Type} (item : α → List UInt8) (l : List α) : List UInt8 :=
  encodeCount l.length ++ l.flatMap item

def encodeText (s : String) : List UInt8 :=
  let bytes := Text.toBytes s.toList
  encodeCount bytes.length ++ bytes

def encodeBool (b : Bool) : List UInt8 :=
  [if b then 1 else 0]

def encodeId (id : RowId) : List UInt8 :=
  encodeList encodeText id.parts

def encodeEntry (entry : String × SortedSet RowId) : List UInt8 :=
  encodeText entry.1 ++ encodeList encodeId entry.2.elements

/-- The content of the file of an index. -/
def encode (index : Index) : List UInt8 :=
  encodeList encodeText index.columns ++ encodeBool index.unique ++
    encodeList encodeEntry index.entries.entries

/-! ## Reading -/

/-- Reads something from the start of bytes, and returns the bytes behind it. -/
abbrev Reader (α : Type) := StateT (List UInt8) Option α

def readByte : Reader UInt8
  | [] => none
  | b :: bytes => some (b, bytes)

/-- Reads a number of so many bytes, the lowest first. -/
def readBytes : Nat → Reader Nat
  | 0 => pure 0
  | width + 1 => do
    let low ← readByte
    return low.toNat + 256 * (← readBytes width)

def readCount : Reader Nat :=
  readBytes 8

/-- Reads so many items. -/
def readItems {α : Type} (item : Reader α) : Nat → Reader (List α)
  | 0 => pure []
  | count + 1 => do
    let first ← item
    return first :: (← readItems item count)

def readList {α : Type} (item : Reader α) : Reader (List α) := do
  readItems item (← readCount)

def readText : Reader String := do
  let bytes ← readList readByte
  match Text.ofBytes? bytes with
  | some s => return String.ofList s
  | none => failure

def readBool : Reader Bool := do
  match ← readByte with
  | 0 => return false
  | 1 => return true
  | _ => failure

def readId : Reader RowId := do
  return ⟨← readList readText⟩

def readEntry : Reader (String × SortedSet RowId) := do
  let key ← readText
  return (key, .ofElements (← readList readId))

/-- Reads the content of a file. -/
def decode? (bytes : List UInt8) : Option Index :=
  (do
    let columns ← readList readText
    let unique ← readBool
    let entries ← readList readEntry
    return (⟨columns, unique, .ofList entries⟩ : Index)).run' bytes

end Relational.IndexFile
