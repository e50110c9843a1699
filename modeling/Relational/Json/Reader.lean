import Relational.Json.Token

/-!
# Reading JSON

The tokens of a document are taken in one by one. Between two tokens, a stack holds the arrays and
objects that are still open, each with what has been read of it, and `Expected` tells what may come.
-/

namespace Relational.Json

/-- An array or object that is still open, with what it holds so far, last first. -/
inductive Open where
  | array (items : List Json)
  | object (fields : List (List Char × Json))
  /-- An object that waits for the value of a field. -/
  | field (fields : List (List Char × Json)) (name : List Char)

/-- What comes next. -/
inductive Expected where
  | value
  /-- A value, or the end of an array that has just begun. -/
  | firstItem
  /-- A field, or the end of an object that has just begun. -/
  | firstField
  | field
  | colon (name : List Char)
  /-- A separator or a closing bracket behind a value, or the end. -/
  | behind (json : Json)

/-- Where reading stands. -/
structure Progress where
  opened : List Open
  expected : Expected

namespace Progress

def start : Progress := ⟨[], .value⟩

/-- Reads a token where a value may begin. -/
def beginValue (opened : List Open) : Token → Option Progress
  | .openArray => some ⟨.array [] :: opened, .firstItem⟩
  | .openObject => some ⟨.object [] :: opened, .firstField⟩
  | .string written => some ⟨opened, .behind (string written)⟩
  | .atom json => some ⟨opened, .behind json⟩
  | _ => none

/-- Reads a token behind a value. -/
def endValue (json : Json) : List Open → Token → Option Progress
  | .array items :: opened, .comma => some ⟨.array (json :: items) :: opened, .value⟩
  | .array items :: opened, .closeArray => some ⟨opened, .behind (array (json :: items).reverse)⟩
  | .field fields name :: opened, .comma =>
    some ⟨.object ((name, json) :: fields) :: opened, .field⟩
  | .field fields name :: opened, .closeObject =>
    some ⟨opened, .behind (object ((name, json) :: fields).reverse)⟩
  | _, _ => none

/-- Reads a token. -/
def read (progress : Progress) (token : Token) : Option Progress :=
  match progress.expected, progress.opened, token with
  | .value, opened, token => beginValue opened token
  | .firstItem, .array items :: opened, .closeArray => some ⟨opened, .behind (array items)⟩
  | .firstItem, opened, token => beginValue opened token
  | .firstField, .object fields :: opened, .closeObject => some ⟨opened, .behind (object fields)⟩
  | .firstField, opened, .string name => some ⟨opened, .colon name⟩
  | .field, opened, .string name => some ⟨opened, .colon name⟩
  | .colon name, .object fields :: opened, .colon => some ⟨.field fields name :: opened, .value⟩
  | .behind json, opened, token => endValue json opened token
  | _, _, _ => none

/-- The document, if one has been read to its end. -/
def result? : Progress → Option Json
  | ⟨[], .behind json⟩ => some json
  | _ => none

end Progress

/-- The document that tokens write. -/
def ofTokens? (tokens : List Token) : Option Json :=
  (tokens.foldlM Progress.read Progress.start).bind Progress.result?

/-- Reads a document; there is nothing but blanks around it. -/
def read? (s : List Char) : Option Json :=
  (tokens? s).bind ofTokens?

/-! ## Taking documents apart -/

def string? : Json → Option String
  | string written => unescape? written
  | _ => none

def bool? : Json → Option Bool
  | bool b => some b
  | _ => none

/-- A whole number, written without places, exponent or a minus before zero. -/
def int? : Json → Option Int
  | number written =>
    if written = ['-', '0'] then none else Integer.readInt? written
  | _ => none

def integer? (json : Json) : Option Integer :=
  json.int?.bind Integer.ofInt?

/-- A count that fits into 64 bits. -/
def nat? (json : Json) : Option Nat := do
  let n ← json.int?
  if 0 ≤ n ∧ n < 18446744073709551616 then some n.toNat else none

/-- The items of an array, each as something. -/
def list? {α : Type} (item? : Json → Option α) : Json → Option (List α)
  | array items => items.mapM item?
  | _ => none

/-- The fields of an object, whose names have to be texts. -/
def fields? : Json → Option (List (String × Json))
  | object fields => fields.mapM fun (name, value) => return (← unescape? name, value)
  | _ => none

/-- The one value of a field; the field must not be repeated. -/
def field? (fields : List (String × Json)) (name : String) : Option Json :=
  match fields.filter (·.1 == name) with
  | [(_, value)] => some value
  | _ => none

/-- The values of a record: of the named fields of an object, which may have others, or of an array
of as many items. -/
def record? (names : List String) : Json → Option (List Json)
  | array items => if items.length = names.length then some items else none
  | json => do
    let fields ← json.fields?
    names.mapM (field? fields)

end Relational.Json
