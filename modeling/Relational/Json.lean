import Relational.Number.Notation

/-!
# JSON

Documents, and how they are written: on one line without blanks (`Json.compact`), or with a line for
each item and field (`Json.pretty`). Numbers and texts are kept as they are written, so a document
may hold what is no number of 64 bits, or no text; this matters only to who asks for it.
-/

namespace Relational

inductive Json where
  | null
  | bool (b : Bool)
  | number (written : List Char)
  /-- A text, as it is written between its quotes. -/
  | string (written : List Char)
  | array (items : List Json)
  /-- Names, as they are written between their quotes, and values. -/
  | object (fields : List (List Char × Json))

namespace Json

instance : Inhabited Json := ⟨null⟩

/-! ## Numbers -/

/-- Floats have the fewest digits that read back, a tie going to the even one; whole ones have `.0`,
and the exponent is written out below `0.00001` and from `10000000000000000` up. -/
def floatFormat : FloatFormat := ⟨.even, fun e => -5 ≤ e && e < 16, true⟩

/-- A float as a document; what is not a finite number is a null. -/
def ofFloat : Binary64 → Json
  | .finite negative m => number (floatFormat.finite negative m)
  | _ => null

def ofInteger (n : Integer) : Json :=
  number n.toText

def ofNat (n : Nat) : Json :=
  number (Integer.digits n)

/-! ## Texts -/

/-- A character inside quotes: quotes, backslashes and control characters are escaped. -/
def escapeChar (c : Char) : List Char :=
  if c = '"' then ['\\', '"']
  else if c = '\\' then ['\\', '\\']
  else if c = '\n' then ['\\', 'n']
  else if c = '\r' then ['\\', 'r']
  else if c = '\t' then ['\\', 't']
  else if c = '\x08' then ['\\', 'b']
  else if c = '\x0c' then ['\\', 'f']
  else if c.toNat < 0x20 then
    '\\' :: 'u' :: '0' :: '0' :: [Nat.digitChar (c.toNat / 16), Nat.digitChar (c.toNat % 16)]
  else [c]

/-- How a text is written between quotes. -/
def escape (s : String) : List Char :=
  s.toList.flatMap escapeChar

def ofText (s : String) : Json :=
  string (escape s)

def ofTexts (l : List String) : Json :=
  array (l.map ofText)

def ofFields (fields : List (String × Json)) : Json :=
  object (fields.map fun (name, value) => (escape name, value))

def quoted (written : List Char) : List Char :=
  '"' :: (written ++ ['"'])

/-! ## Documents -/

def openBrace : Char := '\x7b'

def closeBrace : Char := '\x7d'

/-- Texts with a separator between each two. -/
def separated (separator : List Char) : List (List Char) → List Char
  | [] => []
  | [s] => s
  | s :: more => s ++ (separator ++ separated separator more)

mutual

/-- The document without blanks. -/
def compact : Json → List Char
  | null => "null".toList
  | bool b => (if b then "true" else "false").toList
  | number written => written
  | string written => quoted written
  | array items => '[' :: (separated [','] (compactItems items) ++ [']'])
  | object fields => openBrace :: (separated [','] (compactFields fields) ++ [closeBrace])

def compactItems : List Json → List (List Char)
  | [] => []
  | item :: items => item.compact :: compactItems items

def compactFields : List (List Char × Json) → List (List Char)
  | [] => []
  | (name, value) :: fields => (quoted name ++ ':' :: value.compact) :: compactFields fields

end

/-- A line break, and two blanks for each level. -/
def newLine (level : Nat) : List Char :=
  '\n' :: List.replicate (2 * level) ' '

/-- Written items between brackets, each on a line of its own. -/
def block (opening closing : Char) (level : Nat) (items : List (List Char)) : List Char :=
  if items.isEmpty then [opening, closing]
  else
    opening :: (newLine (level + 1) ++ (separated (',' :: newLine (level + 1)) items ++
      (newLine level ++ [closing])))

mutual

/-- The document with a line for each item and field, at a level of nesting. -/
def prettyAt (level : Nat) : Json → List Char
  | null => "null".toList
  | bool b => (if b then "true" else "false").toList
  | number written => written
  | string written => quoted written
  | array items => block '[' ']' level (prettyItems (level + 1) items)
  | object fields => block openBrace closeBrace level (prettyFields (level + 1) fields)

def prettyItems (level : Nat) : List Json → List (List Char)
  | [] => []
  | item :: items => item.prettyAt level :: prettyItems level items

def prettyFields (level : Nat) : List (List Char × Json) → List (List Char)
  | [] => []
  | (name, value) :: fields =>
    (quoted name ++ ':' :: ' ' :: value.prettyAt level) :: prettyFields level fields

end

/-- The document with a line for each item and field. -/
def pretty (json : Json) : List Char :=
  json.prettyAt 0

end Json

end Relational
