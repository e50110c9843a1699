import Relational.Answer
import Relational.Json.Float
import Relational.Json.Reader

/-!
# Values and answers as JSON

A value is an object whose one field tells its kind; a null is the word `Null`. An answer is an
object of its parts.
-/

namespace Relational

namespace Json

/-- One of several cases: its name, and what it holds. -/
def ofCase (name : String) (content : Json) : Json :=
  ofFields [(name, content)]

/-- The name of a case and what it holds; a case that holds nothing may be the name alone. -/
def case? : Json → Option (String × Json)
  | string name => (unescape? name).map fun name => (name, null)
  | object [(name, content)] => (unescape? name).map fun name => (name, content)
  | _ => none

/-- Whether a document is a null. -/
def isNull : Json → Bool
  | null => true
  | _ => false

end Json

namespace Value

def toJson : Value → Json
  | int n => .ofCase "Int" (.ofInteger n)
  | float x => .ofCase "Float" (.ofFloat x)
  | text content => .ofCase "Varchar" (.ofText content)
  | null => .ofText "Null"

def ofJson? (json : Json) : Option Value := do
  let (kind, content) ← json.case?
  match kind with
  | "Int" => content.integer?.map int
  | "Float" => content.float?.map float
  | "Varchar" => content.string?.map text
  | "Null" => if content.isNull then some null else none
  | _ => none

end Value

namespace Answer

def toJson (answer : Answer) : Json :=
  .ofFields [("fields", .ofTexts answer.fields),
    ("rows", .array (answer.rows.map fun row => .array (row.map Value.toJson))),
    ("messages", .ofTexts answer.messages),
    ("error", match answer.error with
      | some error => .ofText error
      | none => .null)]

end Answer

end Relational
