import Relational.Statement.Reader

/-!
# Scripts

A script is a text of statements. A semicolon ends a statement, and so does a line that begins with
the keyword of another one, unless quotes or parentheses are open there. Blanks, semicolons and
comments between statements are skipped. `GO` ends a batch of statements.

* `Script.split` cuts a text into skipped stretches and statements;
* `Script.batches` reads the statements and groups them.
-/

namespace Relational.Script

/-- The words that begin a statement, also those of statements that are not known. -/
def keywords : List String :=
  ["GO", "CREATE", "DROP", "USE", "INSERT", "DELETE", "SELECT", "UPDATE", "ALTER", "TRUNCATE"]

/-- Whether a text begins with the keyword of a statement. -/
def startsStatement (s : List Char) : Bool :=
  keywords.any fun keyword => Text.sameWord keyword.toList (s.takeWhile isNameChar)

/-! ## Cutting -/

/-- Where reading stands inside a statement. -/
structure Cursor where
  quoted : Bool
  depth : Nat
  atLineStart : Bool
deriving DecidableEq

namespace Cursor

/-- Where reading stands at the first character of a statement. -/
def start : Cursor := ⟨false, 0, false⟩

/-- Where reading stands behind a character. -/
def after (cursor : Cursor) (c : Char) : Cursor where
  quoted := if c = '\'' then !cursor.quoted else cursor.quoted
  depth :=
    if cursor.quoted then cursor.depth
    else if c = '(' then cursor.depth + 1
    else if c = ')' then cursor.depth - 1
    else cursor.depth
  atLineStart := c = '\n' || (isBlank c && cursor.atLineStart)

/-- Whether the statement ends in front of a text. -/
def endsBefore (cursor : Cursor) (s : List Char) : Bool :=
  !cursor.quoted &&
    (s.head? == some ';' || (cursor.depth == 0 && cursor.atLineStart && startsStatement s))

end Cursor

/-- The rest of a statement, and the text behind it. -/
def spanStatement (cursor : Cursor) : List Char → List Char × List Char
  | [] => ([], [])
  | c :: s =>
    if cursor.endsBefore (c :: s) then ([], c :: s)
    else
      let (statement, rest) := spanStatement (cursor.after c) s
      (c :: statement, rest)

/-- The blanks, semicolons and comments at the start of a text, and the text behind them. A comment
begins with two dashes and goes on to the end of its line; `inComment` tells whether one has
begun. -/
def spanSkipped (inComment : Bool) : List Char → List Char × List Char
  | [] => ([], [])
  | c :: s =>
    if (inComment && c != '\n') || isBlank c || c == ';' then
      let (skipped, rest) := spanSkipped (inComment && c != '\n') s
      (c :: skipped, rest)
    else if c = '-' ∧ s.head? = some '-' then
      let (skipped, rest) := spanSkipped true s
      (c :: skipped, rest)
    else ([], c :: s)

theorem length_spanStatement_le (cursor : Cursor) (s : List Char) :
    (spanStatement cursor s).2.length ≤ s.length := by
  induction s generalizing cursor with
  | nil => simp [spanStatement]
  | cons c s ih =>
    unfold spanStatement
    split
    · simp
    · simpa using Nat.le_succ_of_le (ih _)

theorem length_spanSkipped_le (inComment : Bool) (s : List Char) :
    (spanSkipped inComment s).2.length ≤ s.length := by
  induction s generalizing inComment with
  | nil => simp [spanSkipped]
  | cons c s ih =>
    unfold spanSkipped
    split
    · simpa using Nat.le_succ_of_le (ih _)
    · split
      · simpa using Nat.le_succ_of_le (ih _)
      · simp

/-- A statement of a script, and what is skipped before it. -/
structure Part where
  skipped : List Char
  statement : List Char
deriving DecidableEq

/-- The parts of a script, and what is skipped at its end. -/
def split (s : List Char) : List Part × List Char :=
  match h : spanSkipped false s with
  | (skipped, []) => ([], skipped)
  | (skipped, c :: s') =>
    match h' : spanStatement (Cursor.start.after c) s' with
    | (statement, rest) =>
      have : rest.length < s.length := by
        have h₁ := length_spanSkipped_le false s
        have h₂ := length_spanStatement_le (Cursor.start.after c) s'
        rw [h] at h₁
        rw [h'] at h₂
        simp only [List.length_cons] at h₁ h₂
        omega
      let (parts, tail) := split rest
      (⟨skipped, c :: statement⟩ :: parts, tail)
termination_by s.length

/-! ## Reading -/

/-- A line of a script: a statement, or the end of a batch. -/
inductive Item where
  | statement (statement : Statement)
  | go
deriving DecidableEq

/-- The first word of a text, which may end at a parenthesis. -/
def firstWord (s : List Char) : List Char :=
  s.takeWhile fun c => !(isBlank c || c == '(')

/-- Reads a statement that begins on a line. -/
def readItem (line : Nat) (s : List Char) : Except Error Item :=
  let s := Text.trim s
  if Text.sameWord "GO".toList s then .ok .go
  else match Statement.read? s with
    | some statement => .ok (.statement statement)
    | none => .error (.unmatchedStatement (String.ofList (firstWord s)) line)

/-- Reads the statements of parts, of which the first begins on a line. -/
def readParts (line : Nat) : List Part → Except Error (List Item)
  | [] => .ok []
  | part :: parts => do
    let line := line + part.skipped.count '\n'
    let item ← readItem line part.statement
    let items ← readParts (line + part.statement.count '\n') parts
    return item :: items

/-- The statements up to each `GO` and up to the end, with no empty batch; `current` is the batch at
hand, last statement first. -/
def group (current : List Statement) : List Item → List (List Statement)
  | [] => if current.isEmpty then [] else [current.reverse]
  | .statement statement :: items => group (statement :: current) items
  | .go :: items =>
    if current.isEmpty then group [] items else current.reverse :: group [] items

/-- The batches of a script; or the first statement that is none. -/
def batches (s : List Char) : Except Error (List (List Statement)) := do
  return group [] (← readParts 1 (split s).1)

end Relational.Script
