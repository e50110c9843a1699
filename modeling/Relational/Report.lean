import Relational.Answer

/-!
# Reports

Answers as text: a table with columns of one width, the number of its rows, messages and errors.
-/

namespace Relational.Report

/-- The least number of characters in a column. -/
def leastWidth : Nat := 3

/-- The widths of columns with a row more; a row may be shorter or longer than there are columns. -/
def widen : List Nat → List String → List Nat
  | width :: widths, cell :: cells => max width cell.length :: widen widths cells
  | widths, [] => widths
  | [], _ => []

/-- The widths of the columns under headers. -/
def widths (headers : List String) (rows : List (List String)) : List Nat :=
  rows.foldl widen (headers.map fun header => max header.length leastWidth)

def repeated (c : Char) (n : Nat) : String :=
  String.ofList (List.replicate n c)

/-- A cell, with blanks behind it up to a width. -/
def padded (cell : String) (width : Nat) : String :=
  " " ++ cell ++ repeated ' ' (width - cell.length + 1) ++ "|"

/-- A line of cells. -/
def line (cells : List String) (widths : List Nat) : String :=
  "|" ++ String.join (cells.zipWith padded widths)

/-- The line under the headers. -/
def rule (widths : List Nat) : String :=
  "|" ++ String.join (widths.map fun width => " " ++ repeated '-' width ++ " |")

/-- A table, each of its lines with a line break. -/
def table (headers : List String) (rows : List (List String)) : String :=
  let widths := widths headers rows
  String.join <| (line headers widths :: rule widths :: rows.map fun cells => line cells widths).map
    (· ++ "\n")

/-- The text of a value in a table; a null leaves its cell empty. -/
def cellText (value : Value) : String :=
  if value.isNull then "" else value.shown

/-- An answer: its table and the number of rows, then its messages, then its error. -/
def answer (answer : Answer) : String :=
  let rows :=
    if answer.hasRows then
      table answer.fields (answer.rows.map fun row => row.map cellText) ++
        "(" ++ toString answer.rows.length ++ " row(s))\n"
    else ""
  rows ++ String.join ((answer.messages ++ answer.error.toList).map (· ++ "\n"))

end Relational.Report
