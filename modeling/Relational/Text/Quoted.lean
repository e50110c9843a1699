/-!
# Quoted text

A text stands between single quotes, and a quote inside it is written twice.
-/

namespace Relational.Text

/-- The text with each quote written twice. -/
def doubleQuotes : List Char → List Char
  | [] => []
  | c :: s => if c = '\'' then '\'' :: '\'' :: doubleQuotes s else c :: doubleQuotes s

/-- The text between quotes. -/
def quote (s : List Char) : List Char :=
  '\'' :: (doubleQuotes s ++ ['\''])

/-- The text with each pair of quotes read as one; a quote that stands alone is kept. -/
def undoubleQuotes : List Char → List Char
  | '\'' :: '\'' :: s => '\'' :: undoubleQuotes s
  | c :: s => c :: undoubleQuotes s
  | [] => []

theorem undoubleQuotes_cons_of_ne {c : Char} (h : c ≠ '\'') (s : List Char) :
    undoubleQuotes (c :: s) = c :: undoubleQuotes s := by
  rw [undoubleQuotes]
  exact fun _ hc => absurd hc h

theorem undoubleQuotes_doubleQuotes (s : List Char) : undoubleQuotes (doubleQuotes s) = s := by
  induction s with
  | nil => rfl
  | cons c s ih =>
    by_cases h : c = '\''
    · simp [doubleQuotes, h, undoubleQuotes, ih]
    · simp [doubleQuotes, h, undoubleQuotes_cons_of_ne h, ih]

end Relational.Text
