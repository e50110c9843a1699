import Relational.Text.Blank
import Relational.Text.Keyword
import Relational.Text.Word

/-!
# Patterns

A pattern reads the start of a text in several ways. `Pattern α` lists its readings in order of
preference, each with its result and the text behind it; of a whole pattern the first reading counts
(`Pattern.first?`). Putting one pattern behind another (`bind`) goes through the readings of the
second for each reading of the first, so an early choice is taken back when nothing fits behind it.
A run of characters of one class is no such choice: it is read to its end.

* `bind_eq_first`: the first reading of a sequence, if the first choice of its first part works out;
* `search?`: the first place of a text where a pattern reads something, and what stands before it.
-/

namespace Relational

/-- The readings of the start of a text, the preferred ones first. -/
def Pattern (α : Type) := List Char → List (α × List Char)

namespace Pattern

variable {α β : Type}

instance : Monad Pattern where
  pure a := fun s => [(a, s)]
  bind p q := fun s => (p s).flatMap fun (a, rest) => q a rest

theorem pure_apply (a : α) (s : List Char) : (pure a : Pattern α) s = [(a, s)] := rfl

theorem bind_apply (p : Pattern α) (q : α → Pattern β) (s : List Char) :
    (p >>= q) s = (p s).flatMap fun r => q r.1 r.2 := rfl

/-- The first reading of a text. -/
def first? (p : Pattern α) (s : List Char) : Option (α × List Char) :=
  (p s).head?

/-- The first reading of a sequence goes through the first reading of its first part, if the second
part can go on from there. -/
theorem bind_eq_first {p : Pattern α} {q : α → Pattern β} {s rest behind : List Char} {a : α}
    {b : β} (hp : p.first? s = some (a, rest)) (hq : (q a).first? rest = some (b, behind)) :
    (p >>= q).first? s = some (b, behind) := by
  unfold first? at *
  rw [bind_apply]
  cases h : p s with
  | nil => simp [h] at hp
  | cons r rs =>
    obtain rfl : r = (a, rest) := by simpa [h] using hp
    cases hr : q a rest with
    | nil => simp [hr] at hq
    | cons t ts =>
      obtain rfl : t = (b, behind) := by simpa [hr] using hq
      simp [hr]

/-! ## Single characters and words -/

/-- The text that is still to be read. -/
def ahead : Pattern (List Char) := fun s => [(s, s)]

/-- The end of the text. -/
def finish : Pattern Unit
  | [] => [((), [])]
  | _ :: _ => []

/-- One character of a class. -/
def one (p : Char → Bool) : Pattern Unit
  | c :: s => if p c then [((), s)] else []
  | [] => []

/-- One given character. -/
def char (c : Char) : Pattern Unit :=
  one (· == c)

/-- The letters of a word, in any case. -/
def letters : List Char → Pattern Unit
  | [] => pure ()
  | c :: word => do
    one (Text.sameLetter c)
    letters word

/-- A word of statements, in any case. -/
def keyword (word : String) : Pattern Unit :=
  letters word.toList

/-! ## Repetition -/

/-- All characters of a class at the start. No shorter run is a reading: where a pattern goes on
behind a run, it never does with a character of the class. -/
def many (p : Char → Bool) : Pattern (List Char) := fun s => [(s.takeWhile p, s.dropWhile p)]

/-- All characters of a class at the start, at least one. -/
def many1 (p : Char → Bool) : Pattern (List Char) := fun s =>
  match s.takeWhile p with
  | [] => []
  | run => [(run, s.dropWhile p)]

/-- Characters up to a blank that stands behind another character, as few as possible first. -/
def upToBlank : Pattern Unit
  | c :: d :: s =>
    if !isBlank c && isBlank d then ((), d :: s) :: upToBlank (d :: s) else upToBlank (d :: s)
  | _ => []

/-- Any number of blanks. -/
def blanks : Pattern Unit := do
  let _ ← many isBlank

/-- Blanks, at least one. -/
def gap : Pattern Unit := do
  let _ ← many1 isBlank

/-- The characters of a word, at least one. -/
def word : Pattern (List Char) := many1 isWordChar

/-- The characters of a word but for so many at its end; there has to be one before these. -/
def wordButLast (count : Nat) : Pattern (List Char) := fun s =>
  let length := (s.takeWhile isWordChar).length - count
  if 0 < length then [(s.take length, s.drop length)] else []

/-- A word, as a name. -/
def name : Pattern String := do
  return String.ofList (← word)

/-- Everything up to the end, if there is anything. -/
def remainder : Pattern (List Char)
  | [] => []
  | s => [(s, [])]

/-! ## Choice -/

/-- The readings of one pattern, then those of another. -/
def orElse (p q : Pattern α) : Pattern α := fun s => p s ++ q s

/-- A pattern, or nothing. -/
def optional (p : Pattern α) : Pattern (Option α) :=
  orElse (p >>= fun a => pure (some a)) (pure none)

/-- Nothing, or a pattern. -/
def optionalLast (p : Pattern α) : Pattern (Option α) :=
  orElse (pure none) (p >>= fun a => pure (some a))

/-- A pattern any number of times, as often as possible first. It has to read something each
time. -/
def star (p : Pattern Unit) (s : List Char) : List (Unit × List Char) :=
  ((p s).attach.flatMap fun ⟨(_, rest), _⟩ =>
    if _h : rest.length < s.length then star p rest else []) ++ [((), s)]
termination_by s.length

/-! ## Stretches -/

/-- A part of a text, known by the tail of the text that begins with it and by the tail behind it.
It is cut out only once it is asked for, so that a reading costs no more than its place. -/
structure Stretch where
  start : List Char
  behind : List Char
deriving DecidableEq

/-- The characters of a stretch. -/
def Stretch.text (stretch : Stretch) : List Char :=
  stretch.start.take (stretch.start.length - stretch.behind.length)

theorem Stretch.text_append (s behind : List Char) : Stretch.text ⟨s ++ behind, behind⟩ = s := by
  simp [text]

/-- The stretch that a pattern takes off the text. -/
def stretch (p : Pattern Unit) : Pattern Stretch := do
  let start ← ahead
  p
  return ⟨start, ← ahead⟩

/-! ## Whole texts and searching -/

/-- What a pattern reads a whole text as. -/
def whole? (p : Pattern α) (s : List Char) : Option α :=
  (first? (do let a ← p; finish; return a) s).map (·.1)

/-- The first reading that takes something off the text. -/
def shortening? (p : Pattern α) (s : List Char) : Option (α × List Char) :=
  (p s).find? fun (_, rest) => rest.length < s.length

/-- What stands before the first place where a pattern reads something, what it reads there, and
what stands behind that. -/
def search? (p : Pattern α) : List Char → Option (List Char × α × List Char)
  | [] => none
  | c :: s =>
    match p.shortening? (c :: s) with
    | some (a, rest) => some ([], a, rest)
    | none => (search? p s).map fun (before, found) => (c :: before, found)

theorem length_lt_of_search? {p : Pattern α} {s before rest : List Char} {a : α}
    (h : p.search? s = some (before, a, rest)) : rest.length < s.length := by
  induction s generalizing before with
  | nil => simp [search?] at h
  | cons c s ih =>
    unfold search? at h
    split at h
    · rename_i hs
      cases h
      simpa using List.find?_some hs
    · obtain ⟨⟨_, _, _⟩, hs, he⟩ := Option.map_eq_some_iff.mp h
      cases he
      exact Nat.lt_succ_of_lt (ih hs)

end Pattern

end Relational
