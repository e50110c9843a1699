import Relational.Ordered.Merge

/-!
# Sorted sets

A set is a sorted map that holds nothing under its keys.
-/

namespace Relational

open Std

/-- The elements in ascending order, each once. -/
abbrev SortedSet (α : Type) [Ord α] := SortedMap α Unit

namespace SortedSet

variable {α : Type} [Ord α]

/-- The elements, in ascending order. -/
def elements (s : SortedSet α) : List α :=
  SortedMap.keys s

/-- Adds an element. -/
def add [TransOrd α] (s : SortedSet α) (a : α) : SortedSet α :=
  SortedMap.insert s a ()

/-- The set of a list of elements. -/
def ofElements [TransOrd α] (l : List α) : SortedSet α :=
  SortedMap.ofList (l.map fun a => (a, ()))

/-- The set of the keys of a map. -/
def ofKeys {β : Type} (m : SortedMap α β) : SortedSet α :=
  SortedMap.map m fun _ _ => ()

end SortedSet

end Relational
