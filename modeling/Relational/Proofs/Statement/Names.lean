import Relational.Proofs.Pattern
import Relational.Proofs.Statement.Kind
import Relational.Script

/-!
# Names in statements

What a statement makes has a word for its name, since nothing else is read as a name
(`Statement.isNamed_read?`). Every statement of a script was read from a text, so this is true of all
statements that scripts ask for (`Script.isNamed_of_batches`).
-/

namespace Relational

/-! ## Patterns -/

namespace Pattern

theorem yields_named (first second : String) : (named first second).Yields IsWord :=
  yields_bind fun _ => yields_name

theorem yields_createTable : createTable.Yields fun r => IsWord r.1 :=
  (yields_named "CREATE" "TABLE").bind fun _ hname =>
    yields_bind fun _ => yields_bind fun _ => yields_pure hname

theorem yields_createIndex : createIndex.Yields fun r => IsWord r.1 := by
  refine yields_bind fun _ => yields_bind fun _ => yields_bind fun _ => yields_bind fun _ =>
    yields_bind fun _ => yields_name.bind fun _ hname => ?_
  exact yields_bind fun _ => yields_bind fun _ => yields_bind fun _ => yields_bind fun _ =>
    yields_bind fun _ => yields_bind fun _ => yields_pure hname

end Pattern

/-! ## Statements -/

namespace Statement

/-- What the statement makes has a word for its name. -/
def IsNamed : Statement → Prop
  | createDatabase name => IsWord name
  | createTable name _ => IsWord name
  | createIndex definition _ => IsWord definition.name
  | _ => True

theorem isNamed_read? {s : List Char} {statement : Statement} (h : read? s = some statement) :
    statement.IsNamed := by
  have hread := readAs?_kind h
  cases statement with
  | createDatabase name =>
    obtain ⟨_, hname, heq⟩ := Option.map_eq_some_iff.mp hread
    cases heq
    exact (Pattern.yields_named "CREATE" "DATABASE").whole? hname
  | createTable name definition =>
    obtain ⟨_, hname, heq⟩ := Option.map_eq_some_iff.mp hread
    cases heq
    exact Pattern.yields_createTable.whole? hname
  | createIndex definition table =>
    obtain ⟨_, hname, heq⟩ := Option.map_eq_some_iff.mp hread
    rcases orFaulty_eq_iff.mp heq with heq | ⟨_, -, heq⟩
    · obtain ⟨-, heq⟩ := readIndex_eq_ok_iff.mp heq
      cases heq
      exact Pattern.yields_createIndex.whole? hname
    · cases heq
  | _ => exact trivial

end Statement

/-! ## Scripts -/

namespace Script

variable {statement : Statement}

theorem exists_read?_of_readParts {line : Nat} {parts : List Part} {items : List Item}
    (h : readParts line parts = .ok items) (hmem : .statement statement ∈ items) :
    ∃ s, Statement.read? s = some statement := by
  induction parts generalizing line items with
  | nil =>
    obtain rfl := Except.ok.inj h
    simp at hmem
  | cons part parts ih =>
    simp only [readParts, bind_eq_ok_iff] at h
    obtain ⟨item, hitem, items', hitems, h⟩ := h
    obtain rfl := Except.ok.inj h
    rcases List.mem_cons.mp hmem with rfl | hmem
    · rw [readItem] at hitem
      split at hitem
      · simp at hitem
      · split at hitem
        · rename_i hread
          cases hitem
          exact ⟨_, hread⟩
        · simp at hitem
    · exact ih hitems hmem

/-- Batches have the statements of the items and those at hand. -/
theorem mem_group {current : List Statement} {items : List Item} {batch : List Statement}
    (hbatch : batch ∈ group current items) (hmem : statement ∈ batch) :
    statement ∈ current ∨ .statement statement ∈ items := by
  induction items generalizing current with
  | nil =>
    rw [group] at hbatch
    split at hbatch
    · simp at hbatch
    · rw [List.mem_singleton.mp hbatch, List.mem_reverse] at hmem
      exact .inl hmem
  | cons item items ih =>
    cases item with
    | statement next =>
      rcases ih hbatch with hcurrent | hitems
      · rcases List.mem_cons.mp hcurrent with rfl | hcurrent
        · exact .inr List.mem_cons_self
        · exact .inl hcurrent
      · exact .inr (List.mem_cons_of_mem _ hitems)
    | go =>
      rw [group] at hbatch
      split at hbatch
      · exact .inr (List.mem_cons_of_mem _ ((ih hbatch).resolve_left nofun))
      · rcases List.mem_cons.mp hbatch with rfl | hbatch
        · exact .inl (List.mem_reverse.mp hmem)
        · exact .inr (List.mem_cons_of_mem _ ((ih hbatch).resolve_left nofun))

/-- Each statement of a script is read from a text. -/
theorem exists_read?_of_batches {s : List Char} {batches : List (List Statement)}
    (h : Script.batches s = .ok batches) (hmem : statement ∈ batches.flatten) :
    ∃ s, Statement.read? s = some statement := by
  rw [Script.batches, bind_eq_ok_iff] at h
  obtain ⟨items, hitems, h⟩ := h
  obtain rfl := Except.ok.inj h
  obtain ⟨batch, hbatch, hmem⟩ := List.mem_flatten.mp hmem
  exact exists_read?_of_readParts hitems ((mem_group hbatch hmem).resolve_left nofun)

theorem isNamed_of_batches {s : List Char} {batches : List (List Statement)}
    (h : Script.batches s = .ok batches) (hmem : statement ∈ batches.flatten) :
    statement.IsNamed := by
  obtain ⟨s, hread⟩ := exists_read?_of_batches h hmem
  exact Statement.isNamed_read? hread

end Script

end Relational
