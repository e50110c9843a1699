import Relational.Proofs.Outcome
import Relational.Statement.Reader

/-!
# Kinds of statements

What is read as a statement of a kind is of that kind, faulty statements included
(`Statement.kind_of_readAs?`). So a statement tells which reader it comes from
(`Statement.readAs?_kind`), and what that reader went through is told by one lemma for each reader that
can find a fault (`readIndex_eq_ok_iff`, `readInsert_eq_ok_iff`, `readSelect_eq_ok_iff`).
-/

namespace Relational

namespace Statement

variable {s columns joins rows : List Char} {table : String} {statement : Statement}
  {kind : StatementKind}

/-! ## Readers that can find a fault -/

theorem readIndex_eq_ok_iff {index : String} {unique : Bool} :
    readIndex index table columns unique = .ok statement ↔
      (Text.splitCommas columns ≠ [] ∧ [] ∉ Text.splitCommas columns) ∧
        createIndex ⟨index, (Text.splitCommas columns).map String.ofList, unique⟩ table =
          statement := by
  have hempty : ((Text.splitCommas columns).isEmpty || (Text.splitCommas columns).any List.isEmpty)
      = true ↔ ¬ (Text.splitCommas columns ≠ [] ∧ [] ∉ Text.splitCommas columns) := by
    simp [Decidable.or_iff_not_imp_left]
  simp only [readIndex, hempty, ite_not]
  split
  · rename_i hcolumns
    rw [Except.ok.injEq, and_iff_right hcolumns]
  · rename_i hcolumns
    exact ⟨nofun, fun h => absurd h.1 hcolumns⟩

theorem readInsert_eq_ok_iff {names : Option (List Char)} :
    readInsert table names rows = .ok statement ↔
      ∃ groups, Text.groups rows = .ok groups ∧ groups ≠ [] ∧
        insert table (names.map fun s => (Text.splitCommas s).map String.ofList) groups =
          statement := by
  simp only [readInsert, bind_eq_ok_iff, guard_eq_ok_iff, List.isEmpty_iff, pure_eq_ok,
    Except.ok.injEq, ne_eq]

theorem readSelect_eq_ok_iff {place : List Char} {condition : Option (List Char)} :
    readSelect columns place joins condition = .ok statement ↔
      ∃ read, readTable place = .ok read ∧
        select ⟨columns, read.1, read.2, joins, condition⟩ = statement := by
  simp only [readSelect, bind_eq_ok_iff, pure_eq_ok, Except.ok.injEq]

theorem orFaulty_eq_iff {result : Except SyntaxFault Statement} :
    orFaulty kind result = statement ↔
      result = .ok statement ∨ ∃ fault, result = .error fault ∧ statement = faulty kind fault := by
  cases result with
  | ok read => simp [orFaulty]
  | error fault => simp [orFaulty, eq_comm]

/-! ## Kinds -/

theorem kind_orFaulty {result : Except SyntaxFault Statement}
    (h : ∀ statement, result = .ok statement → statement.kind = kind) :
    (orFaulty kind result).kind = kind := by
  cases result with
  | ok statement => exact h statement rfl
  | error fault => rfl

/-- What is read as a kind is of that kind. -/
theorem kind_of_readAs? (h : readAs? kind s = some statement) : statement.kind = kind := by
  cases kind with
  | createIndex =>
    obtain ⟨_, -, rfl⟩ := Option.map_eq_some_iff.mp h
    refine kind_orFaulty fun statement hread => ?_
    obtain ⟨-, rfl⟩ := readIndex_eq_ok_iff.mp hread
    rfl
  | insert =>
    obtain ⟨_, -, rfl⟩ := Option.map_eq_some_iff.mp h
    refine kind_orFaulty fun statement hread => ?_
    obtain ⟨_, -, -, rfl⟩ := readInsert_eq_ok_iff.mp hread
    rfl
  | select =>
    obtain ⟨_, -, rfl⟩ := Option.map_eq_some_iff.mp h
    refine kind_orFaulty fun statement hread => ?_
    obtain ⟨_, -, rfl⟩ := readSelect_eq_ok_iff.mp hread
    rfl
  | _ =>
    obtain ⟨_, -, rfl⟩ := Option.map_eq_some_iff.mp h
    rfl

/-- A statement that was read comes from the reader of its kind. -/
theorem readAs?_kind (h : read? s = some statement) :
    readAs? statement.kind s = some statement := by
  obtain ⟨kind, -, hread⟩ := List.exists_of_findSome?_eq_some h
  rw [kind_of_readAs? hread, hread]

/-- Rows that are inserted are one at least. -/
theorem ne_nil_of_insert {names : Option (List String)} {groups : List (List Char)}
    (h : read? s = some (insert table names groups)) : groups ≠ [] := by
  obtain ⟨_, -, hread⟩ := Option.map_eq_some_iff.mp (readAs?_kind h)
  rcases orFaulty_eq_iff.mp hread with hread | ⟨_, -, hread⟩
  · obtain ⟨_, -, hne, heq⟩ := readInsert_eq_ok_iff.mp hread
    cases heq
    exact hne
  · cases hread

end Statement

end Relational
