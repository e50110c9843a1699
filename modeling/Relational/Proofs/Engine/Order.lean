import Relational.Proofs.Engine.Constraint
import Relational.Proofs.Table.Order

/-!
# Insertions in any order behind scripts

In every state that scripts can reach, rows that can be inserted one after the other can be so in any
order, and it makes no difference to the store (`Engine.insertAll_perm_of_reaches`): neither to the
rows, nor to what the indexes hold.
-/

namespace Relational

theorem Store.insertAll_perm_of_sound {store store' : Store} (hnamed : store.Named)
    (hsound : store.All Table.Sound) {database name : String} {rows rows' : List Row}
    (hperm : rows.Perm rows') (hrows : store.insertAll database name rows = .ok store') :
    store.insertAll database name rows' = .ok store' := by
  by_cases htable : ∃ table, store.Holds database name table
  · obtain ⟨table, hholds⟩ := htable
    obtain rfl := hnamed _ _ _ hholds
    rw [insertAll_of_holds hholds, map_eq_ok_iff] at hrows ⊢
    obtain ⟨table', htable', rfl⟩ := hrows
    exact ⟨table', (hsound _ _ _ hholds).insertAll_perm hperm htable', rfl⟩
  · -- no row goes into a table that is not there, so there is none
    cases rows with
    | nil => rwa [← hperm.nil_eq]
    | cons row rows =>
      obtain ⟨e, he⟩ := insertRow_of_missing (not_exists.mp htable) row
      rw [insertAll, he] at hrows
      cases hrows

namespace Engine

/-- In every state that scripts can reach, rows of which each can be inserted behind the others can be
inserted in every other order too, and leave the same store: the same rows under the same identities,
and the same entries in every index. -/
theorem insertAll_perm_of_reaches {engine : Engine} (hengine : (new .inMemory).Reaches engine)
    {database name : String} {rows rows' : List Row} {store : Store} (hperm : rows.Perm rows')
    (hrows : engine.storage.store.insertAll database name rows = .ok store) :
    engine.storage.store.insertAll database name rows' = .ok store :=
  Store.insertAll_perm_of_sound (hengine.named rfl) (hengine.sound rfl) hperm hrows

/-- A row for the table of `keyEngine`. -/
def furtherRow (id : Integer) (a b : Value) (c : Integer) : Row :=
  .ofList [("id", .int id), ("a", a), ("b", b), ("c", .int c)]

/-- Rows with nulls under columns of unique keys, beside those of the script. -/
def furtherRows : List Row :=
  [furtherRow 3 (.int 2) (.int 2) 0, furtherRow 4 .null (.int 2) 1, furtherRow 5 (.int 5) .null 1]

theorem insertAll_perm_furtherRows : ∃ store table,
    keyEngine.storage.store.insertAll "d" "t" furtherRows = .ok store ∧
    keyEngine.storage.store.insertAll "d" "t" furtherRows.reverse = .ok store ∧
    store.Holds "d" "t" table ∧ table.rows.size = 5 := by
  have hrun : ((keyEngine.storage.store.insertAll "d" "t" furtherRows).toOption.any fun store =>
      (store.databases.get? "d").any fun tables =>
        (tables.get? "t").any fun table => table.rows.size == 5) = true := by
    have hdefinition : keyDefinition = _ := String.toList_ofList
    have hscript : keyScript = _ ++ keyDefinition ++ _ :=
      congrArg₂ (· ++ keyDefinition ++ ·) String.toList_ofList String.toList_ofList
    rewrite [keyEngine_eq, behind, hscript, hdefinition]
    decide +kernel
  simp only [Option.any_eq_true, toOption_eq_some_iff, beq_iff_eq] at hrun
  obtain ⟨store, hrows, tables, htables, table, htable, hsize⟩ := hrun
  refine ⟨store, table, hrows, ?_, ⟨tables, htables, htable⟩, hsize⟩
  exact insertAll_perm_of_reaches reaches_keyEngine furtherRows.reverse_perm.symm hrows

end Engine

end Relational
