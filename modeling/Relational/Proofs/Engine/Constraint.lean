import Relational.Proofs.Engine.Sound
import Relational.Proofs.Table.Constraint

/-!
# Constraints behind scripts

What scripts declare of a table is kept by all that scripts do: every row is as the definition asks
for, and two rows differ in the primary key (`Engine.rows_of_reaches`); no two rows agree in a
unique key, but where the index of the key is replaced by one of a later key of the definition, which
was given the same name (`Engine.isUnique_of_reaches`, `Engine.not_isUnique_shadowed`).
-/

namespace Relational.Engine

open Store (Operation)

theorem IsAsked.isRead {op : Operation} (h : IsAsked op) : op.IsRead := by
  obtain ⟨script, statement, -, hasks⟩ := h
  rintro database schema rfl
  cases hasks with
  | createTable _ hschema =>
    obtain ⟨-, hname⟩ := Schema.defined_of_ofDefinition hschema
    exact ⟨_, hname ▸ hschema⟩

/-- Every table that scripts can make, from a store without databases, has a history. -/
theorem Reaches.isMade {start engine : Engine} (h : start.Reaches engine)
    (hstart : start.storage.store = .empty) {database name : String} {table : Table}
    (htable : engine.storage.store.Holds database name table) :
    ∃ definition created, table.MadeBy name definition created := by
  rw [h.named hstart database name table htable]
  obtain ⟨ops, hops, hstore⟩ := h.store
  rw [hstore, hstart] at htable
  have hmade : (Store.empty.run ops).All Table.IsMade :=
    Store.all_empty.isMade_run fun op hop => (hops op hop).isRead
  exact hmade database name table htable

variable {start engine : Engine} {database name : String} {table : Table}

/-- In every state that scripts can reach, no two rows of a table agree in a unique key: in none that
its definition declares and keeps, and in none of a unique index that was created. -/
theorem isUnique_of_reaches (hengine : start.Reaches engine)
    (hstart : start.storage.store = .empty)
    (htable : engine.storage.store.Holds database name table) :
    (∃ definition created, table.MadeBy name definition created) ∧
    ∀ definition created, table.MadeBy name definition created →
      ∃ outline, Schema.Outline.read definition = .ok outline ∧
        (∀ key, outline.Declares key → outline.Keeps name key → table.IsUnique key) ∧
        ∀ index ∈ created, index.unique = true → table.IsUnique index.columns := by
  refine ⟨hengine.isMade hstart htable, fun definition created hmade => ?_⟩
  obtain ⟨schema, hschema, -⟩ := hmade.schema
  obtain ⟨outline, houtline, -⟩ := Schema.ofDefinition_spec hschema
  refine ⟨outline, houtline, fun key hdeclared hkept => ?_, fun index hindex hunique => ?_⟩
  · exact hmade.isUnique houtline hdeclared hkept
  · exact hmade.isUnique_created hindex hunique

/-- A definition with unique keys of one column and of two. -/
def keyDefinition : List Char :=
  "id INT PRIMARY KEY, a INT UNIQUE, b INT, c BIT NOT NULL, UNIQUE (b, c)".toList

/-- A script that leaves a table of the definition with two rows, and an index of its own. -/
def keyScript : List Char :=
  "CREATE DATABASE d; USE d; CREATE TABLE t (".toList ++ keyDefinition ++
    "); CREATE UNIQUE INDEX i ON t (a, b);
     INSERT INTO t VALUES (1, 1, 1, 0), (2, NULL, 1, 1)".toList

/-- The engine behind the script. -/
def keyEngine : Engine :=
  ((new .inMemory).execute defaultSession keyScript).2

theorem keyEngine_eq : keyEngine = behind keyScript := rfl

theorem reaches_keyEngine : (new .inMemory).Reaches keyEngine :=
  reaches_behind keyScript

/-- The index that the script creates. -/
def keyIndex : IndexDefinition := ⟨"i", ["a", "b"], true⟩

/-- The rows that the script inserts. -/
def keyRow : Row :=
  .ofList [("id", .int 1), ("a", .int 1), ("b", .int 1), ("c", .int 0)]

@[inherit_doc keyRow]
def keyRow' : Row :=
  .ofList [("id", .int 2), ("a", .null), ("b", .int 1), ("c", .int 1)]

theorem madeBy_keyEngine : ∃ table, keyEngine.storage.store.Holds "d" "t" table ∧
    table.MadeBy "t" keyDefinition [keyIndex] ∧ table.rows.size = 2 := by
  have hrun : ((Schema.ofDefinition "t" keyDefinition).toOption.any fun schema =>
      ((Table.ofSchema schema).createIndex keyIndex).toOption.any fun table =>
        (table.insert keyRow).toOption.any fun first =>
          (first.2.insert keyRow').toOption.any fun second =>
            (keyEngine.storage.store.databases.get? "d").any fun tables =>
              tables.get? "t" == some second.2 && second.2.rows.size == 2) = true := by
    have hdefinition : keyDefinition = _ := String.toList_ofList
    have hscript : keyScript = _ ++ keyDefinition ++ _ :=
      congrArg₂ (· ++ keyDefinition ++ ·) String.toList_ofList String.toList_ofList
    rewrite [keyEngine_eq, behind, hscript, hdefinition]
    decide +kernel
  simp only [Option.any_eq_true, toOption_eq_some_iff, Bool.and_eq_true, beq_iff_eq] at hrun
  obtain ⟨schema, hschema, table₀, hindex, ⟨id, table₁⟩, hrow, ⟨id', table₂⟩, hrow', tables, htables,
    htable, hsize⟩ := hrun
  have hmade : table₀.MadeBy "t" keyDefinition [keyIndex] := (Table.MadeBy.create hschema).createIndex hindex
  exact ⟨table₂, ⟨tables, htables, htable⟩, (hmade.insert hrow).insert hrow', hsize⟩

theorem isUnique_keyEngine : ∃ table, keyEngine.storage.store.Holds "d" "t" table ∧
    table.rows.size = 2 ∧ table.IsUnique ["a"] ∧ table.IsUnique ["b", "c"] ∧
    table.IsUnique ["a", "b"] := by
  obtain ⟨table, htable, hmade, hsize⟩ := madeBy_keyEngine
  obtain ⟨-, hunique⟩ := isUnique_of_reaches reaches_keyEngine rfl htable
  obtain ⟨outline, houtline, hdeclared, hcreated⟩ := hunique _ _ hmade
  have hread : ((Schema.Outline.read keyDefinition).toOption.any fun outline =>
      outline.columns.any (fun column => column.unique && column.name == "a") &&
        outline.uniqueKeys == [["b", "c"]]) = true := by
    have hdefinition : keyDefinition = _ := String.toList_ofList
    rewrite [hdefinition]
    decide
  rw [houtline, Except.toOption, Option.any_some, Bool.and_eq_true, beq_iff_eq,
    List.any_eq_true] at hread
  obtain ⟨⟨column, hcolumn, ha⟩, hkeys⟩ := hread
  rw [Bool.and_eq_true, beq_iff_eq] at ha
  refine ⟨table, htable, hsize, ?_, ?_, hcreated keyIndex List.mem_cons_self rfl⟩
  · exact hdeclared ["a"] (.inr ⟨column, hcolumn, ha.1, by rw [ha.2]⟩) fun hone => absurd rfl hone
  · exact hdeclared ["b", "c"] (.inl (by rw [hkeys]; exact List.mem_cons_self)) fun _ =>
      ⟨[], [], hkeys, by simp⟩

/-- A definition with two unique keys that have one index name. -/
def shadowedDefinition : List Char :=
  "id INT PRIMARY KEY, a INT, b_c INT, a_b INT, c INT, UNIQUE (a, b_c), UNIQUE (a_b, c)".toList

/-- A script that inserts two rows that agree in the first of the keys. -/
def shadowedScript : List Char :=
  "CREATE DATABASE d; USE d; CREATE TABLE t (".toList ++ shadowedDefinition ++
    "); INSERT INTO t VALUES (1, 1, 1, 1, 1); INSERT INTO t VALUES (2, 1, 1, 2, 2)".toList

/-- The engine behind the script. -/
def shadowedEngine : Engine :=
  ((new .inMemory).execute defaultSession shadowedScript).2

/-- A row of the script, with its number in the columns that are not in the first key. -/
def shadowedRow (n : Integer) : Row :=
  let one : Value := .int 1
  .ofList [("id", .int n), ("a", one), ("b_c", one), ("a_b", .int n), ("c", .int n)]

/-- A key that a definition declares, and two rows of its table that agree in it. -/
theorem not_isUnique_shadowed : ∃ outline table,
    Schema.Outline.read shadowedDefinition = .ok outline ∧ outline.Declares ["a", "b_c"] ∧
    shadowedEngine.storage.store.Holds "d" "t" table ∧
    table.MadeBy "t" shadowedDefinition [] ∧ ¬table.IsUnique ["a", "b_c"] := by
  have hread : ((Schema.Outline.read shadowedDefinition).toOption.any fun outline =>
      outline.uniqueKeys == [["a", "b_c"], ["a_b", "c"]]) = true := by
    have hdefinition : shadowedDefinition = _ := String.toList_ofList
    rewrite [hdefinition]
    decide
  have hrun : ((Schema.ofDefinition "t" shadowedDefinition).toOption.any fun schema =>
      ((Table.ofSchema schema).insert (shadowedRow 1)).toOption.any
        fun first => (first.2.insert (shadowedRow 2)).toOption.any
          fun second => (shadowedEngine.storage.store.databases.get? "d").any fun tables =>
            tables.get? "t" == some second.2 && first.1 != second.1 &&
              second.2.rows.get? first.1 == some (shadowedRow 1) &&
                second.2.rows.get? second.1 == some (shadowedRow 2)) =
        true := by
    decide +kernel
  simp only [Option.any_eq_true, toOption_eq_some_iff, Bool.and_eq_true, beq_iff_eq,
    bne_iff_ne] at hread hrun
  obtain ⟨outline, houtline, hkeys⟩ := hread
  obtain ⟨schema, hschema, ⟨id, table₁⟩, hfirst, ⟨id', table₂⟩, hsecond, tables, htables,
    ⟨⟨htable, hne⟩, hrow⟩, hrow'⟩ := hrun
  refine ⟨outline, table₂, houtline, .inl (by rw [hkeys]; exact List.mem_cons_self),
    ⟨tables, htables, htable⟩, ((Table.MadeBy.create hschema).insert hfirst).insert hsecond,
    fun hunique => hne (hunique id _ id' _ hrow hrow' ?_)⟩
  intro column hcolumn
  simp only [List.mem_cons, List.not_mem_nil, or_false] at hcolumn
  rcases hcolumn with rfl | rfl
  · exact ⟨by decide, by decide, rfl⟩
  · exact ⟨by decide, by decide, rfl⟩

/-- In every state that scripts can reach, the rows of a table are as its definition asks for, and
two of them have different values under a column of the primary key. -/
theorem rows_of_reaches (hengine : start.Reaches engine) (hstart : start.storage.store = .empty)
    (htable : engine.storage.store.Holds database name table) :
    (∃ definition created, table.MadeBy name definition created) ∧
    ∀ definition created, table.MadeBy name definition created →
      ∃ outline keys, Schema.Outline.read definition = .ok outline ∧
        outline.primaryKeys = .ok keys ∧
        (∀ id row, table.rows.get? id = some row → row.IsOf outline.columns keys) ∧
        ∀ id row id' row', table.rows.get? id = some row → table.rows.get? id' = some row' →
          id ≠ id' → ∃ key ∈ keys, (row.cell key).equal (row'.cell key) = .ok false :=
  ⟨hengine.isMade hstart htable, fun _ _ hmade => hmade.rows⟩

theorem rows_keyEngine : ∃ table, keyEngine.storage.store.Holds "d" "t" table ∧
    table.rows.size = 2 ∧ ∃ outline keys, Schema.Outline.read keyDefinition = .ok outline ∧
      outline.primaryKeys = .ok keys ∧
      (∀ id row, table.rows.get? id = some row → row.IsOf outline.columns keys) ∧
      ∀ id row id' row', table.rows.get? id = some row → table.rows.get? id' = some row' →
        id ≠ id' → ∃ key ∈ keys, (row.cell key).equal (row'.cell key) = .ok false := by
  obtain ⟨table, htable, hmade, hsize⟩ := madeBy_keyEngine
  obtain ⟨-, hrows⟩ := rows_of_reaches reaches_keyEngine rfl htable
  exact ⟨table, htable, hsize, hrows _ _ hmade⟩

end Relational.Engine
