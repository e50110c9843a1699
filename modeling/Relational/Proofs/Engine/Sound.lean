import Relational.Proofs.Engine.Run
import Relational.Proofs.Query.Evaluation

/-!
# What scripts can reach

Every table that scripts can make is sound (`Engine.Reaches.sound`), wherever the engine keeps its
store. So in every state that is reached, a condition picks the rows that pass it, whatever indexes
and keys the tables have (`Engine.isPicked_of_reaches`).
-/

namespace Relational.Engine

open Store (Operation)

theorem IsAsked.isDefined {op : Operation} (h : IsAsked op) : op.IsDefined := by
  obtain ⟨script, statement, -, hasks⟩ := h
  rintro database schema rfl
  cases hasks with
  | createTable _ hschema => exact (Schema.defined_of_ofDefinition hschema).1

/-- Every table that scripts can make, from a store without databases, is sound. -/
theorem Reaches.sound {start engine : Engine} (h : start.Reaches engine)
    (hstart : start.storage.store = .empty) : engine.storage.store.All Table.Sound := by
  obtain ⟨ops, hops, hstore⟩ := h.store
  rw [hstore, hstart]
  exact Store.all_empty.sound_run fun op hop => (hops op hop).isDefined

theorem Reaches.named {start engine : Engine} (h : start.Reaches engine)
    (hstart : start.storage.store = .empty) : engine.storage.store.Named := by
  obtain ⟨ops, -, hstore⟩ := h.store
  rw [hstore, hstart]
  exact Store.named_empty.run ops

/-- The engine behind a script, with all in memory. -/
def behind (script : List Char) : Engine :=
  ((new .inMemory).execute defaultSession script).2

theorem reaches_behind (script : List Char) : (new .inMemory).Reaches (behind script) := by
  rw [behind]
  exact .execute defaultSession script .refl

/-- Tables of a database that scripts can reach are joined to a sound query. -/
theorem Reaches.sound_query {start engine : Engine} (h : start.Reaches engine)
    (hstart : start.storage.store = .empty) {database table : String} {tables : Database}
    {first : Source} {clauses : List JoinClause} {joins : List Join} {scope : Scope}
    (htables : engine.storage.store.databases.get? database = some tables)
    (hfirst : tables.get? table = some first.table)
    (hjoins : JoinClause.bind tables ⟨[first]⟩ clauses = .ok (joins, scope)) :
    (⟨first, joins, scope⟩ : Query).Sound := by
  have hsound := h.sound hstart
  have htable (name : String) (table : Table) (hname : tables.get? name = some table) : table.Sound :=
    hsound database name table ⟨tables, htables, hname⟩
  exact Query.sound_of_bind htable (htable table first.table hfirst) hjoins

/-- In every state that scripts can reach, a query over tables of a database evaluates a condition to
the rows that pass it, read row by row: the same rows under the same identities, whichever of them
were found by an index, by the primary key or by looking at every row. -/
theorem isPicked_of_reaches {engine : Engine} (hengine : (new .inMemory).Reaches engine)
    {database table : String} {tables : Database} {first : Source} {clauses : List JoinClause}
    {joins : List Join} {scope : Scope} {condition : Condition} {rows all : JoinedRows}
    (htables : engine.storage.store.databases.get? database = some tables)
    (hfirst : tables.get? table = some first.table)
    (hjoins : JoinClause.bind tables ⟨[first]⟩ clauses = .ok (joins, scope))
    (hnan : condition.AllConstants (· ≠ .float .nan))
    (hrows : (⟨first, joins, scope⟩ : Query).evaluate condition = .ok rows)
    (hall : (⟨first, joins, scope⟩ : Query).rows = .ok all) :
    (∀ id row, all.get? id = some row →
      ∃ b, (⟨first, joins, scope⟩ : Query).test row condition = .ok b) ∧
    ∀ id row, rows.get? id = some row ↔
      all.get? id = some row ∧ (⟨first, joins, scope⟩ : Query).test row condition = .ok true := by
  have hsound := hengine.sound rfl
  have hquery : (⟨first, joins, scope⟩ : Query).Sound :=
    Query.sound_of_bind (fun name table htable => hsound database name table ⟨tables, htables, htable⟩)
      (hsound database table first.table ⟨tables, htables, hfirst⟩) hjoins
  exact Query.isPicked_evaluate hquery hall hnan hrows

/-- A script that leaves two tables to be joined, one with an index. -/
def joinScript : List Char :=
  "CREATE DATABASE d; USE d;
   CREATE TABLE t (id INT PRIMARY KEY, v FLOAT); CREATE TABLE u (k INT PRIMARY KEY, t INT);
   INSERT INTO t VALUES (1, 0.5), (2, 1.5); INSERT INTO u VALUES (7, 1), (8, 2), (9, 1);
   CREATE INDEX i ON t (v)".toList

/-- The engine behind the script. -/
def joinEngine : Engine :=
  ((new .inMemory).execute defaultSession joinScript).2

theorem joinEngine_eq : joinEngine = behind joinScript := rfl

theorem reaches_joinEngine : (new .inMemory).Reaches joinEngine :=
  reaches_behind joinScript

/-- Rows with `0.5` in the indexed column, of which those with `7` are left out. -/
def joinCondition : Condition :=
  .and
    (.compare (.comparison .eq) (.column (.column "v"))
      (.value (.constant (.float (.ofDecimal false 5 (-1))))))
    (.compare (.comparison .lt) (.value (.constant (.int ⟨7, by decide, by decide⟩)))
      (.column (.column "k")))

set_option maxRecDepth 2000 in
theorem isPicked_joinCondition : ∃ tables table joins scope rows all,
    joinEngine.storage.store.databases.get? "d" = some tables ∧
    tables.get? "t" = some table ∧
    JoinClause.bind tables ⟨[⟨table, none, false⟩]⟩ [⟨"u", none, "t.id", "u.t"⟩] =
      .ok (joins, scope) ∧
    (⟨⟨table, none, false⟩, joins, scope⟩ : Query).IsPicked all rows joinCondition ∧
    rows.size = 1 ∧ all.size = 3 := by
  have hrun : (joinEngine.storage.store.databases.get? "d").any (fun tables =>
      (tables.get? "t").any fun table =>
        (JoinClause.bind tables ⟨[⟨table, none, false⟩]⟩ [⟨"u", none, "t.id", "u.t"⟩]).toOption.any
          fun bound =>
            ((⟨⟨table, none, false⟩, bound.1, bound.2⟩ : Query).evaluate joinCondition).toOption.any
              fun rows => (⟨⟨table, none, false⟩, bound.1, bound.2⟩ : Query).rows.toOption.any
                fun all => rows.size == 1 && all.size == 3) = true := by
    have hscript : joinScript = _ := String.toList_ofList
    rewrite [joinEngine_eq, behind, hscript]
    decide +kernel
  simp only [Option.any_eq_true, toOption_eq_some_iff, Bool.and_eq_true, beq_iff_eq] at hrun
  obtain ⟨tables, htables, table, htable, ⟨joins, scope⟩, hjoins, rows, hrows, all, hall, hsize⟩ :=
    hrun
  refine ⟨tables, table, joins, scope, rows, all, htables, htable, hjoins, ?_, hsize⟩
  refine isPicked_of_reaches reaches_joinEngine htables htable hjoins ?_
    hrows hall
  refine ⟨⟨?_, ?_⟩, ?_, ?_⟩
  all_goals
    rintro value hvalue
    cases hvalue
    try decide +kernel

end Relational.Engine
