import Relational.Proofs.Engine.Sound
import Relational.Proofs.Query.Choice

/-!
# Joins behind scripts

In every state that scripts can reach, joining tables leaves one joined row for each choice of a row
of every table in which all clauses hold, and no other (`Engine.get?_extendAll_of_reaches`).
-/

namespace Relational.Engine

/-- In every state that scripts can reach, joins that are bound to tables of a database leave the rows
of the choices in which every clause holds: each of these choices, of one row for each table in the
order of the joins, and none besides. A row is known by what the chosen rows are known by, one after
the other, and no two choices are known by the same. -/
theorem get?_extendAll_of_reaches {engine : Engine} (hengine : (new .inMemory).Reaches engine)
    {database table : String} {tables : Database} {first : Source} {clauses : List JoinClause}
    {joins : List Join} {scope : Scope} {result : JoinedRows}
    (htables : engine.storage.store.databases.get? database = some tables)
    (hfirst : tables.get? table = some first.table)
    (hjoins : JoinClause.bind tables ⟨[first]⟩ clauses = .ok (joins, scope))
    (hall : Join.extendAll joins first.rows = .ok result) :
    List.Forall₂ (fun clause join => clause.Adds tables join.target) clauses joins ∧
    (∀ id row, result.get? id = some row ↔
      ∃ choice : Choice, choice.sources = first :: joins.map (·.target) ∧
        JoinClause.AllHold choice.row [first] clauses (joins.map (·.target)) ∧
        id = choice.id ∧ row = choice.row) ∧
    ∀ choice choice' : Choice, choice.sources = first :: joins.map (·.target) →
      choice'.sources = first :: joins.map (·.target) → choice.id = choice'.id →
        choice = choice' := by
  have hsound := hengine.sound rfl
  have hcoherent (name : String) (table : Table) (htable : tables.get? name = some table) :
      table.Coherent :=
    (hsound database name table ⟨tables, htables, htable⟩).coherent
  have hstart : (⟨[first]⟩ : Scope).Coherent := by
    refine ⟨List.nodup_singleton _, fun source hsource => ?_⟩
    rw [List.mem_singleton.mp hsource]
    exact hcoherent table _ hfirst
  obtain ⟨hsources, -, hadded⟩ := JoinClause.sources_of_bind hjoins
  have hchosen := (AreChosen.rows_of_source first).extendAll_of_bind hcoherent
    (fun _ _ _ _ => .rfl) hstart hjoins hall
  simp only [true_and, hsources, List.singleton_append] at hchosen
  refine ⟨JoinClause.adds_of_bind hjoins, hchosen, fun choice choice' hchoice hchoice' hid => ?_⟩
  refine Choice.eq_of_id_eq (fun source hsource => ?_) (hchoice.trans hchoice'.symm) hid
  rw [hchoice] at hsource
  rcases List.mem_cons.mp hsource with rfl | hsource
  · exact hcoherent table _ hfirst
  · obtain ⟨join, hjoin, rfl⟩ := List.mem_map.mp hsource
    obtain ⟨name, hname⟩ := hadded join hjoin
    exact hcoherent name _ hname

/-- Joins with one table twice, under two names. The second is written with its own column first. -/
def siblingClauses : List JoinClause :=
  [⟨"u", some "x", "t.id", "x.t"⟩, ⟨"u", some "y", "y.t", "x.t"⟩]

set_option maxRecDepth 2000 in
theorem get?_extendAll_siblingClauses : ∃ tables table joins scope result,
    joinEngine.storage.store.databases.get? "d" = some tables ∧
    tables.get? "t" = some table ∧
    JoinClause.bind tables ⟨[⟨table, none, false⟩]⟩ siblingClauses = .ok (joins, scope) ∧
    Join.extendAll joins (⟨table, none, false⟩ : Source).rows = .ok result ∧ result.size = 5 ∧
    ∀ id row, result.get? id = some row ↔
      ∃ choice : Choice, choice.sources = ⟨table, none, false⟩ :: joins.map (·.target) ∧
        JoinClause.AllHold choice.row [⟨table, none, false⟩] siblingClauses
          (joins.map (·.target)) ∧
        id = choice.id ∧ row = choice.row := by
  have hrun : (joinEngine.storage.store.databases.get? "d").any (fun tables =>
      (tables.get? "t").any fun table =>
        (JoinClause.bind tables ⟨[⟨table, none, false⟩]⟩ siblingClauses).toOption.any
          fun bound =>
            (Join.extendAll bound.1 (⟨table, none, false⟩ : Source).rows).toOption.any
              fun result => result.size == 5) = true := by
    have hscript : joinScript = _ := String.toList_ofList
    rewrite [joinEngine_eq, behind, hscript]
    decide +kernel
  simp only [Option.any_eq_true, toOption_eq_some_iff, beq_iff_eq] at hrun
  obtain ⟨tables, htables, table, htable, ⟨joins, scope⟩, hjoins, result, hall, hsize⟩ := hrun
  obtain ⟨-, hresult, -⟩ :=
    get?_extendAll_of_reaches reaches_joinEngine htables htable hjoins hall
  exact ⟨tables, table, joins, scope, result, htables, htable, hjoins, hall, hsize, hresult⟩

end Relational.Engine
