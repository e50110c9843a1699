import Relational.Proofs.Condition.Reading
import Relational.Proofs.Engine.Sound
import Relational.Proofs.Query.Negation

/-!
# Queries with negated conditions

In every state that scripts can reach, a condition that was read can be negated, and the negation picks
the joined rows that the condition leaves (`Engine.evaluate_negate`), if no cell of the columns in the
condition and no constant in it is a null or not a number. An equality may be answered by an index and
its negation by looking at every row: both pick the rows that pass, read row by row.
-/

namespace Relational.Engine

/-- In every state that scripts can reach, a condition and its negation evaluate to rows that have
none in common and are all joined rows together, where no cell of a column in the condition and no
constant in it is a null or not a number. -/
theorem evaluate_negate {start engine : Engine} (hstart : start.storage.store = .empty)
    (hengine : start.Reaches engine) {database table : String} {tables : Database} {first : Source}
    {clauses : List JoinClause} {joins : List Join} {scope : Scope} {text : List Char}
    {condition : Condition} {all : JoinedRows}
    (htables : engine.storage.store.databases.get? database = some tables)
    (hfirst : tables.get? table = some first.table)
    (hjoins : JoinClause.bind tables ⟨[first]⟩ clauses = .ok (joins, scope))
    (hread : Condition.read text = .ok condition)
    (hdefinite : (⟨first, joins, scope⟩ : Query).IsDefinite condition)
    (hall : (⟨first, joins, scope⟩ : Query).rows = .ok all) :
    ∃ negated, condition.negate = .ok negated ∧ ∀ rows rest,
      (⟨first, joins, scope⟩ : Query).evaluate condition = .ok rows →
      (⟨first, joins, scope⟩ : Query).evaluate negated = .ok rest →
      (∀ id, ¬(SortedMap.contains rows id = true ∧ SortedMap.contains rest id = true)) ∧
        ∀ id row, all.get? id = some row ↔ rows.get? id = some row ∨ rest.get? id = some row := by
  obtain ⟨tokens, -, hwritten⟩ := bind_eq_ok_iff.mp hread
  obtain ⟨negated, hnegate, -⟩ := (Condition.ofTokens_eq_ok_iff.mp hwritten).compares.negate
  refine ⟨negated, hnegate, fun rows rest hrows hrest => ?_⟩
  have htable := hengine.sound hstart
  have hsound : (⟨first, joins, scope⟩ : Query).Sound :=
    Query.sound_of_bind (fun name table hname => htable database name table ⟨tables, htables, hname⟩)
      (htable database table first.table ⟨tables, htables, hfirst⟩) hjoins
  have hnan (operand : Operand) (hoperand : operand ∈ condition.operands) (value : Value)
      (hvalue : operand.value? = some value) : value ≠ .float .nan := by
    rintro rfl
    exact absurd (hdefinite.constants operand _ hoperand hvalue) (by decide)
  have hpicked := Query.isPicked_evaluate hsound hall (Condition.allConstants_of_operands hnan) hrows
  rw [← Condition.operands_negate hnegate] at hnan
  have hleft := Query.isPicked_evaluate hsound hall (Condition.allConstants_of_operands hnan) hrest
  exact hpicked.complement hleft hnegate fun id row => hdefinite.isDefiniteIn hsound hall

/-- A condition with an equality that the index answers, comparisons of whole numbers with floats, and
a negation inside. -/
def mixedText : List Char :=
  "NOT (v = 0.5 AND k <= 8.5) AND 1.5 > u.t".toList

/-- The query over the two tables that are joined. -/
def mixedQuery (table : Table) (joins : List Join) (scope : Scope) : Query :=
  ⟨⟨table, none, false⟩, joins, scope⟩

set_option maxRecDepth 2000 in
theorem evaluate_negate_mixedText : ∃ tables table joins scope condition all negated rows rest,
    joinEngine.storage.store.databases.get? "d" = some tables ∧
    tables.get? "t" = some table ∧
    JoinClause.bind tables ⟨[⟨table, none, false⟩]⟩ [⟨"u", none, "t.id", "u.t"⟩] =
      .ok (joins, scope) ∧
    Condition.read mixedText = .ok condition ∧ condition.negate = .ok negated ∧
    (mixedQuery table joins scope).IsDefinite condition ∧
    (mixedQuery table joins scope).rows = .ok all ∧ all.size = 3 ∧
    (mixedQuery table joins scope).evaluate condition = .ok rows ∧ rows.size = 1 ∧
    (mixedQuery table joins scope).evaluate negated = .ok rest ∧ rest.size = 2 ∧
    (∀ id, ¬(SortedMap.contains rows id = true ∧ SortedMap.contains rest id = true)) ∧
    ∀ id row, all.get? id = some row ↔ rows.get? id = some row ∨ rest.get? id = some row := by
  have hrun : (joinEngine.storage.store.databases.get? "d").any (fun tables =>
      (tables.get? "t").any fun table =>
        (JoinClause.bind tables ⟨[⟨table, none, false⟩]⟩ [⟨"u", none, "t.id", "u.t"⟩]).toOption.any
          fun bound => (Condition.read mixedText).toOption.any fun condition =>
            condition.negate.toOption.any fun negated =>
              (mixedQuery table bound.1 bound.2).isDefinite condition &&
              ((mixedQuery table bound.1 bound.2).rows.toOption.any fun all => all.size == 3 &&
              ((mixedQuery table bound.1 bound.2).evaluate condition).toOption.any fun rows =>
                rows.size == 1 &&
                ((mixedQuery table bound.1 bound.2).evaluate negated).toOption.any fun rest =>
                  rest.size == 2)) = true := by
    have hscript : joinScript = _ := String.toList_ofList
    have htext : mixedText = _ := String.toList_ofList
    rewrite [joinEngine_eq, behind, hscript, htext]
    decide +kernel
  simp only [Option.any_eq_true, toOption_eq_some_iff, Bool.and_eq_true, beq_iff_eq] at hrun
  obtain ⟨tables, htables, table, htable, ⟨joins, scope⟩, hjoins, condition, hread, negated, hnegate,
    hcheck, all, hall, hsize, rows, hrows, hsize', rest, hrest, hsize''⟩ := hrun
  have hdefinite := Query.isDefinite_of_check hcheck
  obtain ⟨negated', hnegate', hcomplement⟩ :=
    evaluate_negate rfl reaches_joinEngine htables htable hjoins hread hdefinite hall
  obtain rfl := Except.ok.inj (hnegate.symm.trans hnegate')
  exact ⟨tables, table, joins, scope, condition, all, negated, rows, rest, htables, htable, hjoins,
    hread, hnegate, hdefinite, hall, hsize, hrows, hsize', hrest, hsize'',
    hcomplement rows rest hrows hrest⟩

end Relational.Engine
