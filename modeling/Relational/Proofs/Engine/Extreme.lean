import Relational.Proofs.Engine.Sound
import Relational.Proofs.Query.Extreme
import Relational.Proofs.Query.Reveal

/-!
# Extremes in reached states

In every state that scripts can reach, `MIN` and `MAX` over a column of a query answer a null if no row
holds anything else, and else an extreme of what the rows hold. For rows that hold the same in another
order the answers are equal, or both are not a number, unless one of the row sets begins with what is not
a number and the other does not (`Engine.apply_of_covers`, `Engine.apply_leastOf_ne`).
-/

namespace Relational

/-- An aggregate that was found to be taken over a column of joined tables of a database, in a state
that scripts can reach, and rows that the query over these tables picks. -/
inductive Aggregate.Covers (aggregate : Aggregate) (source column : String) (rows : JoinedRows) :
    Prop where
  | intro {start engine : Engine} {database table : String} {tables : Database} {first : Source}
      {clauses : List JoinClause} {joins : List Join} {scope : Scope} {written : Aggregate}
      (hstart : start.storage.store = .empty) (hengine : start.Reaches engine)
      (htables : engine.storage.store.databases.get? database = some tables)
      (hfirst : tables.get? table = some first.table)
      (hjoins : JoinClause.bind tables ⟨[first]⟩ clauses = .ok (joins, scope))
      (hrows : (⟨first, joins, scope⟩ : Query).Picks rows)
      (hvalidate : written.validate scope = .ok aggregate)
      (htarget : aggregate.target = some (.column source column)) : Covers aggregate source column rows

variable {aggregate : Aggregate} {source column : String} {rows : JoinedRows}

/-- What the rows hold in the column is of the type of the column. -/
theorem Aggregate.Covers.exists_type (h : aggregate.Covers source column rows) :
    aggregate.target = some (.column source column) ∧
    ∃ type : ColumnType, ∀ value ∈ valuesOf source column rows, type.Has value ∧ value ≠ .null := by
  obtain ⟨hstart, hengine, htables, hfirst, hjoins, hrows, hvalidate, htarget⟩ := h
  have hquery := hengine.sound_query hstart htables hfirst hjoins
  obtain ⟨found, hfound, rfl, c, hc⟩ := column_of_validate hvalidate htarget
  refine ⟨htarget, c.type, fun value hvalue => ?_⟩
  have hholds := mem_valuesOf_iff.mp hvalue
  exact ⟨hquery.has_of_picks hrows hfound hc hholds, hholds.1⟩

namespace Engine

/-- `MIN` and `MAX` over a column of a query in a state that scripts can reach answer a null exactly if
all rows have a null there, and else an extreme of what the rows hold. The answer for rows that hold
the same values is equal, or both answers are not a number, exactly if both row sets begin with what is
not a number or neither does. -/
theorem apply_of_covers {wanted : Ordering} (h : aggregate.Covers source column rows)
    (hwanted : aggregate.function.wanted? = some wanted) :
    ∃ value, aggregate.apply rows = .ok value ∧
      (value = .null ↔ ∀ id row, rows.get? id = some row → row.cell source column = .null) ∧
      (value ≠ .null → value.IsExtreme wanted (rows.Holds source column)) ∧
      ∀ {aggregate' : Aggregate} {source' column' : String} {rows' : JoinedRows},
        aggregate'.Covers source' column' rows' → aggregate'.function = aggregate.function →
        (∀ held, rows.Holds source column held ↔ rows'.Holds source' column' held) →
        ∃ value', aggregate'.apply rows' = .ok value' ∧
          (value.Alike value' ↔ (rows.BeginsWith source column (.float .nan) ↔
            rows'.BeginsWith source' column' (.float .nan))) := by
  have hne := AggregateFunction.ne_eq_of_wanted? hwanted
  obtain ⟨htarget, type, hvalues⟩ := h.exists_type
  obtain ⟨value, hvalue, hnull, hextreme, -⟩ := Aggregate.exists_extremeOf hne hvalues
  refine ⟨value, ?_, ?_, ?_, ?_⟩
  · rw [Aggregate.apply_eq htarget hwanted, hvalue]
  · rw [hnull, Aggregate.valuesOf_eq_nil_iff]
  · intro hne
    exact (hextreme hne).congr fun held => Aggregate.mem_valuesOf_iff
  · intro aggregate' source' column' rows' h' hfunction hsame
    obtain ⟨htarget', type', hvalues'⟩ := h'.exists_type
    obtain ⟨value', hvalue', -⟩ := Aggregate.exists_extremeOf hne hvalues'
    refine ⟨value', ?_, ?_⟩
    · rw [Aggregate.apply_eq htarget' (hfunction ▸ hwanted), hvalue']
    · rw [← Aggregate.head?_valuesOf_iff, ← Aggregate.head?_valuesOf_iff]
      refine Aggregate.alike_extremeOf_iff hne hvalues (fun held => ?_) hvalue hvalue'
      rw [Aggregate.mem_valuesOf_iff, Aggregate.mem_valuesOf_iff, hsame]

/-- Three tables that have the same numbers in other orders, but for one of them. -/
def numberedTables : List Char :=
  "CREATE DATABASE d; USE d; CREATE TABLE t (id INT PRIMARY KEY, f FLOAT);
   CREATE TABLE u (id INT PRIMARY KEY, f FLOAT); CREATE TABLE v (id INT PRIMARY KEY, f FLOAT);
   INSERT INTO t VALUES (1, NULL), (2, 0.0), (3, 7.5), (5, -0.0);
   INSERT INTO u VALUES (1, -0.0), (3, 7.5), (4, 0.0);
   INSERT INTO v VALUES (2, 0.0), (3, 7.5), (4, -0.0)".toList

/-- A number that is too large for a float, times zero: what is not a number. -/
def nanProduct : List Char :=
  '1' :: List.replicate 309 '0' ++ ".0 * 0.0".toList

/-- The tables with what is not a number. The last table begins with it. -/
def unorderedScript : List Char :=
  numberedTables ++ "; INSERT INTO t VALUES (4, ".toList ++ nanProduct ++
    "); INSERT INTO u VALUES (2, ".toList ++ nanProduct ++
    "); INSERT INTO v VALUES (1, ".toList ++ nanProduct ++ [')']

/-- The numbers in each of the tables. -/
def unorderedValues : List Value :=
  [.float (.finite false .zero), .float (.ofDecimal false 75 (-1)), .float .nan,
    .float (.finite true .zero)]

/-- The least number of a table. -/
def leastOf (table : String) : Aggregate :=
  ⟨.min, "f", some (.column table "f")⟩

/-- What the least number of each table comes to. -/
def unorderedLeasts : List (String × Value) :=
  [("t", .float (.finite false .zero)), ("u", .float (.finite true .zero)), ("v", .float .nan)]

set_option maxRecDepth 4000 in
theorem exists_covers_leastOf {name : String} {value : Value} (h : (name, value) ∈ unorderedLeasts) :
    ∃ rows : JoinedRows, (leastOf name).Covers name "f" rows ∧
      (∀ held, rows.Holds name "f" held ↔ held ∈ unorderedValues) ∧
      (leastOf name).apply rows = .ok value := by
  have hrun : ((behind unorderedScript).storage.store.databases.get? "d").any (fun tables =>
      unorderedLeasts.all fun least => (tables.get? least.1).any fun table =>
        (Condition.read "id < 9".toList).toOption.any fun condition =>
          ((Query.ofTable table).evaluate condition).toOption.any fun rows =>
            ((⟨.min, "f", none⟩ : Aggregate).validate (Query.ofTable table).scope).toOption ==
              some (leastOf least.1) &&
            (Aggregate.valuesOf least.1 "f" rows).isPerm unorderedValues &&
            ((leastOf least.1).apply rows).toOption == some least.2) = true := by
    have hscript : numberedTables = _ := String.toList_ofList
    rewrite [unorderedScript, hscript]
    decide +kernel
  simp only [Option.any_eq_true, List.all_eq_true, toOption_eq_some_iff, Bool.and_eq_true, beq_iff_eq,
    List.isPerm_iff] at hrun
  obtain ⟨tables, htables, hall⟩ := hrun
  obtain ⟨table, htable, condition, -, rows, hrows, ⟨hvalidate, hvalues⟩, hleast⟩ := hall _ h
  have hjoins : JoinClause.bind tables ⟨[⟨table, none, false⟩]⟩ [] =
      .ok ([], ⟨[⟨table, none, false⟩]⟩) := rfl
  refine ⟨rows, ?_, fun held => ?_, hleast⟩
  · exact .intro rfl (reaches_behind unorderedScript) htables htable hjoins (.inr ⟨condition, hrows⟩)
      hvalidate rfl
  · rw [← Aggregate.mem_valuesOf_iff, hvalues.mem_iff]

theorem apply_of_covers_zeros : ∃ t u : JoinedRows,
    (leastOf "t").Covers "t" "f" t ∧ (leastOf "t").function.wanted? = some .lt ∧
    (leastOf "t").apply t = .ok (.float (.finite false .zero)) ∧
    (Value.float (.finite false .zero)).IsExtreme .lt (t.Holds "t" "f") ∧
    (leastOf "u").Covers "u" "f" u ∧ (leastOf "u").function = (leastOf "t").function ∧
    (∀ held, t.Holds "t" "f" held ↔ u.Holds "u" "f" held) ∧
    (leastOf "u").apply u = .ok (.float (.finite true .zero)) ∧
    (t.BeginsWith "t" "f" (.float .nan) ↔ u.BeginsWith "u" "f" (.float .nan)) := by
  obtain ⟨t, ht, htheld, htleast⟩ := exists_covers_leastOf (List.mem_of_getElem? (i := 0) rfl)
  obtain ⟨u, hu, huheld, huleast⟩ := exists_covers_leastOf (List.mem_of_getElem? (i := 1) rfl)
  have hsame (held : Value) : t.Holds "t" "f" held ↔ u.Holds "u" "f" held :=
    (htheld held).trans (huheld held).symm
  obtain ⟨value, hvalue, -, hextreme, hall⟩ := apply_of_covers ht rfl
  obtain ⟨value', hvalue', halike⟩ := hall hu rfl hsame
  cases Except.ok.inj (htleast.symm.trans hvalue)
  cases Except.ok.inj (huleast.symm.trans hvalue')
  exact ⟨t, u, ht, rfl, htleast, hextreme nofun, hu, rfl, hsame, huleast,
    halike.mp (.inr (by decide +kernel))⟩

/-- For rows that hold the same, the least value may be a number and may be what is not one. -/
theorem apply_leastOf_ne : ∃ t v : JoinedRows,
    (leastOf "t").Covers "t" "f" t ∧ (leastOf "v").Covers "v" "f" v ∧
    (leastOf "t").function = .min ∧ (leastOf "v").function = .min ∧
    (∀ held, t.Holds "t" "f" held ↔ v.Holds "v" "f" held) ∧
    (leastOf "t").apply t = .ok (.float (.finite false .zero)) ∧
    (leastOf "v").apply v = .ok (.float .nan) ∧
    ¬(Value.float (.finite false .zero)).Alike (.float .nan) := by
  obtain ⟨t, ht, htheld, htleast⟩ := exists_covers_leastOf (List.mem_of_getElem? (i := 0) rfl)
  obtain ⟨v, hv, hvheld, hvleast⟩ := exists_covers_leastOf (List.mem_of_getElem? (i := 2) rfl)
  have hsame (held : Value) : t.Holds "t" "f" held ↔ v.Holds "v" "f" held :=
    (htheld held).trans (hvheld held).symm
  refine ⟨t, v, ht, hv, rfl, rfl, hsame, htleast, hvleast, ?_⟩
  rintro (⟨hnan, -⟩ | hequal)
  · cases hnan
  · exact (Value.ne_nan_of_equal hequal).2 rfl

end Engine

end Relational
