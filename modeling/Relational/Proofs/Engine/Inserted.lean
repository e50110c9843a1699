import Relational.Proofs.Engine.CreateIndex
import Relational.Proofs.Engine.Session
import Relational.Proofs.Query.Found
import Relational.Proofs.Script.Joined

/-!
# Selections behind an insertion

A selection of all columns is asked right behind an insertion of one row, for a value that the row was
given. It has an answer, and the row is in it exactly if its column keeps the value, or if the value is
not a number and rows are found by keys of the column (`Engine.execute_select_inserted`). A column of
floats does not keep a whole number that is no float (`Engine.execute_select_oddWhole`).
-/

namespace Relational.Engine

variable {start engine engine' : Engine} {session : SessionId} {database table : String}
  {columns : Option (List String)} {text condition : List Char} {answer : Answer} {given : Row}

/-- What a row that was inserted comes to: it is stored in a table, behind the insertion, and under the
identity that the insertion gave it. -/
structure Inserts (engine engine' : Engine) (database table : String) (given : Row) (after : Table)
    (stored : Row) : Prop where
  inserted : ∃ before id, engine.storage.store.Holds database table before ∧
    before.insert given = .ok (id, after) ∧ after.rows.get? id = some stored
  holds : engine'.storage.store.Holds database table after

/-- Where one row is inserted, the store has one table in place of another. -/
theorem store_of_insert
    (h : (Statement.insert table columns [text]).perform session engine = (.ok answer, engine'))
    (hread : engine.readInsertion session table columns [text] = .ok (database, [given])) :
    ∃ before id after, engine.storage.store.Holds database table before ∧
      before.insert given = .ok (id, after) ∧
      engine'.storage.store = engine.storage.store.put database after ∧
      engine'.sessions = engine.sessions := by
  simp only [perform_insert, hread, Work.insertRows, Work.bind_eq_ok_iff] at h
  obtain ⟨_, _, ⟨id, between, hinsert, hrest⟩, hanswer⟩ := h
  cases hrest
  cases hanswer
  obtain ⟨hok, rfl⟩ := Prod.mk.inj hinsert
  have hresult := Storage.store_of_perform (Prod.ext hok rfl)
  simp only [Store.insertRow, bind_eq_ok_iff, lift_eq_ok_iff] at hresult
  obtain ⟨before, hbefore, ⟨_, after⟩, hafter, hput⟩ := hresult
  obtain ⟨rfl, hstore⟩ := Prod.mk.inj (Except.ok.inj hput)
  exact ⟨before, _, after, Store.table_eq_ok_iff.mp hbefore, hafter, hstore.symm, rfl⟩

/-- The database of an insertion is the one that the session uses. -/
theorem currentDatabase?_of_readInsertion {texts : List (List Char)} {rows : List Row}
    (h : engine.readInsertion session table columns texts = .ok (database, rows)) :
    engine.currentDatabase? session = some database := by
  rw [readInsertion] at h
  split at h
  · cases h
  · rename_i hdatabase
    simp only [bind_eq_ok_iff] at h
    obtain ⟨_, -, _, -, h⟩ := h
    cases h
    exact hdatabase

variable {name : String} {value : Value} {left right : Operand}

/-- A selection of all columns that asks for a value which a row was just given: the row is in the
answer exactly if the column keeps the value, or if it is not a number and rows are found by keys. -/
theorem select_inserted (hengine : start.Reaches engine) (hstart : start.storage.store = .empty)
    (hinsert : (Statement.insert table columns [text]).perform session engine =
      (.ok answer, engine'))
    (hread : engine.readInsertion session table columns [text] = .ok (database, [given]))
    (hvalue : given.get? name = some value) (hnull : value ≠ .null)
    (hcondition : Condition.read condition =
      .ok (.compare (.comparison .eq) (.column left) (.value right)))
    (hleft : left.columnName? = some name) (hright : right.value? = some value) :
    ∃ after stored column rows, engine.Inserts engine' database table given after stored ∧
      after.schema.column? name = some column ∧
      ((stored.cell name).equal value = .ok true ↔ column.type.Keeps value) ∧
      engine'.select session ⟨['*'], table, none, [], some condition⟩ =
        .ok { fields := Selection.shownFields after, rows, messages := [], error := none } ∧
      (after.schema.columnNames.map stored.cell ∈ rows ↔
        column.type.Keeps value ∨ value = .float .nan ∧ after.schema.IsKeyed name) := by
  obtain ⟨before, id, after, hbefore, hafter, hstore, hsessions⟩ := store_of_insert hinsert hread
  have hsound := hengine.sound hstart database table before hbefore
  obtain ⟨stored, column, hrow, hcolumn, rfl, hcoerce⟩ := Table.exists_stored hsound hafter hvalue
  obtain ⟨ids, hfind, hshown⟩ :=
    Table.exists_shown (hsound.insert hafter) hrow hcolumn hcoerce hnull
  have hname : after.schema.name = table := by
    rw [Table.schema_of_insert hafter]
    exact (hengine.named hstart database table before hbefore).symm
  have hholds : engine'.storage.store.Holds database table after := by
    rw [hstore]
    exact Store.holds_put_iff.mpr (.inl ⟨rfl, hname.symm, rfl⟩)
  have hequal : (stored.cell column.name).equal value = .ok true ↔ column.type.Keeps value := by
    obtain ⟨b, hb, hiff⟩ := ColumnType.equal_of_coerce hcoerce hnull
    rw [hb, Except.ok.injEq, hiff]
  refine ⟨after, stored, column, _, ⟨⟨before, id, hbefore, hafter, hrow⟩, hholds⟩, hcolumn, hequal,
    ?_, hshown⟩
  have hdatabase : engine'.currentDatabase? session = some database := by
    rw [currentDatabase?, hsessions]
    exact currentDatabase?_of_readInsertion hread
  have hmem := ((Schema.column?_eq_some_iff (hsound.insert hafter).nodup).mp hcolumn).1
  have hpicked := Query.evaluate_ofTable ((hsound.insert hafter).fits column hmem).1 hcolumn hleft
    hright (ColumnType.checkComparable_of_coerce hcoerce) hfind
  obtain ⟨tables, htables, htable⟩ := hholds
  simp only [select, hdatabase, Store.database_eq_ok_iff.mpr htables, ok_bind]
  exact Selection.answer_star htable hcondition hpicked

/-- Whatever scripts came before: a script that inserts one row, and then one that selects all columns
by a value which the row was given. The second answers with rows and no error, and the row is among them
exactly if its column keeps the value, or if the value is not a number and rows are found by keys. -/
theorem execute_select_inserted {insertion selection : List Char} (hengine : start.Reaches engine)
    (hstart : start.storage.store = .empty)
    (hinsertion : Script.batches insertion = .ok [[.insert table columns [text]]])
    (hinsert : engine.execute session insertion = (.ok [answer], engine'))
    (hanswer : answer.isError = false)
    (hread : engine.readInsertion session table columns [text] = .ok (database, [given]))
    (hvalue : given.get? name = some value) (hnull : value ≠ .null)
    (hselection : Script.batches selection =
      .ok [[.select ⟨['*'], table, none, [], some condition⟩]])
    (hcondition : Condition.read condition =
      .ok (.compare (.comparison .eq) (.column left) (.value right)))
    (hleft : left.columnName? = some name) (hright : right.value? = some value) :
    ∃ after stored column rows, engine.Inserts engine' database table given after stored ∧
      after.schema.column? name = some column ∧
      ((stored.cell name).equal value = .ok true ↔ column.type.Keeps value) ∧
      (engine'.execute session selection).1 =
        .ok [{ fields := Selection.shownFields after, rows, messages := [], error := none }] ∧
      (after.schema.columnNames.map stored.cell ∈ rows ↔
        column.type.Keeps value ∨ value = .float .nan ∧ after.schema.IsKeyed name) := by
  obtain ⟨_, hstatement, ⟨⟩⟩ := (execute_single_iff hinsertion).mp hinsert
  obtain hperform | ⟨e, -, rfl⟩ := answer_eq_ok hstatement
  · obtain ⟨after, stored, column, rows, hinserts, hcolumn, hequal, hselect, hshown⟩ :=
      select_inserted hengine hstart hperform hread hvalue hnull hcondition hleft hright
    refine ⟨after, stored, column, rows, hinserts, hcolumn, hequal, ?_, hshown⟩
    have hselected := answer_select engine' session ⟨['*'], table, none, [], some condition⟩
    rw [hselect] at hselected
    exact congrArg Prod.fst ((execute_single_iff hselection).mpr ⟨_, eq_mk_of_fst hselected, rfl⟩)
  · nomatch hanswer

/-- A script that leaves a table without rows, with a column of floats. -/
def emptyScript : List Char :=
  "CREATE DATABASE d; USE d; CREATE TABLE t (id INT PRIMARY KEY, f FLOAT)".toList

/-- The engine behind the script. -/
def emptyEngine : Engine :=
  ((new .inMemory).execute defaultSession emptyScript).2

theorem reaches_emptyEngine : (new .inMemory).Reaches emptyEngine :=
  reaches_behind emptyScript

/-- The values of a row with a number under the column. -/
def valuesOf (n : Integer) : List Char :=
  "1, ".toList ++ n.toText

/-- The row. -/
def rowOf (n : Integer) : Row :=
  .ofList [("id", .int 1), ("f", .int n)]

/-- A script that inserts the row. -/
def insertionOf (n : Integer) : List Char :=
  "INSERT INTO t VALUES (".toList ++ valuesOf n ++ [')']

/-- The condition that the number is under the column. -/
def conditionOf (n : Integer) : List Char :=
  "f = ".toList ++ n.toText

/-- A script that selects the rows of the condition. -/
def selectionOf (n : Integer) : List Char :=
  "SELECT * FROM t WHERE ".toList ++ conditionOf n

/-- A whole number that is a float. -/
def evenWhole : Integer := ⟨9007199254740992, by decide, by decide⟩

/-- The whole number behind it, which is none. -/
def oddWhole : Integer := ⟨9007199254740993, by decide, by decide⟩

/-- What is stored of the row. -/
def evenRow : List Value :=
  [.int 1, .float (.ofInt evenWhole.val)]

theorem execute_select_inserted_evenWhole : ∃ answer engine' after stored,
    emptyEngine.execute defaultSession (insertionOf evenWhole) = (.ok [answer], engine') ∧
    answer.isError = false ∧
    emptyEngine.Inserts engine' "d" "t" (rowOf evenWhole) after stored ∧
    (stored.cell "f").equal (.int evenWhole) = .ok true ∧
    (engine'.execute defaultSession (selectionOf evenWhole)).1 =
      .ok [{ fields := ["t.id", "t.f"], rows := [evenRow], messages := [], error := none }] ∧
    after.schema.columnNames.map stored.cell = evenRow := by
  have hinsertion : Script.batches (insertionOf evenWhole) =
      .ok [[.insert "t" none [valuesOf evenWhole]]] := by
    decide +kernel
  obtain ⟨hinsert, hanswer⟩ :
      (emptyEngine.execute defaultSession (insertionOf evenWhole)).1 = .ok [.ofCount 1] ∧
      ((emptyEngine.execute defaultSession (insertionOf evenWhole)).2.execute defaultSession
        (selectionOf evenWhole)).1 = .ok [⟨["t.id", "t.f"], [evenRow], [], none⟩] := by
    decide +kernel
  have hread : emptyEngine.readInsertion defaultSession "t" none [valuesOf evenWhole] =
      .ok ("d", [rowOf evenWhole]) := by
    decide +kernel
  have hvalue : (rowOf evenWhole).get? "f" = some (.int evenWhole) := by decide
  have hselection : Script.batches (selectionOf evenWhole) =
      .ok [[.select ⟨['*'], "t", none, [], some (conditionOf evenWhole)⟩]] := by
    decide +kernel
  have hcondition : Condition.read (conditionOf evenWhole) = .ok (.compare (.comparison .eq)
      (.column (.column "f")) (.value (.constant (.int evenWhole)))) := by
    decide +kernel
  have hkeeps (type : ColumnType) : type.Keeps (.int evenWhole) := by
    cases type with
    | float =>
      change (Binary64.ofInt evenWhole.val).whole? = some evenWhole.val
      decide +kernel
    | _ => trivial
  obtain ⟨after, stored, column, rows, hinserts, -, hequal, hselect, hshown⟩ :=
    execute_select_inserted reaches_emptyEngine rfl hinsertion (eq_mk_of_fst hinsert) rfl hread
      hvalue nofun hselection hcondition rfl rfl
  have hrows : Selection.shownFields after = ["t.id", "t.f"] ∧ rows = [evenRow] := by
    simpa using hselect.symm.trans hanswer
  have hmem := hshown.mpr (.inl (hkeeps _))
  rw [hrows.2, List.mem_singleton] at hmem
  exact ⟨_, _, after, stored, eq_mk_of_fst hinsert, rfl, hinserts, hequal.mpr (hkeeps _), hanswer, hmem⟩

/-- A row that was just given a whole number is not found by it. -/
theorem execute_select_oddWhole : ∃ answer engine' left right,
    Script.batches (insertionOf oddWhole) = .ok [[.insert "t" none [valuesOf oddWhole]]] ∧
    emptyEngine.execute defaultSession (insertionOf oddWhole) = (.ok [answer], engine') ∧
    answer.isError = false ∧
    emptyEngine.readInsertion defaultSession "t" none [valuesOf oddWhole] =
      .ok ("d", [rowOf oddWhole]) ∧
    (rowOf oddWhole).get? "f" = some (.int oddWhole) ∧
    Script.batches (selectionOf oddWhole) =
      .ok [[.select ⟨['*'], "t", none, [], some (conditionOf oddWhole)⟩]] ∧
    Condition.read (conditionOf oddWhole) =
      .ok (.compare (.comparison .eq) (.column left) (.value right)) ∧
    left.columnName? = some "f" ∧ right.value? = some (.int oddWhole) ∧
    (engine'.execute defaultSession (selectionOf oddWhole)).1 =
      .ok [{ fields := ["t.id", "t.f"], rows := [], messages := [], error := none }] := by
  have hinsert : (emptyEngine.execute defaultSession (insertionOf oddWhole)).1 =
      .ok [.ofCount 1] := by
    decide +kernel
  refine ⟨_, _, .column "f", .constant (.int oddWhole), ?_, eq_mk_of_fst hinsert, rfl, ?_, ?_, ?_,
    ?_, rfl, rfl, ?_⟩
  all_goals decide +kernel

end Relational.Engine
