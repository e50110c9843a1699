import Relational.Proofs.Query.Evaluation
import Relational.Query.Projection

/-!
# Queries without indexes

A bare table is a table without what it knows of indexes (`Table.bare`). All that a query asks its
tables, but for finding the rows of a comparison with a constant, it could ask the bare tables: what
names stand for, the joins and their rows, what is shown. So two queries that are equal when bare
evaluate a condition alike, if their sources find the same rows (`Query.evaluate_congr`).
-/

namespace Relational

open Std

/-- The table without what it knows of indexes. -/
def Table.bare (table : Table) : Table :=
  ⟨{ table.schema with indexes := [] }, table.rows, .empty⟩

def Database.bare (tables : Database) : Database :=
  tables.map fun _ table => table.bare

def Source.bare (source : Source) : Source :=
  { source with table := source.table.bare }

def Scope.bare (scope : Scope) : Scope :=
  ⟨scope.sources.map Source.bare⟩

def Join.bare (join : Join) : Join :=
  { join with target := join.target.bare }

def Query.bare (query : Query) : Query :=
  ⟨query.first.bare, query.joins.map Join.bare, query.scope.bare⟩

/-! ## Names -/

@[simp] theorem Source.name_bare (source : Source) : source.bare.name = source.name := rfl

@[simp] theorem Source.column?_bare (source : Source) : source.bare.column? = source.column? := rfl

@[simp] theorem Source.hasColumn_bare (source : Source) :
    source.bare.hasColumn = source.hasColumn := rfl

@[simp] theorem Source.rows_bare (source : Source) : source.bare.rows = source.rows := rfl

namespace Scope

variable (scope : Scope)

theorem source?_bare (name : String) :
    scope.bare.source? name = (scope.source? name).map Source.bare := by
  have hfind (p : Source → Bool) (hp : ∀ source, p source.bare = p source) :
      scope.bare.sources.find? p = (scope.sources.find? p).map Source.bare := by
    rw [bare, List.find?_map]
    have : p ∘ Source.bare = p := funext hp
    rw [this]
  rw [source?, hfind _ fun _ => rfl, hfind _ fun _ => rfl, source?]
  cases scope.sources.find? fun source => source.nickname == some name <;> rfl

theorem resolve_bare (reference : String) :
    scope.bare.resolve reference = (scope.resolve reference).map fun p => (p.1.bare, p.2) := by
  unfold resolve
  split
  · dsimp only
    rw [source?_bare]
    cases scope.source? _ with
    | none => rfl
    | some source =>
      dsimp only [Option.map_some]
      rw [Source.hasColumn_bare]
      split <;> rfl
  · have hfilter : (scope.bare.sources.filter (·.hasColumn reference)) =
        (scope.sources.filter (·.hasColumn reference)).map Source.bare := by
      rw [bare, List.filter_map]
      rfl
    rw [hfilter]
    cases scope.sources.filter (·.hasColumn reference) with
    | nil => rfl
    | cons source sources => cases sources <;> rfl

theorem add_bare (source : Source) :
    scope.bare.add source.bare = (scope.add source).map bare := by
  have hany : (scope.bare.sources.any fun other => other.name == source.bare.name) =
      scope.sources.any fun other => other.name == source.name := by
    rw [bare, List.any_map]
    rfl
  rw [add, hany, add]
  split
  · rfl
  · rw [map_ok, bare, bare, List.map_append, List.map_singleton]

theorem columns_bare : scope.bare.columns = scope.columns := by
  rw [columns, bare, List.flatMap_map]
  rfl

end Scope

/-! ## Joins -/

namespace JoinClause

theorem orient_bare (clause : JoinClause) (scope : Scope) (target : Source) :
    clause.orient scope.bare target.bare = (clause.orient scope target).map Join.bare := by
  simp only [orient, Scope.resolve_bare, bind_map, map_bind, Source.name_bare]
  refine bind_congr fun left => bind_congr fun right => ?_
  rw [apply_ite (Except.map Join.bare), apply_ite (Except.map Join.bare)]
  rfl

theorem bind_bare (tables : Database) (scope : Scope) (clauses : List JoinClause) :
    bind tables.bare scope.bare clauses =
      (bind tables scope clauses).map fun p => (p.1.map Join.bare, p.2.bare) := by
  induction clauses generalizing scope with
  | nil => rfl
  | cons clause clauses ih =>
    rw [bind, bind, Database.bare, SortedMap.get?_map]
    cases tables.get? clause.table with
    | none => rfl
    | some table =>
      have hadd := scope.add_bare ⟨table, clause.nickname, false⟩
      have horient (scope : Scope) := clause.orient_bare scope ⟨table, clause.nickname, false⟩
      simp only [Source.bare] at hadd horient
      simp only [Option.map_some, hadd, bind_map, map_bind]
      refine bind_congr fun next => ?_
      rw [horient, bind_map, ← Database.bare]
      refine bind_congr fun join => ?_
      rw [ih, bind_map]
      rfl

end JoinClause

theorem Query.build_bare (tables : Database) (first : Source) (joins : List Char) :
    Query.build tables.bare first.bare joins = (Query.build tables first joins).map Query.bare := by
  have hadd := Scope.empty.add_bare first
  have hempty : Scope.empty.bare = Scope.empty := rfl
  rw [hempty] at hadd
  simp only [Query.build, hadd, bind_map, map_bind]
  refine bind_congr fun scope => bind_congr fun clauses => ?_
  rw [JoinClause.bind_bare, bind_map]
  rfl

namespace Join

theorem extend_bare (join : Join) : join.bare.extend = join.extend := rfl

theorem extendAll_bare (joins : List Join) (rows : JoinedRows) :
    extendAll (joins.map bare) rows = extendAll joins rows := by
  induction joins generalizing rows with
  | nil => rfl
  | cons join joins ih =>
    rw [List.map_cons, extendAll, extendAll, extend_bare]
    exact bind_congr fun next => ih next

theorem position?_bare (joins : List Join) (name : String) :
    position? (joins.map bare) name = position? joins name := by
  rw [position?, List.findIdx?_map, position?]
  rfl

end Join

/-! ## What is shown -/

theorem Aggregate.validate_bare (aggregate : Aggregate) (scope : Scope) :
    aggregate.validate scope.bare = aggregate.validate scope := by
  have htarget : aggregate.findTarget scope.bare = aggregate.findTarget scope := by
    simp only [findTarget, Scope.resolve_bare, bind_map, Source.column?_bare, Source.name_bare]
  rw [validate, htarget, validate]

namespace Projection

theorem readItems_bare (list : List Char) (scope : Scope) (items : List (List Char)) :
    readItems list scope.bare items = readItems list scope items := by
  induction items with
  | nil => rfl
  | cons item items ih =>
    simp only [readItems, Aggregate.validate_bare, Scope.resolve_bare, bind_map, ih,
      Source.name_bare]

theorem read_bare (list : List Char) (scope : Scope) : read list scope.bare = read list scope := by
  simp only [read, readItems_bare, Scope.columns_bare]

end Projection

/-! ## Evaluating -/

namespace Query

variable {query query' : Query}

theorem rows_bare (query : Query) : query.bare.rows = query.rows := by
  rw [rows, rows, bare, Source.rows_bare, Join.extendAll_bare]

theorem expand_bare (query : Query) (source : Source) (ids : SortedSet RowId) :
    query.bare.expand source.bare ids = query.expand source ids := by
  unfold expand
  rw [rows_bare]
  simp only [bare, Source.name_bare, Join.position?_bare, Join.extendAll_bare]
  rfl

theorem resolve_bare (query : Query) (operand : Operand) :
    query.bare.resolve operand = (query.resolve operand).map fun p => (p.1.bare, p.2) := by
  unfold resolve
  split
  · exact query.scope.resolve_bare _
  · rfl

theorem compareColumns_bare (query : Query) (op : Operator) (left right : Operand) :
    query.bare.compareColumns op left right = query.compareColumns op left right := by
  simp only [compareColumns, resolve_bare, bind_map, expand_bare, Source.name_bare]
  rfl

theorem compareConstants_bare (query : Query) (op : Operator) (left right : Operand) :
    query.bare.compareConstants op left right = query.compareConstants op left right := by
  simp only [compareConstants, rows_bare]

/-- Sources of two queries find the same rows by a comparison with a constant. -/
def FindAlike (P : Value → Prop) (query query' : Query) : Prop :=
  ∀ source ∈ query.scope.sources, ∀ source' ∈ query'.scope.sources, source.bare = source'.bare →
    ∀ (op : Operator) (column : Column) (value : Value), P value →
      source.column? column.name = some column → column.type.checkComparable value = .ok () →
        source.find op column value = source'.find op column value

variable {P : Value → Prop}

theorem compareConstant_congr (hbare : query.bare = query'.bare)
    (hfind : FindAlike P query query') (op : Operator) (left : Operand) {right : Operand}
    (hconstant : ∀ value, right.value? = some value → P value) :
    query.compareConstant op left right = query'.compareConstant op left right := by
  have hresolve : (query.resolve left).map (fun p => (p.1.bare, p.2)) =
      (query'.resolve left).map fun p => (p.1.bare, p.2) := by
    rw [← resolve_bare, hbare, resolve_bare]
  unfold compareConstant
  refine bind_congr_of_map hresolve fun ⟨source, name⟩ ⟨source', name'⟩ hsource hsource' hsame => ?_
  obtain ⟨hsame, rfl⟩ := Prod.mk.inj hsame
  have hcolumn : source'.column? = source.column? := by
    rw [← Source.column?_bare, ← hsame, Source.column?_bare]
  dsimp only
  rw [hcolumn]
  split
  · rfl
  · rename_i column hfound
    have hname : column.name = name := by simpa using List.find?_some hfound
    subst hname
    unfold constant
    split
    · rename_i value hvalue
      rw [ok_bind, ok_bind]
      cases hcheck : column.type.checkComparable value with
      | error e => rfl
      | ok u =>
        rw [ok_bind, ok_bind, hfind source (mem_of_resolve_operand hsource) source'
          (mem_of_resolve_operand hsource') hsame op column value (hconstant value hvalue)
          hfound hcheck]
        refine bind_congr fun ids => ?_
        rw [← expand_bare, hbare, hsame, expand_bare]
    · rfl

/-- Queries over the same tables but for indexes evaluate a condition alike, if their sources find
the same rows. -/
theorem evaluate_congr (hbare : query.bare = query'.bare) (hfind : FindAlike P query query')
    {condition : Condition} (hconstants : condition.AllConstants P) :
    query.evaluate condition = query'.evaluate condition := by
  induction condition with
  | and left right ihl ihr => rw [evaluate, evaluate, ihl hconstants.1, ihr hconstants.2]
  | or left right ihl ihr => rw [evaluate, evaluate, ihl hconstants.1, ihr hconstants.2]
  | compare op left right =>
    rw [evaluate_compare, evaluate_compare]
    split
    · rfl
    · split
      · rw [← compareColumns_bare, hbare, compareColumns_bare]
      · exact compareConstant_congr hbare hfind _ _ hconstants.1
      · exact compareConstant_congr hbare hfind _ _ hconstants.2
      · rw [← compareConstants_bare, hbare, compareConstants_bare]
      · rfl
  | column operand => rfl
  | value operand => rfl

end Query

end Relational
