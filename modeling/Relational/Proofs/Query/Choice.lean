import Mathlib.Data.List.Nodup
import Relational.Proofs.Query.Evaluation

/-!
# Joins as choices of rows

Joined rows are made of choices: of one stored row for each source (`Choice`). A join adds a row of
its table to each choice and keeps those where the two cells of its clause are equal
(`Join.areChosen_extend`), so what the joins of a query leave are the choices in which every clause holds
(`AreChosen.extendAll_of_bind`). A choice is known by what its rows are known by, one after the
other, and no other choice is known by the same (`Choice.eq_of_id_eq`).
-/

namespace Relational

/-- A row that the table of a source has. -/
structure StoredRow where
  source : Source
  id : RowId
  row : Row
  isStored : source.table.rows.get? id = some row

/-- A row for each of some sources. -/
abbrev Choice := List StoredRow

namespace Choice

variable {choice choice' : Choice}

/-- The sources that rows are chosen of. -/
def sources (choice : Choice) : List Source :=
  choice.map (·.source)

/-- What the chosen rows are known by, one after the other. -/
def id (choice : Choice) : RowId :=
  ⟨choice.flatMap (·.id.parts)⟩

/-- The chosen rows under the names of their sources. -/
def row (choice : Choice) : JoinedRow :=
  choice.foldl (fun row stored => row.insert stored.source.name stored.row) .empty

theorem sources_concat (choice : Choice) (stored : StoredRow) :
    sources (choice ++ [stored]) = choice.sources ++ [stored.source] :=
  List.map_append

theorem id_concat (choice : Choice) (stored : StoredRow) :
    id (choice ++ [stored]) = choice.id.join stored.id := by
  simp [id, RowId.join]

theorem row_concat (choice : Choice) (stored : StoredRow) :
    row (choice ++ [stored]) = choice.row.insert stored.source.name stored.row := by
  rw [row, List.foldl_append, ← row]
  rfl

/-- Each stored row is known by one key, so choices that are known by the same keys are the same. -/
theorem eq_of_id_eq (hcoherent : ∀ source ∈ choice.sources, source.table.Coherent)
    (hsources : choice.sources = choice'.sources) (hid : choice.id = choice'.id) :
    choice = choice' := by
  have hparts := congrArg RowId.parts hid
  clear hid
  induction choice generalizing choice' with
  | nil => exact (List.map_eq_nil_iff.mp hsources.symm).symm
  | cons stored choice ih =>
    obtain ⟨stored', choice', rfl⟩ : ∃ s c, choice' = s :: c := by
      cases choice' with
      | nil => nomatch hsources
      | cons s c => exact ⟨s, c, rfl⟩
    obtain ⟨hsource, hrest⟩ := List.cons.inj hsources
    obtain ⟨hfirst, hothers⟩ := List.forall_mem_cons.mp hcoherent
    obtain ⟨source, i, r, hr⟩ := stored
    obtain ⟨source', i', r', hr'⟩ := stored'
    obtain rfl : source = source' := hsource
    obtain ⟨key, rfl⟩ := hfirst.parts hr
    obtain ⟨key', rfl⟩ := hfirst.parts hr'
    obtain ⟨rfl, hmore⟩ := List.cons.inj hparts
    obtain rfl : r = r' := Option.some.inj (hr.symm.trans hr')
    rw [ih hothers hrest hmore]

/-- The last of the rows of a choice. -/
theorem exists_concat {sources : List Source} {source : Source}
    (h : choice.sources = sources ++ [source]) : ∃ (before : Choice) (stored : StoredRow),
      choice = before ++ [stored] ∧ before.sources = sources ∧ stored.source = source := by
  obtain ⟨before, last, rfl, hbefore, hlast⟩ := List.map_eq_append_iff.mp h
  obtain ⟨stored, rest, rfl, hstored, hrest⟩ := List.map_eq_cons_iff.mp hlast
  rw [List.map_eq_nil_iff] at hrest
  exact ⟨before, stored, by rw [hrest], hbefore, hstored⟩

end Choice

/-! ## Clauses -/

/-- The cell of a joined row under the name of a source and a column. -/
def JoinedRow.cell (row : JoinedRow) (source column : String) : Value :=
  ((row.get? source).map (·.cell column)).getD .null

theorem JoinedRow.cell_insert_self (row : JoinedRow) (source column : String) (stored : Row) :
    JoinedRow.cell (row.insert source stored) source column = stored.cell column := by
  rw [cell, SortedMap.get?_insert, if_pos rfl]
  rfl

theorem JoinedRow.cell_insert_of_ne (row : JoinedRow) {source source' : String} (column : String)
    (stored : Row) (h : source ≠ source') :
    JoinedRow.cell (row.insert source' stored) source column = row.cell source column := by
  rw [cell, SortedMap.get?_insert, if_neg h, cell]

/-- What the two sides of a clause stand for among the sources of a scope: a column of the table that
the clause adds, and one of a table before it. -/
inductive JoinClause.Links (clause : JoinClause) (scope : Scope) (target : Source) :
    Source → String → String → Prop where
  | inOrder {earlier : Source} {earlierColumn column : String}
      (hleft : scope.resolve clause.left = .ok (earlier, earlierColumn))
      (hright : scope.resolve clause.right = .ok (target, column))
      (hother : earlier.name ≠ target.name) : clause.Links scope target earlier earlierColumn column
  | turned {earlier : Source} {earlierColumn column : String}
      (hleft : scope.resolve clause.left = .ok (target, column))
      (hright : scope.resolve clause.right = .ok (earlier, earlierColumn))
      (hother : earlier.name ≠ target.name) : clause.Links scope target earlier earlierColumn column

/-- A clause that adds a table holds of a row: the cells that it speaks of are no nulls and are
equal. -/
def JoinClause.Holds (clause : JoinClause) (scope : Scope) (target : Source) (row : JoinedRow) :
    Prop :=
  ∃ earlier earlierColumn column, clause.Links scope target earlier earlierColumn column ∧
    row.cell earlier.name earlierColumn ≠ .null ∧ row.cell target.name column ≠ .null ∧
    (row.cell earlier.name earlierColumn).equal (row.cell target.name column) = .ok true

/-- Every clause holds of a row; each of them is read among the sources up to the one it adds. -/
def JoinClause.AllHold (row : JoinedRow) (sources : List Source) :
    List JoinClause → List Source → Prop
  | clause :: clauses, target :: targets =>
    clause.Holds ⟨sources ++ [target]⟩ target row ∧
      AllHold row (sources ++ [target]) clauses targets
  | _, _ => True

/-- Joined rows are those of the choices that pass a test. -/
def AreChosen (sources : List Source) (P : JoinedRow → Prop) (rows : JoinedRows) : Prop :=
  ∀ id row, rows.get? id = some row ↔ ∃ choice : Choice, choice.sources = sources ∧
    P choice.row ∧ id = choice.id ∧ row = choice.row

namespace Join

variable {join : Join} {rows result : JoinedRows} {sources : List Source} {P : JoinedRow → Prop}

theorem agree_eq_true_iff {left right : Value} : agree left right = .ok true ↔
    left ≠ .null ∧ right ≠ .null ∧ left.equal right = .ok true := by
  cases left <;> cases right <;> simp [agree, Value.isNull]

theorem mem_extendRow_iff_stored {id : RowId} {row : JoinedRow} {joined : List (RowId × JoinedRow)}
    (h : join.extendRow id row = .ok joined) {e : RowId × JoinedRow} :
    e ∈ joined ↔ ∃ stored : StoredRow, stored.source = join.target ∧
      agree (row.cell join.leftTable join.leftColumn) (stored.row.cell join.rightColumn) =
        .ok true ∧
      e = (id.join stored.id, row.insert join.target.name stored.row) := by
  rw [mem_extendRow_iff h]
  constructor
  · rintro ⟨part, row, hrow, hagree, he⟩
    exact ⟨⟨join.target, part, row, hrow⟩, rfl, hagree, he⟩
  · rintro ⟨⟨source, part, row, hrow⟩, rfl, hagree, he⟩
    exact ⟨part, row, hrow, hagree, he⟩

/-- What a join compares in a choice and one more of the rows of its table. -/
theorem agree_concat {choice : Choice} {stored : StoredRow} (hsource : stored.source = join.target)
    (hleft : join.leftTable ≠ join.target.name) :
    agree ((choice ++ [stored]).row.cell join.leftTable join.leftColumn)
        ((choice ++ [stored]).row.cell join.target.name join.rightColumn) =
      agree (choice.row.cell join.leftTable join.leftColumn)
        (stored.row.cell join.rightColumn) := by
  rw [Choice.row_concat, hsource, JoinedRow.cell_insert_self,
    JoinedRow.cell_insert_of_ne _ _ _ hleft]

/-- The rows that a join makes are those of the choices with one more of the rows of its table that
agrees. -/
theorem mem_extended_iff (h : AreChosen sources P rows)
    (hall : ∀ e ∈ rows.entries, ∃ joined, join.extendRow e.1 e.2 = .ok joined)
    (hP : ∀ row stored, P (row.insert join.target.name stored) ↔ P row)
    (hleft : join.leftTable ≠ join.target.name) {id : RowId} {row : JoinedRow} :
    (id, row) ∈ rows.entries.flatMap (fun e => gain (join.extendRow e.1 e.2)) ↔
      ∃ choice : Choice, choice.sources = sources ++ [join.target] ∧
        (P choice.row ∧ agree (choice.row.cell join.leftTable join.leftColumn)
          (choice.row.cell join.target.name join.rightColumn) = .ok true) ∧
        id = choice.id ∧ row = choice.row := by
  rw [List.mem_flatMap]
  constructor
  · rintro ⟨⟨before, left⟩, hentry, hjoined⟩
    obtain ⟨joined, hj⟩ := hall _ hentry
    rw [hj, gain_ok, mem_extendRow_iff_stored hj] at hjoined
    obtain ⟨stored, hsource, hagree, he⟩ := hjoined
    obtain ⟨rfl, rfl⟩ := Prod.mk.inj he
    obtain ⟨choice, rfl, hpass, rfl, rfl⟩ := (h before left).mp (SortedMap.mem_entries_iff.mp hentry)
    refine ⟨choice ++ [stored], ?_, ⟨?_, ?_⟩, ?_, ?_⟩
    · rw [Choice.sources_concat, hsource]
    · rw [Choice.row_concat, hsource, hP]
      exact hpass
    · rw [agree_concat hsource hleft]
      exact hagree
    · rw [Choice.id_concat]
    · rw [Choice.row_concat, hsource]
  · rintro ⟨choice, hsources, ⟨hpass, hagree⟩, rfl, rfl⟩
    obtain ⟨before, stored, rfl, hbefore, hsource⟩ := Choice.exists_concat hsources
    rw [Choice.row_concat, hsource, hP] at hpass
    rw [agree_concat hsource hleft] at hagree
    have hentry := SortedMap.mem_entries_iff.mpr
      ((h before.id before.row).mpr ⟨before, hbefore, hpass, rfl, rfl⟩)
    obtain ⟨joined, hj⟩ := hall _ hentry
    refine ⟨_, hentry, ?_⟩
    rw [hj, gain_ok, mem_extendRow_iff_stored hj, Choice.id_concat, Choice.row_concat, hsource]
    exact ⟨stored, hsource, hagree, rfl⟩

theorem areChosen_extend (h : AreChosen sources P rows)
    (hextend : join.extend rows = .ok result)
    (hcoherent : ∀ source ∈ sources ++ [join.target], source.table.Coherent)
    (hP : ∀ row stored, P (row.insert join.target.name stored) ↔ P row)
    (hleft : join.leftTable ≠ join.target.name) :
    AreChosen (sources ++ [join.target])
      (fun row => P row ∧ agree (row.cell join.leftTable join.leftColumn)
        (row.cell join.target.name join.rightColumn) = .ok true) result := by
  obtain ⟨hall, rfl⟩ := extend_eq_ok_iff.mp hextend
  intro id row
  rw [SortedMap.get?_ofList_iff, mem_extended_iff h hall hP hleft]
  intro id row row' hrow hrow'
  obtain ⟨choice, hsources, -, rfl, rfl⟩ := (mem_extended_iff h hall hP hleft).mp hrow
  obtain ⟨choice', hsources', -, hid, rfl⟩ := (mem_extended_iff h hall hP hleft).mp hrow'
  rw [Choice.eq_of_id_eq (hsources ▸ hcoherent) (hsources.trans hsources'.symm) hid]

end Join

/-! ## Clauses that are bound -/

/-- The sources of a scope have different names and coherent tables. -/
structure Scope.Coherent (scope : Scope) : Prop where
  nodup : (scope.sources.map (·.name)).Nodup
  tables (source : Source) : source ∈ scope.sources → source.table.Coherent

theorem Scope.Coherent.add {scope scope' : Scope} {source : Source} (h : scope.Coherent)
    (hsource : source.table.Coherent) (hadd : scope.add source = .ok scope') : scope'.Coherent := by
  obtain ⟨hname, rfl⟩ := JoinClause.add_eq_ok_iff.mp hadd
  refine ⟨?_, fun other hother => ?_⟩
  · rw [List.map_append, List.map_singleton, ← List.concat_eq_append]
    exact h.nodup.concat hname
  · rcases List.mem_append.mp hother with hother | hother
    · exact h.tables other hother
    · rw [List.mem_singleton.mp hother]
      exact hsource

namespace JoinClause

variable {clause : JoinClause} {scope : Scope} {target : Source} {join : Join}

theorem Links.mem {earlier : Source} {earlierColumn column : String}
    (h : clause.Links scope target earlier earlierColumn column) : earlier ∈ scope.sources := by
  cases h with
  | inOrder hleft => exact Query.mem_of_resolve hleft
  | turned _ hright => exact Query.mem_of_resolve hright

/-- The sides of a clause stand for one thing. -/
theorem Links.unique {earlier earlier' : Source} {earlierColumn column earlierColumn' column' : String}
    (h : clause.Links scope target earlier earlierColumn column)
    (h' : clause.Links scope target earlier' earlierColumn' column') :
    earlier = earlier' ∧ earlierColumn = earlierColumn' ∧ column = column' := by
  cases h <;> cases h' <;> simp_all

theorem links_of_orient (h : clause.orient scope target = .ok join) (hscope : scope.Coherent)
    (htarget : target ∈ scope.sources) :
    ∃ earlier, earlier.name = join.leftTable ∧ earlier.name ≠ target.name ∧
      clause.Links scope target earlier join.leftColumn join.rightColumn := by
  simp only [orient, bind_eq_ok_iff] at h
  obtain ⟨⟨left, leftColumn⟩, hleft, ⟨right, rightColumn⟩, hright, h⟩ := h
  have hsame {source : Source} (hsource : source ∈ scope.sources) (hname : source.name = target.name) :
      source = target :=
    List.inj_on_of_nodup_map hscope.nodup hsource htarget hname
  split at h
  · rename_i hsides
    rw [← Except.ok.inj h]
    simp only [Bool.and_eq_true, beq_iff_eq, Bool.not_eq_true', beq_eq_false_iff_ne] at hsides
    obtain rfl := hsame (Query.mem_of_resolve hright) hsides.1
    exact ⟨left, rfl, hsides.2, .inOrder hleft hright hsides.2⟩
  · split at h
    · rename_i hsides
      rw [← Except.ok.inj h]
      simp only [Bool.and_eq_true, beq_iff_eq, Bool.not_eq_true', beq_eq_false_iff_ne] at hsides
      obtain rfl := hsame (Query.mem_of_resolve hleft) hsides.1
      exact ⟨right, rfl, hsides.2, .turned hleft hright hsides.2⟩
    · cases h

theorem holds_iff_agree (h : clause.orient scope target = .ok join) (hscope : scope.Coherent)
    (htarget : target ∈ scope.sources) (row : JoinedRow) :
    clause.Holds scope target row ↔
      Join.agree (row.cell join.leftTable join.leftColumn)
        (row.cell target.name join.rightColumn) = .ok true := by
  obtain ⟨earlier, hname, -, hlinks⟩ := links_of_orient h hscope htarget
  rw [Join.agree_eq_true_iff, ← hname]
  constructor
  · rintro ⟨earlier', earlierColumn, column, hlinks', hcells⟩
    obtain ⟨rfl, rfl, rfl⟩ := hlinks.unique hlinks'
    exact hcells
  · exact fun hcells => ⟨_, _, _, hlinks, hcells⟩

/-- What stands under other names does not matter to a clause. -/
theorem holds_insert_iff {name : String} (htarget : target ∈ scope.sources)
    (hname : name ∉ scope.sources.map (·.name)) (row : JoinedRow) (stored : Row) :
    clause.Holds scope target (row.insert name stored) ↔ clause.Holds scope target row := by
  have hne {source : Source} (hsource : source ∈ scope.sources) : source.name ≠ name :=
    fun he => hname (he ▸ List.mem_map_of_mem hsource)
  refine exists_congr fun earlier => exists_congr fun earlierColumn => exists_congr fun column =>
    and_congr_right fun hlinks => ?_
  rw [JoinedRow.cell_insert_of_ne _ _ _ (hne hlinks.mem),
    JoinedRow.cell_insert_of_ne _ _ _ (hne htarget)]

/-- A source refers to the table of a clause, under the name that the clause gives it. -/
def Adds (clause : JoinClause) (tables : Database) (source : Source) : Prop :=
  tables.get? clause.table = some source.table ∧ source.nickname = clause.nickname

/-- Each clause adds the table it names. -/
theorem adds_of_bind {tables : Database} {scope' : Scope} {clauses : List JoinClause}
    {joins : List Join} (h : bind tables scope clauses = .ok (joins, scope')) :
    List.Forall₂ (fun clause join => clause.Adds tables join.target) clauses joins := by
  induction clauses generalizing scope joins with
  | nil =>
    cases h
    exact .nil
  | cons clause clauses ih =>
    rw [bind] at h
    split at h
    · cases h
    · rename_i table htable
      simp only [bind_eq_ok_iff] at h
      obtain ⟨next, -, join, hjoin, ⟨more, last⟩, hmore, h⟩ := h
      obtain ⟨rfl, rfl⟩ := Prod.mk.inj (Except.ok.inj h)
      have htarget := target_of_orient hjoin
      exact .cons ⟨htarget ▸ htable, by rw [htarget]⟩ (ih hmore)

end JoinClause

namespace AreChosen

variable {scope scope' : Scope} {rows result : JoinedRows} {P : JoinedRow → Prop}

/-- The test does not look at names that the scope does not have. -/
def IsWithin (P : JoinedRow → Prop) (scope : Scope) : Prop :=
  ∀ name, name ∉ scope.sources.map (·.name) → ∀ row stored, P (row.insert name stored) ↔ P row

/-- What one join leaves of the choices that pass a test: those in which its clause holds. -/
theorem extend {clause : JoinClause} {target : Source} {join : Join}
    (h : AreChosen scope.sources P rows) (hP : IsWithin P scope) (hscope : scope'.Coherent)
    (hadd : scope.add target = .ok scope') (horient : clause.orient scope' target = .ok join)
    (hextend : join.extend rows = .ok result) :
    AreChosen scope'.sources (fun row => P row ∧ clause.Holds scope' target row) result ∧
      IsWithin (fun row => P row ∧ clause.Holds scope' target row) scope' := by
  obtain rfl := JoinClause.target_of_orient horient
  obtain ⟨hname, rfl⟩ := JoinClause.add_eq_ok_iff.mp hadd
  have htarget : join.target ∈ scope.sources ++ [join.target] :=
    List.mem_append_right _ List.mem_cons_self
  constructor
  · obtain ⟨earlier, hleft, hne, -⟩ := JoinClause.links_of_orient horient hscope htarget
    simp only [JoinClause.holds_iff_agree horient hscope htarget]
    exact Join.areChosen_extend h hextend hscope.tables (hP _ hname) (hleft ▸ hne)
  · intro name hnew row stored
    refine and_congr (hP name (fun hmem => hnew ?_) row stored)
      (JoinClause.holds_insert_iff htarget hnew row stored)
    rw [List.map_append]
    exact List.mem_append_left _ hmem

/-- What joins leave of the choices that pass a test: those in which each of the clauses holds. -/
theorem extendAll_of_bind {tables : Database} {clauses : List JoinClause} {joins : List Join}
    (htables : ∀ name table, tables.get? name = some table → table.Coherent)
    (h : AreChosen scope.sources P rows) (hP : IsWithin P scope) (hscope : scope.Coherent)
    (hbind : JoinClause.bind tables scope clauses = .ok (joins, scope'))
    (hall : Join.extendAll joins rows = .ok result) :
    AreChosen scope'.sources
      (fun row => P row ∧ JoinClause.AllHold row scope.sources clauses (joins.map (·.target)))
      result := by
  induction clauses generalizing scope joins rows P with
  | nil =>
    cases hbind
    obtain rfl := Except.ok.inj hall
    simpa only [JoinClause.AllHold, and_true] using h
  | cons clause clauses ih =>
    rw [JoinClause.bind] at hbind
    split at hbind
    · cases hbind
    · rename_i table htable
      simp only [bind_eq_ok_iff] at hbind
      obtain ⟨next, hadd, join, horient, ⟨more, last⟩, hmore, hbind⟩ := hbind
      obtain ⟨rfl, rfl⟩ := Prod.mk.inj (Except.ok.inj hbind)
      obtain ⟨step, hstep, hall⟩ := bind_eq_ok_iff.mp hall
      have hnext := hscope.add (htables _ _ htable) hadd
      obtain ⟨hchosen, hwithin⟩ := h.extend hP hnext hadd horient hstep
      have hrest := ih hchosen hwithin hnext hmore hall
      obtain ⟨-, rfl⟩ := JoinClause.add_eq_ok_iff.mp hadd
      simpa only [JoinClause.AllHold, List.map_cons, JoinClause.target_of_orient horient,
        and_assoc] using hrest

/-- The rows of one source are choices of one row. -/
theorem rows_of_source (source : Source) : AreChosen [source] (fun _ => True) source.rows := by
  intro id row
  rw [Source.rows, Source.group, SortedMap.get?_map, Option.map_eq_some_iff]
  constructor
  · rintro ⟨stored, hstored, rfl⟩
    refine ⟨[⟨source, id, stored, hstored⟩], rfl, trivial, ?_, rfl⟩
    simp [Choice.id]
  · rintro ⟨choice, hsources, -, rfl, rfl⟩
    obtain ⟨⟨_, id, stored, hstored⟩, rest, rfl, rfl, hrest⟩ := List.map_eq_cons_iff.mp hsources
    rw [List.map_eq_nil_iff] at hrest
    subst hrest
    exact ⟨stored, by simpa [Choice.id] using hstored, rfl⟩

end AreChosen

end Relational
