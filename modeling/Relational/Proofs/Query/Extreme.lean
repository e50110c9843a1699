import Relational.Proofs.Query.Choice
import Relational.Proofs.Query.Negation
import Relational.Proofs.Value.Order
import Relational.Query.Aggregate

/-!
# Extremes

The least and the greatest value of a column are taken from its values one after the other, and the
one at hand stays unless the next stands in the wanted order to it. What is left at the end is one of
the values, and none of the values stands in the wanted order to it (`Value.IsExtreme`,
`Aggregate.exists_extreme`). Two extremes of the same values are equal (`Value.IsExtreme.equal`),
unless one of them is not a number: that is so exactly if the first of the values is not a number, for
what is not a number is never displaced and never displaces another (`Aggregate.exists_extremeOf`).

The values are those that joined rows hold in a column (`JoinedRows.Holds`), all of the type of the
column (`Query.Sound.has_of_picks`), and the first of them is the one that the rows begin with
(`JoinedRows.BeginsWith`).
-/

namespace Relational

open Std

/-! ## Extremes of values -/

namespace Value

/-- A value is among some values, all of which compare with it, and none of which stands in a wanted
order to it. -/
structure IsExtreme (best : Value) (wanted : Ordering) (held : Value → Prop) : Prop where
  mem : held best
  order (value : Value) : held value → ∃ o, value.order best = .ok o ∧ o ≠ some wanted

variable {wanted : Ordering} {held held' : Value → Prop} {best value l r : Value} {type : ColumnType}

theorem isExtreme_single {o : Option Ordering} (hwanted : wanted ≠ .eq)
    (h : value.order value = .ok o) : value.IsExtreme wanted (· = value) := by
  refine ⟨rfl, ?_⟩
  rintro _ rfl
  refine ⟨o, h, ?_⟩
  rintro rfl
  exact hwanted (eq_of_order_self h)

/-- One value more: it takes the place of the extreme if it stands in the wanted order to it. -/
theorem IsExtreme.step (h : best.IsExtreme wanted held) (hwanted : wanted ≠ .eq)
    (hheld : ∀ other, held other → type.Has other) (hvalue : type.Has value) {o : Option Ordering}
    (ho : value.order best = .ok o) :
    IsExtreme (if o = some wanted then value else best) wanted
      (fun other => held other ∨ other = value) := by
  split
  · rename_i hdisplaced
    rw [hdisplaced] at ho
    refine ⟨.inr rfl, fun other hother => ?_⟩
    have htype : type.Has other := hother.elim (hheld other) fun heq => heq ▸ hvalue
    obtain ⟨o', ho'⟩ := ColumnType.exists_order htype hvalue
    refine ⟨o', ho', ?_⟩
    rintro rfl
    rcases hother with hother | rfl
    · obtain ⟨o, horder, hne⟩ := h.order other hother
      have htrans := order_trans hwanted ho' ho
      exact hne (Except.ok.inj (horder.symm.trans htrans))
    · exact hwanted (eq_of_order_self ho')
  · rename_i hkept
    refine ⟨.inl h.mem, fun other hother => ?_⟩
    rcases hother with hother | rfl
    · exact h.order other hother
    · exact ⟨o, ho, hkept⟩

theorem IsExtreme.congr (h : best.IsExtreme wanted held) (hheld : ∀ other, held other ↔ held' other) :
    best.IsExtreme wanted held' :=
  ⟨(hheld best).mp h.mem, fun other hother => h.order other ((hheld other).mpr hother)⟩

theorem isDefinite_iff : value.isDefinite = true ↔ value ≠ .null ∧ value ≠ .float .nan := by
  cases value with
  | float x => cases x <;> simp [isDefinite]
  | _ => simp [isDefinite]

/-- Two values that are both not a number, or equal, as nulls are. -/
def Alike (l r : Value) : Prop :=
  l = .float .nan ∧ r = .float .nan ∨ l.equal r = .ok true

theorem ne_nan_of_equal (h : l.equal r = .ok true) : l ≠ .float .nan ∧ r ≠ .float .nan := by
  rw [Value.equal] at h
  split at h
  · rw [Except.ok.injEq, Bool.and_eq_true] at h
    constructor
    · rintro rfl
      cases h.1
    · rintro rfl
      cases h.2
  · obtain ⟨o, ho, heq⟩ := map_eq_ok_iff.mp h
    exact ne_nan_of_order (ho.trans (congrArg _ (beq_iff_eq.mp heq)))

/-- Two extremes of the same values are equal, if they are definite. -/
theorem IsExtreme.equal (h : l.IsExtreme wanted held) (h' : r.IsExtreme wanted held)
    (hwanted : wanted ≠ .eq) (hl : l.isDefinite = true) (hr : r.isDefinite = true) :
    l.equal r = .ok true := by
  obtain ⟨o, ho, hne⟩ := h'.order l h.mem
  obtain ⟨o', ho', hne'⟩ := h.order r h'.mem
  obtain ⟨ordering, rfl⟩ := exists_order hl hr ho
  cases Except.ok.inj ((order_swap ho).symm.trans ho')
  have heq : ordering = .eq := by
    cases ordering <;> cases wanted <;> simp_all
  rw [Value.equal, isNull_of_isDefinite hl, isNull_of_isDefinite hr, ho, heq]
  rfl

end Value

/-- The order that a function asks for; counting asks for none. -/
def AggregateFunction.wanted? : AggregateFunction → Option Ordering
  | count => none
  | min => some .lt
  | max => some .gt

theorem AggregateFunction.ne_eq_of_wanted? {function : AggregateFunction} {wanted : Ordering}
    (h : function.wanted? = some wanted) : wanted ≠ .eq := by
  cases function <;> cases h <;> decide

/-! ## Extremes of lists -/

namespace Aggregate

variable {wanted : Ordering} {held : Value → Prop} {best : Value} {values : List Value}
  {values' : List Value} {type : ColumnType}

/-- What is left behind some values is an extreme of all values so far. It is not a number exactly if
the one at hand before was not. -/
theorem exists_extreme (hwanted : wanted ≠ .eq) (h : best.IsExtreme wanted held)
    (hheld : ∀ value, held value → type.Has value) (hvalues : ∀ value ∈ values, type.Has value) :
    ∃ result, extreme wanted best values = .ok result ∧
      result.IsExtreme wanted (fun value => held value ∨ value ∈ values) ∧
      (result = .float .nan ↔ best = .float .nan) := by
  induction values generalizing best held with
  | nil => exact ⟨best, rfl, h.congr (by simp), .rfl⟩
  | cons value values ih =>
    obtain ⟨hvalue, hvalues⟩ := List.forall_mem_cons.mp hvalues
    obtain ⟨o, ho⟩ := ColumnType.exists_order hvalue (hheld best h.mem)
    have hnan : (if o = some wanted then value else best) = .float .nan ↔ best = .float .nan := by
      split
      · rename_i hdisplaced
        obtain ⟨hne, hne'⟩ := Value.ne_nan_of_order (hdisplaced ▸ ho)
        exact iff_of_false hne hne'
      · rfl
    obtain ⟨result, hresult, hextreme, hkept⟩ := ih (h.step hwanted hheld hvalue ho)
      (fun other hother => hother.elim (hheld other) fun heq => heq ▸ hvalue) hvalues
    refine ⟨result, ?_, hextreme.congr fun other => ?_, hkept.trans hnan⟩
    · rw [extreme, ho, ok_bind, hresult]
    · rw [List.mem_cons, or_assoc]

/-- The extreme of a list: a null if it is empty, and else one of its values. It is not a number exactly
if the first value is not. -/
theorem exists_extremeOf (hwanted : wanted ≠ .eq)
    (hvalues : ∀ value ∈ values, type.Has value ∧ value ≠ .null) :
    ∃ result, extremeOf wanted values = .ok result ∧ (result = .null ↔ values = []) ∧
      (result ≠ .null → result.IsExtreme wanted (· ∈ values)) ∧
      (result = .float .nan ↔ values.head? = some (.float .nan)) := by
  cases values with
  | nil => exact ⟨.null, rfl, by simp⟩
  | cons value values =>
    obtain ⟨hvalue, htypes⟩ := List.forall_mem_cons.mp fun other hother => (hvalues other hother).1
    obtain ⟨o, ho⟩ := ColumnType.exists_order hvalue hvalue
    obtain ⟨result, hresult, hextreme, hnan⟩ := exists_extreme hwanted
      (Value.isExtreme_single hwanted ho) (fun other heq => heq ▸ hvalue) htypes
    have hmem := hextreme.congr fun other => List.mem_cons.symm
    refine ⟨result, hresult, ?_, fun _ => hmem, ?_⟩
    · exact iff_of_false (hvalues result hmem.mem).2 (List.cons_ne_nil value values)
    · rw [hnan, List.head?_cons, Option.some.injEq]

/-- Extremes of lists with the same values are alike exactly if both lists begin with what is not a
number or neither does. -/
theorem alike_extremeOf_iff (hwanted : wanted ≠ .eq)
    (hvalues : ∀ value ∈ values, type.Has value ∧ value ≠ .null)
    (hsame : ∀ value, value ∈ values ↔ value ∈ values') {l r : Value}
    (hl : extremeOf wanted values = .ok l) (hr : extremeOf wanted values' = .ok r) :
    l.Alike r ↔ (values.head? = some (.float .nan) ↔ values'.head? = some (.float .nan)) := by
  have hvalues' (value : Value) (hvalue : value ∈ values') : type.Has value ∧ value ≠ .null :=
    hvalues value ((hsame value).mpr hvalue)
  obtain ⟨_, hl', hnull, hextreme, hnan⟩ := exists_extremeOf hwanted hvalues
  obtain ⟨_, hr', hnull', hextreme', hnan'⟩ := exists_extremeOf hwanted hvalues'
  cases Except.ok.inj (hl.symm.trans hl')
  cases Except.ok.inj (hr.symm.trans hr')
  have hempty : l = .null ↔ r = .null := by
    rw [hnull, hnull', List.eq_nil_iff_forall_not_mem, List.eq_nil_iff_forall_not_mem]
    exact forall_congr' fun value => not_congr (hsame value)
  rw [← hnan, ← hnan']
  constructor
  · rintro (⟨hl, hr⟩ | hequal)
    · exact iff_of_true hl hr
    · obtain ⟨hl, hr⟩ := Value.ne_nan_of_equal hequal
      exact iff_of_false hl hr
  · intro hboth
    by_cases hlnan : l = .float .nan
    · exact .inl ⟨hlnan, hboth.mp hlnan⟩
    by_cases hlnull : l = .null
    · rw [hlnull, hempty.mp hlnull]
      exact .inr rfl
    have hldefinite := Value.isDefinite_iff.mpr ⟨hlnull, hlnan⟩
    have hrdefinite := Value.isDefinite_iff.mpr ⟨mt hempty.mpr hlnull, mt hboth.mpr hlnan⟩
    have hextreme' := (hextreme' (mt hempty.mpr hlnull)).congr fun value => (hsame value).symm
    exact .inr ((hextreme hlnull).equal hextreme' hwanted hldefinite hrdefinite)

end Aggregate

/-! ## The values that rows hold -/

namespace JoinedRows

/-- A value, but no null, that some row holds in a column. -/
def Holds (rows : JoinedRows) (source column : String) (value : Value) : Prop :=
  value ≠ .null ∧ ∃ id row, rows.get? id = some row ∧ row.cell source column = value

/-- The value, but no null, in a column of the first row that holds one. -/
def BeginsWith (rows : JoinedRows) (source column : String) (value : Value) : Prop :=
  value ≠ .null ∧ ∃ id row, rows.get? id = some row ∧ row.cell source column = value ∧
    ∀ id' row', rows.get? id' = some row' → compare id' id = .lt → row'.cell source column = .null

end JoinedRows

namespace Aggregate

variable {source column : String} {rows : JoinedRows} {value : Value}

/-- The value that a row adds to those of a column: its cell, unless that is a null. -/
def gained? (source column : String) (row : JoinedRow) : Option Value :=
  (some (row.cell source column)).filter fun value => !value.isNull

theorem gained?_eq_some_iff {row : JoinedRow} :
    gained? source column row = some value ↔ value ≠ .null ∧ row.cell source column = value := by
  rw [gained?, Option.filter_eq_some_iff, Option.some.injEq, and_comm]
  refine and_congr_left' ?_
  cases value <;> simp [Value.isNull]

theorem gained?_eq_none_iff {row : JoinedRow} :
    gained? source column row = none ↔ row.cell source column = .null := by
  rw [gained?]
  cases row.cell source column <;> simp [Value.isNull]

theorem valuesOf_eq (source column : String) (rows : JoinedRows) :
    valuesOf source column rows = rows.entries.filterMap fun e => gained? source column e.2 := by
  rw [valuesOf, SortedMap.values, List.filterMap_map]
  refine congrArg (List.filterMap · rows.entries) (funext fun e => ?_)
  rw [Function.comp_apply, gained?, JoinedRow.cell]
  cases e.2.get? source with
  | none => rfl
  | some stored =>
    rw [Option.bind_some, Option.map_some, Option.getD_some, Row.cell]
    cases stored.get? column with
    | none => rfl
    | some value => rfl

theorem mem_valuesOf_iff : value ∈ valuesOf source column rows ↔ rows.Holds source column value := by
  simp only [valuesOf_eq, List.mem_filterMap, gained?_eq_some_iff, SortedMap.mem_entries_iff,
    Prod.exists]
  constructor
  · rintro ⟨id, row, hrow, hnull, hcell⟩
    exact ⟨hnull, id, row, hrow, hcell⟩
  · rintro ⟨hnull, id, row, hrow, hcell⟩
    exact ⟨id, row, hrow, hnull, hcell⟩

theorem valuesOf_eq_nil_iff : valuesOf source column rows = [] ↔
    ∀ id row, rows.get? id = some row → row.cell source column = .null := by
  simp only [valuesOf_eq, List.filterMap_eq_nil_iff, gained?_eq_none_iff, Prod.forall,
    SortedMap.mem_entries_iff]

theorem head?_valuesOf_iff :
    (valuesOf source column rows).head? = some value ↔ rows.BeginsWith source column value := by
  rw [valuesOf_eq, List.head?_filterMap, List.findSome?_eq_some_iff]
  simp only [gained?_eq_some_iff, gained?_eq_none_iff]
  constructor
  · rintro ⟨before, ⟨id, row⟩, behind, hentries, ⟨hnull, hcell⟩, hbefore⟩
    have hascending := rows.ascending
    rw [hentries] at hascending
    obtain ⟨hbehind, -⟩ := List.pairwise_cons.mp (List.pairwise_append.mp hascending).2.1
    have hmem : (id, row) ∈ rows.entries := hentries ▸ List.mem_append_right _ List.mem_cons_self
    refine ⟨hnull, id, row, SortedMap.mem_entries_iff.mp hmem, hcell, fun id' row' hrow' hlt => ?_⟩
    have hmem' := SortedMap.mem_entries_iff.mpr hrow'
    rw [hentries] at hmem'
    rcases List.mem_append.mp hmem' with hmem' | hmem'
    · exact hbefore _ hmem'
    · rcases List.mem_cons.mp hmem' with heq | hmem'
      · cases heq
        exact absurd hlt (OrientedCmp.not_lt_of_lt hlt)
      · exact absurd (hbehind _ hmem') (OrientedCmp.not_lt_of_lt hlt)
  · rintro ⟨hnull, id, row, hrow, hcell, hbefore⟩
    obtain ⟨before, behind, hentries⟩ := List.append_of_mem (SortedMap.mem_entries_iff.mpr hrow)
    have hascending := rows.ascending
    rw [hentries] at hascending
    refine ⟨before, (id, row), behind, hentries, ⟨hnull, hcell⟩, fun e he => ?_⟩
    have hmem : e ∈ rows.entries := hentries ▸ List.mem_append_left _ he
    exact hbefore e.1 e.2 (SortedMap.mem_entries_iff.mp hmem)
      ((List.pairwise_append.mp hascending).2.2 e he _ List.mem_cons_self)

/-! ## What an aggregate is taken over -/

theorem apply_eq {aggregate : Aggregate} {wanted : Ordering}
    (htarget : aggregate.target = some (.column source column))
    (hwanted : aggregate.function.wanted? = some wanted) :
    aggregate.apply rows = extremeOf wanted (valuesOf source column rows) := by
  rw [apply, htarget]
  cases hfunction : aggregate.function with
  | count => rw [hfunction] at hwanted; cases hwanted
  | min => rw [hfunction] at hwanted; cases hwanted; rfl
  | max => rw [hfunction] at hwanted; cases hwanted; rfl

/-- An aggregate that is found to be taken over a column is taken over one of a source of the query. -/
theorem column_of_validate {aggregate validated : Aggregate} {scope : Scope}
    (h : aggregate.validate scope = .ok validated)
    (htarget : validated.target = some (.column source column)) :
    ∃ found ∈ scope.sources, found.name = source ∧ ∃ c, found.column? column = some c := by
  obtain ⟨target, hfound, h⟩ := bind_eq_ok_iff.mp h
  cases h
  cases htarget
  unfold findTarget at hfound
  split at hfound
  · cases (guard_eq_ok_iff.mp hfound).2
  · obtain ⟨⟨found, name⟩, hresolve, hfound⟩ := bind_eq_ok_iff.mp hfound
    dsimp only at hfound
    split at hfound
    · cases hfound
    · rename_i c hc
      obtain ⟨-, hfound⟩ := guard_eq_ok_iff.mp hfound
      cases hfound
      exact ⟨found, Query.mem_of_resolve hresolve, rfl, c, hc⟩

end Aggregate

/-! ## The rows of a query -/

namespace Query

/-- The query picks rows: all that it has, or those of a condition. -/
def Picks (query : Query) (rows : JoinedRows) : Prop :=
  query.rows = .ok rows ∨ ∃ condition, query.evaluate condition = .ok rows

variable {query : Query} {rows : JoinedRows} {source : Source} {name : String}

theorem Sound.isJoined_of_picks (h : query.Sound) (hrows : query.Picks rows) {id : RowId}
    {row : JoinedRow} (hrow : rows.get? id = some row) : Join.IsJoined query.scope.sources id row := by
  rcases hrows with hrows | ⟨condition, hrows⟩
  · exact h.isJoined hrows hrow
  · exact forall_of_evaluate (fun _ hall _ _ => h.isJoined hall)
      (fun _ hsource _ _ hexpand _ _ => h.isJoined_expand hsource hexpand) hrows hrow

/-- What the rows of a query hold in a column is of the type of the column. -/
theorem Sound.has_of_picks (h : query.Sound) (hrows : query.Picks rows)
    (hsource : source ∈ query.scope.sources) {c : Column} (hc : source.column? name = some c)
    {value : Value} (hvalue : rows.Holds source.name name value) : c.type.Has value := by
  obtain ⟨-, id, row, hrow, rfl⟩ := hvalue
  obtain ⟨position, hposition⟩ := List.mem_iff_getElem?.mp hsource
  obtain ⟨part, stored, -, hstored, hcell⟩ :=
    (h.isJoined_of_picks hrows hrow).part position source hposition
  rw [JoinedRow.cell, hcell, Option.map_some, Option.getD_some]
  exact ((h.tables source hsource).cell hstored hc).2

end Query

end Relational
