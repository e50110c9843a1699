import Relational.Proofs.Condition.Leaf
import Relational.Proofs.Query.Evaluation

/-!
# Errors of evaluation

Some errors say that the evaluation of a condition was given what it does not expect
(`Error.isInternal`): a tree that is no condition, an operator that does not compare, or a table, an index
or a source that is not there. It never comes to one of them with a checked tree whose leaves fit, in a
query of sound tables (`Query.isSafe_evaluate`). What is left are the errors of what was asked: a column
that is unknown or ambiguous, columns of two tables, values that do not compare.

Values compare or are of different types (`Operator.isSafe_holds`). The rows of a source are found by an
index or a key that is there, or by comparing (`Source.isSafe_find`), and a source is found among the
joins (`Query.isSafe_expand`).
-/

namespace Relational

/-- Whether an error says that the evaluation was given what it does not expect. -/
def Error.isInternal : Error → Bool
  | table _ => true
  | operator _ => true
  | tree _ => true
  | _ => false

/-- Work that ends with no internal error. -/
def IsSafe {α : Type} (outcome : Except Error α) : Prop :=
  ∀ error, outcome = .error error → error.isInternal = false

/-! ## Work put together -/

section

variable {α β : Type} {x : Except Error α}

theorem isSafe_ok (a : α) : IsSafe (.ok a) := nofun

theorem isSafe_pure (a : α) : IsSafe (pure a) := isSafe_ok a

theorem isSafe_error {error : Error} (h : error.isInternal = false) :
    IsSafe (.error error : Except Error α) := by
  rintro _ ⟨⟩
  exact h

theorem IsSafe.bind {f : α → Except Error β} (h : IsSafe x) (hf : ∀ a, x = .ok a → IsSafe (f a)) :
    IsSafe (x >>= f) := by
  intro error herror
  rcases bind_eq_error_iff.mp herror with herror | ⟨a, ha, herror⟩
  · exact h error herror
  · exact hf a ha error herror

theorem IsSafe.map {f : α → β} (h : IsSafe x) : IsSafe (x.map f) := by
  cases x with
  | ok a => exact isSafe_ok (f a)
  | error error => exact isSafe_error (h error rfl)

theorem isSafe_filterAuxM {test : α → Except Error Bool} {l : List α} (kept : List α)
    (h : ∀ a ∈ l, IsSafe (test a)) : IsSafe (l.filterAuxM test kept) := by
  induction l generalizing kept with
  | nil => exact isSafe_ok kept
  | cons a l ih =>
    obtain ⟨ha, hl⟩ := List.forall_mem_cons.mp h
    exact ha.bind fun b _ => ih (cond b (a :: kept) kept) hl

theorem isSafe_filterM {test : α → Except Error Bool} {l : List α}
    (h : ∀ a ∈ l, IsSafe (test a)) : IsSafe (l.filterM test) :=
  (isSafe_filterAuxM [] h).bind fun kept _ => isSafe_ok kept.reverse

theorem isSafe_filterMapM {f : α → Except Error (Option β)} {l : List α}
    (h : ∀ a ∈ l, IsSafe (f a)) : IsSafe (l.filterMapM f) := by
  suffices hloop : ∀ kept, IsSafe (List.filterMapM.loop f l kept) from hloop []
  intro kept
  induction l generalizing kept with
  | nil => exact isSafe_ok kept.reverse
  | cons a l ih =>
    obtain ⟨ha, hl⟩ := List.forall_mem_cons.mp h
    refine ha.bind fun o _ => ?_
    cases o with
    | none => exact ih hl kept
    | some b => exact ih hl (b :: kept)

theorem isSafe_flatMapM {f : α → Except Error (List β)} {l : List α}
    (h : ∀ a ∈ l, IsSafe (f a)) : IsSafe (l.flatMapM f) := by
  suffices hloop : ∀ kept, IsSafe (List.flatMapM.loop f l kept) from hloop []
  intro kept
  induction l generalizing kept with
  | nil => exact isSafe_ok kept.reverse.flatten
  | cons a l ih =>
    obtain ⟨ha, hl⟩ := List.forall_mem_cons.mp h
    exact ha.bind fun bs _ => ih hl (bs :: kept)

end

/-! ## Comparing values -/

theorem Value.isSafe_order (l r : Value) : IsSafe (l.order r) := by
  intro error h
  cases l <;> cases r <;> cases h <;> rfl

theorem Value.isSafe_equal (l r : Value) : IsSafe (l.equal r) := by
  rw [equal]
  split
  · exact isSafe_ok _
  · exact (isSafe_order l r).map

theorem Operator.isSafe_holds {op : Operator} (hop : op.isComparison = true) (l r : Value) :
    IsSafe (op.holds l r) := by
  cases op with
  | comparison op =>
    cases op with
    | eq => exact Value.isSafe_equal l r
    | ne => exact (Value.isSafe_equal l r).map
    | _ => exact (Value.isSafe_order l r).map
  | _ => cases hop

theorem ColumnType.isSafe_checkComparable (type : ColumnType) (value : Value) :
    IsSafe (type.checkComparable value) := by
  have hfits (fits : Bool) : IsSafe
      (if fits then .ok () else .error (.typeMismatch type.shown value.typeName)) := by
    cases fits with
    | true => exact isSafe_ok ()
    | false => exact isSafe_error rfl
  exact hfits _

/-! ## Finding rows -/

theorem Row.isSafe_findAll {test : Row → Except Error Bool} {rows : List (RowId × Row)}
    (h : ∀ row, IsSafe (test row)) : IsSafe (findAll test rows) :=
  (isSafe_filterM fun e _ => h e.2).bind fun _ _ => isSafe_pure _

theorem Source.isSafe_find {source : Source} {op : Operator} {column : Column} (value : Value)
    (h : source.table.Sound) (hcolumn : source.column? column.name = some column)
    (hop : op.isComparison = true) : IsSafe (source.find op column value) := by
  by_cases hlookup : source.lookup op column.name value = .scan
  · rw [find_scan hlookup]
    exact Row.isSafe_findAll fun row => Operator.isSafe_holds hop (row.cell column.name) value
  · obtain ⟨ids, hfind, -⟩ := exists_keyed h hcolumn hlookup
    rw [hfind]
    exact isSafe_ok ids

/-! ## Joining -/

namespace Join

theorem isSafe_agree (left right : Value) : IsSafe (agree left right) := by
  rw [agree]
  split
  · exact isSafe_ok false
  · exact Value.isSafe_equal left right

theorem isSafe_extendRow (join : Join) (id : RowId) (row : JoinedRow) :
    IsSafe (join.extendRow id row) := by
  refine isSafe_filterMapM fun e _ => (isSafe_agree _ _).bind fun b _ => ?_
  cases b <;> exact isSafe_ok _

theorem isSafe_extendAll (joins : List Join) (rows : JoinedRows) : IsSafe (extendAll joins rows) := by
  induction joins generalizing rows with
  | nil => exact isSafe_ok rows
  | cons join joins ih =>
    have hextend : IsSafe (join.extend rows) :=
      (isSafe_flatMapM fun e _ => join.isSafe_extendRow e.1 e.2).bind fun _ _ => isSafe_pure _
    exact hextend.bind fun next _ => ih next

end Join

/-! ## Evaluating -/

theorem Scope.isSafe_resolve (scope : Scope) (reference : String) : IsSafe (scope.resolve reference) := by
  unfold resolve
  split
  · dsimp only
    split
    · exact isSafe_error rfl
    · split
      · exact isSafe_ok _
      · exact isSafe_error rfl
  · split
    · exact isSafe_error rfl
    · exact isSafe_ok _
    · exact isSafe_error rfl

namespace Query

variable {query : Query} {source : Source} {op : Operator} {left right operand : Operand}
  {name column : String} {value : Value}

theorem isSafe_resolve (query : Query) (h : operand.columnName? = some name) :
    IsSafe (query.resolve operand) := by
  rw [resolve, h]
  exact query.scope.isSafe_resolve name

theorem constant_eq_ok (h : operand.value? = some value) : constant operand = .ok value := by
  rw [constant, h]

theorem isSafe_rows (query : Query) : IsSafe query.rows :=
  Join.isSafe_extendAll query.joins query.first.rows

/-- A source of a query is its first one or has a position among the joins. -/
theorem isSafe_expand (h : query.Sound) (hsource : source ∈ query.scope.sources)
    (ids : SortedSet RowId) : IsSafe (query.expand source ids) := by
  rw [expand]
  split
  · exact Join.isSafe_extendAll _ _
  · rename_i hname
    rw [h.sources, List.mem_cons] at hsource
    have hjoined : source ∈ query.joins.map (·.target) :=
      hsource.resolve_left fun hfirst => hname (congrArg Source.name hfirst)
    obtain ⟨join, hjoin, rfl⟩ := List.mem_map.mp hjoined
    split
    · rename_i hposition
      rw [Join.position?, Option.map_eq_none_iff, List.findIdx?_eq_none_iff] at hposition
      simpa using hposition join hjoin
    · exact query.isSafe_rows.bind fun joined _ => isSafe_ok _

theorem isSafe_compareColumns (h : query.Sound) (hop : op.isComparison = true)
    (hleft : left.columnName? = some name) (hright : right.columnName? = some column) :
    IsSafe (query.compareColumns op left right) := by
  refine (query.isSafe_resolve hleft).bind fun l hl => (query.isSafe_resolve hright).bind fun r _ => ?_
  dsimp only
  split
  · exact isSafe_error rfl
  · refine (Row.isSafe_findAll fun row => Operator.isSafe_holds hop _ _).bind fun ids _ => ?_
    exact isSafe_expand h (mem_of_resolve_operand hl) ids

theorem isSafe_compareConstant (h : query.Sound) (hop : op.isComparison = true)
    (hleft : left.columnName? = some name) (hright : right.value? = some value) :
    IsSafe (query.compareConstant op left right) := by
  refine (query.isSafe_resolve hleft).bind fun ⟨source, name⟩ hl => ?_
  dsimp only
  split
  · exact isSafe_error rfl
  · rename_i column hcolumn
    have hsource := mem_of_resolve_operand hl
    have hname : column.name = name := by simpa using List.find?_some hcolumn
    rw [constant_eq_ok hright, ok_bind]
    refine (column.type.isSafe_checkComparable value).bind fun _ _ => ?_
    have hfind := Source.isSafe_find value (h.tables source hsource) (hname ▸ hcolumn) hop
    exact hfind.bind fun ids _ => isSafe_expand h hsource ids

theorem isSafe_compareConstants (query : Query) (hop : op.isComparison = true) {l r : Value}
    (hleft : left.value? = some l) (hright : right.value? = some r) :
    IsSafe (query.compareConstants op left right) := by
  rw [compareConstants, constant_eq_ok hleft, constant_eq_ok hright, ok_bind, ok_bind]
  refine (Operator.isSafe_holds hop l r).bind fun b _ => ?_
  split
  · exact query.isSafe_rows
  · exact isSafe_ok _

/-- A checked tree whose leaves fit is evaluated without an internal error. -/
theorem isSafe_evaluate (h : query.Sound) {condition : Condition} {tokens : List Token}
    (hcheck : condition.check = .ok ()) (hleaves : condition.LeavesFit tokens) :
    IsSafe (query.evaluate condition) := by
  induction condition with
  | and left right ihl ihr =>
    obtain ⟨hl, hr⟩ := Condition.check_and_iff.mp hcheck
    exact (ihl hl hleaves.1).bind fun l _ => (ihr hr hleaves.2).bind fun r _ => isSafe_ok _
  | or left right ihl ihr =>
    obtain ⟨hl, hr⟩ := Condition.check_or_iff.mp hcheck
    exact (ihl hl hleaves.1).bind fun l _ => (ihr hr hleaves.2).bind fun r _ => isSafe_ok _
  | compare op left right =>
    obtain ⟨hop, hl, hr⟩ := Condition.check_compare_iff.mp hcheck
    have hinverted : op.inverted.isComparison = true := by
      cases op with
      | comparison op => rfl
      | _ => cases hop
    rw [evaluate_compare, hop, Bool.not_true, if_neg Bool.false_ne_true]
    obtain ⟨hleft, hright⟩ := hleaves
    rcases Condition.exists_of_isLeaf hl with ⟨l, rfl⟩ | ⟨l, rfl⟩
    · obtain ⟨⟨_, hleft⟩, -⟩ := hleft
      rcases Condition.exists_of_isLeaf hr with ⟨r, rfl⟩ | ⟨r, rfl⟩
      · obtain ⟨⟨_, hright⟩, -⟩ := hright
        exact isSafe_compareColumns h hop hleft hright
      · obtain ⟨⟨_, hright⟩, -⟩ := hright
        exact isSafe_compareConstant h hop hleft hright
    · obtain ⟨⟨_, hleft⟩, -⟩ := hleft
      rcases Condition.exists_of_isLeaf hr with ⟨r, rfl⟩ | ⟨r, rfl⟩
      · obtain ⟨⟨_, hright⟩, -⟩ := hright
        exact isSafe_compareConstant h hinverted hright hleft
      · obtain ⟨⟨_, hright⟩, -⟩ := hright
        exact query.isSafe_compareConstants hop hleft hright
  | column operand => cases hcheck
  | value operand => cases hcheck

end Query

end Relational
