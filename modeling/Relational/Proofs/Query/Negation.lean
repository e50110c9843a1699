import Relational.Proofs.Condition.Grammar
import Relational.Proofs.Query.Evaluation

/-!
# Negated conditions

Two values that are neither a null nor what is not a number have an order, if they compare at all
(`Value.exists_order`), so a comparison of them holds exactly if its negation does not
(`Comparison.holds_negated`). So a row with such cells and constants passes what `NOT` makes of a
condition exactly if it does not pass the condition (`Query.test_negate`), over all connectives, which
are exchanged. The rows that the two conditions pick are then all rows, and none of them is picked by
both (`Query.IsPicked.complement`).
-/

namespace Relational

/-! ## Comparisons -/

/-- Whether a value is neither a null nor what is not a number. -/
def Value.isDefinite : Value → Bool
  | null => false
  | float .nan => false
  | _ => true

theorem Value.isNull_of_isDefinite {value : Value} (h : value.isDefinite = true) :
    value.isNull = false := by
  cases value with
  | null => cases h
  | _ => rfl

theorem Value.exists_place {x : Binary64} (h : (float x).isDefinite = true) :
    ∃ place, x.place? = some place := by
  refine Option.ne_none_iff_exists'.mp (mt Binary64.place?_eq_none_iff.mp ?_)
  rintro rfl
  cases h

/-- Definite values have an order, if they compare. -/
theorem Value.exists_order {l r : Value} {o : Option Ordering} (hl : l.isDefinite = true)
    (hr : r.isDefinite = true) (h : l.order r = .ok o) : ∃ ordering, o = some ordering := by
  cases l with
  | null => cases hl
  | text s =>
    cases r with
    | null => cases hr
    | text t => exact ⟨_, (Except.ok.inj h).symm⟩
    | int n => cases h
    | float y => cases h
  | int m =>
    cases r with
    | null => cases hr
    | text t => cases h
    | int n => exact ⟨_, (Except.ok.inj h).symm⟩
    | float y =>
      obtain ⟨place, hplace⟩ := exists_place hr
      rw [order_int_float, hplace] at h
      exact ⟨_, (Except.ok.inj h).symm⟩
  | float x =>
    obtain ⟨place, hplace⟩ := exists_place hl
    cases r with
    | null => cases hr
    | text t => cases h
    | int n =>
      rw [order_float_int, hplace] at h
      exact ⟨_, (Except.ok.inj h).symm⟩
    | float y =>
      obtain ⟨place', hplace'⟩ := exists_place hr
      refine ⟨place.order place', (Except.ok.inj h).symm.trans ?_⟩
      simp only [place?, hplace, hplace']

namespace Comparison

variable {op : Comparison} {l r : Value} {b : Bool}

theorem allows_negated (op : Comparison) (o : Ordering) : op.negated.allows o = !op.allows o := by
  cases op <;> cases o <;> rfl

/-- A comparison of definite values asks for their order. -/
theorem holds_eq_ok_iff (hl : l.isDefinite = true) (hr : r.isDefinite = true) :
    op.holds l r = .ok b ↔ ∃ o, l.order r = .ok (some o) ∧ op.allows o = b := by
  have hequal : l.equal r = (l.order r).map (· == some .eq) := by
    rw [Value.equal, Value.isNull_of_isDefinite hl, Value.isNull_of_isDefinite hr]
    rfl
  cases horder : l.order r with
  | error e => cases op <;> simp [holds, hequal, horder, map_error]
  | ok o =>
    obtain ⟨ordering, rfl⟩ := Value.exists_order hl hr horder
    have hne : (ordering != .eq) = !(ordering == .eq) := rfl
    cases op <;> simp [holds, hequal, horder, map_ok, allows, hne]

/-- The negation of a comparison of definite values holds exactly if the comparison does not. -/
theorem holds_negated (hl : l.isDefinite = true) (hr : r.isDefinite = true)
    (h : op.holds l r = .ok b) : op.negated.holds l r = .ok (!b) := by
  obtain ⟨o, horder, rfl⟩ := (holds_eq_ok_iff hl hr).mp h
  exact (holds_eq_ok_iff hl hr).mpr ⟨o, horder, op.allows_negated o⟩

end Comparison

/-! ## Conditions -/

theorem Condition.allConstants_of_operands {P : Value → Prop} {condition : Condition}
    (h : ∀ operand ∈ condition.operands, ∀ value, operand.value? = some value → P value) :
    condition.AllConstants P := by
  induction condition with
  | and left right ihl ihr | or left right ihl ihr | compare op left right ihl ihr =>
    obtain ⟨hleft, hright⟩ := List.forall_mem_append.mp h
    exact ⟨ihl hleft, ihr hright⟩
  | column operand => exact h operand List.mem_cons_self
  | value operand => exact h operand List.mem_cons_self

namespace Query

variable {query : Query} {all rows rest : JoinedRows} {row : JoinedRow}
  {condition negated : Condition}

/-- What the operands of a condition stand for in a row is definite. -/
def IsDefiniteIn (query : Query) (row : JoinedRow) (condition : Condition) : Prop :=
  ∀ operand ∈ condition.operands, ∀ value,
    query.cell row operand = .ok value ∨ constant operand = .ok value → value.isDefinite = true

theorem isDefinite_of_side {side : Condition} {value : Value}
    (hdefinite : query.IsDefiniteIn row side) (h : query.side row side = .ok value) :
    value.isDefinite = true := by
  cases side with
  | column operand => exact hdefinite operand List.mem_cons_self value (.inl h)
  | value operand => exact hdefinite operand List.mem_cons_self value (.inr h)
  | _ => cases h

/-- A definite row passes what `NOT` makes of a condition exactly if it does not pass the condition. -/
theorem test_negate {b : Bool} (hnegate : condition.negate = .ok negated)
    (hdefinite : query.IsDefiniteIn row condition) (h : query.test row condition = .ok b) :
    query.test row negated = .ok (!b) := by
  induction condition generalizing negated b with
  | and left right ihl ihr =>
    obtain ⟨l, r, hl, hr, rfl⟩ := Condition.negate_and_eq_ok_iff.mp hnegate
    simp only [test, bind_eq_ok_iff] at h
    obtain ⟨bl, hbl, br, hbr, h⟩ := h
    have hb : (bl && br) = b := Except.ok.inj h
    obtain ⟨hleft, hright⟩ := List.forall_mem_append.mp hdefinite
    simp only [test, ihl hl hleft hbl, ihr hr hright hbr, ok_bind, pure_eq_ok, ← hb, Bool.not_and]
  | or left right ihl ihr =>
    obtain ⟨l, r, hl, hr, rfl⟩ := Condition.negate_or_eq_ok_iff.mp hnegate
    simp only [test, bind_eq_ok_iff] at h
    obtain ⟨bl, hbl, br, hbr, h⟩ := h
    have hb : (bl || br) = b := Except.ok.inj h
    obtain ⟨hleft, hright⟩ := List.forall_mem_append.mp hdefinite
    simp only [test, ihl hl hleft hbl, ihr hr hright hbr, ok_bind, pure_eq_ok, ← hb, Bool.not_or]
  | compare op left right =>
    simp only [test, bind_eq_ok_iff] at h
    obtain ⟨l, hl, r, hr, h⟩ := h
    obtain ⟨hleft, hright⟩ := List.forall_mem_append.mp hdefinite
    have hl' := isDefinite_of_side hleft hl
    have hr' := isDefinite_of_side hright hr
    cases op with
    | comparison op =>
      cases hnegate
      simp only [test, hl, hr, ok_bind]
      exact Comparison.holds_negated hl' hr' h
    | _ => cases hnegate
  | column operand => cases h
  | value operand => cases h

theorem constant_eq_ok_iff {operand : Operand} {value : Value} :
    constant operand = .ok value ↔ operand.value? = some value := by
  unfold constant
  cases operand.value? with
  | none => simp
  | some content => simp

/-- No constant in a condition is a null or not a number, and no stored cell of a column in it. -/
structure IsDefinite (query : Query) (condition : Condition) : Prop where
  constants (operand : Operand) (value : Value) : operand ∈ condition.operands →
    operand.value? = some value → value.isDefinite = true
  cells (operand : Operand) (source : Source) (column : String) : operand ∈ condition.operands →
    query.resolve operand = .ok (source, column) →
    ∀ id stored, source.table.rows.get? id = some stored → (stored.cell column).isDefinite = true

/-- Joined rows are definite if the rows that they are joined of are. -/
theorem IsDefinite.isDefiniteIn (hdefinite : query.IsDefinite condition) (h : query.Sound)
    (hall : query.rows = .ok all) {id : RowId} (hrow : all.get? id = some row) :
    query.IsDefiniteIn row condition := by
  rintro operand hoperand value (hcell | hconstant)
  · obtain ⟨⟨source, column⟩, hresolve, -⟩ := bind_eq_ok_iff.mp hcell
    obtain ⟨position, hposition⟩ := List.getElem?_of_mem (mem_of_resolve_operand hresolve)
    obtain ⟨part, stored, -, hstored, hjoined⟩ := (h.isJoined hall hrow).part position source hposition
    rw [cell_eq hresolve hjoined] at hcell
    rw [← Except.ok.inj hcell]
    exact hdefinite.cells operand source column hoperand hresolve part stored hstored
  · exact hdefinite.constants operand value hoperand (constant_eq_ok_iff.mp hconstant)

/-- Looks at every constant of a condition and at every stored cell of its columns. -/
def isDefinite (query : Query) (condition : Condition) : Bool :=
  condition.operands.all fun operand =>
    operand.value?.all Value.isDefinite &&
      (query.resolve operand).toOption.all fun (source, column) =>
        source.table.rows.entries.all fun (_, stored) => (stored.cell column).isDefinite

theorem isDefinite_of_check (h : query.isDefinite condition = true) : query.IsDefinite condition := by
  have hall {operand : Operand} (hoperand : operand ∈ condition.operands) :=
    (Bool.and_eq_true _ _).mp (List.all_eq_true.mp h operand hoperand)
  refine ⟨fun operand value hoperand hvalue => ?_,
    fun operand source column hoperand hresolve id stored hstored => ?_⟩
  · have hconstant := (hall hoperand).1
    rw [hvalue] at hconstant
    exact hconstant
  · have hcells := (hall hoperand).2
    rw [hresolve] at hcells
    exact List.all_eq_true.mp hcells (id, stored) (SortedMap.mem_entries_iff.mpr hstored)

/-- Of definite rows, a condition and its negation pick all, and none twice. -/
theorem IsPicked.complement (hrows : query.IsPicked all rows condition)
    (hrest : query.IsPicked all rest negated) (hnegate : condition.negate = .ok negated)
    (hdefinite : ∀ id row, all.get? id = some row → query.IsDefiniteIn row condition) :
    (∀ id, ¬(SortedMap.contains rows id = true ∧ SortedMap.contains rest id = true)) ∧
      ∀ id row, all.get? id = some row ↔ rows.get? id = some row ∨ rest.get? id = some row := by
  have htest {id : RowId} {row : JoinedRow} {b : Bool} (hrow : all.get? id = some row)
      (h : query.test row condition = .ok b) : query.test row negated = .ok (!b) :=
    test_negate hnegate (hdefinite id row hrow) h
  refine ⟨fun id ⟨hpicked, hleft⟩ => ?_, fun id row => ⟨fun hrow => ?_, ?_⟩⟩
  · obtain ⟨row, hrow⟩ := SortedMap.contains_iff.mp hpicked
    obtain ⟨row', hrow'⟩ := SortedMap.contains_iff.mp hleft
    obtain ⟨hmem, hpass⟩ := (hrows.2 id row).mp hrow
    obtain ⟨hmem', hpass'⟩ := (hrest.2 id row').mp hrow'
    obtain rfl := Option.some.inj (hmem.symm.trans hmem')
    exact nomatch (htest hmem hpass).symm.trans hpass'
  · obtain ⟨b, hb⟩ := hrows.1 id row hrow
    cases b with
    | true => exact .inl ((hrows.2 id row).mpr ⟨hrow, hb⟩)
    | false => exact .inr ((hrest.2 id row).mpr ⟨hrow, htest hrow hb⟩)
  · rintro (h | h)
    · exact ((hrows.2 id row).mp h).1
    · exact ((hrest.2 id row).mp h).1

end Query

end Relational
