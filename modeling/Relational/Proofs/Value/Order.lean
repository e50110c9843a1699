import Relational.Proofs.Schema
import Relational.Proofs.Value.Comparison

/-!
# The order of values

Values stand in an order if they are two texts, or two numbers with a place each
(`Value.order_eq_some_iff`). So the order is a strict one, both ways round (`Value.order_trans`,
`Value.eq_of_order_self`), although what is not a number stands in no order to anything. The values that
a column has compare without an error (`ColumnType.exists_order`).
-/

namespace Relational

open Std

/-! ## Places -/

namespace Binary64.Place

theorem order?_eq_some_iff {p q : Option Place} {o : Ordering} :
    order? p q = some o ↔ ∃ p' q', p = some p' ∧ q = some q' ∧ p'.order q' = o := by
  cases p <;> cases q <;> simp [order?]

end Binary64.Place

namespace Value

variable {l m r : Value} {o : Ordering}

/-! ## What stands in an order -/

/-- Two integers compare by their places, as other numbers do. -/
theorem order_int (m n : Integer) :
    (int m).order (int n) = .ok (Binary64.Place.order? (int m).place? (int n).place?) := by
  simp only [order, place?, Binary64.Place.order?, Binary64.Place.order_ofInt]

/-- Texts have an order, and so have numbers with a place each. Nothing else has. -/
theorem order_eq_some_iff : l.order r = .ok (some o) ↔
    (∃ s t, l = text s ∧ r = text t ∧ compare s t = o) ∨
      ∃ p q, l.place? = some p ∧ r.place? = some q ∧ p.order q = o := by
  have hplaces (l r : Value) : (.ok (Binary64.Place.order? l.place? r.place?) : Except Error _) =
      .ok (some o) ↔ ∃ p q, l.place? = some p ∧ r.place? = some q ∧ p.order q = o := by
    rw [Except.ok.injEq, Binary64.Place.order?_eq_some_iff]
  cases l with
  | null => simp [order, place?]
  | text s => cases r <;> simp [order, place?]
  | int m =>
    cases r with
    | null => simp [order, place?]
    | text t => simp [order, place?]
    | int n => exact (order_int m n ▸ hplaces (int m) (int n)).trans (by simp)
    | float y => exact (order_int_float m y ▸ hplaces (int m) (float y)).trans (by simp)
  | float x =>
    cases r with
    | null => simp [order, place?]
    | text t => simp [order, place?]
    | int n => exact (order_float_int x n ▸ hplaces (float x) (int n)).trans (by simp)
    | float y => exact (hplaces (float x) (float y)).trans (by simp)

/-- What is not a number stands in no order. -/
theorem ne_nan_of_order (h : l.order r = .ok (some o)) : l ≠ .float .nan ∧ r ≠ .float .nan := by
  rcases order_eq_some_iff.mp h with ⟨s, t, rfl, rfl, -⟩ | ⟨p, q, hp, hq, -⟩
  · exact ⟨nofun, nofun⟩
  · constructor
    · rintro rfl
      cases hp
    · rintro rfl
      cases hq

/-! ## A strict order -/

/-- A value stands in no order to itself but that of equals. -/
theorem eq_of_order_self (h : l.order l = .ok (some o)) : o = .eq := by
  have hswap := order_swap h
  rw [h] at hswap
  cases o with
  | eq => rfl
  | lt => cases hswap
  | gt => cases hswap

theorem order_lt_trans (h : l.order m = .ok (some .lt)) (h' : m.order r = .ok (some .lt)) :
    l.order r = .ok (some .lt) := by
  rw [order_eq_some_iff] at h h' ⊢
  rcases h with ⟨s, t, rfl, rfl, hst⟩ | ⟨p, q, hp, hq, hpq⟩
  · rcases h' with ⟨t', u, ht, rfl, htu⟩ | ⟨q, u, hq, -⟩
    · cases ht
      exact .inl ⟨s, u, rfl, rfl, TransCmp.lt_trans hst htu⟩
    · cases hq
  · rcases h' with ⟨t, u, rfl, -⟩ | ⟨q', u, hq', hu, hqu⟩
    · cases hq
    · cases hq.symm.trans hq'
      exact .inr ⟨p, u, hp, hu, TransCmp.lt_trans hpq hqu⟩

/-- A value that stands in an order to one that stands in the same order to a third stands in it to the
third. -/
theorem order_trans (ho : o ≠ .eq) (h : l.order m = .ok (some o)) (h' : m.order r = .ok (some o)) :
    l.order r = .ok (some o) := by
  cases o with
  | lt => exact order_lt_trans h h'
  | eq => exact absurd rfl ho
  | gt => exact order_swap (order_lt_trans (order_swap h') (order_swap h))

end Value

/-! ## Columns -/

/-- Two values of one column compare. -/
theorem ColumnType.exists_order {type : ColumnType} {l r : Value} (hl : type.Has l) (hr : type.Has r) :
    ∃ o, l.order r = .ok o := by
  cases l with
  | null => exact ⟨none, rfl⟩
  | text s =>
    cases r with
    | null => exact ⟨none, rfl⟩
    | text t => exact ⟨_, rfl⟩
    | _ => cases type <;> first | exact hl.elim | exact hr.elim
  | int m =>
    cases r with
    | null => exact ⟨none, rfl⟩
    | text t => cases type <;> first | exact hl.elim | exact hr.elim
    | _ => exact ⟨_, rfl⟩
  | float x =>
    cases r with
    | null => exact ⟨none, rfl⟩
    | text t => cases type <;> first | exact hl.elim | exact hr.elim
    | _ => exact ⟨_, rfl⟩

end Relational
