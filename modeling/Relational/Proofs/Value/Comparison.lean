import Relational.Proofs.Number.Mixed
import Relational.Proofs.Outcome
import Relational.Value

/-!
# Comparing values

Comparisons read from both sides: the order of two values is the other way round from the other side
(`Value.order_swap`), so an operator that is inverted holds of the sides exchanged
(`Operator.holds_inverted`). Numbers of both kinds have the order of their places
(`Value.order_int_float`), and they are equal where they have one place (`Value.equal_float`).
-/

namespace Relational

open Std

namespace Binary64.Place

/-- The order of two places, if there are two. -/
def order? : Option Place → Option Place → Option Ordering
  | some p, some q => some (p.order q)
  | _, _ => none

theorem order?_swap (p q : Option Place) : order? q p = (order? p q).map Ordering.swap := by
  cases p <;> cases q <;> simp [order?, order_swap]

theorem order?_eq_iff {p : Option Place} {q : Place} :
    (order? p (some q) == some .eq) = decide (p = some q) := by
  cases p with
  | none => rfl
  | some p =>
    rw [order?, Bool.eq_iff_iff, beq_iff_eq, decide_eq_true_iff, Option.some.injEq,
      Option.some.injEq, order_eq_iff]

end Binary64.Place

namespace Value

variable {l r : Value}

/-! ## Numbers of both kinds -/

theorem order_int_float (n : Integer) (x : Binary64) : (int n).order (float x) =
    .ok (Binary64.Place.order? (some (.ofInt n.val)) x.place?) := by
  rw [order, n.order?_eq x]
  cases x.place? <;> rfl

theorem order_float_int (x : Binary64) (n : Integer) : (float x).order (int n) =
    .ok (Binary64.Place.order? x.place? (some (.ofInt n.val))) := by
  rw [Binary64.Place.order?_swap (some (.ofInt n.val)), order, n.order?_eq x]
  cases x.place? <;> rfl

/-! ## Both ways round -/

theorem order_swap {o : Option Ordering} (h : l.order r = .ok o) :
    r.order l = .ok (o.map Ordering.swap) := by
  cases l with
  | null => cases h; cases r <;> rfl
  | text s =>
    cases r with
    | null => cases h; rfl
    | text t => cases h; simp only [order, Option.map_some, ← OrientedCmp.eq_swap]
    | int n => simp [order] at h
    | float y => simp [order] at h
  | int m =>
    cases r with
    | null => cases h; rfl
    | text t => simp [order] at h
    | int n => cases h; simp only [order, Option.map_some, ← OrientedCmp.eq_swap]
    | float y => cases h; rfl
  | float x =>
    cases r with
    | null => cases h; rfl
    | text t => simp [order] at h
    | int n =>
      rw [order_float_int] at h
      cases h
      rw [order_int_float, Binary64.Place.order?_swap]
    | float y => cases h; exact congrArg Except.ok (Binary64.Place.order?_swap _ _)

theorem equal_swap {b : Bool} (h : l.equal r = .ok b) : r.equal l = .ok b := by
  unfold equal at h ⊢
  rw [Bool.or_comm, Bool.and_comm]
  split at h
  · rename_i hnull
    rw [if_pos hnull, h]
  · rename_i hnull
    obtain ⟨o, ho, hb⟩ := map_eq_ok_iff.mp h
    rw [if_neg hnull, order_swap ho, ← hb]
    cases o with
    | none => rfl
    | some o => cases o <;> rfl

end Value

theorem Comparison.allows_inverted (op : Comparison) (o : Ordering) :
    op.inverted.allows o.swap = op.allows o := by
  cases op <;> cases o <;> rfl

theorem Comparison.holds_inverted {op : Comparison} {l r : Value} {b : Bool}
    (h : op.inverted.holds r l = .ok b) : op.holds l r = .ok b := by
  have hdirected (op' : Comparison) (h : (r.order l).map (fun o => o.any op'.inverted.allows) =
      .ok b) : (l.order r).map (fun o => o.any op'.allows) = .ok b := by
    obtain ⟨o, ho, rfl⟩ := map_eq_ok_iff.mp h
    rw [Value.order_swap ho]
    cases o with
    | none => rfl
    | some o =>
      refine congrArg Except.ok ?_
      change op'.allows o.swap = op'.inverted.allows o
      rw [← op'.allows_inverted o.swap, Ordering.swap_swap]
  cases op with
  | eq => exact Value.equal_swap h
  | ne =>
    obtain ⟨b', hb', rfl⟩ := map_eq_ok_iff.mp h
    exact map_eq_ok_iff.mpr ⟨b', Value.equal_swap hb', rfl⟩
  | lt => exact hdirected .lt h
  | gt => exact hdirected .gt h
  | le => exact hdirected .le h
  | ge => exact hdirected .ge h

/-- An inverted operator holds of the sides exchanged. -/
theorem Operator.holds_inverted {op : Operator} {l r : Value} {b : Bool}
    (h : op.inverted.holds r l = .ok b) : op.holds l r = .ok b := by
  cases op with
  | comparison op => exact Comparison.holds_inverted h
  | connective op => simp [inverted, holds] at h
  | arithmetic op => simp [inverted, holds] at h
  | function op => simp [inverted, holds] at h
  | negation => simp [inverted, holds] at h

namespace Value

/-! ## Equal values -/

theorem compare_val_eq_iff {m n : Integer} : compare m.val n.val = .eq ↔ m = n := by
  rw [LawfulEqCmp.compare_eq_iff_eq]
  refine ⟨fun h => ?_, fun h => h ▸ rfl⟩
  cases m; cases n
  simp_all

theorem equal_int (m n : Integer) : (int m).equal (int n) = .ok (decide (m = n)) := by
  change Except.ok (some (compare m.val n.val) == some .eq) = _
  rw [Except.ok.injEq, Bool.eq_iff_iff, beq_iff_eq, decide_eq_true_iff, Option.some.injEq,
    compare_val_eq_iff]

theorem equal_text (s t : String) : (text s).equal (text t) = .ok (decide (s = t)) := by
  change Except.ok (some (compare s t) == some .eq) = _
  rw [Except.ok.injEq, Bool.eq_iff_iff, beq_iff_eq, decide_eq_true_iff, Option.some.injEq,
    LawfulEqCmp.compare_eq_iff_eq]

theorem equal_float_int (x : Binary64) (n : Integer) :
    (float x).equal (int n) = .ok (decide (x.place? = some (.ofInt n.val))) := by
  change ((float x).order (int n)).map (· == some .eq) = _
  rw [order_float_int, map_ok, Binary64.Place.order?_eq_iff]

theorem equal_int_float (n : Integer) (x : Binary64) :
    (int n).equal (float x) = .ok (decide (x.place? = some (.ofInt n.val))) :=
  equal_swap (equal_float_int x n)

theorem equal_float (x : Binary64) {y : Binary64} (hy : y ≠ .nan) :
    (float x).equal (float y) = .ok (decide (x.place? = y.place?)) := by
  obtain ⟨q, hq⟩ := Option.ne_none_iff_exists'.mp (mt Binary64.place?_eq_none_iff.mp hy)
  rw [hq, ← Binary64.Place.order?_eq_iff, ← hq]
  rfl

end Value

end Relational
