import Mathlib.Algebra.Order.Field.Basic
import Mathlib.Algebra.Order.Field.Rat
import Mathlib.Data.Rat.Cast.Order
import Mathlib.Order.WithBot
import Relational.Proofs.Value.Order

/-!
# The exact order of numbers

A number of either kind denotes a rational number, or stands below or above all of them if it is
infinite (`Value.exact?`). The place of a number says as much in units (`Binary64.Place.Denotes`), so
two numbers compare as what they denote (`Value.order_exact?`), over both ranges and without rounding.
What numbers denote is totally ordered, and so are texts; so the order of values is the other way round
from the other side, total and transitive among numbers and among texts, and what it calls equal is
equal for good (`Value.order_exact`).
-/

namespace Relational

open Std (OrientedOrd ReflCmp TransCmp TransOrd)

/-! ## What numbers denote -/

/-- The exact number that a float denotes: its mantissa times a power of two, with its sign. The
infinities are below and above all numbers. -/
def Binary64.exact? : Binary64 → Option (WithBot (WithTop ℚ))
  | nan => none
  | infinite true => some ⊥
  | infinite false => some ⊤
  | finite negative m =>
    let size : ℚ := m.mantissa * 2 ^ (m.scale - 1074 : ℤ)
    some ↑(↑(if negative then -size else size) : WithTop ℚ)

/-- The exact number that a value denotes, if it is a number. -/
def Value.exact? : Value → Option (WithBot (WithTop ℚ))
  | int n => some ↑(↑(n.val : ℚ) : WithTop ℚ)
  | float x => x.exact?
  | _ => none

namespace Binary64.Place

/-- The exact number at a place. -/
inductive Denotes : Place → WithBot (WithTop ℚ) → Prop
  | low : Denotes ⟨-1, 0⟩ ⊥
  | high : Denotes ⟨1, 0⟩ ⊤
  | units (n : ℤ) : Denotes ⟨0, n⟩ ↑(↑(n / Magnitude.one : ℚ) : WithTop ℚ)

/-- Places are in the order of the numbers at them. -/
theorem Denotes.order_eq {p q : Place} {a b : WithBot (WithTop ℚ)} (hp : p.Denotes a)
    (hq : q.Denotes b) : p.order q = compare a b := by
  have hone : (0 : ℚ) < Magnitude.one := Nat.cast_pos.mpr Magnitude.one_pos
  have hlow (c : WithTop ℚ) : (⊥ : WithBot (WithTop ℚ)) < c := WithBot.bot_lt_coe c
  have hhigh (c : ℚ) : ((c : WithTop ℚ) : WithBot (WithTop ℚ)) < ⊤ :=
    WithBot.coe_lt_coe.mpr (WithTop.coe_lt_top c)
  cases hp with
  | low =>
    cases hq with
    | low => exact (compare_eq_iff_eq.mpr rfl).symm
    | high => exact (compare_lt_iff_lt.mpr (hlow ⊤)).symm
    | units n => exact (compare_lt_iff_lt.mpr (hlow _)).symm
  | high =>
    cases hq with
    | low => exact (compare_gt_iff_gt.mpr (hlow ⊤)).symm
    | high => exact (compare_eq_iff_eq.mpr rfl).symm
    | units n => exact (compare_gt_iff_gt.mpr (hhigh _)).symm
  | units m =>
    cases hq with
    | low => exact (compare_gt_iff_gt.mpr (hlow _)).symm
    | high => exact (compare_lt_iff_lt.mpr (hhigh _)).symm
    | units n =>
      rw [order_finite]
      have hlt {m n : ℤ} (h : m < n) : (((m / Magnitude.one : ℚ) : WithTop ℚ) : WithBot (WithTop ℚ)) <
          ((n / Magnitude.one : ℚ) : WithTop ℚ) :=
        WithBot.coe_lt_coe.mpr (WithTop.coe_lt_coe.mpr
          (div_lt_div_of_pos_right (Int.cast_lt.mpr h) hone))
      rcases lt_trichotomy m n with h | rfl | h
      · rw [Int.compare_eq_lt.mpr h, compare_lt_iff_lt.mpr (hlt h)]
      · rw [Int.compare_eq_eq.mpr rfl, compare_eq_iff_eq.mpr rfl]
      · rw [Int.compare_eq_gt.mpr h, compare_gt_iff_gt.mpr (hlt h)]

end Binary64.Place

namespace Value

variable {l r value : Value} {a b : WithBot (WithTop ℚ)}

theorem denotes_ofInt (n : ℤ) :
    (Binary64.Place.ofInt n).Denotes ↑(↑(n : ℚ) : WithTop ℚ) := by
  have hone : (Magnitude.one : ℚ) ≠ 0 := Nat.cast_ne_zero.mpr Magnitude.one_pos.ne'
  have hdenotes := Binary64.Place.Denotes.units (n * Magnitude.one)
  rw [Int.cast_mul, Int.cast_natCast, mul_div_cancel_right₀ _ hone] at hdenotes
  exact hdenotes

theorem exact_units (m : Magnitude) :
    (m.mantissa * 2 ^ (m.scale - 1074 : ℤ) : ℚ) = m.units / Magnitude.one := by
  obtain ⟨k, hk, hone⟩ : ∃ k : ℕ, (k : ℤ) = 1074 ∧ Magnitude.one = Nat.pow 2 k :=
    ⟨1074, rfl, by decide +kernel⟩
  rw [← hk, zpow_sub₀ two_ne_zero, zpow_natCast, zpow_natCast, hone, Magnitude.units, Nat.pow_eq,
    Nat.pow_eq, Nat.cast_mul, Nat.cast_pow, Nat.cast_pow, Nat.cast_ofNat, mul_div_assoc]

/-- A number denotes what stands at its place. -/
theorem exists_denotes (h : value.exact? = some a) : ∃ p, value.place? = some p ∧ p.Denotes a := by
  cases value with
  | int n =>
    obtain rfl := Option.some.inj h
    exact ⟨_, rfl, denotes_ofInt n.val⟩
  | float x =>
    cases x with
    | nan => cases h
    | infinite negative =>
      cases negative with
      | true =>
        obtain rfl := Option.some.inj h
        exact ⟨_, rfl, .low⟩
      | false =>
        obtain rfl := Option.some.inj h
        exact ⟨_, rfl, .high⟩
    | finite negative m =>
      obtain rfl := Option.some.inj h
      refine ⟨_, rfl, ?_⟩
      have hdenotes := Binary64.Place.Denotes.units (Binary64.signed negative m.units)
      rw [exact_units]
      cases negative with
      | true =>
        rw [Binary64.signed_true, Int.cast_neg, Int.cast_natCast, neg_div] at hdenotes
        exact hdenotes
      | false =>
        rw [Binary64.signed_false, Int.cast_natCast] at hdenotes
        exact hdenotes
  | text content => cases h
  | null => cases h

/-- Numbers are in the order of what they denote. -/
theorem order_exact? (hl : l.exact? = some a) (hr : r.exact? = some b) :
    l.order r = .ok (some (compare a b)) := by
  obtain ⟨p, hp, hpa⟩ := exists_denotes hl
  obtain ⟨q, hq, hqb⟩ := exists_denotes hr
  exact order_eq_some_iff.mpr (.inr ⟨p, q, hp, hq, hpa.order_eq hqb⟩)

/-! ## Kinds of values -/

/-- A whole number, or a float that is a number. -/
def IsNumber : Value → Prop
  | int _ => True
  | float x => x ≠ .nan
  | _ => False

def IsText : Value → Prop
  | text _ => True
  | _ => False

theorem isNumber_iff : value.IsNumber ↔ ∃ a, value.exact? = some a := by
  cases value with
  | int n => exact iff_of_true trivial ⟨_, rfl⟩
  | float x =>
    cases x with
    | nan => exact iff_of_false (fun h => h rfl) nofun
    | infinite negative => cases negative <;> exact iff_of_true nofun ⟨_, rfl⟩
    | finite negative m => exact iff_of_true nofun ⟨_, rfl⟩
  | text content => exact iff_of_false id nofun
  | null => exact iff_of_false id nofun

theorem isText_iff : value.IsText ↔ ∃ s, value = text s := by
  cases value <;> simp [IsText]

/-- One value is not behind another. -/
def IsAtMost (l r : Value) : Prop :=
  ∃ o, l.order r = .ok (some o) ∧ o.isLE = true

/-- Values of a kind are in a total order. -/
structure IsOrdered (kind : Value → Prop) : Prop where
  total {l r : Value} : kind l → kind r → l.IsAtMost r ∨ r.IsAtMost l
  trans {l m r : Value} : kind l → kind m → kind r → l.IsAtMost m → m.IsAtMost r → l.IsAtMost r

/-- Values of a kind are equal or not, as by an equivalence. -/
structure IsEquated (kind : Value → Prop) : Prop where
  defined {l r : Value} : kind l → kind r → ∃ b, l.equal r = .ok b
  equivalence : Equivalence fun l r : { value // kind value } => l.val.equal r.val = .ok true

section

variable {β : Type} [Ord β] [TransOrd β] {kind : Value → Prop} {key : Value → β → Prop}

/-- Values in the order of their keys are in a total order. -/
theorem isOrdered_of_key (hkey : ∀ {value}, kind value ↔ ∃ k, key value k)
    (horder : ∀ {l r k k'}, key l k → key r k' → l.order r = .ok (some (compare k k'))) :
    IsOrdered kind where
  total hl hr := by
    obtain ⟨k, hk⟩ := hkey.mp hl
    obtain ⟨k', hk'⟩ := hkey.mp hr
    cases h : (compare k k').isLE with
    | true => exact .inl ⟨_, horder hk hk', h⟩
    | false =>
      refine .inr ⟨_, horder hk' hk, ?_⟩
      rw [OrientedOrd.eq_swap]
      cases hcompare : compare k k' <;> simp_all
  trans hl hm hr hlm hmr := by
    obtain ⟨k, hk⟩ := hkey.mp hl
    obtain ⟨k', hk'⟩ := hkey.mp hm
    obtain ⟨k'', hk''⟩ := hkey.mp hr
    obtain ⟨o, ho, hle⟩ := hlm
    obtain ⟨o', ho', hle'⟩ := hmr
    obtain rfl := Option.some.inj (Except.ok.inj ((horder hk hk').symm.trans ho))
    obtain rfl := Option.some.inj (Except.ok.inj ((horder hk' hk'').symm.trans ho'))
    exact ⟨_, horder hk hk'', TransCmp.isLE_trans hle hle'⟩

/-- Values in the order of their keys are equal if their keys are at one place. -/
theorem isEquated_of_key (hkey : ∀ {value}, kind value ↔ ∃ k, key value k)
    (horder : ∀ {l r k k'}, key l k → key r k' → l.order r = .ok (some (compare k k'))) :
    IsEquated kind := by
  have hequal {l r k k'} (hl : key l k) (hr : key r k') :
      l.equal r = .ok (compare k k' == .eq) := by
    have hdefined := horder hl hr
    have hnull : (l.isNull || r.isNull) = false := by
      cases l with
      | null => cases hdefined
      | _ =>
        cases r with
        | null => cases hdefined
        | _ => rfl
    rw [equal, hnull, if_neg Bool.false_ne_true, hdefined]
    rfl
  have htrue {l r k k'} (hl : key l k) (hr : key r k') :
      l.equal r = .ok true ↔ compare k k' = .eq := by
    rw [hequal hl hr, Except.ok.injEq, beq_iff_eq]
  refine ⟨fun hl hr => ?_, fun value => ?_, fun {l r} h => ?_, fun {l m r} h h' => ?_⟩
  · obtain ⟨k, hk⟩ := hkey.mp hl
    obtain ⟨k', hk'⟩ := hkey.mp hr
    exact ⟨_, hequal hk hk'⟩
  · obtain ⟨k, hk⟩ := hkey.mp value.property
    exact (htrue hk hk).mpr ReflCmp.compare_self
  · exact equal_swap h
  · obtain ⟨k, hk⟩ := hkey.mp l.property
    obtain ⟨k', hk'⟩ := hkey.mp m.property
    obtain ⟨k'', hk''⟩ := hkey.mp r.property
    exact (htrue hk hk'').mpr (TransCmp.eq_trans ((htrue hk hk').mp h) ((htrue hk' hk'').mp h'))

end

/-- The order of values is exact: numbers are in the order of what they denote. From the other side it
is the other way round, it is total and transitive among numbers and among texts, and values are
equal by an equivalence among numbers, among texts and among nulls. -/
theorem order_exact :
    (∀ l r : Value, l.IsNumber → r.IsNumber → ∃ a b, l.exact? = some a ∧ r.exact? = some b ∧
      l.order r = .ok (some (compare a b))) ∧
    (∀ (l r : Value) (o : Option Ordering), l.order r = .ok o → r.order l = .ok (o.map Ordering.swap)) ∧
    IsOrdered IsNumber ∧ IsOrdered IsText ∧
    IsEquated IsNumber ∧ IsEquated IsText ∧ IsEquated (· = null) := by
  have htext {l r : Value} {s t : String} (hl : l = text s) (hr : r = text t) :
      l.order r = .ok (some (compare s t)) := by
    rw [hl, hr]
    rfl
  refine ⟨fun l r hl hr => ?_, fun l r o => order_swap, isOrdered_of_key isNumber_iff order_exact?,
    isOrdered_of_key isText_iff htext, isEquated_of_key isNumber_iff order_exact?,
    isEquated_of_key isText_iff htext, ?_, ?_⟩
  · obtain ⟨a, ha⟩ := isNumber_iff.mp hl
    obtain ⟨b, hb⟩ := isNumber_iff.mp hr
    exact ⟨a, b, ha, hb, order_exact? ha hb⟩
  · rintro l r rfl rfl
    exact ⟨true, rfl⟩
  · refine ⟨?_, fun h => equal_swap h, ?_⟩
    · rintro ⟨value, rfl⟩
      rfl
    · rintro ⟨l, rfl⟩ ⟨m, rfl⟩ ⟨r, rfl⟩ h h'
      rfl

/-- Beyond `2 ^ 53` a whole number is not the float nearest to it. -/
example : (int 9007199254740993).order (float (.ofInt 9007199254740993)) = .ok (some .gt) := by
  decide +kernel

end Value

end Relational
