import Relational.Proofs.Statement.Insertion

/-!
# Items of lists

A list with commas is cut into the items that it is written from (`Text.splitCommas_commas`), where
each of them keeps its own commas in parentheses (`Text.isItem`). The parentheses of such a list are
flat, since those of its items are (`Text.isFlat_of_isItem`).
-/

namespace Relational.Text

open Written (commas inParentheses isPlain)

/-- Whether a text has no quotes, semicolons and line breaks, its parentheses are flat and closed, and
its commas stand in them; `inside` tells whether one is open in front of it. -/
def isItem (inside : Bool) : List Char → Bool
  | [] => !inside
  | c :: s =>
    if c = '(' then !inside && isItem true s
    else if c = ')' then inside && isItem false s
    else isPlain c && (inside || c != ',') && isItem inside s

/-- A character that can stand in an item outside of parentheses. -/
def isItemChar (c : Char) : Bool :=
  isPlain c && c != '(' && c != ')' && c != ','

variable {inside : Bool} {c : Char} {s t rest item : List Char} {items : List (List Char)}

theorem isItemChar_of {p : Char → Bool} (hnone : "\n;'(),".toList.any p = false)
    (h : p c = true) : isItemChar c = true := by
  rw [List.any_eq_false] at hnone
  simp only [isItemChar, isPlain, Bool.and_eq_true, bne_iff_ne]
  refine ⟨⟨⟨⟨⟨?_, ?_⟩, ?_⟩, ?_⟩, ?_⟩, ?_⟩ <;> rintro rfl <;> exact hnone _ (by simp) h

theorem isItemChar_of_isWordChar (h : isWordChar c = true) : isItemChar c = true :=
  isItemChar_of (by decide +kernel) h

theorem isItem_cons (hc : isItemChar c = true) : isItem inside (c :: s) = isItem inside s := by
  simp only [isItemChar, Bool.and_eq_true, bne_iff_ne] at hc
  obtain ⟨⟨⟨hplain, hopen⟩, hclose⟩, hcomma⟩ := hc
  rw [isItem, if_neg hopen, if_neg hclose, hplain, bne_iff_ne.mpr hcomma, Bool.or_true, Bool.true_and,
    Bool.true_and]

/-- Items are told apart by the parentheses that open, those that close, and what stands in items and
between the parentheses. -/
@[elab_as_elim]
theorem isItem_induction {motive : (inside : Bool) → (s : List Char) → isItem inside s = true → Prop}
    (nil : motive false [] rfl)
    (opens : ∀ s hs h, motive true s hs → motive false ('(' :: s) h)
    (closes : ∀ s hs h, motive false s hs → motive true (')' :: s) h)
    (cons : ∀ inside c s hs h, c ≠ '(' → c ≠ ')' → isPlain c = true → (inside = true ∨ c ≠ ',') →
      motive inside s hs → motive inside (c :: s) h)
    (inside : Bool) (s : List Char) (h : isItem inside s = true) : motive inside s h := by
  induction s generalizing inside with
  | nil =>
    obtain rfl : inside = false := by simpa [isItem] using h
    exact nil
  | cons c s ih =>
    have hcons := h
    rw [isItem] at hcons
    split at hcons
    · subst c
      rw [Bool.and_eq_true, Bool.not_eq_true'] at hcons
      obtain ⟨rfl, hs⟩ := hcons
      exact opens s hs h (ih true hs)
    · split at hcons
      · subst c
        rw [Bool.and_eq_true] at hcons
        obtain ⟨rfl, hs⟩ := hcons
        exact closes s hs h (ih false hs)
      · rw [Bool.and_eq_true, Bool.and_eq_true, Bool.or_eq_true, bne_iff_ne] at hcons
        obtain ⟨⟨hplain, hcomma⟩, hs⟩ := hcons
        exact cons inside c s hs h ‹_› ‹_› hplain hcomma (ih inside hs)

theorem isItem_append (hs : isItem inside s = true) (ht : isItem false t = true) :
    isItem inside (s ++ t) = true := by
  induction inside, s, hs using isItem_induction with
  | nil => exact ht
  | opens s _ _ ih => exact ih
  | closes s _ _ ih => exact ih
  | cons inside c s _ _ hopen hclose hplain hcomma ih =>
    rw [List.cons_append, isItem, if_neg hopen, if_neg hclose, hplain, ih, Bool.true_and, Bool.and_true,
      Bool.or_eq_true, bne_iff_ne]
    exact hcomma

theorem isItem_of_forall (h : ∀ c ∈ s, isItemChar c = true) : isItem false s = true := by
  induction s with
  | nil => rfl
  | cons c s ih =>
    obtain ⟨hc, hs⟩ := List.forall_mem_cons.mp h
    rw [isItem_cons hc, ih hs]

/-- Items can be put into parentheses with commas between them. -/
theorem isItem_inParentheses (h : ∀ c ∈ s, isItemChar c = true ∨ c = ',') :
    isItem false (inParentheses s) = true := by
  have hinside : isItem true (s ++ [')']) = true := by
    induction s with
    | nil => rfl
    | cons c s ih =>
      obtain ⟨hc, hs⟩ := List.forall_mem_cons.mp h
      rw [List.cons_append]
      rcases hc with hc | rfl
      · rw [isItem_cons hc, ih hs]
      · exact ih hs
  exact hinside

theorem isPlain_of_isItem (h : isItem inside s = true) : ∀ c ∈ s, isPlain c = true := by
  induction inside, s, h using isItem_induction with
  | nil => nofun
  | opens s _ _ ih => exact List.forall_mem_cons.mpr ⟨by decide, ih⟩
  | closes s _ _ ih => exact List.forall_mem_cons.mpr ⟨by decide, ih⟩
  | cons inside c s _ _ _ _ hplain _ ih => exact List.forall_mem_cons.mpr ⟨hplain, ih⟩

/-- The parentheses of items are flat. -/
theorem isFlat_of_isItem (hs : isItem inside s = true) (ht : Pattern.isFlat false t = true) :
    Pattern.isFlat inside (s ++ t) = true := by
  induction inside, s, hs using isItem_induction with
  | nil => exact ht
  | opens s _ _ ih => exact ih
  | closes s _ _ ih => exact ih
  | cons inside c s _ _ hopen hclose _ _ ih =>
    rw [List.cons_append, Pattern.isFlat, if_neg hopen, if_neg hclose, ih]

theorem isFlat_commas (h : ∀ item ∈ items, isItem false item = true) :
    Pattern.isFlat false (commas items) = true := by
  induction items with
  | nil => rfl
  | cons item items ih =>
    obtain ⟨hitem, hitems⟩ := List.forall_mem_cons.mp h
    cases items with
    | nil =>
      rw [commas, ← List.append_nil item]
      exact isFlat_of_isItem hitem rfl
    | cons next items =>
      rw [commas, List.append_assoc]
      · exact isFlat_of_isItem hitem (ih hitems)
      · simp

/-- An item is no more than the beginning of a stretch. -/
theorem stretches_append (h : isItem inside s = true) (rest : List Char) :
    stretches inside.toNat false (s ++ rest) =
      (s ++ (stretches 0 false rest).1, (stretches 0 false rest).2) := by
  induction inside, s, h using isItem_induction with
  | nil => rfl
  | opens s _ _ ih =>
    rw [List.cons_append, stretches]
    simp_all
  | closes s _ _ ih =>
    rw [List.cons_append, stretches]
    simp_all
  | cons inside c s _ _ hopen hclose hplain hcomma ih =>
    have hquote : c ≠ '\'' := by
      rintro rfl
      simp [isPlain] at hplain
    have hnone : ¬(c = ',' ∧ inside.toNat = 0 ∧ (!false) = true) := by
      rintro ⟨rfl, hdepth, -⟩
      cases inside <;> simp at hcomma hdepth
    rw [List.cons_append, stretches, if_neg hnone]
    simp [hopen, hclose, hquote, ih]

theorem stretches_commas (h : ∀ text ∈ item :: items, isItem false text = true) :
    stretches 0 false (commas (item :: items)) = (item, items.map (' ' :: ·)) := by
  induction items generalizing item with
  | nil =>
    have hitem := stretches_append (h item List.mem_cons_self) []
    rw [List.append_nil] at hitem
    rw [commas]
    simpa [stretches] using hitem
  | cons next items ih =>
    obtain ⟨hitem, hitems⟩ := List.forall_mem_cons.mp h
    have hrest : stretches 0 false (',' :: ' ' :: commas (next :: items)) =
        ([], (' ' :: next) :: items.map (' ' :: ·)) := by
      have hblank : stretches 0 false (' ' :: commas (next :: items)) =
          (' ' :: next, items.map (' ' :: ·)) := by
        rw [stretches, if_neg (by decide)]
        simp [ih hitems]
      rw [stretches, if_pos (by decide), hblank]
    have hcommas := stretches_append hitem (',' :: ' ' :: commas (next :: items))
    rw [hrest, List.append_nil] at hcommas
    rw [commas, List.append_assoc]
    · exact hcommas
    · simp

/-- What changes no element of a list does not change the list. -/
theorem map_eq_self {α : Type} {f : α → α} {l : List α} (h : ∀ a ∈ l, f a = a) : l.map f = l := by
  calc l.map f = l.map id := List.map_congr_left h
    _ = l := List.map_id l

/-- A list is cut into the items that it is written from. -/
theorem splitCommas_commas (hitem : ∀ item ∈ items, isItem false item = true)
    (htrim : ∀ item ∈ items, trim item = item ∧ item ≠ []) : splitCommas (commas items) = items := by
  cases items with
  | nil => rfl
  | cons item items =>
    obtain ⟨⟨hfirst, hne⟩, hmore⟩ := List.forall_mem_cons.mp htrim
    have hblank (text : List Char) : trim (' ' :: text) = trim text := by
      have hstart := trimStart_append [' '] text (List.forall_mem_singleton.mpr (by decide))
      rw [trim, ← List.singleton_append, hstart, trim]
    have hmap : (items.map (' ' :: ·)).map trim = items := by
      rw [List.map_map]
      exact map_eq_self fun text htext => (hblank text).trans (hmore text htext).1
    rw [splitCommas, stretches_commas hitem]
    split
    · rename_i hpair
      obtain ⟨rfl, hnil⟩ := Prod.mk.inj hpair
      rw [List.map_eq_nil_iff.mp hnil, hfirst, if_neg (by simpa using hne)]
    · rename_i hpair
      obtain ⟨rfl, rfl⟩ := Prod.mk.inj hpair
      rw [hfirst, hmap]

end Relational.Text
