import Mathlib.Data.List.Basic
import Mathlib.Data.List.TakeWhile
import Relational.Proofs.Outcome
import Relational.Proofs.Pattern.Local
import Relational.Proofs.Statement.Kind
import Relational.Proofs.Statement.Opening

/-!
# A comment in the place of the end of a condition

A deletion or a selection is read with the same parts when a comment, with whatever follows it, is put
in the place of the end of its condition (`Statement.read?_exchange`). Nothing that is read in front
of a condition takes a dash (`Pattern.isNoDash`), so what is read there is the same with the comment
as with the end (`Pattern.IsLocal`). Only the columns of a selection may take dashes; they are tried
from the shortest to the longest, so the ones that end before the comment come first
(`Pattern.isDescending_selectList`).
-/

namespace Relational

open Text (spells)

namespace Pattern

variable {α β : Type} {p : Pattern α} {s behind other : List Char}

/-! ## Conditions behind a pattern -/

/-- A pattern with a condition behind it or the end of the text. -/
def beforeEnd (p : Pattern α) : Pattern (α × Option (List Char)) := do
  let a ← p
  let condition ← condition?
  finish
  return (a, condition)

/-- A pattern with `WHERE` behind it. -/
def beforeWhere (p : Pattern α) : Pattern α := do
  let a ← p
  gap
  keyword "WHERE"
  return a

/-- What stands behind `WHERE`. -/
def conditionText : Pattern (List Char) := do
  gap
  remainder

/-- A pattern with a condition behind it. -/
def withCondition (p : Pattern α) : Pattern (α × List Char) := do
  let a ← beforeWhere p
  let condition ← conditionText
  return (a, condition)

/-- A condition behind what has been read. -/
def conditionOf (a : α) : Pattern (α × List Char) := do
  gap
  keyword "WHERE"
  let condition ← conditionText
  return (a, condition)

/-- The end of the text behind what has been read. -/
def endOf (a : α) : Pattern (α × Option (List Char)) := do
  finish
  return (a, none)

/-- A condition that is there, as one that may be there. -/
def kept (r : (α × List Char) × List Char) : (α × Option (List Char)) × List Char :=
  ((r.1.1, some r.1.2), r.2)

theorem withCondition_eq_bind (p : Pattern α) : withCondition p = p >>= conditionOf := by
  simp only [withCondition, beforeWhere, bind_assoc, pure_bind]
  rfl

theorem remainder_bind_finish (k : List Char → Pattern β) :
    (remainder >>= fun rest => finish >>= fun _ => k rest) = remainder >>= k := by
  funext s
  cases s with
  | nil => rfl
  | cons c s =>
    have hremainder : remainder (c :: s) = [(c :: s, [])] := rfl
    have hfinish : finish [] = [((), [])] := rfl
    rw [bind_of_single hremainder, bind_of_single hremainder, bind_of_single hfinish]

/-- Behind what a pattern reads stands a condition, or else the text is at its end. -/
theorem beforeEnd_apply (p : Pattern α) (s : List Char) :
    beforeEnd p s = (p s).flatMap fun r => (conditionOf r.1 r.2).map kept ++ endOf r.1 r.2 := by
  have hkept (a : α) : (fun r => (r.1, some r.2)) <$> conditionOf a = (do
      gap; keyword "WHERE"; gap; let condition ← remainder; finish; return (a, some condition)) := by
    simp only [conditionOf, conditionText, bind_assoc, pure_bind, map_eq_pure_bind,
      remainder_bind_finish]
  have hmap (a : α) (t : List Char) : (conditionOf a t).map kept = _ :=
    (map_apply _ (conditionOf a) t).symm.trans (congrFun (hkept a) t)
  rw [beforeEnd, bind_apply]
  congr 1
  funext r
  rw [condition?, optional_bind, hmap]
  simp only [bind_assoc]
  rfl

theorem first?_withCondition {a : α} {condition rest : List Char}
    (h : (beforeEnd p).first? s = some ((a, some condition), rest)) :
    (withCondition p).first? s = some ((a, condition), rest) := by
  rw [first?, beforeEnd_apply] at h
  rw [first?, withCondition_eq_bind]
  refine head?_flatMap_exchange (fun r _ hr => ?_) (fun r _ hr => ?_) h
  · exact List.map_eq_nil_iff.mp (List.append_eq_nil_iff.mp hr).1
  · cases hcondition : conditionOf r.1 r.2 with
    | nil =>
      rw [hcondition, List.map_nil, List.nil_append] at hr
      cases hrest : r.2 with
      | nil => rw [hrest] at hr; cases hr
      | cons c rest => rw [hrest] at hr; cases hr
    | cons r' readings =>
      rw [hcondition, List.map_cons, List.cons_append, List.head?_cons, Option.some.injEq] at hr
      change (conditionOf r.1 r.2).head? = _
      rw [hcondition]
      cases hr
      rfl

/-- Where the text is not at its end, there has to be a condition. -/
theorem beforeEnd_eq_map (h : ∀ r ∈ p s, r.2 ≠ []) :
    beforeEnd p s = (withCondition p s).map kept := by
  rw [beforeEnd_apply, withCondition_eq_bind, bind_apply, List.map_flatMap]
  refine List.flatMap_congr fun r hr => ?_
  obtain ⟨c, rest, hrest⟩ := List.exists_cons_of_ne_nil (h r hr)
  have hend : endOf r.1 r.2 = [] := by
    rw [hrest]
    rfl
  rw [hend, List.append_nil]

/-! ## The text of a condition -/

theorem conditionText_cons (c : Char) (s : List Char) :
    conditionText (c :: s) = if isBlank c then remainder (Text.trimStart s) else [] := by
  rw [conditionText, gap, bind_assoc]
  split
  · rename_i hc
    have hgap : many1 isBlank (c :: s) = [(c :: s.takeWhile isBlank, Text.trimStart s)] := by
      rw [many1, List.takeWhile_cons_of_pos hc, List.dropWhile_cons_of_pos hc, Text.trimStart]
    rw [bind_of_single hgap, pure_bind]
  · rename_i hc
    exact bind_of_none (many1_none (Text.begins_cons (by simpa using hc) s))

theorem remainder_of_ne_nil (h : s ≠ []) : remainder s = [(s, [])] := by
  obtain ⟨c, s, rfl⟩ := List.exists_cons_of_ne_nil h
  rfl

/-- At the end of a gap stands a blank. -/
theorem exists_blank_of_gap {r : Unit × List Char} (h : r ∈ gap s) :
    ∃ blanks c, s = blanks ++ c :: r.2 ∧ isBlank c = true := by
  rw [gap, bind_apply, List.mem_flatMap] at h
  obtain ⟨run, hrun, h⟩ := h
  rw [List.mem_singleton.mp h]
  rw [many1] at hrun
  split at hrun
  · cases hrun
  · rename_i hne
    have hlast := List.dropLast_concat_getLast hne
    have hall : ∀ c ∈ s.takeWhile isBlank, isBlank c = true := List.all_eq_true.mp List.all_takeWhile
    refine ⟨(s.takeWhile isBlank).dropLast, (s.takeWhile isBlank).getLast hne, ?_, hall _ (List.getLast_mem hne)⟩
    rw [List.mem_singleton.mp hrun, List.append_cons, hlast, List.takeWhile_append_dropWhile]

/-- In front of a condition stands a blank. -/
theorem exists_blank_of_conditionText {r : List Char × List Char} (h : r ∈ conditionText s) :
    ∃ front c, s = front ++ c :: r.1 ∧ isBlank c = true := by
  rw [conditionText, bind_apply, List.mem_flatMap] at h
  obtain ⟨space, hspace, h⟩ := h
  have htext : r.1 = space.2 := by
    cases hrest : space.2 with
    | nil => rw [hrest] at h; cases h
    | cons c rest => rw [hrest, remainder_of_ne_nil (by simp), List.mem_singleton] at h; rw [h]
  rw [htext]
  exact exists_blank_of_gap hspace

/-- What comes in place of the end of a condition: a blank and a dash at least. -/
def IsComment (s : List Char) : Prop :=
  ∃ t, s = ' ' :: '-' :: t

theorem IsComment.mem (h : IsComment other) (s : List Char) : '-' ∈ s ++ other := by
  obtain ⟨t, rfl⟩ := h
  simp

/-- A condition is read where another one was, which has no blanks at its end. -/
theorem conditionText_nil_exchange (hs : s ≠ [])
    (hlast : ∀ c ∈ (s ++ behind).getLast?, isBlank c = false)
    (h : conditionText (s ++ behind) = []) (other : List Char) : conditionText (s ++ other) = [] := by
  obtain ⟨c, s, rfl⟩ := List.exists_cons_of_ne_nil hs
  rw [List.cons_append, conditionText_cons] at h ⊢
  split at h
  · rename_i hc
    have hne : s ++ behind ≠ [] := by
      intro hnil
      rw [List.cons_append, hnil] at hlast
      rw [hlast c rfl] at hc
      cases hc
    have hend := List.getLast_mem hne
    rw [List.cons_append, List.getLast?_cons_of_ne_nil hne, List.getLast?_eq_some_getLast hne] at hlast
    rw [remainder_of_ne_nil (Text.trimStart_ne_nil hend (hlast _ rfl))] at h
    cases h
  · rename_i hc
    rw [if_neg hc]

theorem conditionText_exchange {before rest : List Char} (hother : IsComment other) (hs : s ≠ [])
    (h : conditionText.first? (s ++ behind) = some (before ++ behind, rest)) :
    conditionText.first? (s ++ other) = some (Text.trimStart (before ++ other), []) := by
  obtain ⟨c, s, rfl⟩ := List.exists_cons_of_ne_nil hs
  have hne : Text.trimStart (before ++ other) ≠ [] :=
    Text.trimStart_ne_nil (hother.mem before) (by decide)
  rw [first?, List.cons_append, conditionText_cons] at h ⊢
  split at h
  · rename_i hc
    have htext : Text.trimStart (s ++ behind) = before ++ behind := by
      cases htrim : Text.trimStart (s ++ behind) with
      | nil => rw [htrim] at h; cases h
      | cons d t =>
        rw [htrim] at h
        exact (Prod.mk.inj (Option.some.inj h)).1
    -- the blanks between `WHERE` and the condition
    have hsplit : s = (s ++ behind).takeWhile isBlank ++ before := by
      have happend := List.takeWhile_append_dropWhile (p := isBlank) (l := s ++ behind)
      rw [← Text.trimStart, htext, ← List.append_assoc] at happend
      exact (List.append_cancel_right happend).symm
    have hblanks : ∀ c ∈ (s ++ behind).takeWhile isBlank, isBlank c = true :=
      List.all_eq_true.mp List.all_takeWhile
    rw [if_pos hc, hsplit, List.append_assoc, Text.trimStart_append _ _ hblanks, remainder_of_ne_nil hne]
    rfl
  · cases h

/-! ## Patterns without dashes -/

def isNoDash (c : Char) : Bool :=
  c != '-'

theorem isNoDash_of {kind : Char → Bool} (hkind : kind '-' = false) (c : Char)
    (hc : kind c = true) : isNoDash c = true := by
  rw [isNoDash, bne_iff_ne]
  rintro rfl
  rw [hkind] at hc
  cases hc

theorem isLocal_keyword {word : String} (hword : ∀ letter ∈ word.toList, letter.isUpper = true) :
    IsLocal isNoDash (keyword word) :=
  isLocal_letters hword (isNoDash_of (by decide))

theorem isLocal_word : IsLocal isNoDash word :=
  isLocal_many1 (isNoDash_of (by decide))

theorem isLocal_spaces : IsLocal isNoDash gap :=
  isLocal_gap (isNoDash_of (by decide))

theorem isLocal_reference : IsLocal isNoDash reference :=
  isLocal_many1 (isNoDash_of (by decide))

theorem isLocal_aliasName : IsLocal isNoDash aliasName := by
  refine isLocal_spaces.bind fun _ => ?_
  refine IsLocal.bind (IsLocal.optional ?_) fun _ => isLocal_word
  exact (isLocal_keyword (List.all_eq_true.mp (by decide))).bind fun _ => isLocal_spaces

theorem isLocal_aliasedTable : IsLocal isNoDash aliasedTable :=
  isLocal_word.bind fun _ => isLocal_aliasName.optional.bind fun _ => isLocal_pure ()

theorem isLocal_joined : IsLocal isNoDash joined := by
  refine isLocal_spaces.bind fun _ => ?_
  refine IsLocal.bind (IsLocal.optional ?_) fun _ => ?_
  · exact (isLocal_keyword (List.all_eq_true.mp (by decide))).bind fun _ => isLocal_spaces
  refine (isLocal_keyword (List.all_eq_true.mp (by decide))).bind fun _ => ?_
  refine isLocal_spaces.bind fun _ => isLocal_word.bind fun _ => ?_
  refine isLocal_aliasName.optional.bind fun _ => isLocal_spaces.bind fun _ => ?_
  refine (isLocal_keyword (List.all_eq_true.mp (by decide))).bind fun _ => ?_
  refine isLocal_spaces.bind fun _ => isLocal_reference.bind fun _ => ?_
  refine (isLocal_blanks (isNoDash_of (by decide))).bind fun _ => ?_
  refine (isLocal_one (isNoDash_of (by decide))).bind fun _ => ?_
  refine (isLocal_blanks (isNoDash_of (by decide))).bind fun _ => ?_
  exact isLocal_reference.bind fun _ => isLocal_pure ()

/-! ## Before the comment -/

theorem ne_nil_of_mem_of_isNoDash (hp : IsLocal isNoDash p) (hdash : '-' ∈ s) :
    ∀ r ∈ p s, r.2 ≠ [] := by
  intro r hr hnil
  obtain ⟨run, hs, hrun⟩ := hp.taken s r hr
  rw [hnil, List.append_nil] at hs
  exact absurd (hrun '-' (hs ▸ hdash)) (by decide)

theorem isLocal_beforeWhere (hp : IsLocal isNoDash p) : IsLocal isNoDash (beforeWhere p) := by
  refine hp.bind fun a => isLocal_spaces.bind fun _ => ?_
  exact (isLocal_keyword (List.all_eq_true.mp (by decide))).bind fun _ => isLocal_pure a

/-- What is read before a condition ends with a blank and the keyword of the condition. -/
theorem exists_where_of_beforeWhere (hp : IsLocal isNoDash p) {r : α × List Char}
    (hr : r ∈ beforeWhere p s) : ∃ before c word, s = (before ++ c :: word) ++ r.2 ∧
      isBlank c = true ∧ spells "WHERE".toList word = true := by
  simp only [beforeWhere, bind_apply, List.mem_flatMap] at hr
  obtain ⟨first, hfirst, space, hspace, last, hlast, hr⟩ := hr
  obtain ⟨run, hrun, -⟩ := hp.taken _ first hfirst
  obtain ⟨blanks, c, hblanks, hc⟩ := exists_blank_of_gap hspace
  obtain ⟨word, hword, hspells⟩ := spells_of_letters hlast
  obtain rfl := List.mem_singleton.mp hr
  refine ⟨run ++ blanks, c, word, ?_, hc, hspells⟩
  rw [hrun, hblanks, hword]
  simp only [List.append_assoc, List.cons_append]

/-- A text that ends with a keyword does not end with a blank. -/
theorem ne_concat_blank_of_spells {before word extra : List Char} {c : Char}
    (hspells : spells "WHERE".toList word = true) : before ++ c :: word ≠ extra ++ [' '] := by
  intro hend
  have hne : word ≠ [] := by
    rintro rfl
    cases hspells
  have hlast : before ++ c :: word = (before ++ c :: word.dropLast) ++ [word.getLast hne] := by
    rw [List.append_assoc, List.cons_append, List.dropLast_concat_getLast hne]
  rw [hlast] at hend
  have hblank : ' ' ∈ word := by
    rw [← List.singleton_inj.mp (List.append_inj' hend rfl).2]
    exact List.getLast_mem hne
  have hletters := Text.isFoldedLetter_of_spells (List.all_eq_true.mp (by decide)) hspells
  exact absurd (hletters ' ' hblank) (by decide)

/-- `WHERE` is read before the comment, unless it is the word in front of it. -/
theorem leaves_of_beforeWhere (hp : IsLocal isNoDash p) (hother : IsComment other)
    (hword : ∀ before c word, s = before ++ c :: word → isBlank c = true →
      spells "WHERE".toList word = false) :
    ∀ r ∈ beforeWhere p (s ++ other), leaves other.length r = true := by
  intro r hr
  obtain ⟨taken, htext, htaken⟩ := (isLocal_beforeWhere hp).taken _ r hr
  obtain ⟨before, c, word, hwhere, hc, hspells⟩ := exists_where_of_beforeWhere hp hr
  obtain rfl : taken = before ++ c :: word := List.append_cancel_right (htext.symm.trans hwhere)
  have hnot (hs : s = before ++ c :: word) : False := by
    rw [hword before c word hs hc] at hspells
    cases hspells
  rcases List.append_eq_append_iff.mp htext with ⟨extra, hextra, hrest⟩ | ⟨left, hleft, hrest⟩
  · obtain ⟨t, rfl⟩ := hother
    match extra with
    | [] => exact absurd (by simpa using hextra.symm) hnot
    | [d] =>
      -- the last letter of the keyword would be the blank
      obtain rfl : ' ' = d := (List.cons.inj hrest).1
      exact absurd hextra (ne_concat_blank_of_spells hspells)
    | d :: e :: extra =>
      obtain rfl : '-' = e := (List.cons.inj (List.cons.inj hrest).2).1
      exact absurd (htaken '-' (by simp [hextra])) (by decide)
  · have hne : left ≠ [] := by
      rintro rfl
      exact hnot (by simpa using hleft)
    have hpos := List.length_pos_iff.mpr hne
    simp only [leaves, hrest, List.length_append, decide_eq_true_eq]
    omega

/-- What is left behind a reading ends like the text. -/
theorem last_of_mem {kind : Char → Bool} (hp : IsLocal kind p) {r : α × List Char} (hr : r ∈ p s)
    (h : leaves 0 r = true) (hlast : ∀ c ∈ (s ++ behind).getLast?, isBlank c = false) :
    r.2 ≠ [] ∧ ∀ c ∈ (r.2 ++ behind).getLast?, isBlank c = false := by
  obtain ⟨run, hrun, -⟩ := hp.taken s r hr
  have hne : r.2 ≠ [] := by simpa [leaves, List.length_pos_iff] using h
  refine ⟨hne, fun c hc => hlast c ?_⟩
  rw [hrun, List.append_assoc, List.getLast?_append, Option.mem_def.mp hc, Option.some_or]
  rfl

theorem exists_blank_of_condition {a : α} {read : (α × List Char) × List Char}
    (h : read ∈ (conditionText >>= fun condition => pure (a, condition)) s) :
    ∃ front c, s = front ++ c :: read.1.2 ∧ isBlank c = true := by
  rw [← map_eq_pure_bind, map_apply, List.mem_map] at h
  obtain ⟨text, htext, rfl⟩ := h
  exact exists_blank_of_conditionText htext

/-- What stands behind the end of a text is no condition, nor the end of one. -/
theorem leaves_of_condition {a a' : α} {before rest : List Char}
    (h : ((a', before ++ behind), rest) ∈
      (conditionText >>= fun condition => pure (a, condition)) s) : behind.length < s.length := by
  obtain ⟨front, c, hs, -⟩ := exists_blank_of_condition h
  have hlength := congrArg List.length hs
  simp only [List.length_append, List.length_cons] at hlength
  omega

theorem mem_withCondition {a : α} {condition rest : List Char}
    (h : ((a, some condition), rest) ∈ beforeEnd p s) : ((a, condition), rest) ∈ withCondition p s := by
  rw [beforeEnd_apply, List.mem_flatMap] at h
  rw [withCondition_eq_bind, bind_apply, List.mem_flatMap]
  obtain ⟨r, hr, h⟩ := h
  refine ⟨r, hr, ?_⟩
  rcases List.mem_append.mp h with h | h
  · obtain ⟨read, hread, heq⟩ := List.mem_map.mp h
    cases heq
    exact hread
  · cases hrest : r.2 with
    | nil => rw [hrest] at h; nomatch List.mem_singleton.mp h
    | cons c rest => rw [hrest] at h; nomatch h

theorem exists_blank_of_beforeEnd (hp : IsLocal isNoDash p) {a : α} {condition rest : List Char}
    (h : ((a, some condition), rest) ∈ beforeEnd p s) :
    ∃ front c, s = front ++ c :: condition ∧ isBlank c = true := by
  have hmem := mem_withCondition h
  rw [withCondition, bind_apply, List.mem_flatMap] at hmem
  obtain ⟨r, hr, hmem⟩ := hmem
  obtain ⟨run, hrun, -⟩ := (isLocal_beforeWhere hp).taken s r hr
  obtain ⟨front, c, hrest, hc⟩ := exists_blank_of_condition hmem
  exact ⟨run ++ front, c, by rw [hrun, hrest, List.append_assoc], hc⟩

section

variable (hp : IsLocal isNoDash p) (hother : IsComment other)
  (hlast : ∀ c ∈ (s ++ behind).getLast?, isBlank c = false)
  (hleaves : ∀ r ∈ beforeWhere p (s ++ other), leaves other.length r = true)

include hp hlast in
theorem withCondition_nil_exchange {r : α × List Char} (hr : r ∈ beforeWhere p s)
    (hpos : leaves 0 r = true)
    (h : (conditionText >>= fun condition => pure (r.1, condition)) (r.2 ++ behind) = []) :
    (conditionText >>= fun condition => pure (r.1, condition)) (r.2 ++ other) = [] := by
  rw [← map_eq_pure_bind, map_apply, List.map_eq_nil_iff] at h ⊢
  obtain ⟨hne, hlast⟩ := last_of_mem (isLocal_beforeWhere hp) hr hpos hlast
  exact conditionText_nil_exchange hne hlast h other

include hp hother hlast hleaves in
theorem beforeEnd_nil_exchange (h : beforeEnd p (s ++ behind) = []) :
    beforeEnd p (s ++ other) = [] := by
  have hnone : withCondition p (s ++ behind) = [] := by
    rw [beforeEnd_apply, List.flatMap_eq_nil_iff] at h
    rw [withCondition_eq_bind, bind_apply, List.flatMap_eq_nil_iff]
    exact fun r hr => List.map_eq_nil_iff.mp (List.append_eq_nil_iff.mp (h r hr)).1
  rw [beforeEnd_eq_map (ne_nil_of_mem_of_isNoDash hp (hother.mem s)), List.map_eq_nil_iff]
  exact (isLocal_beforeWhere hp).none_exchange hleaves
    (fun r hr hpos => withCondition_nil_exchange hp hlast hr hpos) hnone

include hp hother hlast hleaves in
theorem first?_beforeEnd_exchange {a : α} {before rest : List Char}
    (h : (beforeEnd p).first? (s ++ behind) = some ((a, some (before ++ behind)), rest)) :
    (beforeEnd p).first? (s ++ other) = some ((a, some (Text.trimStart (before ++ other))), []) := by
  have hcondition := first?_withCondition h
  have hexchange : (withCondition p).first? (s ++ other) =
      some ((a, Text.trimStart (before ++ other)), []) := by
    refine (isLocal_beforeWhere hp).first?_exchange ⟨[], ?_⟩ (fun r _ hmem => ?_)
      (fun r hr hpos => withCondition_nil_exchange hp hlast hr hpos) (fun r _ hpos hsome => ?_)
      hcondition
    · rw [List.filter_eq_self.mpr hleaves, List.append_nil]
    · exact decide_eq_true (leaves_of_condition hmem)
    · have hne : r.2 ≠ [] := by simpa [leaves, List.length_pos_iff] using hpos
      rw [← map_eq_pure_bind, first?, map_apply, List.head?_map, Option.map_eq_some_iff] at hsome ⊢
      obtain ⟨read, hread, heq⟩ := hsome
      simp only [Prod.mk.injEq] at heq
      obtain ⟨⟨rfl, htext⟩, -⟩ := heq
      have hfirst : conditionText.first? (r.2 ++ behind) = some (before ++ behind, read.2) := by
        rw [← htext]
        exact hread
      exact ⟨_, conditionText_exchange hother hne hfirst, rfl⟩
  rw [first?, beforeEnd_eq_map (ne_nil_of_mem_of_isNoDash hp (hother.mem s)), List.head?_map]
  rw [first?] at hexchange
  rw [hexchange]
  rfl

end

/-! ## Deletions and selections -/

section

variable {first second : String} (hfirst : ∀ letter ∈ first.toList, letter.isUpper = true)
  (hsecond : ∀ letter ∈ second.toList, letter.isUpper = true)

include hfirst hsecond in
theorem isLocal_named : IsLocal isNoDash (named first second) := by
  refine IsLocal.bind ?_ fun _ => isLocal_word.bind fun _ => isLocal_pure _
  refine (isLocal_keyword hfirst).bind fun _ => isLocal_spaces.bind fun _ => ?_
  exact (isLocal_keyword hsecond).bind fun _ => isLocal_spaces

theorem isSingle_keyword (word : String) : IsSingle (keyword word) :=
  isSingle_letters word.toList

theorem isSingle_named (first second : String) : IsSingle (named first second) := by
  refine IsSingle.bind ?_ fun _ => (isSingle_many1 _).bind fun _ => isSingle_pure _
  refine (isSingle_keyword first).bind fun _ => isSingle_gap.bind fun _ => ?_
  exact (isSingle_keyword second).bind fun _ => isSingle_gap

end

theorem IsSingle.beforeWhere (hp : IsSingle p) : IsSingle (beforeWhere p) :=
  hp.bind fun a => isSingle_gap.bind fun _ => (isSingle_keyword _).bind fun _ => isSingle_pure a

/-- Where there is no choice, what has been read in front of something is read in front of
anything. -/
theorem IsSingle.leaves_exchange {kind : Char → Bool} (h : IsSingle p) (hp : IsLocal kind p)
    {r : α × List Char} (hr : r ∈ p (s ++ behind)) (hleaves : leaves behind.length r = true)
    (other : List Char) : ∀ r ∈ p (s ++ other), leaves other.length r = true := by
  have hne : (p s).filter (leaves 0) ≠ [] := by
    intro hnil
    have hmem : r ∈ (p (s ++ behind)).filter (leaves behind.length) :=
      List.mem_filter.mpr ⟨hr, hleaves⟩
    rw [hp.inside, hnil] at hmem
    cases hmem
  have hinside := hp.inside s other
  rcases h (s ++ other) with hnone | ⟨r', hsingle⟩
  · rw [hnone]
    nofun
  · cases hr' : leaves other.length r' with
    | true =>
      rw [hsingle]
      exact List.forall_mem_singleton.mpr hr'
    | false =>
      rw [hsingle, List.filter_cons_of_neg (by simp [hr'])] at hinside
      exact absurd (List.map_eq_nil_iff.mp hinside.symm) hne

/-- The columns of a selection, from its first keyword on. -/
def selectList : Pattern (List Char) := do
  keyword "SELECT"
  gap
  cut upToBlank

/-- What stands between the columns of a selection and its condition, from the gap on. -/
def fromTable (columns : List Char) : Pattern (List Char × List Char × List Char) := do
  gap
  keyword "FROM"
  gap
  let table ← cut aliasedTable
  let joins ← cut (star joined)
  return (columns, table, joins)

theorem isLocal_fromTable (columns : List Char) : IsLocal isNoDash (fromTable columns) := by
  refine isLocal_spaces.bind fun _ => ?_
  refine (isLocal_keyword (List.all_eq_true.mp (by decide))).bind fun _ => ?_
  refine isLocal_spaces.bind fun _ => isLocal_aliasedTable.cut.bind fun _ => ?_
  exact isLocal_joined.star.cut.bind fun _ => isLocal_pure _

theorem isLocal_selectList : IsLocal (fun _ => true) selectList := by
  refine ((isLocal_keyword (List.all_eq_true.mp (by decide))).mono fun _ _ => rfl).bind fun _ => ?_
  exact (isLocal_spaces.mono fun _ _ => rfl).bind fun _ => isLocal_upToBlank.cut

theorem isDescending_selectList (s : List Char) : IsDescending (selectList s) := by
  refine (isSingle_keyword _).isDescending_bind (fun _ t => ?_) s
  refine isSingle_gap.isDescending_bind (fun _ t => ?_) t
  exact List.pairwise_map.mpr (isDescending_upToBlank t)

/-- The parts of a selection as texts. -/
def selectTexts : Pattern ((List Char × List Char × List Char) × Option (List Char)) := do
  let columns ← selectList
  beforeEnd (fromTable columns)

/-- A blank in the place of the columns is one of the blanks at the start. -/
theorem isBlank_of_text {count : Nat} (h : count < (s.takeWhile isBlank).length) :
    ∀ c ∈ Stretch.text ⟨s.drop count, s.drop (count + 1)⟩, isBlank c = true := by
  have hlt : count < s.length := Nat.lt_of_lt_of_le h (List.takeWhile_sublist isBlank).length_le
  have hget : s[count] = (s.takeWhile isBlank)[count] :=
    ((List.takeWhile_prefix isBlank).getElem h).symm
  have hblank := List.all_eq_true.mp (List.all_takeWhile (p := isBlank) (l := s)) _
    (List.getElem_mem h)
  have htext : Stretch.text ⟨s.drop count, s.drop (count + 1)⟩ = [s[count]] := by
    rw [List.drop_eq_getElem_cons hlt]
    exact Stretch.text_append [s[count]] _
  rw [htext, hget]
  exact List.forall_mem_singleton.mpr hblank

/-- A blank that is taken for the columns, where nothing else can be. -/
def blankColumns : Pattern Stretch := fun s =>
  let count := (s.takeWhile isBlank).length
  if 3 ≤ count then [(⟨s.drop (count - 2), s.drop (count - 1)⟩, s.drop (count - 1))] else []

theorem isBlank_of_blankColumns {r : Stretch × List Char} (hr : r ∈ blankColumns s) :
    ∀ c ∈ r.1.text, isBlank c = true := by
  simp only [blankColumns] at hr
  split at hr
  · rename_i hcount
    have hnext : (s.takeWhile isBlank).length - 1 = (s.takeWhile isBlank).length - 2 + 1 := by omega
    rw [List.mem_singleton.mp hr, hnext]
    exact isBlank_of_text (by omega)
  · cases hr

theorem columns_bind_text {k : List Char → Pattern β} : (columns >>= fun columns => k columns.text) =
    Pattern.orElse (gap >>= fun _ => cut upToBlank >>= k)
      (blankColumns >>= fun columns => k columns.text) := by
  have hcolumns : columns = Pattern.orElse (gap >>= fun _ => stretch upToBlank) blankColumns := rfl
  rw [hcolumns, orElse_bind, bind_assoc]
  simp only [stretch_bind_text]

/-- The parts of a selection. -/
def textsOf (parts : Stretch × Stretch × Stretch × Option (List Char)) :
    (List Char × List Char × List Char) × Option (List Char) :=
  ((parts.1.text, parts.2.1.text, parts.2.2.1.text), parts.2.2.2)

theorem IsSingle.bind_orElse (hp : IsSingle p) {q q' : α → Pattern β} :
    (p >>= fun a => Pattern.orElse (q a) (q' a)) = Pattern.orElse (p >>= q) (p >>= q') := by
  funext s
  rcases hp s with hnone | ⟨r, hsingle⟩
  · rw [bind_of_none hnone, Pattern.orElse, bind_of_none hnone, bind_of_none hnone]
    rfl
  · rw [bind_of_single hsingle, Pattern.orElse, Pattern.orElse, bind_of_single hsingle,
      bind_of_single hsingle]

/-- What stands behind the columns, with the columns. -/
theorem textsOf_behind (columns : Stretch) : (do
    gap
    keyword "FROM"
    gap
    let table ← stretch aliasedTable
    let joins ← stretch (star joined)
    let condition ← condition?
    finish
    return textsOf (columns, table, joins, condition)) = beforeEnd (fromTable columns.text) := by
  let parts := (List Char × List Char × List Char) × Option (List Char)
  have hjoins (table : List Char) := stretch_bind_text (p := star joined) (k := fun joins => (do
    let condition ← condition?
    finish
    return ((columns.text, table, joins), condition) : Pattern parts))
  have htable := stretch_bind_text (p := aliasedTable) (k := fun table => (do
    let joins ← cut (star joined)
    let condition ← condition?
    finish
    return ((columns.text, table, joins), condition) : Pattern parts))
  simp only [beforeEnd, fromTable, textsOf, bind_assoc, pure_bind, hjoins, htable]

/-- A selection has columns before a blank, or else a blank for columns. -/
theorem textsOf_select : textsOf <$> select = Pattern.orElse selectTexts (do
    keyword "SELECT"
    let columns ← blankColumns
    beforeEnd (fromTable columns.text)) := by
  have hcolumns : (columns >>= fun columns => beforeEnd (fromTable columns.text)) = _ :=
    columns_bind_text (k := fun columns => beforeEnd (fromTable columns))
  simp only [select, map_eq_pure_bind, bind_assoc, pure_bind, textsOf_behind]
  rw [hcolumns, (isSingle_keyword _).bind_orElse]
  simp only [selectTexts, selectList, bind_assoc]

theorem yields_fromTable (columns : List Char) : (fromTable columns).Yields (·.1 = columns) :=
  yields_bind fun _ => yields_bind fun _ => yields_bind fun _ => yields_bind fun _ =>
    yields_bind fun _ => yields_pure rfl

theorem Yields.beforeEnd {P : α → Prop} (hp : p.Yields P) : (beforeEnd p).Yields fun r => P r.1 :=
  hp.bind fun _ ha => yields_bind fun _ => yields_bind fun _ => yields_pure ha

/-- Where the columns are not blank, they are what stands up to a blank. -/
theorem first?_selectTexts {parts : List Char × List Char × List Char}
    (hcolumns : ∃ c ∈ parts.1, isBlank c = false) {condition : Option (List Char)} {rest : List Char}
    (h : (textsOf <$> select).first? s = some ((parts, condition), rest)) :
    selectTexts.first? s = some ((parts, condition), rest) := by
  rw [textsOf_select] at h
  have hblank : Yields (do
      keyword "SELECT"
      let columns ← blankColumns
      beforeEnd (fromTable columns.text)) fun read => ∀ c ∈ read.1.1, isBlank c = true := by
    refine yields_bind fun _ => Yields.bind (P := fun columns => ∀ c ∈ columns.text, isBlank c = true)
      (fun _ _ => isBlank_of_blankColumns) fun columns hcolumns => ?_
    intro s r hr
    rw [(yields_fromTable columns.text).beforeEnd s r hr]
    exact hcolumns
  cases hnone : selectTexts s with
  | nil =>
    rw [first?, Pattern.orElse, hnone, List.nil_append] at h
    obtain ⟨c, hmem, hc⟩ := hcolumns
    have hall := hblank s _ (List.mem_of_head? h) c hmem
    rw [hc] at hall
    cases hall
  | cons r readings =>
    rw [first?, Pattern.orElse, hnone] at h
    rw [first?, hnone]
    exact h

/-- In front of the condition of a selection stands a blank. -/
theorem exists_blank_of_select {parts : List Char × List Char × List Char}
    {condition rest : List Char} (h : ((parts, some condition), rest) ∈ (textsOf <$> select) s) :
    ∃ front c, s = front ++ c :: condition ∧ isBlank c = true := by
  have hsuffix {t : List Char} (ht : t <:+ s) {columns : List Char}
      (hmem : ((parts, some condition), rest) ∈ beforeEnd (fromTable columns) t) :
      ∃ front c, s = front ++ c :: condition ∧ isBlank c = true := by
    obtain ⟨run, rfl⟩ := ht
    obtain ⟨front, c, rfl, hc⟩ := exists_blank_of_beforeEnd (isLocal_fromTable columns) hmem
    exact ⟨run ++ front, c, (List.append_assoc _ _ _).symm, hc⟩
  rw [textsOf_select, Pattern.orElse, List.mem_append] at h
  rcases h with h | h
  · rw [selectTexts, bind_apply, List.mem_flatMap] at h
    obtain ⟨r, hr, hmem⟩ := h
    obtain ⟨run, hrun, -⟩ := isLocal_selectList.taken s r hr
    exact hsuffix ⟨run, hrun.symm⟩ hmem
  · simp only [bind_apply, List.mem_flatMap] at h
    obtain ⟨word, hword, blank, hblank, hmem⟩ := h
    obtain ⟨text, hs, -⟩ := spells_of_letters hword
    have hdrop : blank.2 <:+ word.2 := by
      simp only [blankColumns] at hblank
      split at hblank
      · rw [List.mem_singleton.mp hblank]
        exact List.drop_suffix _ _
      · cases hblank
    exact hsuffix (hdrop.trans ⟨text, hs.symm⟩) hmem

/-- The condition of a selection is exchanged. -/
theorem first?_select_exchange (hother : IsComment other)
    (hlast : ∀ c ∈ (s ++ behind).getLast?, isBlank c = false)
    (hword : ∀ before c word, s = before ++ c :: word → isBlank c = true →
      spells "WHERE".toList word = false)
    {parts : List Char × List Char × List Char} (hcolumns : ∃ c ∈ parts.1, isBlank c = false)
    {before rest : List Char}
    (h : (textsOf <$> select).first? (s ++ behind) = some ((parts, some (before ++ behind)), rest)) :
    (textsOf <$> select).first? (s ++ other) =
      some ((parts, some (Text.trimStart (before ++ other))), []) := by
  have hleaves (r : List Char × List Char) (hr : r ∈ selectList s) :
      ∀ r' ∈ beforeWhere (fromTable r.1) (r.2 ++ other), leaves other.length r' = true := by
    obtain ⟨run, hrun, -⟩ := isLocal_selectList.taken s r hr
    refine leaves_of_beforeWhere (isLocal_fromTable r.1) hother fun before c word htext => ?_
    refine hword (run ++ before) c word ?_
    rw [hrun, htext, List.append_assoc]
  rw [textsOf_select]
  refine first?_append (isLocal_selectList.first?_exchange
    ((isDescending_selectList _).exists_append _) (fun r _ hmem => ?_) (fun r hr hpos => ?_)
    (fun r hr hpos => ?_) (first?_selectTexts hcolumns h))
  · have hcondition := mem_withCondition hmem
    rw [withCondition, bind_apply, List.mem_flatMap] at hcondition
    obtain ⟨r', hr', hcondition⟩ := hcondition
    have hle := (isLocal_beforeWhere (isLocal_fromTable r.1)).length_le hr'
    exact decide_eq_true (Nat.lt_of_lt_of_le (leaves_of_condition hcondition) hle)
  · obtain ⟨-, hlast⟩ := last_of_mem isLocal_selectList hr hpos hlast
    exact beforeEnd_nil_exchange (isLocal_fromTable r.1) hother hlast (hleaves r hr)
  · obtain ⟨-, hlast⟩ := last_of_mem isLocal_selectList hr hpos hlast
    exact first?_beforeEnd_exchange (isLocal_fromTable r.1) hother hlast (hleaves r hr)

theorem isLocal_opening : IsLocal isNoDash (named "DELETE" "FROM") :=
  isLocal_named (List.all_eq_true.mp (by decide)) (List.all_eq_true.mp (by decide))

/-- The condition of a deletion is exchanged. -/
theorem first?_delete_exchange (hother : IsComment other)
    (hlast : ∀ c ∈ (s ++ behind).getLast?, isBlank c = false) {table : String}
    {before rest : List Char}
    (h : (beforeEnd (named "DELETE" "FROM")).first? (s ++ behind) =
      some ((table, some (before ++ behind)), rest)) :
    (beforeEnd (named "DELETE" "FROM")).first? (s ++ other) =
      some ((table, some (Text.trimStart (before ++ other))), []) := by
  refine first?_beforeEnd_exchange isLocal_opening hother hlast ?_ h
  have hmem := mem_withCondition (List.mem_of_head? h)
  rw [withCondition, bind_apply, List.mem_flatMap] at hmem
  obtain ⟨r, hr, hcondition⟩ := hmem
  exact (isSingle_named _ _).beforeWhere.leaves_exchange (isLocal_beforeWhere isLocal_opening) hr
    (decide_eq_true (leaves_of_condition hcondition)) other

end Pattern

/-! ## Statements -/

namespace Statement

open Pattern (beforeEnd textsOf IsComment)

variable {statement : Statement} {s behind other before : List Char}

/-- The condition of a deletion or a selection, as it was written. -/
def condition? : Statement → Option (List Char)
  | delete _ condition => condition
  | select selection => selection.condition
  | _ => none

/-- The deletion or selection with another condition. -/
def withCondition (condition : List Char) : Statement → Statement
  | delete table _ => delete table (some condition)
  | select selection => select { selection with condition := some condition }
  | statement => statement

theorem kind_withCondition (condition : List Char) (statement : Statement) :
    (statement.withCondition condition).kind = statement.kind := by
  cases statement <;> rfl

theorem readAs?_delete (s : List Char) : readAs? .delete s =
    ((beforeEnd (Pattern.named "DELETE" "FROM")).first? s).map fun r => delete r.1.1 r.1.2 := by
  have hend : (do let read ← Pattern.delete; Pattern.finish; return read) =
      beforeEnd (Pattern.named "DELETE" "FROM") := by
    simp only [Pattern.delete, beforeEnd, bind_assoc, pure_bind]
  rw [readAs?, Pattern.whole?, hend, Option.map_map]
  rfl

theorem readAs?_select (s : List Char) : readAs? .select s =
    ((textsOf <$> Pattern.select).first? s).map fun r =>
      orFaulty .select (readSelect r.1.1.1 r.1.1.2.1 r.1.1.2.2 r.1.2) := by
  have hfinish (read : Pattern.Stretch × Pattern.Stretch × Pattern.Stretch × Option (List Char)) :
      (do Pattern.finish; Pattern.finish; return read) = (do Pattern.finish; return read) := by
    funext t
    cases t <;> rfl
  have hend : (do let read ← Pattern.select; Pattern.finish; return read) = Pattern.select := by
    simp only [Pattern.select, bind_assoc, pure_bind, hfinish]
  rw [readAs?, Pattern.whole?, hend, Pattern.first?, Pattern.first?, Pattern.map_apply,
    List.head?_map, Option.map_map, Option.map_map]
  rfl

/-- Only deletions and selections have conditions. -/
theorem readAs?_of_condition (h : read? s = some statement) (hcondition : statement.condition? ≠ none) :
    readAs? .delete s = some statement ∨ readAs? .select s = some statement := by
  have hread := readAs?_kind h
  cases statement with
  | delete => exact .inl hread
  | select => exact .inr hread
  | _ => exact absurd rfl hcondition

/-- A selection keeps its parts when it is read with another condition. -/
theorem readSelect_exchange {columns table joins : List Char} {condition : Option (List Char)}
    {text : List Char}
    (h : (orFaulty .select (readSelect columns table joins condition)).condition? = some text) :
    condition = some text ∧
    (∃ selection, orFaulty .select (readSelect columns table joins condition) = .select selection ∧
      selection.columns = columns) ∧
    ∀ text', orFaulty .select (readSelect columns table joins (some text')) =
      (orFaulty .select (readSelect columns table joins condition)).withCondition text' := by
  simp only [readSelect] at h ⊢
  cases htable : readTable table with
  | error fault => rw [htable] at h; cases h
  | ok read =>
    rw [htable] at h
    exact ⟨h, ⟨_, rfl, rfl⟩, fun _ => rfl⟩

/-- In front of a condition stands a blank. -/
theorem exists_blank {condition : List Char} (h : read? s = some statement)
    (hcondition : statement.condition? = some condition) :
    ∃ front c, s = front ++ c :: condition ∧ isBlank c = true := by
  rcases readAs?_of_condition h (by simp [hcondition]) with hread | hread
  · rw [readAs?_delete, Option.map_eq_some_iff] at hread
    obtain ⟨⟨⟨table, read⟩, rest⟩, hfirst, rfl⟩ := hread
    obtain rfl : read = some condition := hcondition
    exact Pattern.exists_blank_of_beforeEnd Pattern.isLocal_opening (List.mem_of_head? hfirst)
  · rw [readAs?_select, Option.map_eq_some_iff] at hread
    obtain ⟨⟨⟨⟨columns, table, joins⟩, read⟩, rest⟩, hfirst, rfl⟩ := hread
    obtain ⟨rfl, -⟩ := readSelect_exchange hcondition
    exact Pattern.exists_blank_of_select (List.mem_of_head? hfirst)

section

variable (hother : IsComment other) (hlast : ∀ c ∈ (s ++ behind).getLast?, isBlank c = false)
  (hcondition : statement.condition? = some (before ++ behind))

include hother hlast hcondition

theorem readAs?_delete_exchange (h : readAs? .delete (s ++ behind) = some statement) :
    readAs? .delete (s ++ other) =
      some (statement.withCondition (Text.trimStart (before ++ other))) := by
  rw [readAs?_delete, Option.map_eq_some_iff] at h
  obtain ⟨⟨⟨table, condition⟩, rest⟩, hfirst, rfl⟩ := h
  obtain rfl : condition = some (before ++ behind) := hcondition
  rw [readAs?_delete, Pattern.first?_delete_exchange hother hlast hfirst]
  rfl

theorem readAs?_select_exchange
    (hselect : ∀ selection, statement = .select selection →
      (∃ c ∈ selection.columns, isBlank c = false) ∧
      ∀ before c word, s = before ++ c :: word → isBlank c = true →
        spells "WHERE".toList word = false)
    (h : readAs? .select (s ++ behind) = some statement) :
    readAs? .select (s ++ other) =
      some (statement.withCondition (Text.trimStart (before ++ other))) := by
  rw [readAs?_select, Option.map_eq_some_iff] at h
  obtain ⟨⟨⟨⟨columns, table, joins⟩, condition⟩, rest⟩, hfirst, rfl⟩ := h
  obtain ⟨rfl, ⟨selection, hselection, rfl⟩, hwith⟩ := readSelect_exchange hcondition
  obtain ⟨hcolumns, hword⟩ := hselect selection hselection
  rw [readAs?_select, Pattern.first?_select_exchange hother hlast hword hcolumns hfirst]
  exact congrArg some (hwith _)

end

/-- The condition of a deletion or a selection is exchanged, and nothing else of it. The columns of a
selection have to be more than a blank, and the word in front of the comment another one than
`WHERE`. -/
theorem read?_exchange (hother : IsComment other)
    (hlast : ∀ c ∈ (s ++ behind).getLast?, isBlank c = false)
    (hcondition : statement.condition? = some (before ++ behind))
    (hselect : ∀ selection, statement = .select selection →
      (∃ c ∈ selection.columns, isBlank c = false) ∧
      ∀ before c word, s = before ++ c :: word → isBlank c = true →
        spells "WHERE".toList word = false)
    (h : read? (s ++ behind) = some statement) :
    read? (s ++ other) = some (statement.withCondition (Text.trimStart (before ++ other))) := by
  rcases readAs?_of_condition h (by simp [hcondition]) with hread | hread
  · exact read?_of_delete (readAs?_delete_exchange hother hlast hcondition hread)
  · exact read?_of_select (readAs?_select_exchange hother hlast hcondition hselect hread)

end Statement

end Relational
