import Relational.Proofs.Pattern
import Relational.Proofs.Text.Keyword

/-!
# Readings of texts

How patterns read a text whose parts are known. A run of a class and a keyword have one reading or
none (`word_bind`, `keyword_gap_bind`), so a sequence goes on behind them. Where there is a choice,
its readings are listed (`optional_bind`, `upToBlank_append`), and only the first that works out
matters (`first?_append`, `first?_star`).
-/

namespace Relational

open Text

theorem IsWord.isUnbroken {s : String} (h : IsWord s) : IsUnbroken s.toList :=
  ⟨fun hnil => h.1 (String.toList_eq_nil_iff.mp hnil), fun c hc => isBlank_of_isWordChar (h.2 c hc)⟩

namespace Pattern

variable {α β : Type} {p : Pattern α} {k : α → Pattern β} {s rest : List Char} {a : α}

/-! ## Sequences -/

theorem bind_of_single (h : p s = [(a, rest)]) : (p >>= k) s = k a rest := by
  rw [bind_apply, h, List.flatMap_singleton]

theorem bind_of_none (h : p s = []) : (p >>= k) s = [] := by
  rw [bind_apply, h, List.flatMap_nil]

instance : LawfulMonad Pattern :=
  LawfulMonad.mk' Pattern
    (fun p => by
      funext s
      exact List.flatMap_singleton' (p s))
    (fun a k => by
      funext s
      exact bind_of_single rfl)
    (fun p k q => by
      funext s
      simp only [bind_apply, List.flatMap_assoc])

theorem map_apply (f : α → β) (p : Pattern α) (s : List Char) :
    (f <$> p) s = (p s).map fun r => (f r.1, r.2) := by
  rw [map_eq_pure_bind, bind_apply, List.map_eq_flatMap]
  rfl

theorem optional_bind {k : Option α → Pattern β} :
    (optional p >>= k) s = (p >>= fun a => k (some a)) s ++ k none s := by
  simp only [optional, orElse, bind_apply, List.flatMap_append, List.flatMap_assoc, pure_apply,
    List.flatMap_singleton]

theorem optionalLast_bind {k : Option α → Pattern β} :
    (optionalLast p >>= k) s = k none s ++ (p >>= fun a => k (some a)) s := by
  simp only [optionalLast, orElse, bind_apply, List.flatMap_append, List.flatMap_assoc, pure_apply,
    List.flatMap_singleton]

/-- Goes on with the stretch of a text up to where the pattern is put. -/
def since (s : List Char) (k : Stretch → Pattern β) : Pattern β :=
  fun rest => k ⟨s, rest⟩ rest

theorem since_apply (s : List Char) (k : Stretch → Pattern β) (rest : List Char) :
    since s k rest = k ⟨s, rest⟩ rest := rfl

theorem stretch_bind {p : Pattern Unit} {k : Stretch → Pattern β} :
    (stretch p >>= k) s = (p >>= fun _ => since s k) s := by
  simp only [stretch, ahead, bind_apply, List.flatMap_assoc, pure_apply, List.flatMap_singleton,
    since]

/-! ## First readings -/

theorem first?_append {p q : List (α × List Char)} {r : α × List Char} (h : p.head? = some r) :
    (p ++ q).head? = some r := by
  rw [List.head?_append, h, Option.some_or]

theorem first?_orElse {q : Pattern α} {r : β × List Char} (h : (p >>= k).first? s = some r) :
    (orElse p q >>= k).first? s = some r := by
  have hreadings : (orElse p q >>= k) s = (p >>= k) s ++ (q >>= k) s := by
    simp only [orElse, bind_apply, List.flatMap_append]
  rw [first?, hreadings]
  exact first?_append h

theorem whole?_eq_some (h : p.first? s = some (a, [])) : p.whole? s = some a := by
  have hfirst := bind_eq_first (q := fun a => do finish; return a) h rfl
  rw [whole?, hfirst, Option.map_some]

theorem star_apply (p : Pattern Unit) (s : List Char) :
    star p s =
      ((p s).flatMap fun r => if r.2.length < s.length then star p r.2 else []) ++ [((), s)] := by
  let again (r : Unit × List Char) := if r.2.length < s.length then star p r.2 else []
  calc star p s = (p s).attach.flatMap (fun r => again r.1) ++ [((), s)] := by
        rw [star]
        rfl
    _ = ((p s).attach.map Subtype.val).flatMap again ++ [((), s)] := by rw [List.flatMap_map]
    _ = (p s).flatMap again ++ [((), s)] := by rw [List.attach_map_subtype_val]

theorem first?_stretch {p : Pattern Unit} {k : Stretch → Pattern β} {r : β × List Char}
    (hp : p.first? s = some ((), rest)) (hk : (k ⟨s, rest⟩).first? rest = some r) :
    (stretch p >>= k).first? s = some r := by
  rw [first?, stretch_bind]
  exact bind_eq_first (q := fun _ => since s k) hp hk

/-- A pattern is read once more, if it takes something off the text. -/
theorem first?_star {p : Pattern Unit} {r : Unit × List Char} (hp : p.first? s = some ((), rest))
    (hlt : rest.length < s.length) (hrest : first? (star p) rest = some r) :
    first? (star p) s = some r := by
  obtain ⟨more, hmore⟩ : ∃ more, p s = ((), rest) :: more := List.head?_eq_some_iff.mp hp
  change (star p s).head? = some r
  rw [star_apply, hmore, List.flatMap_cons, if_pos hlt, List.append_assoc]
  exact first?_append hrest

theorem star_of_none {p : Pattern Unit} (h : p s = []) : star p s = [((), s)] := by
  rw [star_apply, h, List.flatMap_nil, List.nil_append]

/-! ## Searching -/

theorem search?_of_first? (h : p.first? s = some (a, rest)) (hlt : rest.length < s.length) :
    p.search? s = some ([], a, rest) := by
  obtain ⟨more, hmore⟩ : ∃ more, p s = (a, rest) :: more := List.head?_eq_some_iff.mp h
  cases s with
  | nil => cases hlt
  | cons c s =>
    have hshortening : p.shortening? (c :: s) = some (a, rest) := by
      rw [shortening?, hmore, List.find?_cons_of_pos (by simpa using hlt)]
    rw [search?, hshortening]

theorem search?_of_none {c : Char} (h : p (c :: s) = []) :
    p.search? (c :: s) = (p.search? s).map fun (before, found) => (c :: before, found) := by
  rw [search?, shortening?, h]
  rfl

/-! ## Runs -/

variable {kind : Char → Bool} {run : List Char}

theorem takeWhile_append (hrun : ∀ c ∈ run, kind c = true) (hrest : Begins (!kind ·) rest) :
    (run ++ rest).takeWhile kind = run := by
  rw [List.takeWhile_append_of_pos hrun]
  cases rest with
  | nil => rw [List.takeWhile_nil, List.append_nil]
  | cons c rest =>
    have hc : kind c = false := by simpa using hrest c rfl
    rw [List.takeWhile_cons_of_neg (by simp [hc]), List.append_nil]

theorem dropWhile_append (hrun : ∀ c ∈ run, kind c = true) (hrest : Begins (!kind ·) rest) :
    (run ++ rest).dropWhile kind = rest := by
  rw [List.dropWhile_append_of_pos hrun]
  cases rest with
  | nil => rfl
  | cons c rest =>
    have hc : kind c = false := by simpa using hrest c rfl
    rw [List.dropWhile_cons_of_neg (by simp [hc])]

theorem many_apply (hrun : ∀ c ∈ run, kind c = true) (hrest : Begins (!kind ·) rest) :
    many kind (run ++ rest) = [(run, rest)] := by
  rw [many, takeWhile_append hrun hrest, dropWhile_append hrun hrest]

theorem many1_apply (hne : run ≠ []) (hrun : ∀ c ∈ run, kind c = true)
    (hrest : Begins (!kind ·) rest) : many1 kind (run ++ rest) = [(run, rest)] := by
  rw [many1, takeWhile_append hrun hrest, dropWhile_append hrun hrest]
  cases run with
  | nil => exact absurd rfl hne
  | cons c run => rfl

theorem many1_none (h : Begins (!kind ·) s) : many1 kind s = [] := by
  have htake : ([] ++ s).takeWhile kind = [] := takeWhile_append (by simp) h
  rw [List.nil_append] at htake
  rw [many1, htake]

theorem gap_bind {k : Unit → Pattern β} {blanks : List Char} (hne : blanks ≠ [])
    (hblanks : ∀ c ∈ blanks, isBlank c = true) (hs : Begins (!isBlank ·) s) :
    (gap >>= k) (blanks ++ s) = k () s := by
  rw [gap, bind_assoc, bind_of_single (many1_apply hne hblanks hs), pure_bind]

/-- A single blank is a gap. -/
theorem gap_bind_cons {k : Unit → Pattern β} (hs : Begins (!isBlank ·) s) :
    (gap >>= k) (' ' :: s) = k () s :=
  have hblank : ∀ c ∈ [' '], isBlank c = true := List.forall_mem_singleton.mpr (by decide)
  gap_bind (by simp) hblank hs

theorem gap_bind_none {k : Unit → Pattern β} (hs : Begins (!isBlank ·) s) : (gap >>= k) s = [] := by
  rw [gap, bind_assoc]
  exact bind_of_none (many1_none hs)

theorem blanks_bind {k : Unit → Pattern β} {run : List Char} (hrun : ∀ c ∈ run, isBlank c = true)
    (hs : Begins (!isBlank ·) s) : (blanks >>= k) (run ++ s) = k () s := by
  rw [blanks, bind_assoc, bind_of_single (many_apply hrun hs), pure_bind]

theorem blanks_bind_cons {k : Unit → Pattern β} (hs : Begins (!isBlank ·) s) :
    (blanks >>= k) (' ' :: s) = k () s :=
  have hblank : ∀ c ∈ [' '], isBlank c = true := List.forall_mem_singleton.mpr (by decide)
  blanks_bind hblank hs

theorem upToBlank_blank (s : List Char) : upToBlank (' ' :: s) = upToBlank s := by
  cases s with
  | nil => rfl
  | cons c s =>
    rw [upToBlank, if_neg]
    simp [show isBlank ' ' = true by decide]

/-- A text without blanks is the first reading up to a blank. -/
theorem upToBlank_append (h : IsUnbroken run) (s : List Char) :
    upToBlank (run ++ ' ' :: s) = ((), ' ' :: s) :: upToBlank s := by
  obtain ⟨hne, hblank⟩ := h
  induction run with
  | nil => exact absurd rfl hne
  | cons c run ih =>
    obtain ⟨hc, hrun⟩ := List.forall_mem_cons.mp hblank
    cases run with
    | nil =>
      rw [List.cons_append, List.nil_append, upToBlank,
        if_pos (by simp [hc, show isBlank ' ' = true by decide]), upToBlank_blank]
    | cons d run =>
      obtain ⟨hd, -⟩ := List.forall_mem_cons.mp hrun
      rw [List.cons_append, List.cons_append, upToBlank, if_neg (by simp [hd]), ← List.cons_append,
        ih (by simp) hrun]

theorem flatMap_pieces (piece : List Char) (pieces : List (List Char)) (s : List Char) :
    (piece :: pieces).flatMap (· ++ [' ']) ++ s =
      piece ++ ' ' :: (pieces.flatMap (· ++ [' ']) ++ s) := by
  simp only [List.flatMap_cons, List.append_assoc, List.cons_append, List.nil_append]

/-- Where nothing goes on before the other pieces of a text, only the blank behind the last piece
counts. -/
theorem first?_upToBlank {k : Pattern β} {r : β × List Char} {pieces : List (List Char)}
    (hne : pieces ≠ []) (hpieces : ∀ piece ∈ pieces, IsUnbroken piece)
    (hnone : ∀ piece ∈ pieces, ∀ s, k (' ' :: (piece ++ ' ' :: s)) = [])
    (hk : k.first? (' ' :: s) = some r) :
    (upToBlank >>= fun _ => k).first? (pieces.flatMap (· ++ [' ']) ++ s) = some r := by
  induction pieces with
  | nil => exact absurd rfl hne
  | cons piece pieces ih =>
    obtain ⟨hpiece, hpieces⟩ := List.forall_mem_cons.mp hpieces
    obtain ⟨-, hnone⟩ := List.forall_mem_cons.mp hnone
    rw [flatMap_pieces, first?, bind_apply, upToBlank_append hpiece, List.flatMap_cons]
    cases pieces with
    | nil => exact first?_append hk
    | cons next pieces =>
      have hnext := hnone next List.mem_cons_self (pieces.flatMap (· ++ [' ']) ++ s)
      rw [flatMap_pieces, hnext, List.nil_append, ← flatMap_pieces]
      exact ih (by simp) hpieces hnone

/-! ## Keywords -/

variable {k : Unit → Pattern β} {text : List Char}

theorem letters_bind {word : List Char} (hword : ∀ letter ∈ word, letter.isUpper = true) :
    (letters word >>= k) (word ++ s) = k () s := by
  induction word with
  | nil => rw [letters, pure_bind, List.nil_append]
  | cons letter word ih =>
    obtain ⟨hletter, hword⟩ := List.forall_mem_cons.mp hword
    have hone : one (sameLetter letter) (letter :: (word ++ s)) = [((), word ++ s)] := by
      rw [one, if_pos (sameLetter_self hletter)]
    rw [letters, bind_assoc, List.cons_append, bind_of_single hone, ih hword]

/-- What a keyword is read in spells it. -/
theorem spells_of_letters {word : List Char} {r : Unit × List Char} (hr : r ∈ letters word s) :
    ∃ text, s = text ++ r.2 ∧ spells word text = true := by
  induction word generalizing s with
  | nil =>
    rw [letters, pure_apply, List.mem_singleton] at hr
    exact ⟨[], by rw [hr, List.nil_append], rfl⟩
  | cons letter word ih =>
    rw [letters, bind_apply, List.mem_flatMap] at hr
    obtain ⟨first, hfirst, hr⟩ := hr
    cases s with
    | nil => cases hfirst
    | cons c s =>
      rw [one] at hfirst
      split at hfirst
      · rename_i hc
        rw [List.mem_singleton.mp hfirst] at hr
        obtain ⟨text, rfl, htext⟩ := ih hr
        exact ⟨c :: text, rfl, by rw [spells, hc, htext, Bool.true_and]⟩
      · cases hfirst

/-- A keyword and a gap are read where a text without blanks spells the keyword. -/
theorem letters_gap_bind {word : List Char} (hword : ∀ letter ∈ word, letter.isUpper = true)
    (htext : ∀ c ∈ text, isBlank c = false) (hrest : Begins isBlank rest) :
    (letters word >>= fun _ => gap >>= k) (text ++ rest) =
      if spells word text then (gap >>= k) rest else [] := by
  induction word generalizing text with
  | nil =>
    rw [letters, pure_bind]
    cases text with
    | nil => rfl
    | cons c text =>
      rw [List.cons_append, gap_bind_none]
      · rfl
      · intro d hd
        obtain rfl : c = d := by simpa using hd
        simpa using htext c List.mem_cons_self
  | cons letter word ih =>
    obtain ⟨hletter, hword⟩ := List.forall_mem_cons.mp hword
    rw [letters, bind_assoc]
    cases text with
    | nil =>
      cases rest with
      | nil => rfl
      | cons c rest =>
        have hc := sameLetter_of_isBlank hletter (hrest c rfl)
        refine bind_of_none ?_
        rw [List.nil_append, one, hc]
        rfl
    | cons c text =>
      obtain ⟨-, htext⟩ := List.forall_mem_cons.mp htext
      rw [List.cons_append, spells]
      cases hc : sameLetter letter c with
      | false =>
        refine bind_of_none ?_
        rw [one, hc]
        rfl
      | true =>
        have hone : one (sameLetter letter) (c :: (text ++ rest)) = [((), text ++ rest)] := by
          rw [one, hc]
          rfl
        rw [bind_of_single hone, ih hword htext, Bool.true_and]

variable {word : String}

theorem keyword_gap_bind (hword : ∀ letter ∈ word.toList, letter.isUpper = true)
    (hs : Begins (!isBlank ·) s) :
    (keyword word >>= fun _ => gap >>= k) (word.toList ++ ' ' :: s) = k () s := by
  rw [keyword, letters_bind hword, gap_bind_cons hs]

theorem keyword_gap_none (hword : ∀ letter ∈ word.toList, letter.isUpper = true)
    (htext : IsUnbroken text) (hspells : spells word.toList text = false)
    (hrest : Begins isBlank rest) : (keyword word >>= fun _ => gap >>= k) (text ++ rest) = [] := by
  rw [keyword, letters_gap_bind hword htext.not_isBlank hrest, hspells]
  rfl

end Pattern

end Relational
