import Mathlib.Data.List.Induction
import Mathlib.Data.List.TakeWhile
import Relational.Text.Blank
import Relational.Text.Word

/-!
# Blanks around texts

What stands apart by blanks: no character of a word is a blank (`isBlank_of_isWordChar`), a text is
trimmed at its ends only (`Text.trimEnd_append`), and the words of a text are what stands between
its blanks (`Text.words_cons`).
-/

namespace Relational

/-- The blanks. -/
theorem mem_blankRanges {c : Char} (h : isBlank c = true) :
    c.toNat ∈ blankRanges.flatMap fun r => List.range' r.1 (r.2 + 1 - r.1) := by
  obtain ⟨r, hr, hfirst, hlast⟩ := CodeRange.exists_of_contains h
  rw [List.mem_flatMap]
  refine ⟨r, hr, List.mem_range'_1.mpr ⟨hfirst, ?_⟩⟩
  omega

/-- A property that none of the blanks has. -/
theorem isBlank_eq_false_of {p : Char → Bool} {c : Char}
    (hall : ((blankRanges.flatMap fun r => List.range' r.1 (r.2 + 1 - r.1)).all fun n =>
      !p (Char.ofNat n)) = true) (h : p c = true) : isBlank c = false := by
  cases hblank : isBlank c with
  | false => rfl
  | true =>
    have hc := List.all_eq_true.mp hall c.toNat (mem_blankRanges hblank)
    rw [Char.ofNat_toNat, h] at hc
    cases hc

theorem isBlank_of_isWordChar {c : Char} (h : isWordChar c = true) : isBlank c = false :=
  isBlank_eq_false_of (by decide +kernel) h

namespace Text

variable {s t : List Char}

/-- The text is empty or begins with a character of a class. -/
def Begins (p : Char → Bool) (s : List Char) : Prop :=
  ∀ c ∈ s.head?, p c = true

theorem begins_cons {p : Char → Bool} {c : Char} (h : p c = true) (s : List Char) :
    Begins p (c :: s) := by
  intro d hd
  obtain rfl : c = d := by simpa using hd
  exact h

theorem trimStart_eq_self (h : Begins (!isBlank ·) s) : trimStart s = s := by
  cases s with
  | nil => rfl
  | cons c s =>
    have hc : isBlank c = false := by simpa using h c rfl
    rw [trimStart, List.dropWhile_cons_of_neg (by simp [hc])]

theorem trimStart_ne_nil {c : Char} (hmem : c ∈ s) (hc : isBlank c = false) :
    trimStart s ≠ [] := by
  intro hnil
  rw [trimStart, List.dropWhile_eq_nil_iff] at hnil
  rw [hnil c hmem] at hc
  cases hc

theorem trimStart_append (blanks s : List Char) (hblanks : ∀ c ∈ blanks, isBlank c = true) :
    trimStart (blanks ++ s) = trimStart s := by
  rw [trimStart, List.dropWhile_append_of_pos hblanks, trimStart]

/-- What stands behind the characters of a class does not begin with one of them. -/
theorem begins_dropWhile (p : Char → Bool) (s : List Char) : Begins (!p ·) (s.dropWhile p) := by
  intro c hc
  have hhead := List.head?_dropWhile_not p s
  rw [Option.mem_def.mp hc] at hhead
  simpa using hhead

theorem begins_trimStart (s : List Char) : Begins (!isBlank ·) (trimStart s) :=
  begins_dropWhile isBlank s

theorem trimEnd_cons_eq (c : Char) (s : List Char) :
    trimEnd (c :: s) = match trimEnd s with
      | [] => if isBlank c then [] else [c]
      | rest => c :: rest :=
  rfl

/-- The end of a text is trimmed, if there is more than blanks in it. -/
theorem trimEnd_append (s : List Char) (h : trimEnd t ≠ []) : trimEnd (s ++ t) = s ++ trimEnd t := by
  induction s with
  | nil => rfl
  | cons c s ih =>
    rw [List.cons_append, trimEnd_cons_eq, ih]
    split
    · rename_i hnil
      exact absurd (List.append_eq_nil_iff.mp hnil).2 h
    · rfl

/-- The end of a text is trimmed up to its first character, or it is nothing but blanks. -/
theorem trimEnd_cons (c : Char) (s : List Char) :
    trimEnd (c :: s) = [] ∨ ∃ t, trimEnd (c :: s) = c :: t := by
  rw [trimEnd_cons_eq]
  split
  · split
    · exact .inl rfl
    · exact .inr ⟨[], rfl⟩
  · exact .inr ⟨_, rfl⟩

theorem trimEnd_concat {c : Char} (h : isBlank c = true) (s : List Char) :
    trimEnd (s ++ [c]) = trimEnd s := by
  induction s with
  | nil => exact if_pos h
  | cons d s ih => rw [List.cons_append, trimEnd_cons_eq, ih, trimEnd_cons_eq]

theorem trimEnd_singleton {c : Char} (h : isBlank c = false) : trimEnd [c] = [c] :=
  if_neg (by rw [h]; decide)

/-- Nothing is trimmed off a text that ends with another character than a blank. -/
theorem trimEnd_eq_self {c : Char} (h : isBlank c = false) (s : List Char) :
    trimEnd (s ++ [c]) = s ++ [c] := by
  have hlast := trimEnd_singleton h
  rw [trimEnd_append s (by rw [hlast]; simp), hlast]

/-- Nothing but the end is trimmed where there is more than blanks. -/
theorem trimEnd_eq_append (h : trim s ≠ []) : trimEnd s = s.takeWhile isBlank ++ trim s := by
  calc trimEnd s = trimEnd (s.takeWhile isBlank ++ trimStart s) := by
        rw [trimStart, List.takeWhile_append_dropWhile]
    _ = s.takeWhile isBlank ++ trim s := trimEnd_append _ h

theorem begins_trimEnd {p : Char → Bool} (h : Begins p s) : Begins p (trimEnd s) := by
  cases s with
  | nil => exact h
  | cons c s =>
    rw [trimEnd_cons_eq]
    split
    · split
      · simp [Begins]
      · exact h
    · exact h

theorem begins_trim (s : List Char) : Begins (!isBlank ·) (trim s) :=
  begins_trimEnd (begins_trimStart s)

theorem trimEnd_of_isBlank (h : ∀ c ∈ s, isBlank c = true) : trimEnd s = [] := by
  induction s with
  | nil => rfl
  | cons c s ih =>
    obtain ⟨hc, hs⟩ := List.forall_mem_cons.mp h
    rw [trimEnd_cons_eq, ih hs]
    exact if_pos hc

theorem isBlank_of_trim_eq_nil (h : trim s = []) : ∀ c ∈ s, isBlank c = true := by
  have hstart := begins_trimStart s
  rw [trim] at h
  cases hrest : trimStart s with
  | nil =>
    rw [← List.takeWhile_append_dropWhile (p := isBlank) (l := s), ← trimStart, hrest,
      List.append_nil]
    exact List.all_eq_true.mp List.all_takeWhile
  | cons c t =>
    have hc : isBlank c = false := by simpa using hstart c (by rw [hrest]; rfl)
    rw [hrest, trimEnd_cons_eq] at h
    split at h
    · simp [hc] at h
    · nomatch h

theorem trimEnd_append_of_eq_nil (h : trimEnd t = []) (s : List Char) :
    trimEnd (s ++ t) = trimEnd s := by
  induction s with
  | nil => exact h
  | cons c s ih => rw [List.cons_append, trimEnd_cons_eq, ih, trimEnd_cons_eq]

/-- Only the end of a text is trimmed off. -/
theorem exists_trimEnd_append (s : List Char) : ∃ blanks, s = trimEnd s ++ blanks := by
  induction s using List.reverseRecOn with
  | nil => exact ⟨[], rfl⟩
  | append_singleton s c ih =>
    cases hc : isBlank c with
    | true =>
      obtain ⟨blanks, hs⟩ := ih
      exact ⟨blanks ++ [c], by rw [trimEnd_concat hc, ← List.append_assoc, ← hs]⟩
    | false => exact ⟨[], by rw [trimEnd_eq_self hc, List.append_nil]⟩

theorem mem_of_mem_trimEnd {c : Char} (h : c ∈ trimEnd s) : c ∈ s := by
  obtain ⟨blanks, hs⟩ := exists_trimEnd_append s
  rw [hs]
  exact List.mem_append_left _ h

/-- What is left of a text does not end with a blank. -/
theorem not_isBlank_of_getLast?_trimEnd (s : List Char) :
    ∀ c ∈ (trimEnd s).getLast?, isBlank c = false := by
  induction s using List.reverseRecOn with
  | nil => nofun
  | append_singleton s c ih =>
    cases hc : isBlank c with
    | true =>
      rw [trimEnd_concat hc]
      exact ih
    | false =>
      rw [trimEnd_eq_self hc, List.getLast?_concat]
      rintro d ⟨⟩
      exact hc

/-- The blanks at one end do not matter to those at the other. -/
theorem trimStart_trimEnd (s : List Char) : trimStart (trimEnd s) = trim s := by
  by_cases h : trim s = []
  · rw [h, trimEnd_of_isBlank (isBlank_of_trim_eq_nil h)]
    rfl
  · have hblanks : ∀ c ∈ s.takeWhile isBlank, isBlank c = true :=
      List.all_eq_true.mp List.all_takeWhile
    rw [trimEnd_eq_append h, trimStart_append _ _ hblanks, trimStart_eq_self (begins_trim s)]

theorem trim_concat {c : Char} (h : isBlank c = true) (s : List Char) :
    trim (s ++ [c]) = trim s := by
  rw [← trimStart_trimEnd, trimEnd_concat h, trimStart_trimEnd]

/-! ## Words -/

/-- A text without blanks, which is not empty. -/
structure IsUnbroken (s : List Char) : Prop where
  ne_nil : s ≠ []
  not_isBlank (c : Char) : c ∈ s → isBlank c = false

theorem IsUnbroken.begins (h : IsUnbroken s) (t : List Char) : Begins (!isBlank ·) (s ++ t) := by
  obtain ⟨c, s, rfl⟩ := List.exists_cons_of_ne_nil h.ne_nil
  intro d hd
  obtain rfl : c = d := by simpa using hd
  simpa using h.not_isBlank c List.mem_cons_self

/-- The first word of a text that begins with one. -/
theorem isUnbroken_takeWhile (hne : s ≠ []) (h : Begins (!isBlank ·) s) :
    IsUnbroken (s.takeWhile (!isBlank ·)) where
  ne_nil := by
    obtain ⟨c, s, rfl⟩ := List.exists_cons_of_ne_nil hne
    have hc : isBlank c = false := by simpa using h c rfl
    simp [hc]
  not_isBlank c hc := by simpa using List.all_eq_true.mp List.all_takeWhile c hc

theorem begins_dropWhile_unbroken (s : List Char) : Begins isBlank (s.dropWhile (!isBlank ·)) := by
  simpa using begins_dropWhile (!isBlank ·) s

/-- The text ends with something else than blanks. -/
def Ends (s : List Char) : Prop :=
  ∃ before last, IsUnbroken last ∧ s = before ++ last

theorem IsUnbroken.ends (h : IsUnbroken s) : Ends s :=
  ⟨[], s, h, rfl⟩

theorem Ends.append (h : Ends t) (s : List Char) : Ends (s ++ t) := by
  obtain ⟨before, last, hlast, rfl⟩ := h
  exact ⟨s ++ before, last, hlast, (List.append_assoc s before last).symm⟩

theorem Ends.trimEnd_eq (h : Ends s) : trimEnd s = s := by
  obtain ⟨before, last, hlast, rfl⟩ := h
  have hend : last.dropLast ++ [last.getLast hlast.ne_nil] = last :=
    List.dropLast_concat_getLast hlast.ne_nil
  rw [← hend, ← List.append_assoc]
  exact trimEnd_eq_self (hlast.not_isBlank _ (List.getLast_mem hlast.ne_nil)) _

/-- Nothing is trimmed off a text that neither begins nor ends with a blank. -/
theorem Ends.trim_eq (h : Ends s) (hbegins : Begins (!isBlank ·) s) : trim s = s := by
  rw [trim, trimStart_eq_self hbegins, h.trimEnd_eq]

theorem IsUnbroken.trim_eq (h : IsUnbroken s) : trim s = s := by
  have hbegins := h.begins []
  rw [List.append_nil] at hbegins
  exact h.ends.trim_eq hbegins

/-- Behind something else than blanks, only the rest is trimmed. -/
theorem Ends.trimEnd_append (h : Ends s) (t : List Char) : trimEnd (s ++ t) = s ++ trimEnd t := by
  by_cases ht : trimEnd t = []
  · rw [trimEnd_append_of_eq_nil ht, h.trimEnd_eq, ht, List.append_nil]
  · exact Text.trimEnd_append s ht

theorem words_go (word : List Char) (h : ∀ c ∈ s, isBlank c = false) (t : List Char) :
    words.go word (s ++ t) = words.go (s.reverse ++ word) t := by
  induction s generalizing word with
  | nil => rfl
  | cons c s ih =>
    obtain ⟨hc, hs⟩ := List.forall_mem_cons.mp h
    rw [List.cons_append, words.go, if_neg (by simp [hc]), ih (c :: word) hs]
    simp

theorem words_unbroken (h : IsUnbroken s) : words s = [s] := by
  have hgo := words_go [] h.not_isBlank []
  rw [List.append_nil, List.append_nil] at hgo
  rw [words, hgo, words.go]
  simp [h.ne_nil]

theorem words_cons (h : IsUnbroken s) (t : List Char) : words (s ++ ' ' :: t) = s :: words t := by
  rw [words, words_go [] h.not_isBlank, List.append_nil, words.go, if_pos (by decide), words]
  simp [h.ne_nil]

end Text

end Relational
