import Relational.Console
import Relational.Proofs.Script.Line

/-!
# The lines of scripts

A console reads a script as its lines, each without the carriage return that it may end with
(`Console.splitLines_cons`). Put together again (`Script.ofLines`), the lines are a script with the same
statements, unless one of these has a carriage return in front of a line break
(`Console.texts_ofLines`). Both go by the lines of the text, from the first one on
(`Text.line_induction`).
-/

namespace Relational

/-- Lines, each with a line break behind it. -/
def Script.ofLines (lines : List (List Char)) : List Char :=
  lines.flatMap fun line => line ++ ['\n']

/-- Lines end with a line break, if there are any. -/
theorem Script.ofLines_eq (lines : List (List Char)) :
    ofLines lines = [] ∨ ∃ u, ofLines lines = u ++ ['\n'] := by
  rcases List.eq_nil_or_concat lines with rfl | ⟨lines, line, rfl⟩
  · exact .inl rfl
  · exact .inr ⟨ofLines lines ++ line, by simp [ofLines]⟩

theorem Script.ofLines_append_cons (before : List (List Char)) (line : List Char)
    (behind : List (List Char)) : ofLines (before ++ line :: behind) =
      ofLines before ++ line ++ '\n' :: ofLines behind := by
  simp [ofLines]

/-- A blank line in front of others does not count. -/
theorem Script.texts_blankLine {line : List Char} (hblank : Text.trim line = [])
    (lines : List (List Char)) : texts (ofLines (line :: lines)) = texts (ofLines lines) := by
  have hblanks : ∀ c ∈ line ++ ['\n'], isBlank c = true := List.forall_mem_append.mpr
    ⟨Text.isBlank_of_trim_eq_nil hblank, List.forall_mem_singleton.mpr (by decide)⟩
  exact texts_blanks hblanks (ofLines lines)

/-! ## Texts and their lines -/

namespace Text

variable {s line : List Char} {c : Char}

/-- A text is a line, or a line with a text behind it. -/
@[elab_as_elim]
theorem line_induction {motive : List Char → Prop}
    (last : ∀ content, '\n' ∉ content → motive content)
    (line : ∀ content s, '\n' ∉ content → motive s → motive (content ++ '\n' :: s)) (s : List Char) :
    motive s := by
  generalize hn : s.length = n
  induction n using Nat.strongRecOn generalizing s with
  | ind n ih =>
    subst hn
    obtain ⟨content, rest, rfl, hcontent, hrest⟩ := Script.exists_line s
    cases rest with
    | nil =>
      rw [List.append_nil]
      exact last content hcontent
    | cons c rest =>
      obtain rfl : c = '\n' := by simpa using hrest c rfl
      exact line content rest hcontent (ih rest.length (by simp; omega) rest rfl)

/-- The end of a text is the end of its last line. -/
theorem exists_lastLine (s : List Char) : ∃ before line, s = before ++ line ∧ '\n' ∉ line ∧
    (before = [] ∨ ∃ u, before = u ++ ['\n']) := by
  induction s using List.reverseRecOn with
  | nil => exact ⟨[], [], rfl, by simp, .inl rfl⟩
  | append_singleton s c ih =>
    by_cases hc : c = '\n'
    · exact ⟨s ++ [c], [], by simp, by simp, .inr ⟨s, by rw [hc]⟩⟩
    · obtain ⟨before, line, rfl, hline, hbefore⟩ := ih
      refine ⟨before, line ++ [c], by simp, ?_, hbefore⟩
      simp [hline, Ne.symm hc]

/-- A line of a text that has another one behind it. -/
theorem mem_dropLast_splitOn {before : List Char} (hline : '\n' ∉ line)
    (hbefore : before = [] ∨ ∃ u, before = u ++ ['\n']) (behind : List Char) :
    line ∈ ((before ++ line ++ '\n' :: behind).splitOn '\n').dropLast := by
  have hlast : line ∈ ((line ++ '\n' :: behind).splitOn '\n').dropLast := by
    rw [List.splitOn_append_cons_self, List.dropLast_append_of_ne_nil (List.splitOn_ne_nil _ _),
      List.splitOn_eq_singleton hline]
    exact List.mem_cons_self
  rcases hbefore with rfl | ⟨u, rfl⟩
  · exact hlast
  · have hassoc : u ++ ['\n'] ++ line ++ '\n' :: behind = u ++ '\n' :: (line ++ '\n' :: behind) := by
      simp
    rw [hassoc, List.splitOn_append_cons_self,
      List.dropLast_append_of_ne_nil (List.splitOn_ne_nil _ _)]
    exact List.mem_append_right _ hlast

/-! ## What is trimmed off -/

theorem getLast?_trim (s : List Char) : (trim s).getLast? = (trimEnd s).getLast? := by
  induction s with
  | nil => rfl
  | cons c s ih =>
    by_cases hc : isBlank c = true
    · have htrim : trim (c :: s) = trim s := by
        rw [trim, trim, trimStart, List.dropWhile_cons_of_pos hc, trimStart]
      rw [htrim, ih, trimEnd_cons_eq]
      split
      · rename_i hnil
        rw [hnil, if_pos hc]
      · rename_i hne
        obtain ⟨d, t, ht⟩ := List.exists_cons_of_ne_nil hne
        rw [ht, List.getLast?_cons_cons]
    · rw [trim, trimStart_eq_self (begins_cons (by simpa using hc) s)]

theorem mem_trimEnd (hmem : c ∈ s) (hc : isBlank c = false) : c ∈ trimEnd s := by
  induction s with
  | nil => cases hmem
  | cons d s ih =>
    rw [trimEnd_cons_eq]
    rcases List.mem_cons.mp hmem with rfl | hmem
    · split
      · rw [if_neg (by simp [hc])]
        exact List.mem_cons_self
      · exact List.mem_cons_self
    · have hrest := ih hmem
      split
      · rename_i hnil
        rw [hnil] at hrest
        cases hrest
      · exact List.mem_cons_of_mem d hrest

/-- Nothing but blanks is trimmed off. -/
theorem mem_trim (hmem : c ∈ s) (hc : isBlank c = false) : c ∈ trim s := by
  refine mem_trimEnd ?_ hc
  rw [← List.takeWhile_append_dropWhile (p := isBlank) (l := s)] at hmem
  refine (List.mem_append.mp hmem).resolve_left fun hblank => ?_
  rw [List.mem_takeWhile_imp hblank] at hc
  cases hc

end Text

/-! ## The lines that a console reads -/

namespace Console

open Script (texts ofLines)

variable {s content : List Char}

/-- The line that is read where a text stands up to a line break. -/
def withoutReturn (s : List Char) : List Char :=
  if s.getLast? = some '\r' then s.dropLast else s

theorem withoutReturn_cases (s : List Char) :
    withoutReturn s = s ∨ s = withoutReturn s ++ ['\r'] := by
  rw [withoutReturn]
  split
  · rename_i hlast
    obtain ⟨u, rfl⟩ := List.getLast?_eq_some_iff.mp hlast
    exact .inr (by simp)
  · exact .inl rfl

theorem trim_withoutReturn (s : List Char) : Text.trim (withoutReturn s) = Text.trim s := by
  rcases withoutReturn_cases s with hsame | hreturn
  · rw [hsame]
  · nth_rewrite 2 [hreturn]
    exact (Text.trim_concat (by decide) _).symm

theorem go_append (line : List Char) (hcontent : '\n' ∉ content) (s : List Char) :
    splitLines.go line (content ++ s) = splitLines.go (content.reverse ++ line) s := by
  induction content generalizing line with
  | nil => rfl
  | cons c content ih =>
    obtain ⟨hc, hcontent⟩ := not_or.mp (mt List.mem_cons.mpr hcontent)
    have hgo (s : List Char) : splitLines.go line (c :: s) = splitLines.go (c :: line) s := by
      rw [splitLines.go.eq_def]
      exact if_neg (Ne.symm hc)
    rw [List.cons_append, hgo, ih _ hcontent, List.reverse_cons, List.append_assoc,
      List.singleton_append]

theorem go_lineBreak (line s : List Char) :
    splitLines.go line ('\n' :: s) = withoutReturn line.reverse :: splitLines s := by
  rw [splitLines.go.eq_def]
  dsimp only
  rw [if_pos rfl, splitLines, withoutReturn]
  congr 1
  cases line with
  | nil => rfl
  | cons c line =>
    rw [List.reverse_cons, List.getLast?_concat, List.dropLast_concat]
    split
    · rename_i heq
      obtain ⟨rfl, rfl⟩ := List.cons.inj heq
      rw [if_pos rfl]
    · rename_i hother
      rw [if_neg fun h => hother line (by rw [Option.some.inj h])]
      rw [List.reverse_cons]

/-- A text without line breaks is a line, unless it is empty. -/
theorem splitLines_content (hcontent : '\n' ∉ content) (hne : content ≠ []) :
    splitLines content = [content] := by
  have hgo := go_append [] hcontent []
  rw [List.append_nil, List.append_nil] at hgo
  rw [splitLines, hgo, splitLines.go, List.reverse_reverse, if_neg (by simpa using hne)]

theorem splitLines_cons (hcontent : '\n' ∉ content) (s : List Char) :
    splitLines (content ++ '\n' :: s) = withoutReturn content :: splitLines s := by
  rw [splitLines, go_append [] hcontent, go_lineBreak, List.append_nil, List.reverse_reverse]

/-- The lines of a text that begins with whole lines. -/
theorem splitLines_append (u s : List Char) :
    splitLines (u ++ '\n' :: s) = splitLines (u ++ ['\n']) ++ splitLines s := by
  induction u using Text.line_induction with
  | last content hcontent =>
    rw [splitLines_cons hcontent, splitLines_cons hcontent]
    rfl
  | line content u hcontent ih =>
    rw [List.append_assoc, List.cons_append, splitLines_cons hcontent, List.append_assoc,
      List.cons_append, splitLines_cons hcontent, ih]
    rfl

theorem not_mem_splitLines (s : List Char) : ∀ line ∈ splitLines s, '\n' ∉ line := by
  induction s using Text.line_induction with
  | last content hcontent =>
    by_cases hne : content = []
    · rw [hne]
      nofun
    · rw [splitLines_content hcontent hne]
      exact List.forall_mem_singleton.mpr hcontent
  | line content s hcontent ih =>
    rw [splitLines_cons hcontent, List.forall_mem_cons]
    refine ⟨?_, ih⟩
    rw [withoutReturn]
    split
    · exact fun hmem => hcontent (List.dropLast_subset content hmem)
    · exact hcontent

/-- The lines of a script make a script with the same statements, unless one of these has a carriage
return in front of a line break. -/
theorem texts_ofLines (before s : List Char)
    (h : ∀ text ∈ texts (before ++ s), ¬['\r', '\n'] <:+: text) :
    texts (before ++ ofLines (splitLines s)) = texts (before ++ s) := by
  induction s using Text.line_induction generalizing before with
  | last content hcontent =>
    by_cases hne : content = []
    · rw [hne]
      rfl
    · rw [splitLines_content hcontent hne, ofLines, List.flatMap_singleton, ← List.append_assoc,
        Script.texts_lineBreak]
  | line content s hcontent ih =>
    have hreturn : texts (before ++ (withoutReturn content ++ '\n' :: s)) =
        texts (before ++ (content ++ '\n' :: s)) := by
      rcases withoutReturn_cases content with hsame | hreturn
      · rw [hsame]
      · have hsplit : before ++ (content ++ '\n' :: s) =
            before ++ withoutReturn content ++ '\r' :: '\n' :: s := by
          nth_rewrite 1 [hreturn]
          simp
        rw [hsplit] at h ⊢
        rw [Script.texts_return h, List.append_assoc]
    have hlines : before ++ ofLines (splitLines (content ++ '\n' :: s)) =
        before ++ withoutReturn content ++ ['\n'] ++ ofLines (splitLines s) := by
      rw [splitLines_cons hcontent]
      simp [ofLines]
    have hjoin : before ++ withoutReturn content ++ ['\n'] ++ s =
        before ++ (withoutReturn content ++ '\n' :: s) := by simp
    rw [hlines, ih, hjoin, hreturn]
    rw [hjoin, hreturn]
    exact h

end Console

end Relational
