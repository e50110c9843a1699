import Relational.Proofs.Statement.Written
import Relational.Proofs.Text.Quoted
import Relational.Statement.Reader

/-!
# Lists of groups

A text that closes its quotes and has no parentheses outside of them belongs to the group that it
stands in as it is (`Text.scanGroups_append`), so the groups of a list of such texts are these texts
(`Text.groups_commas`).
-/

namespace Relational.Text

open Written (commas inParentheses)

section Closed

variable {p : Char → Bool} {s : List Char} {texts : List (List Char)}

theorem isClosed_commas (hcomma : p ',' = true) (hblank : p ' ' = true)
    (h : ∀ text ∈ texts, isClosed p false text = true) : isClosed p false (commas texts) = true := by
  have hbetween : isClosed p false [',', ' '] = true :=
    isClosed_of_forall (by simp [hcomma, hblank]) (by decide)
  induction texts with
  | nil => rfl
  | cons text texts ih =>
    obtain ⟨htext, htexts⟩ := List.forall_mem_cons.mp h
    cases texts with
    | nil => exact htext
    | cons next texts => exact isClosed_append (isClosed_append htext hbetween) (ih htexts)

theorem isClosed_inParentheses (hopen : p '(' = true) (hclose : p ')' = true)
    (h : isClosed p false s = true) : isClosed p false (inParentheses s) = true := by
  have hbefore : isClosed p false ['('] = true :=
    isClosed_of_forall (List.forall_mem_singleton.mpr hopen) (by decide)
  have hbehind : isClosed p false [')'] = true :=
    isClosed_of_forall (List.forall_mem_singleton.mpr hclose) (by decide)
  exact isClosed_append hbefore (isClosed_append h hbehind)

end Closed

variable {quoted : Bool} {current s rest : List Char} {depth : Nat} {c : Char}

theorem scanGroups_quoted (current : List Char) (depth : Nat) (c : Char) (s : List Char) :
    scanGroups current depth true (c :: s) = scanGroups (c :: current) depth (c != '\'') s := by
  rw [scanGroups.eq_def]
  rfl

theorem scanGroups_quote (current : List Char) (depth : Nat) (s : List Char) :
    scanGroups current depth false ('\'' :: s) = scanGroups ('\'' :: current) depth true s := by
  rw [scanGroups.eq_def]
  rfl

theorem scanGroups_open (current s : List Char) :
    scanGroups current 0 false ('(' :: s) = scanGroups current 1 false s := by
  rw [scanGroups.eq_def]
  rfl

theorem scanGroups_close (current s : List Char) : scanGroups current 1 false (')' :: s) =
    do return trim current.reverse :: (← scanGroups [] 0 false s) := by
  rw [scanGroups.eq_def]
  rfl

theorem scanGroups_comma (current s : List Char) :
    scanGroups current 0 false (',' :: ' ' :: s) = scanGroups current 0 false s := by
  calc scanGroups current 0 false (',' :: ' ' :: s) = scanGroups current 0 false (' ' :: s) := by
        rw [scanGroups.eq_def]
        rfl
    _ = scanGroups current 0 false s := by
        rw [scanGroups.eq_def]
        rfl

/-- Inside a group, other characters than quotes and parentheses belong to it. -/
theorem scanGroups_cons (hquote : c ≠ '\'') (hc : Pattern.isParenthesis c = false) :
    scanGroups current (depth + 1) false (c :: s) = scanGroups (c :: current) (depth + 1) false s := by
  simp only [Pattern.isParenthesis, Bool.or_eq_false_iff, beq_eq_false_iff_ne] at hc
  rw [scanGroups.eq_def]
  simp [hquote, hc.1, hc.2]

/-- A text that closes its quotes and has no parentheses outside of them belongs to the group that it
stands in. -/
theorem scanGroups_append (h : isClosed (!Pattern.isParenthesis ·) quoted s = true) :
    scanGroups current (depth + 1) quoted (s ++ rest) =
      scanGroups (s.reverse ++ current) (depth + 1) false rest := by
  induction s generalizing current quoted with
  | nil =>
    obtain rfl : quoted = false := by simpa [isClosed] using h
    rfl
  | cons c s ih =>
    rw [isClosed] at h
    rw [List.cons_append, List.reverse_cons, List.append_assoc, List.singleton_append]
    by_cases hquote : c = '\''
    · rw [if_pos hquote] at h
      rw [← ih h, hquote]
      cases quoted with
      | true => exact scanGroups_quoted _ _ _ _
      | false => exact scanGroups_quote _ _ _
    · rw [if_neg hquote, Bool.and_eq_true] at h
      rw [← ih h.2]
      cases quoted with
      | true => rw [scanGroups_quoted, bne_iff_ne.mpr hquote]
      | false => exact scanGroups_cons hquote (by simpa using h.1)

theorem scanGroups_inParentheses (h : isClosed (!Pattern.isParenthesis ·) false s = true) :
    scanGroups [] 0 false (inParentheses s ++ rest) =
      do return trim s :: (← scanGroups [] 0 false rest) := by
  rw [inParentheses, List.cons_append, List.append_assoc, List.singleton_append, scanGroups_open,
    scanGroups_append h, scanGroups_close, List.append_nil, List.reverse_reverse]

/-- Texts in parentheses are the groups, without the blanks around them. -/
theorem groups_commas {texts : List (List Char)}
    (h : ∀ text ∈ texts, isClosed (!Pattern.isParenthesis ·) false text = true) :
    groups (commas (texts.map inParentheses)) = .ok (texts.map trim) := by
  induction texts with
  | nil => rfl
  | cons text texts ih =>
    obtain ⟨htext, htexts⟩ := List.forall_mem_cons.mp h
    cases texts with
    | nil =>
      have hend : scanGroups [] 0 false [] = .ok [] := rfl
      rw [groups, List.map_singleton, commas, ← List.append_nil (inParentheses text),
        scanGroups_inParentheses htext, hend]
      rfl
    | cons next texts =>
      have hcommas : commas ((text :: next :: texts).map inParentheses) =
          inParentheses text ++ ',' :: ' ' :: commas ((next :: texts).map inParentheses) := by
        simp [commas]
      have hrest := ih htexts
      rw [groups] at hrest
      rw [groups, hcommas, scanGroups_inParentheses htext, scanGroups_comma, hrest]
      rfl

end Relational.Text
