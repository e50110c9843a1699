import Relational.Json.Reader

/-!
# Texts in JSON

A text as it is written between quotes ends at its closing quote and no sooner
(`Json.spanQuoted_escape`), and its escapes read back to the text (`Json.unescape?_escape`). A
control character without a letter of its own is written as a code unit, which stands for itself:
only those beyond the basic plane stand in pairs.
-/

namespace Relational.Json

/-! ## One character -/

/-- How a character is written between quotes: as it is, as a letter behind a backslash, or as a code
unit. -/
theorem escapeChar_cases (c : Char) :
    (escapeChar c = [c] ∧ c ≠ '"' ∧ c ≠ '\\' ∧ ¬ c.toNat < 0x20) ∨
      (∃ d, escapeChar c = ['\\', d] ∧ d ≠ 'u' ∧ escaped? d = some c) ∨
      (c.toNat < 0x20 ∧ escapeChar c = '\\' :: 'u' :: '0' :: '0' ::
        [Nat.digitChar (c.toNat / 16), Nat.digitChar (c.toNat % 16)]) := by
  by_cases hquote : c = '"'
  · exact .inr (.inl ⟨'"', by rw [escapeChar, if_pos hquote], by decide, by rw [hquote]; rfl⟩)
  by_cases hbackslash : c = '\\'
  · subst hbackslash
    exact .inr (.inl ⟨'\\', rfl, by decide, rfl⟩)
  by_cases hn : c = '\n'
  · subst hn
    exact .inr (.inl ⟨'n', rfl, by decide, rfl⟩)
  by_cases hr : c = '\r'
  · subst hr
    exact .inr (.inl ⟨'r', rfl, by decide, rfl⟩)
  by_cases ht : c = '\t'
  · subst ht
    exact .inr (.inl ⟨'t', rfl, by decide, rfl⟩)
  by_cases hb : c = '\x08'
  · subst hb
    exact .inr (.inl ⟨'b', rfl, by decide, rfl⟩)
  by_cases hf : c = '\x0c'
  · subst hf
    exact .inr (.inl ⟨'f', rfl, by decide, rfl⟩)
  rw [escapeChar, if_neg hquote, if_neg hbackslash, if_neg hn, if_neg hr, if_neg ht, if_neg hb,
    if_neg hf]
  split
  · rename_i hlow
    exact .inr (.inr ⟨hlow, rfl⟩)
  · rename_i hhigh
    exact .inl ⟨rfl, hquote, hbackslash, hhigh⟩

theorem digitChar_spec : ∀ k < 16, Nat.digitChar k ≠ '"' ∧ Nat.digitChar k ≠ '\\' ∧
    hexDigit? (Nat.digitChar k) = some k := by
  decide

/-! ## The closing quote -/

theorem spanQuoted_cons {c : Char} {s : List Char} (hquote : c ≠ '"') (hbackslash : c ≠ '\\') :
    spanQuoted (c :: s) = (spanQuoted s).map fun (inside, rest) => (c :: inside, rest) := by
  rw [spanQuoted]
  · exact hquote
  · rintro d t rfl
    exact fun _ => hbackslash rfl

theorem spanQuoted_backslash (c : Char) (s : List Char) :
    spanQuoted ('\\' :: c :: s) =
      (spanQuoted s).map fun (inside, rest) => ('\\' :: c :: inside, rest) := by
  rw [spanQuoted]

/-- Behind a written character the inside of the text goes on. -/
theorem spanQuoted_escapeChar (c : Char) (s : List Char) :
    spanQuoted (escapeChar c ++ s) =
      (spanQuoted s).map fun (inside, rest) => (escapeChar c ++ inside, rest) := by
  rcases escapeChar_cases c with ⟨h, hquote, hbackslash, -⟩ | ⟨d, h, -⟩ | ⟨hlow, h⟩
  · rw [h]
    exact spanQuoted_cons hquote hbackslash
  · rw [h]
    exact spanQuoted_backslash d s
  · obtain ⟨hh, hh', -⟩ := digitChar_spec (c.toNat / 16) (by omega)
    obtain ⟨hl, hl', -⟩ := digitChar_spec (c.toNat % 16) (by omega)
    have hzero {s : List Char} := spanQuoted_cons (s := s) (show '0' ≠ '"' by decide) (by decide)
    rw [h]
    simp only [List.cons_append, List.nil_append, spanQuoted_backslash, hzero,
      spanQuoted_cons hh hh', spanQuoted_cons hl hl', Option.map_map]
    rfl

/-- The text between quotes ends at its closing quote. -/
theorem spanQuoted_escape (s : String) (rest : List Char) :
    spanQuoted (escape s ++ '"' :: rest) = some (escape s, rest) := by
  rw [escape]
  generalize s.toList = l
  induction l with
  | nil => rfl
  | cons c l ih =>
    rw [List.flatMap_cons, List.append_assoc, spanQuoted_escapeChar, ih]
    rfl

/-! ## Escapes -/

theorem units?_cons {c : Char} {s : List Char} (hbackslash : c ≠ '\\') (hhigh : ¬ c.toNat < 0x20) :
    units? (c :: s) = (units? s).map (.char c :: ·) := by
  rw [units?]
  · rw [if_neg hhigh]
    cases units? s <;> rfl
  · rintro a b d e t rfl
    exact absurd rfl hbackslash
  · rintro d t rfl
    exact absurd rfl hbackslash

theorem units?_letter {d c : Char} {s : List Char} (hu : d ≠ 'u') (hd : escaped? d = some c) :
    units? ('\\' :: d :: s) = (units? s).map (.char c :: ·) := by
  rw [units?]
  · rw [hd]
    cases units? s <;> rfl
  · rintro a b e f t h
    exact absurd h hu

theorem units?_unit {n : Nat} {s : List Char} (hn : n < 256) :
    units? ('\\' :: 'u' :: '0' :: '0' :: Nat.digitChar (n / 16) :: Nat.digitChar (n % 16) :: s) =
      (units? s).map (.unit n :: ·) := by
  have hhigh := (digitChar_spec (n / 16) (by omega)).2.2
  have hlow := (digitChar_spec (n % 16) (by omega)).2.2
  have hzero : hexDigit? '0' = some 0 := by decide
  have hsum : n / 16 * 16 + n % 16 = n := by omega
  rw [units?, hhigh, hlow, hzero]
  simp only [Option.bind_eq_bind, Option.bind_some, Nat.zero_mul, Nat.zero_add, hsum]
  cases units? s <;> rfl

theorem join?_unit {c : Char} (hc : c.toNat < 0x20) (units : List Unit16) :
    join? (.unit c.toNat :: units) = (join? units).map (c :: ·) := by
  have hchar : Char.ofNat c.toNat = c := Char.ofNat_toNat c
  have hsingle : ¬ (0xD800 ≤ c.toNat ∧ c.toNat < 0xE000) := by omega
  have hpair (low : Nat) : ¬ (0xD800 ≤ c.toNat ∧ c.toNat < 0xDC00 ∧ 0xDC00 ≤ low ∧
      low < 0xE000) := by omega
  cases units with
  | nil => simp only [join?, if_neg hsingle, hchar]
  | cons unit units =>
    cases unit with
    | char d => simp only [join?, if_neg hsingle, hchar]
    | unit low => rw [join?, if_neg (hpair low), if_neg hsingle, hchar]

/-- A written character is read as a character or code unit that stands for it. -/
theorem units?_escapeChar (c : Char) : ∃ unit, (∀ s, units? (escapeChar c ++ s) =
      (units? s).map (unit :: ·)) ∧ ∀ units, join? (unit :: units) = (join? units).map (c :: ·) := by
  rcases escapeChar_cases c with ⟨h, -, hbackslash, hhigh⟩ | ⟨d, h, hu, hd⟩ | ⟨hlow, h⟩
  · refine ⟨.char c, fun s => ?_, fun units => by rw [join?]⟩
    rw [h]
    exact units?_cons hbackslash hhigh
  · refine ⟨.char c, fun s => ?_, fun units => by rw [join?]⟩
    rw [h]
    exact units?_letter hu hd
  · refine ⟨.unit c.toNat, fun s => ?_, join?_unit hlow⟩
    rw [h]
    exact units?_unit (by omega)

/-- The inside of a text has no other escapes than there are. -/
theorem units?_escape (s : String) : ∃ units, units? (escape s) = some units ∧
    join? units = some s.toList := by
  rw [escape]
  generalize s.toList = l
  induction l with
  | nil => exact ⟨[], rfl, by rw [join?]⟩
  | cons c l ih =>
    obtain ⟨units, hunits, hjoin⟩ := ih
    obtain ⟨unit, hunit, hjoin'⟩ := units?_escapeChar c
    refine ⟨unit :: units, ?_, ?_⟩
    · rw [List.flatMap_cons, hunit, hunits, Option.map_some]
    · rw [hjoin', hjoin, Option.map_some]

@[simp] theorem unescape?_escape (s : String) : unescape? (escape s) = some s := by
  obtain ⟨units, hunits, hjoin⟩ := units?_escape s
  rw [unescape?, hunits, Option.bind_some, hjoin, Option.map_some, String.ofList_toList]

@[simp] theorem string?_ofText (s : String) : (ofText s).string? = some s :=
  unescape?_escape s

end Relational.Json
