import Relational.Proofs.Pattern.Reading
import Relational.Statement.Reader

/-!
# How statements open

A statement begins with a letter of its kind (`StatementKind.letter`), so that a text is of no other
kind than those with its first letter (`Statement.read?_eq_readAs?`), and `GO` is of none
(`Statement.sameWord_go_of_read?`).
-/

namespace Relational

variable {c : Char} {s : List Char}

namespace Pattern

variable {α : Type} {p : Pattern α} {word : String}

theorem whole?_eq_none (h : p s = []) : p.whole? s = none := by
  rw [whole?, first?, bind_of_none h]
  rfl

/-- A keyword is not read where another letter stands than its first one. -/
theorem keyword_eq_nil {letter : Char} {letters : List Char} (hword : word.toList = letter :: letters)
    (h : Text.sameLetter letter c = false) : keyword word (c :: s) = [] := by
  rw [keyword, hword, Pattern.letters]
  refine bind_of_none ?_
  rw [one, h]
  rfl

end Pattern

/-- The letter that statements of a kind begin with. -/
def StatementKind.letter : StatementKind → Char
  | createDatabase | createTable | createIndex => 'C'
  | dropDatabase | dropTable | delete => 'D'
  | use => 'U'
  | insert => 'I'
  | select => 'S'

theorem StatementKind.isUpper_letter (kind : StatementKind) : kind.letter.isUpper = true := by
  cases kind <;> decide

namespace Statement

theorem read?_nil : read? [] = none := rfl

theorem readAs?_eq_none {kind : StatementKind} (h : Text.sameLetter kind.letter c = false) :
    readAs? kind (c :: s) = none := by
  have hopening {α : Type} {word : String} {k : Unit → Pattern α} {letters : List Char}
      (hword : word.toList = kind.letter :: letters) :
      (Pattern.keyword word >>= k).whole? (c :: s) = none :=
    Pattern.whole?_eq_none (Pattern.bind_of_none (Pattern.keyword_eq_nil hword h))
  cases kind with
  | createIndex | use | select =>
    exact Option.map_eq_none_iff.mpr (hopening rfl)
  | createDatabase | dropDatabase | dropTable =>
    rw [readAs?, Pattern.named, Pattern.opening, bind_assoc, hopening rfl, Option.map_none]
  | createTable =>
    rw [readAs?, Pattern.createTable, Pattern.named, Pattern.opening, bind_assoc, bind_assoc,
      hopening rfl, Option.map_none]
  | insert =>
    rw [readAs?, Pattern.insert, Pattern.opening, bind_assoc, hopening rfl, Option.map_none]
  | delete =>
    rw [readAs?, Pattern.delete, Pattern.named, Pattern.opening, bind_assoc, bind_assoc,
      hopening rfl, Option.map_none]

theorem mem_kinds (kind : StatementKind) : kind ∈ kinds := by
  cases kind <;> decide

/-- A text that is of no other kind is read as nothing else. -/
theorem read?_eq_of_readAs?_none (kind : StatementKind)
    (h : ∀ other ∈ kinds, other = kind ∨ readAs? other s = none) : read? s = readAs? kind s := by
  cases hread : read? s with
  | none => exact (List.findSome?_eq_none_iff.mp hread kind (mem_kinds kind)).symm
  | some statement =>
    obtain ⟨other, hother, hstatement⟩ := List.exists_of_findSome?_eq_some hread
    rcases h other hother with rfl | hnone
    · exact hstatement.symm
    · rw [hnone] at hstatement
      cases hstatement

/-- A text that begins like statements of one kind only is read as nothing else. -/
theorem read?_eq_readAs? (kind : StatementKind) (hs : s.head? = some c)
    (h : ∀ other ∈ kinds, other = kind ∨ Text.sameLetter other.letter c = false) :
    read? s = readAs? kind s := by
  obtain ⟨s, rfl⟩ := List.head?_eq_some_iff.mp hs
  exact read?_eq_of_readAs?_none kind fun other hother =>
    (h other hother).imp_right fun hletter => readAs?_eq_none hletter

/-- A statement begins with the letter of a kind. -/
theorem sameLetter_of_read? {statement : Statement} (h : read? (c :: s) = some statement) :
    ∃ kind ∈ kinds, Text.sameLetter kind.letter c = true := by
  obtain ⟨kind, hkind, hread⟩ := List.exists_of_findSome?_eq_some h
  refine ⟨kind, hkind, ?_⟩
  cases hletter : Text.sameLetter kind.letter c with
  | true => rfl
  | false =>
    rw [readAs?_eq_none hletter] at hread
    cases hread

/-- What is read as a deletion begins with its keyword. -/
theorem spells_of_readAs?_delete {statement : Statement} (h : readAs? .delete s = some statement) :
    ∃ text rest, s = text ++ rest ∧ Text.spells "DELETE".toList text = true := by
  cases hkeyword : Pattern.keyword "DELETE" s with
  | nil =>
    rw [readAs?, Pattern.delete, Pattern.named, Pattern.opening, bind_assoc, bind_assoc,
      Pattern.whole?_eq_none (Pattern.bind_of_none hkeyword)] at h
    cases h
  | cons r readings =>
    obtain ⟨text, hs, hspells⟩ := Pattern.spells_of_letters (hkeyword ▸ List.mem_cons_self)
    exact ⟨text, r.2, hs, hspells⟩

/-- What is read as a deletion is of no other kind. -/
theorem readAs?_eq_none_of_delete {kind : StatementKind} (hkind : kind ≠ .delete)
    {statement : Statement} (h : readAs? .delete s = some statement) : readAs? kind s = none := by
  obtain ⟨text, rest, rfl, hspells⟩ := spells_of_readAs?_delete h
  have hdelete : "DELETE".toList = 'D' :: 'E' :: "LETE".toList := rfl
  rw [hdelete] at hspells
  obtain ⟨c, text, rfl, hc, hspells⟩ := Text.exists_cons_of_spells hspells
  obtain ⟨d, text, rfl, hd, -⟩ := Text.exists_cons_of_spells hspells
  have hsecond : Text.sameLetter 'R' d = false :=
    Text.sameLetter_eq_false_of_ne (by decide) (by decide) (by decide) hd
  have hkeyword : Pattern.keyword "DROP" (c :: d :: text ++ rest) = [] := by
    have hdrop : "DROP".toList = 'D' :: 'R' :: "OP".toList := rfl
    have hone : Pattern.one (Text.sameLetter 'D') (c :: d :: text ++ rest) =
        [((), d :: text ++ rest)] := if_pos hc
    have hnone : Pattern.one (Text.sameLetter 'R') (d :: text ++ rest) = [] :=
      if_neg (by simp [hsecond])
    rw [Pattern.keyword, hdrop, Pattern.letters, Pattern.bind_of_single hone, Pattern.letters,
      Pattern.bind_of_none hnone]
  have hdrop (second : String) :
      (Pattern.named "DROP" second).whole? (c :: d :: text ++ rest) = none := by
    rw [Pattern.named, Pattern.opening, bind_assoc]
    exact Pattern.whole?_eq_none (Pattern.bind_of_none hkeyword)
  have hletter (hne : kind.letter ≠ 'D') : readAs? kind (c :: d :: text ++ rest) = none :=
    readAs?_eq_none (Text.sameLetter_eq_false_of_ne (by decide) kind.isUpper_letter hne hc)
  cases kind with
  | delete => exact absurd rfl hkind
  | dropDatabase | dropTable =>
    rw [readAs?]
    exact Option.map_eq_none_iff.mpr (hdrop _)
  | _ => exact hletter (by decide)

/-- What is read as a selection is of no other kind. -/
theorem readAs?_eq_none_of_select {kind : StatementKind} (hkind : kind ≠ .select)
    {statement : Statement} (h : readAs? .select s = some statement) : readAs? kind s = none := by
  cases s with
  | nil => cases h
  | cons c s =>
    have hc : Text.sameLetter 'S' c = true := by
      cases hletter : Text.sameLetter 'S' c with
      | true => rfl
      | false =>
        rw [@readAs?_eq_none c s .select hletter] at h
        cases h
    have hne : kind.letter ≠ 'S' := by
      cases kind with
      | select => exact absurd rfl hkind
      | _ => decide
    exact readAs?_eq_none (Text.sameLetter_eq_false_of_ne (by decide) kind.isUpper_letter hne hc)

/-- What is read as one kind and as no other is that statement. -/
theorem read?_of_readAs? {kind : StatementKind} {statement : Statement}
    (h : readAs? kind s = some statement)
    (hother : ∀ other, other ≠ kind → readAs? other s = none) : read? s = some statement := by
  rw [read?_eq_of_readAs?_none kind fun other _ =>
    Decidable.or_iff_not_imp_left.mpr (hother other), h]

theorem read?_of_delete {statement : Statement} (h : readAs? .delete s = some statement) :
    read? s = some statement :=
  read?_of_readAs? h fun _ hne => readAs?_eq_none_of_delete hne h

theorem read?_of_select {statement : Statement} (h : readAs? .select s = some statement) :
    read? s = some statement :=
  read?_of_readAs? h fun _ hne => readAs?_eq_none_of_select hne h

/-- The end of a batch is no statement. -/
theorem sameWord_go_of_read? {statement : Statement} (h : read? s = some statement) :
    Text.sameWord "GO".toList s = false := by
  cases s with
  | nil => rfl
  | cons c s =>
    obtain ⟨kind, -, hletter⟩ := sameLetter_of_read? h
    refine Bool.eq_false_iff.mpr fun hsame => ?_
    have hspells : Text.spells "GO".toList (c :: s) = true :=
      Text.spells_of_sameWord (List.all_eq_true.mp (by decide)) hsame
    have hgo : Text.sameLetter 'G' c = true := (Bool.and_eq_true_iff.mp hspells).1
    have heq := (Text.eq_of_sameLetter kind.isUpper_letter hletter).trans
      (Text.eq_of_sameLetter (by decide) hgo).symm
    cases kind <;> exact absurd heq (by decide)

end Statement

end Relational
