import Relational.Proofs.Operand
import Relational.Proofs.Value.Literal

/-!
# Spelled tokens

A text is scanned as a token if it is, whatever stands behind it and ends a token (`Lexer.Scans`): a
word as its token (`IsName.scans`), a number as itself (`IsNumber.scans`). A text spells tokens if they
are read from it there (`Lexer.Spells`). Texts that spell tokens do so with a blank between them
(`Spells.append`) and in parentheses (`Spells.group`). Each token of a text can be spelled again
(`Lexer.isLexed_of_meaningful`): what it was read from is a word or a number that goes on to its end.
-/

namespace Relational.Lexer

open Text (Begins begins_cons doubleQuotes quote)

variable {c : Char} {s t rest : List Char} {token : Token} {before behind : List Token}

/-- The text is empty or begins with a blank or a closing parenthesis. -/
def EndsToken (s : List Char) : Prop :=
  Begins (fun c => isBlank c || c == ')') s

theorem endsToken_nil : EndsToken [] := by
  intro c hc
  cases hc

theorem EndsToken.any_head (h : EndsToken s) {p : Char → Bool}
    (hblank : ∀ c, isBlank c = true → p c = false) (hparen : p ')' = false) :
    s.head?.any p = false := by
  cases s with
  | nil => rfl
  | cons c s =>
    have hc := h c rfl
    rw [Bool.or_eq_true, beq_iff_eq] at hc
    rcases hc with hc | rfl
    · exact hblank c hc
    · exact hparen

theorem EndsToken.head?_ne (h : EndsToken s) (hc : (isBlank c || c == ')') = false) :
    s.head? ≠ some c := by
  intro hhead
  have hends : (isBlank c || c == ')') = true := h c hhead
  rw [hends] at hc
  cases hc

theorem EndsToken.endsIdentifier (h : EndsToken s) : EndsIdentifier s := by
  rintro c t rfl
  have hname : isNameChar c = false :=
    h.any_head (fun c => isNameChar_of_isBlank) (by decide)
  have hdot : (c == '.') = false :=
    beq_eq_false_iff_ne.mpr fun hc => h.head?_ne (c := '.') (by decide) (congrArg some hc)
  rw [hname, hdot]
  rfl

/-! ## Texts that are scanned as a token -/

/-- The token is scanned from the text, whatever stands behind it and ends a token. -/
def Scans (s : List Char) (token : Token) : Prop :=
  ∃ c t, s = c :: t ∧ isBlank c = false ∧
    ∀ rest, EndsToken rest → scan c (t ++ rest) = .ok (token, rest)

theorem Scans.tokens_append (h : Scans s token) (hrest : EndsToken rest) :
    tokens (s ++ rest) = (tokens rest).map (token :: ·) := by
  obtain ⟨c, t, rfl, hc, hscan⟩ := h
  exact tokens_cons hc (hscan rest hrest)

theorem scans_quote (s : List Char) : Scans (quote s) (.text s) := by
  refine ⟨'\'', doubleQuotes s ++ ['\''], rfl, by decide, fun rest hrest => ?_⟩
  rw [List.append_assoc]
  exact scan_quote s (hrest.head?_ne (by decide))

/-- A symbol that is no longer with what ends a token behind it. -/
theorem scan_symbol {op : Operator} (hc : c = '<' ∨ c = '>')
    (hsymbol : Operator.symbol? [c] = some (op, 1)) (hrest : EndsToken rest) :
    scan c rest = .ok (.operator op, rest) := by
  have hop : Operator.symbol? (c :: rest) = some (op, 1) := by
    rcases symbol?_cases hsymbol with ⟨hlength, -⟩ | ⟨-, h⟩
    · cases hlength
    · exact h rest fun hequals => absurd hequals (hrest.head?_ne (by decide))
  have hdash : c ≠ '-' := by
    rcases hc with rfl | rfl <;> decide
  exact scan_eq_ok_iff.mpr (.symbol (fun h => hdash h.1) hop rfl)

theorem scans_comparison (op : Comparison) :
    Scans op.spelling.toList (.operator (.comparison op)) := by
  cases op with
  | eq => exact ⟨'=', [], rfl, by decide, fun rest hrest => rfl⟩
  | ne => exact ⟨'!', ['='], rfl, by decide, fun rest hrest => rfl⟩
  | lt => exact ⟨'<', [], rfl, by decide, fun rest => scan_symbol (.inl rfl) rfl⟩
  | gt => exact ⟨'>', [], rfl, by decide, fun rest => scan_symbol (.inr rfl) rfl⟩
  | le => exact ⟨'<', ['='], rfl, by decide, fun rest hrest => rfl⟩
  | ge => exact ⟨'>', ['='], rfl, by decide, fun rest hrest => rfl⟩

/-- A word is an identifier character and what goes on with it. -/
def IsName (s : List Char) : Prop :=
  ∃ c t, s = c :: t ∧ isNameStart c = true ∧ spanIdentifier t = (t, [])

/-- A number is digits with one point at most, which is not all of it. -/
def IsNumber (s : List Char) : Prop :=
  ∃ c t, s = c :: t ∧ (c.isDigit || (c == '.' && t.head?.any Char.isDigit)) = true ∧
    spanNumber (c == '.') t = (t, [])

theorem IsName.scans (h : IsName s) : Scans s (ofWord s) := by
  obtain ⟨c, t, rfl, hc, hspan⟩ := h
  have hblank : isBlank c = false := by
    refine Bool.eq_false_iff.mpr fun hblank => ?_
    rw [isNameStart_of_isBlank c hblank] at hc
    cases hc
  refine ⟨c, t, rfl, hblank, fun rest hrest => scan_eq_ok_iff.mpr (.word hc ?_ rfl)⟩
  rw [← List.append_nil t] at hspan
  rw [spanIdentifier_replace hspan hrest.endsIdentifier, List.append_nil]

theorem IsNumber.scans (h : IsNumber s) : Scans s (.number s) := by
  obtain ⟨c, t, rfl, hc, hspan⟩ := h
  have hblank : isBlank c = false := by
    refine Operand.isBlank_of_isNumeral ?_
    rcases isDigit_or_of_startsNumber hc with hdigit | rfl
    · exact Operand.isNumeral_of_isDigit hdigit
    · rfl
  refine ⟨c, t, rfl, hblank, fun rest hrest => ?_⟩
  have hend (pointSeen : Bool) : rest.head?.any (isNumberChar pointSeen) = false :=
    hrest.any_head (isNumberChar_of_isBlank pointSeen) (by cases pointSeen <;> rfl)
  rw [← List.append_nil t] at hc hspan
  have hnumber := spanNumber_replace (t := rest) hspan fun pointSeen hany =>
    absurd hany (Bool.eq_false_iff.mp (hend pointSeen))
  rw [List.append_nil] at hnumber
  exact scan_eq_ok_iff.mpr (.number (startsNumber_replace hc hspan rest) hnumber)

/-! ## Texts that spell tokens -/

/-- The tokens are read from the text, whatever stands behind it and ends a token. -/
def Spells (s : List Char) (tokens : List Token) : Prop :=
  ∀ rest, EndsToken rest → meaningful (s ++ rest) = (meaningful rest).map (tokens ++ ·)

theorem Spells.meaningful_eq (h : Spells s before) : meaningful s = .ok before := by
  have hend := h [] endsToken_nil
  have hnil : meaningful [] = .ok [] := by
    rw [meaningful, tokens]
    rfl
  rw [List.append_nil, hnil, map_ok, List.append_nil] at hend
  exact hend

/-- A text spells the token that is scanned from it. -/
theorem Scans.spells (h : Scans s token) (hcomment : isComment token = false) : Spells s [token] := by
  obtain ⟨c, t, rfl, hc, hscan⟩ := h
  intro rest hrest
  rw [List.cons_append, meaningful_cons hc hcomment (hscan rest hrest)]
  rfl

theorem Spells.append (h : Spells s before) (h' : Spells t behind) :
    Spells (s ++ ' ' :: t) (before ++ behind) := by
  intro rest hrest
  rw [List.append_assoc, List.cons_append, h _ (begins_cons rfl _), meaningful_blank (by decide),
    h' rest hrest]
  cases meaningful rest with
  | error e => rfl
  | ok tokens => simp only [map_ok, List.append_assoc]

/-- A text with a character before it that is a token of its own. -/
theorem Spells.cons (h : Spells s before) (hc : isBlank c = false) (hcomment : isComment token = false)
    (hscan : ∀ rest, scan c (s ++ rest) = .ok (token, s ++ rest)) :
    Spells (c :: s) (token :: before) := by
  intro rest hrest
  rw [List.cons_append, meaningful_cons hc hcomment (hscan rest), h rest hrest]
  cases meaningful rest <;> rfl

theorem Spells.group (h : Spells s before) :
    Spells ('(' :: (s ++ [')'])) (.leftParen :: (before ++ [.rightParen])) := by
  have hclosed : Spells (s ++ [')']) (before ++ [.rightParen]) := by
    intro rest hrest
    have hright : scan ')' rest = .ok (.rightParen, rest) := rfl
    rw [List.append_assoc, List.singleton_append, h _ (begins_cons rfl _),
      meaningful_cons (by decide) rfl hright]
    cases meaningful rest with
    | error e => rfl
    | ok tokens => simp only [map_ok, List.append_assoc, List.singleton_append]
  exact hclosed.cons (by decide) rfl fun rest => rfl

theorem Spells.minus (h : Spells (c :: s) before) (hc : c ≠ '-') :
    Spells ('-' :: c :: s) (.operator (.arithmetic .sub) :: before) := by
  refine h.cons (by decide) rfl fun rest => ?_
  exact scan_eq_ok_iff.mpr (.symbol (fun h => hc (by simpa using h.2)) rfl rfl)

theorem spells_quote (s : List Char) : Spells (quote s) [.text s] :=
  (scans_quote s).spells rfl

theorem spells_comparison (op : Comparison) :
    Spells op.spelling.toList [.operator (.comparison op)] :=
  (scans_comparison op).spells rfl

theorem IsName.spells (h : IsName s) : Spells s [ofWord s] :=
  h.scans.spells (isComment_ofWord s)

theorem spells_connective (op : Connective) :
    Spells (Operator.connective op).spelling.toList [.operator (.connective op)] := by
  cases op with
  | and =>
    have hname : IsName "AND".toList := ⟨'A', "ND".toList, rfl, by decide⟩
    exact hname.spells
  | or =>
    have hname : IsName "OR".toList := ⟨'O', "R".toList, rfl, by decide⟩
    exact hname.spells

theorem IsNumber.spells (h : IsNumber s) : Spells s [.number s] :=
  h.scans.spells rfl

/-! ## Tokens of a text -/

/-- A word or a number among tokens goes on to its end. -/
def IsLexed : Token → Prop
  | .identifier name => IsName name ∧ ofWord name = .identifier name
  | .number digits => IsNumber digits
  | _ => True

theorem spanIdentifier_append_span (s : List Char) :
    (spanIdentifier s).1 ++ (spanIdentifier s).2 = s := by
  induction s with
  | nil => rfl
  | cons c s ih =>
    rw [spanIdentifier]
    split
    · exact congrArg (c :: ·) ih
    · rfl

theorem spanNumber_append_span (pointSeen : Bool) (s : List Char) :
    (spanNumber pointSeen s).1 ++ (spanNumber pointSeen s).2 = s := by
  induction s generalizing pointSeen with
  | nil => rfl
  | cons c s ih =>
    rw [spanNumber_cons]
    split
    · exact congrArg (c :: ·) (ih _)
    · rfl

theorem isName_span (hc : isNameStart c = true) (s : List Char) :
    IsName (c :: (spanIdentifier s).1) := by
  have hspan : spanIdentifier ((spanIdentifier s).1 ++ (spanIdentifier s).2) =
      ((spanIdentifier s).1, (spanIdentifier s).2) := by rw [spanIdentifier_append_span]
  have hname := spanIdentifier_replace (t := []) hspan nofun
  rw [List.append_nil] at hname
  exact ⟨c, _, rfl, hc, hname⟩

theorem isNumber_span (hc : (c.isDigit || (c == '.' && s.head?.any Char.isDigit)) = true) :
    IsNumber (c :: (spanNumber (c == '.') s).1) := by
  have hspan : spanNumber (c == '.')
      ((spanNumber (c == '.') s).1 ++ (spanNumber (c == '.') s).2) =
      ((spanNumber (c == '.') s).1, (spanNumber (c == '.') s).2) := by rw [spanNumber_append_span]
  rw [← spanNumber_append_span (c == '.') s] at hc
  have hstart := startsNumber_replace hc hspan []
  have hnumber := spanNumber_replace (t := []) hspan nofun
  rw [List.append_nil] at hstart hnumber
  exact ⟨c, _, rfl, hstart, hnumber⟩

theorem IsName.isLexed (h : IsName s) : IsLexed (ofWord s) := by
  obtain hword | ⟨op, hword⟩ | hword := ofWord_cases s
  · rw [hword]
    trivial
  · rw [hword]
    trivial
  · rw [hword]
    exact ⟨h, hword⟩

theorem isLexed_of_scan (h : scan c s = .ok (token, rest)) : IsLexed token := by
  cases scan_eq_ok_iff.mp h with
  | word hc hspan htoken =>
    have hname := isName_span hc s
    rw [hspan] at hname
    exact htoken ▸ hname.isLexed
  | number hc hspan =>
    have hnumber := isNumber_span hc
    rwa [hspan] at hnumber
  | mark hc =>
    have hmarks : ∀ mark ∈ marks, IsLexed mark.2 := by simp [marks, IsLexed]
    exact hmarks _ hc
  | comment | text | symbol => trivial

theorem isLexed_of_tokens {tokens : List Token} (h : Lexer.tokens s = .ok tokens) :
    ∀ token ∈ tokens, IsLexed token := by
  fun_induction Lexer.tokens s generalizing tokens with
  | case1 =>
    cases h
    nofun
  | case2 c s hc ih => exact ih h
  | case3 => cases h
  | case4 c s hc token rest hscan _ ih =>
    obtain ⟨tokens, htokens, rfl⟩ := map_eq_ok_iff.mp h
    exact List.forall_mem_cons.mpr ⟨isLexed_of_scan hscan, ih htokens⟩

theorem isLexed_of_meaningful (h : meaningful s = .ok before) : ∀ token ∈ before, IsLexed token := by
  unfold meaningful at h
  split at h
  · rename_i htokens
    cases h
    exact fun token htoken => isLexed_of_tokens htokens token (List.mem_filter.mp htoken).1
  · cases h

end Relational.Lexer
