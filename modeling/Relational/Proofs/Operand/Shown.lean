import Relational.Proofs.Condition.Grammar
import Relational.Proofs.Token.Spaced

/-!
# Operands as they are shown

What an operand was read from is one token, and the operand is shown as this token
(`Operand.raw_of_isNumber`, `Operand.eq_column_of_isName`), or it was worked out and is shown as a
constant: behind a minus if it is negative (`Value.tokens`). So the text of an operand spells tokens
(`Operand.IsShown.spells`), and these write the operand (`Operand.IsShown.isOperand`), unless it is a
constant that cannot be written: the least whole number, whose digits without the minus are no whole
number, or a float that is not finite, which is written as a name.
-/

namespace Relational

open Grammar Lexer

/-! ## Names -/

namespace Lexer

variable {c : Char} {s : List Char}

theorem IsName.isUnbroken (h : IsName s) : Text.IsUnbroken s := by
  obtain ⟨hstart, hchars, -⟩ := isName_iff.mp h
  refine ⟨?_, fun c hc => ?_⟩
  · rintro rfl
    cases hstart
  · rcases hchars c hc with hname | rfl
    · refine Bool.eq_false_iff.mpr fun hblank => ?_
      rw [isNameChar_of_isBlank hblank] at hname
      cases hname
    · decide

theorem isDigit_of_isNameStart (hc : isNameStart c = true) : c.isDigit = false := by
  refine Bool.eq_false_iff.mpr fun hdigit => ?_
  rw [isNameStart_of_isDigit hdigit] at hc
  cases hc

end Lexer

namespace Operand

variable {c : Char} {s name digits : List Char} {operand : Operand}

theorem ofText?_isNameStart (hc : isNameStart c = true) : Integer.ofText? (c :: s) = none := by
  have hdigits : Integer.ofDigits? (c :: s) = none :=
    Integer.ofDigits?_eq_none List.mem_cons_self (isDigit_of_isNameStart hc)
  rw [Integer.ofText?, Integer.readInt?, hdigits]
  · rfl
  · rintro t ⟨⟩
    exact absurd hc (by decide)
  · rintro t ⟨⟩
    exact absurd hc (by decide)

theorem isFloatLiteral_isNameStart (hc : isNameStart c = true) : isFloatLiteral (c :: s) = false := by
  have hdot : c ≠ '.' := by
    rintro rfl
    exact absurd hc (by decide)
  rw [isFloatLiteral, splitDot, if_neg hdot]
  · cases splitDot s with
    | none => rfl
    | some parts => simp [isDigit_of_isNameStart hc]
  · rintro t ⟨⟩
    exact absurd hc (by decide)

/-- A name is read as a column, if it has one dot at most. -/
theorem read_of_isName (h : IsName name) (hword : ofWord name = .identifier name) : read name =
    if isColumnReference name then .ok (column (String.ofList name))
    else .error (.syntaxError (.unreadableValue (String.ofList name))) := by
  have hnull : Text.sameWord "NULL".toList name = false := by
    refine Bool.eq_false_iff.mpr fun hsame => ?_
    rw [ofWord, Text.sameWord, BEq.comm, ← Text.sameWord, if_pos hsame] at hword
    cases hword
  rw [read, h.isUnbroken.trim_eq]
  obtain ⟨c, t, rfl, hc, -⟩ := h
  have hquote : unquoted? (c :: t) = none := by
    rw [unquoted?]
    rintro t ⟨⟩
    exact absurd hc (by decide)
  rw [Reference.read, hquote]
  dsimp only
  rw [hnull, if_neg (by decide), ofText?_isNameStart hc]
  dsimp only
  rw [isFloatLiteral_isNameStart hc, if_neg (by decide)]
  dsimp only
  split <;> rfl

/-- A name is read as a column, if at all. -/
theorem eq_column_of_isName (h : IsName name) (hword : ofWord name = .identifier name)
    (hread : read name = .ok operand) : operand = column (String.ofList name) := by
  rw [read_of_isName h hword] at hread
  split at hread
  · cases hread
    rfl
  · cases hread

/-! ## Numbers -/

theorem isColumnReference_eq_false (hc : isNameStart c = false) :
    isColumnReference (c :: s) = false := by
  rw [isColumnReference, splitDot]
  by_cases hdot : c = '.'
  · rw [if_pos hdot]
    rfl
  · rw [if_neg hdot]
    cases splitDot s <;> simp [isIdentifier, hc]

theorem isNumeral_of_isNumber (h : IsNumber digits) : ∀ c ∈ digits, isNumeral c = true := by
  intro c hc
  rcases (isNumber_iff.mp h).chars c hc with hdigit | rfl
  · exact isNumeral_of_isDigit hdigit
  · rfl

/-- A number is read as a constant with its own text, if at all. -/
theorem raw_of_isNumber (h : IsNumber digits) (hread : read digits = .ok operand) :
    operand.raw = String.ofList digits ∧ operand.isColumn = false := by
  have hnumeral := isNumeral_of_isNumber h
  obtain ⟨c, t, rfl, hc, -⟩ := h
  have hunbroken : Text.IsUnbroken (c :: t) :=
    ⟨List.cons_ne_nil _ _, fun d hd => isBlank_of_isNumeral (hnumeral d hd)⟩
  rw [read, hunbroken.trim_eq, map_eq_ok_iff] at hread
  obtain ⟨meaning, hmeaning, rfl⟩ := hread
  refine ⟨rfl, ?_⟩
  cases meaning with
  | constant value => rfl
  | column name =>
    rw [Reference.read, unquoted?_numeral (hnumeral c List.mem_cons_self)] at hmeaning
    dsimp only at hmeaning
    rw [sameWord_numeral (hnumeral c List.mem_cons_self), if_neg Bool.false_ne_true,
      isColumnReference_eq_false (isNameStart_of_startsNumber hc),
      if_neg Bool.false_ne_true] at hmeaning
    split at hmeaning
    · cases hmeaning
    · split at hmeaning <;> cases hmeaning

end Operand

/-! ## Constants -/

namespace Value

/-- Whether the tokens of a constant are read as the constant. -/
def isWritable : Value → Bool
  | int n => n.val != -9223372036854775808
  | value => value.isFinite

/-- A token, behind a minus if it is a negative number's. -/
def signed (negative : Bool) (token : Token) : List Token :=
  if negative then [.operator (.arithmetic .sub), token] else [token]

/-- The tokens that a constant is shown as. -/
def tokens : Value → List Token
  | int n => signed (n.val < 0) (.number (Integer.digits n.val.natAbs))
  | float .nan => [.identifier "NaN".toList]
  | float (.infinite negative) => signed negative (.identifier "inf".toList)
  | float (.finite negative m) =>
    signed negative (.number (Operand.literal (.float (.finite false m))))
  | text content => [.text content.toList]
  | null => [.null]

end Value

namespace Lexer

variable {s : List Char}

/-- There is no point among digits. -/
theorem count_point_digits (h : ∀ c ∈ s, c.isDigit = true) : s.count '.' = 0 :=
  List.count_eq_zero_of_not_mem fun hmem => absurd (h '.' hmem) (by decide)

theorem isNumber_digits (n : Nat) : IsNumber (Integer.digits n) := by
  have hdigits : ∀ c ∈ Integer.digits n, c.isDigit = true := fun c => Decimal.isDigit_toDigits
  obtain ⟨c, hc⟩ := List.exists_mem_of_ne_nil _ (Nat.toDigits_ne_nil (b := 10) (n := n))
  refine isNumber_iff.mpr ⟨fun c hc => .inl (hdigits c hc), ?_, c, hc, hdigits c hc⟩
  rw [count_point_digits hdigits]
  exact Nat.zero_le 1

theorem isNumber_pointed (h : Decimal.IsPointed s) : IsNumber s := by
  obtain ⟨c, whole, fraction, rfl, hwhole, hfraction⟩ := h
  refine isNumber_iff.mpr ⟨fun d hd => ?_, ?_, c, List.mem_cons_self, hwhole c List.mem_cons_self⟩
  · rw [← List.cons_append] at hd
    rcases List.mem_append.mp hd with hd | hd
    · exact .inl (hwhole d hd)
    · exact (List.mem_cons.mp hd).symm.imp_left (hfraction d)
  · rw [← List.cons_append, List.count_append, List.count_cons_self, count_point_digits hwhole,
      count_point_digits hfraction]

theorem spells_signed {c : Char} {token : Token} (h : Spells (c :: s) [token]) (hc : c ≠ '-')
    (negative : Bool) :
    Spells (if negative then '-' :: c :: s else c :: s) (Value.signed negative token) := by
  cases negative with
  | true => exact h.minus hc
  | false => exact h

theorem IsNumber.spells_signed (h : IsNumber s) (negative : Bool) :
    Spells (if negative then '-' :: s else s) (Value.signed negative (.number s)) := by
  have hspells := h.spells
  obtain ⟨c, t, rfl, hc, -⟩ := h
  refine Lexer.spells_signed hspells ?_ negative
  rintro rfl
  cases hc

end Lexer

namespace Value

/-- The text of a constant spells its tokens. -/
theorem spells_literal (value : Value) : Spells (Operand.literal value) value.tokens := by
  cases value with
  | int n =>
    have hspells := (isNumber_digits n.val.natAbs).spells_signed (n.val < 0)
    simp only [decide_eq_true_eq] at hspells
    exact hspells
  | float x =>
    cases x with
    | nan =>
      have hname : IsName "NaN".toList := ⟨'N', "aN".toList, rfl, by decide⟩
      exact hname.spells
    | infinite negative =>
      have hname : IsName "inf".toList := ⟨'i', "nf".toList, rfl, by decide⟩
      have hspells := spells_signed hname.spells (by decide) negative
      cases negative <;> exact hspells
    | finite negative m =>
      obtain ⟨d, hexponent, -, hliterals⟩ := Operand.literal_finite m
      have hnumber := isNumber_pointed (Decimal.isPointed_plain hexponent)
      rw [hliterals, tokens, hliterals, if_neg Bool.false_ne_true]
      exact hnumber.spells_signed negative
  | text content => exact spells_quote content.toList
  | null =>
    have hname : IsName "NULL".toList := ⟨'N', "ULL".toList, rfl, by decide⟩
    exact hname.spells

/-- The digits of a whole number are read without its sign, if what they write is one as well. -/
theorem isOperand_int {n : Integer} (h : n.val ≠ -9223372036854775808) :
    IsOperand .factor (int n).tokens (.constant (int n)) := by
  have hle := n.le_val
  have hlt := n.val_lt
  let size : Integer := ⟨n.val.natAbs, by omega, by omega⟩
  have hdigits : size.toText = Integer.digits n.val.natAbs := by
    rw [Integer.toText, Integer.signedDigits, if_neg (by simp only [size]; omega)]
    rfl
  have hread := Operand.read_toText size
  rw [hdigits] at hread
  rw [tokens, signed]
  by_cases hn : n.val < 0
  · have hnegate : (int size).negate = .ok (int n) := by
      have hneg : size.neg? = some n := Integer.ofInt?_eq_some_iff.mpr (by simp only [size]; omega)
      rw [negate, hneg]
    rw [if_pos (decide_eq_true hn)]
    exact .minus (.number hread) rfl hnegate
  · have hsize : size = n := by
      have hval : size.val = n.val := by simp only [size]; omega
      rw [← Option.some_inj, ← Integer.ofInt?_val, hval, Integer.ofInt?_val]
    rw [hsize] at hread
    rw [if_neg (by simpa using hn)]
    exact .number hread

/-- The tokens of a constant write it. -/
theorem isOperand_tokens {value : Value} (h : value.isWritable = true) :
    IsOperand .factor value.tokens (.constant value) := by
  cases value with
  | int n => exact isOperand_int (bne_iff_ne.mp h)
  | float x =>
    cases x with
    | nan => cases h
    | infinite negative => cases h
    | finite negative m =>
      have hread := Operand.read_finite false m
      cases negative with
      | true => exact .minus (.number hread) rfl rfl
      | false => exact .number hread
  | text content =>
    have hwrites := IsOperand.text content.toList
    rw [String.ofList_toList] at hwrites
    exact hwrites
  | null => exact .null

/-- The digits of the least whole number, which stand for no whole number without the minus. -/
def leastDigits : List Char :=
  "9223372036854775808".toList

/-- A constant that cannot be written is shown as a name or as digits that are no whole number. -/
theorem tokens_of_not_isWritable {value : Value} (h : value.isWritable = false) :
    ∃ negative, value.tokens = signed negative (.identifier "inf".toList) ∨
      value.tokens = signed negative (.identifier "NaN".toList) ∨
      value.tokens = signed negative (.number leastDigits) := by
  cases value with
  | int n =>
    obtain ⟨val, hle, hlt⟩ := n
    obtain rfl : val = -9223372036854775808 := by simpa [isWritable] using h
    have hdigits : Integer.digits 9223372036854775808 = leastDigits := by decide
    exact ⟨true, .inr (.inr (congrArg (fun digits => signed true (.number digits)) hdigits))⟩
  | float x =>
    cases x with
    | nan => exact ⟨false, .inr (.inl rfl)⟩
    | infinite negative => exact ⟨negative, .inl rfl⟩
    | finite negative m => cases h
  | text content => cases h
  | null => cases h

end Value

/-! ## Operands -/

namespace Operand

variable {before : List Token} {operand : Operand} {value : Value}

/-- The tokens that an operand is shown as: the one that it was read from, or those of a constant. -/
inductive IsShown : List Token → Operand → Prop
  | number {digits : List Char} {operand : Operand} :
    IsNumber digits → read digits = .ok operand → IsShown [.number digits] operand
  | identifier {name : List Char} {operand : Operand} :
    IsName name → ofWord name = .identifier name → read name = .ok operand →
      IsShown [.identifier name] operand
  | constant (value : Value) : IsShown value.tokens (constant value)

theorem IsShown.spells (h : IsShown before operand) : Spells operand.raw.toList before := by
  cases h with
  | number hnumber hread =>
    rw [(raw_of_isNumber hnumber hread).1, String.toList_ofList]
    exact hnumber.spells
  | identifier hname hword hread =>
    rw [eq_column_of_isName hname hword hread, column, String.toList_ofList]
    have hspells := hname.spells
    rw [hword] at hspells
    exact hspells
  | constant value =>
    rw [Operand.constant, String.toList_ofList]
    exact value.spells_literal

/-- The tokens that an operand is shown as write it, unless it is a constant that cannot be written. -/
theorem IsShown.isOperand (h : IsShown before operand)
    (hwritable : ∀ value, operand = .constant value → value.isWritable = true) :
    IsOperand .factor before operand := by
  cases h with
  | number _ hread => exact .number hread
  | identifier _ _ hread => exact .identifier hread
  | constant value => exact Value.isOperand_tokens (hwritable value rfl)

/-- A constant that cannot be written does not look like a number. -/
theorem isWritable_of_isNumber (h : IsNumber (literal value)) : value.isWritable = true := by
  have hhead {c : Char} {s : List Char} (hliteral : literal value = c :: s) :
      (c.isDigit || c == '.') = true := by
    rw [hliteral] at h
    obtain ⟨_, _, heq, hc, -⟩ := h
    obtain ⟨rfl, -⟩ := List.cons.inj heq
    rcases isDigit_or_of_startsNumber hc with hdigit | rfl
    · rw [hdigit, Bool.true_or]
    · rfl
  cases value with
  | int n =>
    refine bne_iff_ne.mpr fun hval => ?_
    have hliteral : literal (.int n) = '-' :: Integer.digits n.val.natAbs := if_pos (by omega)
    exact absurd (hhead hliteral) (by decide)
  | float x =>
    cases x with
    | nan => exact absurd (hhead (s := "aN".toList) rfl) (by decide)
    | infinite negative =>
      cases negative with
      | false => exact absurd (hhead (s := "nf".toList) rfl) (by decide)
      | true => exact absurd (hhead (s := "inf".toList) rfl) (by decide)
    | finite negative m => rfl
  | text content => rfl
  | null => rfl

/-- A constant that is shown otherwise than by its own tokens can be written. -/
theorem IsShown.tokens_of_constant (h : IsShown before (.constant value)) :
    before = value.tokens ∨ value.isWritable = true := by
  generalize hoperand : Operand.constant value = operand at h
  cases h with
  | number hnumber hread =>
    subst hoperand
    have hraw := (raw_of_isNumber hnumber hread).1
    rw [Operand.constant, String.ofList_inj] at hraw
    exact .inr (isWritable_of_isNumber (hraw ▸ hnumber))
  | identifier hname hword hread =>
    rw [← hoperand] at hread
    cases congrArg Operand.meaning (eq_column_of_isName hname hword hread)
  | constant value' =>
    obtain rfl := Reference.constant.inj (congrArg Operand.meaning hoperand)
    exact .inl rfl

theorem isColumn_of_value? (h : operand.value? = some value) : operand.isColumn = false := by
  obtain ⟨raw, meaning⟩ := operand
  cases meaning with
  | constant value => rfl
  | column name => cases h

end Operand

/-! ## What tokens write -/

namespace Grammar

open Operand (isColumn_of_value?)

variable {kind : OperandKind} {tokens : List Token} {operand : Operand}

/-- Whether a token is a name. -/
def isName : Token → Bool
  | .identifier _ => true
  | _ => false

theorem countP_join {before behind : List Token} {op : Operator} :
    (before ++ .operator op :: behind).countP isName =
      before.countP isName + behind.countP isName := by
  rw [List.countP_append, List.countP_cons_of_neg Bool.false_ne_true]

theorem countP_group : (Token.leftParen :: (tokens ++ [.rightParen])).countP isName =
    tokens.countP isName := by
  rw [List.countP_cons_of_neg Bool.false_ne_true, List.countP_append]
  rfl

/-- A name is a column, and a column goes into nothing that is worked out. -/
theorem IsOperand.countP_isName (h : IsOperand kind tokens operand)
    (hlexed : ∀ token ∈ tokens, IsLexed token) :
    tokens.countP isName = if operand.isColumn then 1 else 0 := by
  have hconstant {operand : Operand} {value : Value} {count : Nat}
      (hvalue : operand.value? = some value) (hcount : count = if operand.isColumn then 1 else 0) :
      count = 0 := by
    rw [hcount, isColumn_of_value? hvalue]
    rfl
  induction h with
  | number hread =>
    have hnumber : IsNumber _ := hlexed _ List.mem_cons_self
    rw [(Operand.raw_of_isNumber hnumber hread).2]
    rfl
  | identifier hread =>
    obtain ⟨hname, hword⟩ := hlexed _ List.mem_cons_self
    rw [Operand.eq_column_of_isName hname hword hread]
    rfl
  | text content => rfl
  | null => rfl
  | minus _ hvalue _ ih =>
    have hcount := hconstant hvalue (ih fun token htoken => hlexed token (by simp [htoken]))
    rw [List.countP_cons_of_neg Bool.false_ne_true, hcount]
    rfl
  | function _ hvalue _ ih =>
    have hcount := hconstant hvalue (ih fun token htoken => hlexed token (by simp [htoken]))
    rw [List.countP_cons_of_neg Bool.false_ne_true, countP_group, hcount]
    rfl
  | group _ ih =>
    rw [countP_group, ih fun token htoken => hlexed token (by simp [htoken])]
  | ofFactor _ ih => exact ih hlexed
  | product _ _ _ hl hr _ ihl ihr =>
    rw [countP_join, hconstant hl (ihl fun token htoken => hlexed token (by simp [htoken])),
      hconstant hr (ihr fun token htoken => hlexed token (by simp [htoken]))]
    rfl
  | ofProduct _ ih => exact ih hlexed
  | sum _ _ _ hl hr _ ihl ihr =>
    rw [countP_join, hconstant hl (ihl fun token htoken => hlexed token (by simp [htoken])),
      hconstant hr (ihr fun token htoken => hlexed token (by simp [htoken]))]
    rfl

/-- Each number is read. -/
theorem IsOperand.exists_read (h : IsOperand kind tokens operand) {digits : List Char}
    (hdigits : .number digits ∈ tokens) : ∃ operand, Operand.read digits = .ok operand := by
  induction h with
  | number hread =>
    obtain rfl : digits = _ := by simpa using hdigits
    exact ⟨_, hread⟩
  | identifier hread => simp at hdigits
  | text content => simp at hdigits
  | null => simp at hdigits
  | minus _ _ _ ih => exact ih (by simpa using hdigits)
  | function _ _ _ ih => exact ih (by simpa using hdigits)
  | group _ ih => exact ih (by simpa using hdigits)
  | ofFactor _ ih => exact ih hdigits
  | product _ _ _ _ _ _ ihl ihr =>
    exact (List.mem_append.mp hdigits).elim ihl fun h => ihr (by simpa using h)
  | ofProduct _ ih => exact ih hdigits
  | sum _ _ _ _ _ _ ihl ihr =>
    exact (List.mem_append.mp hdigits).elim ihl fun h => ihr (by simpa using h)

/-- What is worked out is shown as a constant, and what is read as the token that it was read from. -/
theorem IsOperand.exists_isShown (h : IsOperand kind tokens operand)
    (hlexed : ∀ token ∈ tokens, IsLexed token) : ∃ shown, operand.IsShown shown := by
  induction h with
  | number hread => exact ⟨_, .number (hlexed _ List.mem_cons_self) hread⟩
  | identifier hread =>
    obtain ⟨hname, hword⟩ := hlexed _ List.mem_cons_self
    exact ⟨_, .identifier hname hword hread⟩
  | group _ ih => exact ih fun token htoken => hlexed token (by simp [htoken])
  | ofFactor _ ih => exact ih hlexed
  | ofProduct _ ih => exact ih hlexed
  | _ => exact ⟨_, .constant _⟩

end Grammar

namespace Operand

variable {before : List Token} {operand : Operand} {value : Value}

/-- A column is shown as a name. -/
theorem IsShown.le_countP (h : IsShown before operand) :
    (if operand.isColumn then 1 else 0) ≤ before.countP isName := by
  cases h with
  | number hnumber hread =>
    rw [(raw_of_isNumber hnumber hread).2]
    exact Nat.zero_le _
  | identifier hname hword hread =>
    rw [eq_column_of_isName hname hword hread]
    exact Nat.le_refl 1
  | constant value => exact Nat.zero_le _

/-- A constant that cannot be written is shown as a name, or by digits that are not read. -/
theorem IsShown.of_not_isWritable (h : IsShown before (.constant value))
    (hvalue : value.isWritable = false) :
    0 < before.countP isName ∨ .number Value.leastDigits ∈ before := by
  rcases h.tokens_of_constant with rfl | hwritable
  · obtain ⟨negative, htokens | htokens | htokens⟩ := Value.tokens_of_not_isWritable hvalue
    · rw [htokens]
      cases negative <;> exact .inl Nat.one_pos
    · rw [htokens]
      cases negative <;> exact .inl Nat.one_pos
    · rw [htokens]
      cases negative <;> exact .inr (by simp [Value.signed])
  · rw [hvalue] at hwritable
    cases hwritable

end Operand

end Relational
