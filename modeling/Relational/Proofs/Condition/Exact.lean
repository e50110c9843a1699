import Relational.Proofs.Condition.Reading
import Relational.Proofs.Operand.Shown

/-!
# Calculations with whole numbers

A calculation is a tree of literals, minuses and the four operations. It has a value without bounds, with
a quotient rounded toward zero (`Calculation.value`), and it fits if each literal in it and each number
on the way to its value is one of 64 bits, and no divisor is zero (`Calculation.Fits`). Which tokens
write it says how strong the operators are and to which side they belong (`Calculation.Writes`).

One operation comes to a result exactly if it may be made and the exact result fits
(`Arithmetic.ofIntegers_eq_ok_iff`). From this, by induction on how the calculation is written, a
calculation that fits is an operand with its value (`Calculation.Writes.isOperand`), and whatever is read
in its place is its value, and it fits (`Calculation.Writes.readsOnly`).
-/

namespace Relational

open Relational.Grammar Relational.Parser

/-! ## One operation -/

namespace Integer

/-- The number is one of 64 bits. -/
def Fits (n : Int) : Prop :=
  -9223372036854775808 ≤ n ∧ n < 9223372036854775808

instance (n : Int) : Decidable (Fits n) :=
  inferInstanceAs (Decidable (_ ∧ _))

theorem fits_iff {n : Int} : Fits n ↔ ∃ a : Integer, a.val = n := by
  constructor
  · exact fun h => ⟨⟨n, h.1, h.2⟩, rfl⟩
  · rintro ⟨a, rfl⟩
    exact ⟨a.le_val, a.val_lt⟩

end Integer

open Integer (Fits)

/-- What an operator makes of two whole numbers without bounds; a quotient is rounded toward zero. -/
def Arithmetic.exact : Arithmetic → Int → Int → Int
  | add, a, b => a + b
  | sub, a, b => a - b
  | mul, a, b => a * b
  | div, a, b => a.tdiv b

theorem Arithmetic.ofIntegers_eq (op : Arithmetic) (a b : Integer) : op.ofIntegers a b =
    if op = div ∧ b.val = 0 then .error (.expression .divisionByZero)
    else match Integer.ofInt? (op.exact a.val b.val) with
      | some n => .ok n
      | none => .error (.expression .overflow) := by
  cases op <;> rfl

/-- An operation on whole numbers comes to its exact result, where this fits and nothing is divided by
zero. -/
theorem Arithmetic.ofIntegers_eq_ok_iff {op : Arithmetic} {a b n : Integer} :
    op.ofIntegers a b = .ok n ↔ (op = .div → b.val ≠ 0) ∧ n.val = op.exact a.val b.val := by
  have hresult : Integer.ofInt? (op.exact a.val b.val) = some n ↔ n.val = op.exact a.val b.val :=
    Integer.ofInt?_eq_some_iff
  rw [ofIntegers_eq, ← hresult]
  split
  · rename_i hzero
    exact ⟨nofun, fun h => absurd hzero.2 (h.1 hzero.1)⟩
  · rename_i hzero
    have hdivisor : op = .div → b.val ≠ 0 := fun hop h => hzero ⟨hop, h⟩
    cases Integer.ofInt? (op.exact a.val b.val) with
    | none => exact ⟨nofun, fun h => nomatch h.2⟩
    | some m =>
      exact ⟨fun h => ⟨hdivisor, congrArg some (Except.ok.inj h)⟩,
        fun h => congrArg Except.ok (Option.some.inj h.2)⟩

/-! ## Reading on -/

namespace Parser

variable {α : Type} {tokens rest behind : List Token} {token : Token} {op : Arithmetic}
  {left result : Operand}

theorem Comes.inj {outcome : Except Error { r : α × List Token // r.2.length ≤ tokens.length }}
    {a a' : α} (h : Comes outcome a rest) (h' : Comes outcome a' behind) : a = a' ∧ rest = behind := by
  obtain ⟨_, h⟩ := h
  obtain ⟨_, h'⟩ := h'
  cases h.symm.trans h'
  exact ⟨rfl, rfl⟩

theorem eq_of_comes_products (hrest : rest.head?.bind productOperator? = none)
    (h : Comes (products left rest) result behind) : result = left ∧ behind = rest :=
  h.inj (comes_products hrest left)

theorem eq_of_comes_sums (hrest : rest.head?.bind sumOperator? = none)
    (h : Comes (sums left rest) result behind) : result = left ∧ behind = rest :=
  h.inj (comes_sums hrest left)

theorem comes_products_operator_iff (h : productOperator? token = some op) :
    Comes (products left (token :: tokens)) result rest ↔
      ∃ right behind, Reads (factor tokens) right behind ∧ ∃ next, combine op left right = .ok next ∧
        Comes (products next behind) result rest := by
  rw [comes_products_cons_iff]
  simp [h]

theorem comes_sums_operator_iff (h : sumOperator? token = some op) :
    Comes (sums left (token :: tokens)) result rest ↔
      ∃ right behind, Reads (term tokens) right behind ∧ ∃ next, combine op left right = .ok next ∧
        Comes (sums next behind) result rest := by
  rw [comes_sums_cons_iff]
  simp [h]

end Parser

/-! ## Literals -/

namespace Operand

variable {s : List Char} {operand : Operand}

theorem ofText?_digits (h : Integer.isDigits s = true) :
    Integer.ofText? s = Integer.ofInt? (Nat.ofDigitChars 10 s 0) := by
  have hdigits : Integer.ofDigits? s = some (Nat.ofDigitChars 10 s 0) := if_pos h
  rw [Integer.isDigits, Bool.and_eq_true, List.all_eq_true] at h
  cases s with
  | nil => cases h.1
  | cons c s =>
    rw [Integer.ofText?, Integer.readInt?_cons (h.2 c List.mem_cons_self), hdigits, Option.map_some,
      Option.bind_some]

theorem isNumeral_of_isDigits (h : Integer.isDigits s = true) : ∀ c ∈ s, isNumeral c = true := by
  rw [Integer.isDigits, Bool.and_eq_true, List.all_eq_true] at h
  exact fun c hc => isNumeral_of_isDigit (h.2 c hc)

/-- Digits that write no number in range are refused. -/
theorem read_digits_eq_error (h : Integer.isDigits s = true) (hint : Integer.ofText? s = none) :
    read s = .error (.syntaxError (.unreadableValue (String.ofList s))) := by
  have hnumeral := isNumeral_of_isDigits h
  rw [Integer.isDigits, Bool.and_eq_true, List.all_eq_true] at h
  obtain ⟨hne, hdigits⟩ := h
  have hunbroken : Text.IsUnbroken s :=
    ⟨by simpa using hne, fun c hc => isBlank_of_isNumeral (hnumeral c hc)⟩
  have hdot : splitDot s = none := splitDot_eq_none fun hmem => absurd (hdigits '.' hmem) (by decide)
  obtain ⟨c, s, rfl⟩ := List.exists_cons_of_ne_nil hunbroken.1
  have hc := hdigits c List.mem_cons_self
  have hfloat : isFloatLiteral (c :: s) = false := by
    rw [isFloatLiteral]
    · rw [hdot]
    · rintro t ⟨⟩
      cases hc
  have hcolumn : isColumnReference (c :: s) = false :=
    isColumnReference_eq_false (Lexer.isNameStart_of_isDigit hc)
  rw [read, hunbroken.trim_eq, Reference.read, unquoted?_numeral (hnumeral c List.mem_cons_self)]
  dsimp only
  rw [sameWord_numeral (hnumeral c List.mem_cons_self), if_neg (by decide), hint, hfloat, hcolumn]
  rfl

/-- Digits are read as the number that they write, and as nothing else. -/
theorem read_digits_eq_ok_iff (h : Integer.isDigits s = true) : read s = .ok operand ↔
    ∃ n : Integer, n.val = Nat.ofDigitChars 10 s 0 ∧ operand = ⟨String.ofList s, .constant (.int n)⟩ := by
  have hvalue (n : Integer) : n.val = Nat.ofDigitChars 10 s 0 ↔ Integer.ofText? s = some n := by
    rw [ofText?_digits h, Integer.ofInt?_eq_some_iff]
  simp only [hvalue]
  cases hint : Integer.ofText? s with
  | some n =>
    have hnumeral := isNumeral_of_isDigits h
    obtain ⟨c, s, rfl⟩ : ∃ c t, s = c :: t := by
      refine List.exists_cons_of_ne_nil ?_
      rintro rfl
      cases hint
    rw [read_of_reference hnumeral (List.cons_ne_nil c s)
      (Reference.read_int (hnumeral c List.mem_cons_self) hint)]
    simp [eq_comm]
  | none =>
    rw [read_digits_eq_error h hint]
    exact iff_of_false nofun fun ⟨_, hn, _⟩ => nomatch hn

end Operand

/-! ## Calculations -/

/-- A calculation with whole numbers. -/
inductive Calculation where
  | literal (digits : List Char)
  | minus (argument : Calculation)
  | operation (op : Arithmetic) (left right : Calculation)

namespace Calculation

/-- The value of a calculation in the whole numbers without bounds. -/
def value : Calculation → Int
  | literal digits => Nat.ofDigitChars 10 digits 0
  | minus argument => -argument.value
  | operation op left right => op.exact left.value right.value

/-- Each literal and each number on the way to the value fits, and no divisor is zero. -/
def Fits : Calculation → Prop
  | literal digits => Integer.Fits (literal digits).value
  | minus argument => argument.Fits ∧ Integer.Fits (minus argument).value
  | operation op left right => left.Fits ∧ right.Fits ∧ (op = .div → right.value ≠ 0) ∧
      Integer.Fits (operation op left right).value

instance decidableFits : (calculation : Calculation) → Decidable calculation.Fits
  | literal digits => inferInstanceAs (Decidable (Integer.Fits (literal digits).value))
  | minus argument =>
    have := decidableFits argument
    inferInstanceAs (Decidable (_ ∧ _))
  | operation _ left right =>
    have := decidableFits left
    have := decidableFits right
    inferInstanceAs (Decidable (_ ∧ _ ∧ _ ∧ _))

/-- The tokens write a calculation: a minus belongs to the factor behind it, products are stronger than
sums, and of operators of one strength the one on the left is the stronger. -/
inductive Writes : OperandKind → List Token → Calculation → Prop
  | literal {digits : List Char} :
    Integer.isDigits digits = true → Writes .factor [.number digits] (.literal digits)
  | minus {tokens : List Token} {argument : Calculation} : Writes .factor tokens argument →
      Writes .factor (.operator (.arithmetic .sub) :: tokens) (.minus argument)
  | group {tokens : List Token} {calculation : Calculation} : Writes .sum tokens calculation →
      Writes .factor (.leftParen :: (tokens ++ [.rightParen])) calculation
  | ofFactor {tokens : List Token} {calculation : Calculation} :
    Writes .factor tokens calculation → Writes .product tokens calculation
  | product {op : Arithmetic} {before behind : List Token} {left right : Calculation} :
    op = .mul ∨ op = .div → Writes .product before left → Writes .factor behind right →
      Writes .product (before ++ .operator (.arithmetic op) :: behind) (.operation op left right)
  | ofProduct {tokens : List Token} {calculation : Calculation} :
    Writes .product tokens calculation → Writes .sum tokens calculation
  | sum {op : Arithmetic} {before behind : List Token} {left right : Calculation} :
    op = .add ∨ op = .sub → Writes .sum before left → Writes .product behind right →
      Writes .sum (before ++ .operator (.arithmetic op) :: behind) (.operation op left right)

/-- The operand is the value of the calculation, which fits. -/
def Yields (calculation : Calculation) (operand : Operand) : Prop :=
  calculation.Fits ∧ ∃ n : Integer, n.val = calculation.value ∧ operand.value? = some (.int n)

variable {calculation argument left right : Calculation} {operand result l r : Operand}
  {op : Arithmetic} {kind : OperandKind} {tokens : List Token}

/-! ## What fits is an operand -/

theorem Yields.minus (h : argument.Yields operand) (hfits : (minus argument).Fits) :
    ∃ value result, operand.value? = some value ∧ value.negate = .ok result ∧
      (minus argument).Yields (.constant result) := by
  obtain ⟨-, n, hn, hvalue⟩ := h
  obtain ⟨m, hm⟩ := Integer.fits_iff.mp hfits.2
  have hneg : n.neg? = some m := Integer.ofInt?_eq_some_iff.mpr (by rw [hm, hn, value])
  exact ⟨.int n, .int m, hvalue, by rw [Value.negate, hneg], hfits, m, hm, rfl⟩

theorem Yields.operation (hleft : left.Yields l) (hright : right.Yields r)
    (hfits : (operation op left right).Fits) :
    ∃ lvalue rvalue result, l.value? = some lvalue ∧ r.value? = some rvalue ∧
      (Operator.arithmetic op).calculate lvalue rvalue = .ok result ∧
      (operation op left right).Yields (.constant result) := by
  obtain ⟨-, a, ha, hl⟩ := hleft
  obtain ⟨-, b, hb, hr⟩ := hright
  obtain ⟨n, hn⟩ := Integer.fits_iff.mp hfits.2.2.2
  have hresult : op.ofIntegers a b = .ok n :=
    Arithmetic.ofIntegers_eq_ok_iff.mpr ⟨hb ▸ hfits.2.2.1, by rw [hn, ha, hb, value]⟩
  refine ⟨.int a, .int b, .int n, hl, hr, ?_, hfits, n, hn, rfl⟩
  rw [Operator.calculate, Operator.arithmetic?, ok_bind, hresult]
  rfl

/-- A calculation that fits is an operand, and this is its value. -/
theorem Writes.isOperand (h : calculation.Writes kind tokens) (hfits : calculation.Fits) :
    ∃ operand, IsOperand kind tokens operand ∧ calculation.Yields operand := by
  induction h with
  | literal hdigits =>
    obtain ⟨n, hn⟩ := Integer.fits_iff.mp hfits
    have hread := (Operand.read_digits_eq_ok_iff hdigits).mpr ⟨n, hn, rfl⟩
    exact ⟨_, .number hread, hfits, n, hn, rfl⟩
  | minus _ ih =>
    obtain ⟨operand, hoperand, hyields⟩ := ih hfits.1
    obtain ⟨value, result, hvalue, hresult, hyields⟩ := hyields.minus hfits
    exact ⟨_, .minus hoperand hvalue hresult, hyields⟩
  | group _ ih =>
    obtain ⟨operand, hoperand, hyields⟩ := ih hfits
    exact ⟨operand, .group hoperand, hyields⟩
  | ofFactor _ ih =>
    obtain ⟨operand, hoperand, hyields⟩ := ih hfits
    exact ⟨operand, .ofFactor hoperand, hyields⟩
  | product hop _ _ ihl ihr =>
    obtain ⟨l, hl, hleft⟩ := ihl hfits.1
    obtain ⟨r, hr, hright⟩ := ihr hfits.2.1
    obtain ⟨lvalue, rvalue, result, hlvalue, hrvalue, hresult, hyields⟩ :=
      hleft.operation hright hfits
    exact ⟨_, .product hop hl hr hlvalue hrvalue hresult, hyields⟩
  | ofProduct _ ih =>
    obtain ⟨operand, hoperand, hyields⟩ := ih hfits
    exact ⟨operand, .ofProduct hoperand, hyields⟩
  | sum hop _ _ ihl ihr =>
    obtain ⟨l, hl, hleft⟩ := ihl hfits.1
    obtain ⟨r, hr, hright⟩ := ihr hfits.2.1
    obtain ⟨lvalue, rvalue, result, hlvalue, hrvalue, hresult, hyields⟩ :=
      hleft.operation hright hfits
    exact ⟨_, .sum hop hl hr hlvalue hrvalue hresult, hyields⟩

theorem Writes.ne_nil (h : calculation.Writes kind tokens) : tokens ≠ [] := by
  induction h with
  | ofFactor _ ih => exact ih
  | ofProduct _ ih => exact ih
  | _ => simp

/-! ## What is read fits -/

theorem Yields.of_negate (h : argument.Yields operand) {value result : Value}
    (hvalue : operand.value? = some value) (hresult : value.negate = .ok result) :
    argument.minus.Yields (.constant result) := by
  obtain ⟨hfits, n, hn, hint⟩ := h
  obtain rfl := Option.some.inj (hvalue.symm.trans hint)
  rw [Value.negate] at hresult
  split at hresult
  · rename_i m hneg
    cases hresult
    have hm : m.val = argument.minus.value := by
      rw [Integer.ofInt?_eq_some_iff.mp hneg, hn, Calculation.value]
    exact ⟨⟨hfits, Integer.fits_iff.mpr ⟨m, hm⟩⟩, m, hm, rfl⟩
  · cases hresult

theorem Yields.of_combine (hleft : left.Yields l) (hright : right.Yields r)
    (h : combine op l r = .ok result) : (Calculation.operation op left right).Yields result := by
  obtain ⟨hl, a, ha, hlvalue⟩ := hleft
  obtain ⟨hr, b, hb, hrvalue⟩ := hright
  obtain ⟨lvalue, rvalue, value, hlvalue', hrvalue', hvalue, rfl⟩ := combine_eq_ok_iff.mp h
  obtain rfl := Option.some.inj (hlvalue'.symm.trans hlvalue)
  obtain rfl := Option.some.inj (hrvalue'.symm.trans hrvalue)
  rw [Operator.calculate, Operator.arithmetic?, ok_bind, bind_eq_ok_iff] at hvalue
  obtain ⟨n, hn, hvalue⟩ := hvalue
  obtain rfl := Except.ok.inj hvalue
  obtain ⟨hdivisor, hn⟩ := Arithmetic.ofIntegers_eq_ok_iff.mp hn
  rw [ha, hb] at hn
  rw [hb] at hdivisor
  exact ⟨⟨hl, hr, hdivisor, Integer.fits_iff.mpr ⟨n, hn⟩⟩, n, hn, rfl⟩

/-- Whatever the reader of a kind of operand reads in the place of the tokens, the calculation yields,
and it comes to nothing else behind them. -/
def ReadsOnly (calculation : Calculation) : OperandKind → List Token → Prop
  | .factor, tokens => ∀ rest result behind,
    Reads (Parser.factor (tokens ++ rest)) result behind →
      calculation.Yields result ∧ behind = rest
  | .product, tokens => ∀ rest result behind, Reads (term (tokens ++ rest)) result behind →
    ∃ operand, calculation.Yields operand ∧ Comes (products operand rest) result behind
  | .sum, tokens => ∀ rest result behind, rest.head?.bind productOperator? = none →
    Reads (Parser.operand (tokens ++ rest)) result behind →
      ∃ operand, calculation.Yields operand ∧ Comes (sums operand rest) result behind

theorem Writes.readsOnly (h : calculation.Writes kind tokens) : calculation.ReadsOnly kind tokens := by
  induction h with
  | literal hdigits =>
    intro rest result behind hread
    obtain ⟨hdigits', rfl⟩ := reads_factor_number_iff.mp hread
    obtain ⟨n, hn, rfl⟩ := (Operand.read_digits_eq_ok_iff hdigits).mp hdigits'
    exact ⟨⟨Integer.fits_iff.mpr ⟨n, hn⟩, n, hn, rfl⟩, rfl⟩
  | minus _ ih =>
    intro rest result behind hread
    obtain ⟨argument, _, hargument, value, hvalue, r, hr, rfl, rfl⟩ := reads_factor_minus_iff.mp hread
    obtain ⟨hyields, rfl⟩ := ih rest argument _ hargument
    exact ⟨hyields.of_negate hvalue hr, rfl⟩
  | group _ ih =>
    intro rest result behind hread
    rw [List.cons_append, List.append_assoc, reads_factor_group_iff] at hread
    obtain ⟨operand, hyields, hcomes⟩ := ih _ result _ rfl hread
    obtain ⟨rfl, hrest⟩ := eq_of_comes_sums rfl hcomes
    exact ⟨hyields, (List.cons.inj hrest).2⟩
  | ofFactor _ ih =>
    intro rest result behind hread
    obtain ⟨first, _, hfirst, hcomes⟩ := reads_term_iff.mp hread
    obtain ⟨hyields, rfl⟩ := ih rest first _ hfirst
    exact ⟨first, hyields, hcomes⟩
  | product hop _ _ ihl ihr =>
    intro rest result behind hread
    rw [List.append_assoc, List.cons_append] at hread
    obtain ⟨l, hl, hcomes⟩ := ihl _ result behind hread
    have hproduct := productOperator?_eq_some_iff.mpr ⟨rfl, hop⟩
    obtain ⟨r, _, hread, next, hnext, hmore⟩ := (comes_products_operator_iff hproduct).mp hcomes
    obtain ⟨hr, rfl⟩ := ihr rest r _ hread
    exact ⟨next, hl.of_combine hr hnext, hmore⟩
  | ofProduct _ ih =>
    intro rest result behind hrest hread
    obtain ⟨first, middle, hfirst, hcomes⟩ := reads_operand_iff.mp hread
    obtain ⟨operand, hyields, hproducts⟩ := ih rest first middle hfirst
    obtain ⟨rfl, rfl⟩ := eq_of_comes_products hrest hproducts
    exact ⟨first, hyields, hcomes⟩
  | sum hop _ _ ihl ihr =>
    intro rest result behind hrest hread
    rw [List.append_assoc, List.cons_append] at hread
    have hsum := sumOperator?_eq_some_iff.mpr ⟨rfl, hop⟩
    obtain ⟨l, hl, hcomes⟩ := ihl _ result behind (by rcases hop with rfl | rfl <;> rfl) hread
    obtain ⟨first, middle, hfirst, next, hnext, hmore⟩ := (comes_sums_operator_iff hsum).mp hcomes
    obtain ⟨r, hr, hproducts⟩ := ihr rest first middle hfirst
    obtain ⟨rfl, rfl⟩ := eq_of_comes_products hrest hproducts
    exact ⟨next, hl.of_combine hr hnext, hmore⟩

end Calculation

/-! ## Values of texts -/

namespace Parser

variable {tokens : List Token} {operand : Operand} {value : Value}

/-- A list of values of which the first goes to the end has no other. -/
theorem values_single (h : Reads (Parser.operand tokens) operand []) (hvalue : operand.value? = some value) :
    values tokens = .ok [value] := by
  obtain ⟨_, hread⟩ := h
  rw [values, hread, ok_bind, Operand.need_eq_ok_iff.mpr hvalue]
  rfl

end Parser

/-- A calculation with whole numbers has the value that it has without bounds, if this and all on the
way to it fits; any other is refused. -/
theorem Value.readList_calculation {s : List Char} {tokens : List Token} {calculation : Calculation}
    (htokens : Lexer.meaningful s = .ok tokens) (h : calculation.Writes .sum tokens) :
    (calculation.Fits → ∃ n : Integer, n.val = calculation.value ∧ readList s = .ok [.int n]) ∧
      (¬calculation.Fits → ∃ error, readList s = .error error) := by
  have hread : readList s = Parser.values tokens := by
    rw [readList, htokens, ok_bind]
    cases tokens with
    | nil => exact absurd rfl h.ne_nil
    | cons token tokens => rfl
  rw [hread]
  constructor
  · intro hfits
    obtain ⟨operand, hoperand, -, n, hn, hvalue⟩ := h.isOperand hfits
    have hend : EndsOperand [] := ⟨rfl, rfl⟩
    have hreads := hoperand.isRead.sum hend
    rw [List.append_nil] at hreads
    exact ⟨n, hn, values_single hreads hvalue⟩
  · intro hfits
    cases hoperand : Parser.operand tokens with
    | error error => exact ⟨error, by rw [values, hoperand, error_bind]⟩
    | ok first =>
      have honly := h.readsOnly [] first.result first.rest rfl
      rw [List.append_nil] at honly
      obtain ⟨operand, hyields, -⟩ := honly (reads_of_eq_ok hoperand)
      exact absurd hyields.1 hfits

namespace Calculation

/-- A calculation of the least number, with a quotient below zero on the way. -/
def least : Calculation :=
  .operation .sub
    (.operation .div
      (.operation .mul
        (.minus (.operation .add (.literal "2".toList) (.literal "3".toList)))
        (.literal "4".toList))
      (.literal "3".toList))
    (.literal "9223372036854775802".toList)

def leastText : List Char :=
  "-(2 + 3) * 4 / 3 - 9223372036854775802".toList

def leastTokens : List Token :=
  [.operator (.arithmetic .sub), .leftParen, .number "2".toList, .operator (.arithmetic .add),
    .number "3".toList, .rightParen, .operator (.arithmetic .mul), .number "4".toList,
    .operator (.arithmetic .div), .number "3".toList, .operator (.arithmetic .sub),
    .number "9223372036854775802".toList]

theorem writes_least : least.Writes .sum leastTokens := by
  have htwo : (literal "2".toList).Writes .factor [.number "2".toList] := .literal (by decide)
  have hthree : (literal "3".toList).Writes .factor [.number "3".toList] := .literal (by decide)
  have hfour : (literal "4".toList).Writes .factor [.number "4".toList] := .literal (by decide)
  have hgroup := Writes.group (.sum (.inl rfl) (.ofProduct (.ofFactor htwo)) (.ofFactor hthree))
  have hproduct := Writes.product (.inl rfl) (.ofFactor (.minus hgroup)) hfour
  have hquotient := Writes.product (.inr rfl) hproduct hthree
  exact .sum (.inr rfl) (.ofProduct hquotient) (.ofFactor (.literal (by decide)))

/-- The least number is worked out, and cannot be negated. -/
theorem readList_least :
    (∃ n : Integer, n.val = -9223372036854775808 ∧ Value.readList leastText = .ok [.int n]) ∧
      ∃ error, Value.readList ("-(".toList ++ leastText ++ [')']) = .error error := by
  have htokens : Lexer.meaningful leastText = .ok leastTokens := by
    decide +kernel
  have htokens' : Lexer.meaningful ("-(".toList ++ leastText ++ [')']) =
      .ok (.operator (.arithmetic .sub) :: .leftParen :: (leastTokens ++ [.rightParen])) := by
    decide +kernel
  have hfits : least.Fits := by decide +kernel
  have hvalue : least.value = -9223372036854775808 := by decide +kernel
  have hnegated : ¬least.minus.Fits := by decide +kernel
  obtain ⟨n, hn, hread⟩ := (Value.readList_calculation htokens writes_least).1 hfits
  refine ⟨⟨n, hn.trans hvalue, hread⟩, ?_⟩
  have hminus : least.minus.Writes .sum _ := .ofProduct (.ofFactor (.minus (.group writes_least)))
  exact (Value.readList_calculation htokens' hminus).2 hnegated

end Calculation

end Relational
