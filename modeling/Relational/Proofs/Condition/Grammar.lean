import Relational.Condition
import Relational.Proofs.Outcome
import Relational.Value.Calculation

/-!
# The grammar of conditions

Which tokens write an operand (`IsOperand`) and which a condition (`IsCondition`), and what they write:
an operand is worked out, `NOT` is what `Condition.negate` makes of the condition behind it, and what
is joined by operators of one strength belongs to the left.

A condition has a comparison outside of its operands, and an operand has none. As both have as many
parentheses closed as opened, the tokens behind an opening one can be a condition in parentheses or
begin with an operand in parentheses, and not both (`IsCondition.not_isOperand`).
-/

namespace Relational

namespace Grammar

/-- Operands by the strength of the operators in them. -/
inductive OperandKind where
  | sum
  | product
  | factor

/-- The tokens write an operand. -/
inductive IsOperand : OperandKind → List Token → Operand → Prop
  | number {digits : List Char} {operand : Operand} :
    Operand.read digits = .ok operand → IsOperand .factor [.number digits] operand
  | identifier {name : List Char} {operand : Operand} :
    Operand.read name = .ok operand → IsOperand .factor [.identifier name] operand
  | text (content : List Char) :
    IsOperand .factor [.text content] (.constant (.text (String.ofList content)))
  | null : IsOperand .factor [.null] (.constant .null)
  | minus {tokens : List Token} {argument : Operand} {value result : Value} :
    IsOperand .factor tokens argument → argument.value? = some value → value.negate = .ok result →
      IsOperand .factor (.operator (.arithmetic .sub) :: tokens) (.constant result)
  | function {f : TextFunction} {tokens : List Token} {argument : Operand} {value result : Value} :
    IsOperand .sum tokens argument → argument.value? = some value →
      (Operator.function f).applyTo value = .ok result →
      IsOperand .factor (.operator (.function f) :: .leftParen :: (tokens ++ [.rightParen]))
        (.constant result)
  | group {tokens : List Token} {operand : Operand} :
    IsOperand .sum tokens operand → IsOperand .factor (.leftParen :: (tokens ++ [.rightParen])) operand
  | ofFactor {tokens : List Token} {operand : Operand} :
    IsOperand .factor tokens operand → IsOperand .product tokens operand
  | product {op : Arithmetic} {before behind : List Token} {left right : Operand}
      {l r result : Value} :
    op = .mul ∨ op = .div → IsOperand .product before left → IsOperand .factor behind right →
      left.value? = some l → right.value? = some r →
      (Operator.arithmetic op).calculate l r = .ok result →
      IsOperand .product (before ++ .operator (.arithmetic op) :: behind) (.constant result)
  | ofProduct {tokens : List Token} {operand : Operand} :
    IsOperand .product tokens operand → IsOperand .sum tokens operand
  | sum {op : Arithmetic} {before behind : List Token} {left right : Operand} {l r result : Value} :
    op = .add ∨ op = .sub → IsOperand .sum before left → IsOperand .product behind right →
      left.value? = some l → right.value? = some r →
      (Operator.arithmetic op).calculate l r = .ok result →
      IsOperand .sum (before ++ .operator (.arithmetic op) :: behind) (.constant result)

/-- Conditions by the strength of the connectives in them. -/
inductive ConditionKind where
  | whole
  | alternative
  | part

/-- The tokens write a condition. -/
inductive IsCondition : ConditionKind → List Token → Condition → Prop
  | comparison {op : Comparison} {before behind : List Token} {left right : Operand} :
    IsOperand .sum before left → IsOperand .sum behind right →
      IsCondition .part (before ++ .operator (.comparison op) :: behind)
        (.compare (.comparison op) (.leaf left) (.leaf right))
  | group {tokens : List Token} {condition : Condition} :
    IsCondition .whole tokens condition →
      IsCondition .part (.leftParen :: (tokens ++ [.rightParen])) condition
  | not {tokens : List Token} {condition negated : Condition} :
    IsCondition .part tokens condition → condition.negate = .ok negated →
      IsCondition .part (.operator .negation :: tokens) negated
  | ofPart {tokens : List Token} {condition : Condition} :
    IsCondition .part tokens condition → IsCondition .alternative tokens condition
  | and {before behind : List Token} {left right : Condition} :
    IsCondition .alternative before left → IsCondition .part behind right →
      IsCondition .alternative (before ++ .operator (.connective .and) :: behind) (.and left right)
  | ofAlternative {tokens : List Token} {condition : Condition} :
    IsCondition .alternative tokens condition → IsCondition .whole tokens condition
  | or {before behind : List Token} {left right : Condition} :
    IsCondition .whole before left → IsCondition .alternative behind right →
      IsCondition .whole (before ++ .operator (.connective .or) :: behind) (.or left right)

variable {kind : OperandKind} {kind' : ConditionKind} {tokens : List Token} {operand : Operand}
  {condition : Condition}

/-! ## Parentheses -/

/-- The tokens before the first closing parenthesis that is one too many, where some are open. -/
def inside : Nat → List Token → List Token
  | _, [] => []
  | opened, .leftParen :: tokens => .leftParen :: inside (opened + 1) tokens
  | 0, .rightParen :: _ => []
  | opened + 1, .rightParen :: tokens => .rightParen :: inside opened tokens
  | opened, token :: tokens => token :: inside opened tokens

/-- The tokens close as many parentheses as they open. -/
def Balanced (tokens : List Token) : Prop :=
  ∀ opened rest, inside opened (tokens ++ rest) = tokens ++ inside opened rest

theorem balanced_single {token : Token} (hleft : token ≠ .leftParen) (hright : token ≠ .rightParen) :
    Balanced [token] := by
  intro opened rest
  rw [List.singleton_append, List.singleton_append, inside]
  · exact hleft
  · exact fun _ => hright
  · exact fun _ _ => hright

theorem Balanced.append {before behind : List Token} (h : Balanced before) (h' : Balanced behind) :
    Balanced (before ++ behind) := by
  intro opened rest
  rw [List.append_assoc, h, h', List.append_assoc]

/-- Tokens with a token before them that is no parenthesis. -/
theorem Balanced.cons (h : Balanced tokens) {token : Token} (hleft : token ≠ .leftParen)
    (hright : token ≠ .rightParen) : Balanced (token :: tokens) :=
  (balanced_single hleft hright).append h

theorem Balanced.group (h : Balanced tokens) :
    Balanced (.leftParen :: (tokens ++ [.rightParen])) := by
  intro opened rest
  rw [List.cons_append, List.append_assoc, inside, h, List.singleton_append, inside]
  simp

/-- The tokens in parentheses are told by the closing one. -/
theorem Balanced.eq_of_append {tokens' rest rest' : List Token} (h : Balanced tokens)
    (h' : Balanced tokens') (heq : tokens ++ .rightParen :: rest = tokens' ++ .rightParen :: rest') :
    tokens = tokens' := by
  have hinside := congrArg (inside 0) heq
  rw [h, h', inside, inside, List.append_nil, List.append_nil] at hinside
  exact hinside

theorem IsOperand.balanced (h : IsOperand kind tokens operand) : Balanced tokens := by
  induction h with
  | number _ => exact balanced_single nofun nofun
  | identifier _ => exact balanced_single nofun nofun
  | text _ => exact balanced_single nofun nofun
  | null => exact balanced_single nofun nofun
  | minus _ _ _ ih => exact ih.cons nofun nofun
  | function _ _ _ ih => exact ih.group.cons nofun nofun
  | group _ ih => exact ih.group
  | ofFactor _ ih => exact ih
  | product _ _ _ _ _ _ ih ih' => exact ih.append (ih'.cons nofun nofun)
  | ofProduct _ ih => exact ih
  | sum _ _ _ _ _ _ ih ih' => exact ih.append (ih'.cons nofun nofun)

theorem IsCondition.balanced (h : IsCondition kind' tokens condition) : Balanced tokens := by
  induction h with
  | comparison hleft hright => exact hleft.balanced.append (hright.balanced.cons nofun nofun)
  | group _ ih => exact ih.group
  | not _ _ ih => exact ih.cons nofun nofun
  | ofPart _ ih => exact ih
  | and _ _ ih ih' => exact ih.append (ih'.cons nofun nofun)
  | ofAlternative _ ih => exact ih
  | or _ _ ih ih' => exact ih.append (ih'.cons nofun nofun)

/-! ## Comparisons -/

/-- Whether a token is a comparison. -/
def isComparison : Token → Bool
  | .operator (.comparison _) => true
  | _ => false

theorem IsOperand.any_isComparison (h : IsOperand kind tokens operand) :
    tokens.any isComparison = false := by
  induction h with
  | number _ => rfl
  | identifier _ => rfl
  | text _ => rfl
  | null => rfl
  | minus _ _ _ ih => rw [List.any_cons, ih]; rfl
  | function _ _ _ ih => rw [List.any_cons, List.any_cons, List.any_append, ih]; rfl
  | group _ ih => rw [List.any_cons, List.any_append, ih]; rfl
  | ofFactor _ ih => exact ih
  | product _ _ _ _ _ _ ih ih' => rw [List.any_append, List.any_cons, ih, ih']; rfl
  | ofProduct _ ih => exact ih
  | sum _ _ _ _ _ _ ih ih' => rw [List.any_append, List.any_cons, ih, ih']; rfl

theorem IsCondition.any_isComparison (h : IsCondition kind' tokens condition) :
    tokens.any isComparison = true := by
  induction h with
  | comparison _ _ => simp [isComparison]
  | group _ ih => simp [ih]
  | not _ _ ih => simp [ih]
  | ofPart _ ih => exact ih
  | and _ _ ih _ => rw [List.any_append, ih]; rfl
  | ofAlternative _ ih => exact ih
  | or _ _ ih _ => rw [List.any_append, ih]; rfl

/-! ## What begins -/

theorem IsOperand.ne_nil (h : IsOperand kind tokens operand) : tokens ≠ [] := by
  induction h with
  | ofFactor _ ih => exact ih
  | ofProduct _ ih => exact ih
  | _ => simp

/-- No operand begins with `NOT`. -/
theorem IsOperand.not_negation (h : IsOperand kind tokens operand) {rest : List Token} :
    tokens ≠ .operator .negation :: rest := by
  induction h generalizing rest with
  | ofFactor _ ih => exact ih
  | ofProduct _ ih => exact ih
  | product _ hleft _ _ _ _ ih _ =>
    obtain ⟨token, before, rfl⟩ := List.exists_cons_of_ne_nil hleft.ne_nil
    intro heq
    exact ih (by rw [(List.cons.inj heq).1])
  | sum _ hleft _ _ _ _ ih _ =>
    obtain ⟨token, before, rfl⟩ := List.exists_cons_of_ne_nil hleft.ne_nil
    intro heq
    exact ih (by rw [(List.cons.inj heq).1])
  | _ => simp

/-- An operand that begins with a parenthesis begins with an operand in parentheses. -/
theorem IsOperand.of_leftParen (h : IsOperand kind tokens operand) {rest : List Token}
    (hrest : tokens = .leftParen :: rest) : ∃ group operand' behind,
      IsOperand .sum group operand' ∧ rest = group ++ .rightParen :: behind := by
  have hfirst {before behind rest : List Token} (hne : before ≠ [])
      (happend : before ++ behind = .leftParen :: rest) :
      ∃ rest', before = .leftParen :: rest' ∧ rest = rest' ++ behind := by
    obtain ⟨token, before, rfl⟩ := List.exists_cons_of_ne_nil hne
    obtain ⟨rfl, rfl⟩ := List.cons.inj happend
    exact ⟨before, rfl, rfl⟩
  induction h generalizing rest with
  | group h =>
    obtain ⟨-, rfl⟩ := List.cons.inj hrest
    exact ⟨_, _, [], h, rfl⟩
  | ofFactor _ ih => exact ih hrest
  | ofProduct _ ih => exact ih hrest
  | product _ hleft _ _ _ _ ih _ =>
    obtain ⟨rest', hbefore, rfl⟩ := hfirst hleft.ne_nil hrest
    obtain ⟨group, operand', behind, hgroup, rfl⟩ := ih hbefore
    exact ⟨group, operand', _, hgroup, by rw [List.append_assoc, List.cons_append]⟩
  | sum _ hleft _ _ _ _ ih _ =>
    obtain ⟨rest', hbefore, rfl⟩ := hfirst hleft.ne_nil hrest
    obtain ⟨group, operand', behind, hgroup, rfl⟩ := ih hbefore
    exact ⟨group, operand', _, hgroup, by rw [List.append_assoc, List.cons_append]⟩
  | _ => cases hrest

/-- What begins with an operand in parentheses does not begin with a condition in parentheses. -/
theorem IsCondition.not_isOperand {behind behind' rest : List Token}
    (h : IsCondition kind' tokens condition)
    (hoperand : IsOperand kind (.leftParen :: rest) operand) :
    tokens ++ .rightParen :: behind ≠ rest ++ behind' := by
  intro heq
  obtain ⟨group, operand', more, hgroup, rfl⟩ := hoperand.of_leftParen rfl
  rw [List.append_assoc, List.cons_append] at heq
  obtain rfl := h.balanced.eq_of_append hgroup.balanced heq
  have hcomparison := h.any_isComparison
  rw [hgroup.any_isComparison] at hcomparison
  cases hcomparison

end Grammar

/-! ## Negation -/

namespace Condition

/-- The operands of a condition, from left to right. -/
def operands : Condition → List Operand
  | and left right => left.operands ++ right.operands
  | or left right => left.operands ++ right.operands
  | compare _ left right => left.operands ++ right.operands
  | column operand => [operand]
  | value operand => [operand]

theorem operands_leaf (operand : Operand) : (leaf operand).operands = [operand] := by
  rw [leaf]
  split <;> rfl

/-- The condition has comparisons under its connectives. -/
def Compares : Condition → Prop
  | and left right => left.Compares ∧ right.Compares
  | or left right => left.Compares ∧ right.Compares
  | compare op _ _ => op.isComparison = true
  | _ => False

theorem negate_and_eq_ok_iff {left right negated : Condition} :
    (and left right).negate = .ok negated ↔
      ∃ l r, left.negate = .ok l ∧ right.negate = .ok r ∧ negated = .or l r := by
  simp only [negate, bind_eq_ok_iff]
  constructor
  · rintro ⟨l, hl, r, hr, h⟩
    exact ⟨l, r, hl, hr, (Except.ok.inj h).symm⟩
  · rintro ⟨l, r, hl, hr, rfl⟩
    exact ⟨l, hl, r, hr, rfl⟩

theorem negate_or_eq_ok_iff {left right negated : Condition} :
    (or left right).negate = .ok negated ↔
      ∃ l r, left.negate = .ok l ∧ right.negate = .ok r ∧ negated = .and l r := by
  simp only [negate, bind_eq_ok_iff]
  constructor
  · rintro ⟨l, hl, r, hr, h⟩
    exact ⟨l, r, hl, hr, (Except.ok.inj h).symm⟩
  · rintro ⟨l, r, hl, hr, rfl⟩
    exact ⟨l, hl, r, hr, rfl⟩

theorem operands_negate {condition negated : Condition} (h : condition.negate = .ok negated) :
    negated.operands = condition.operands := by
  induction condition generalizing negated with
  | and left right ihl ihr =>
    obtain ⟨l, r, hl, hr, rfl⟩ := negate_and_eq_ok_iff.mp h
    rw [operands, operands, ihl hl, ihr hr]
  | or left right ihl ihr =>
    obtain ⟨l, r, hl, hr, rfl⟩ := negate_or_eq_ok_iff.mp h
    rw [operands, operands, ihl hl, ihr hr]
  | compare op left right =>
    rw [negate] at h
    split at h
    · cases h
      rfl
    · cases h
  | column operand => cases h
  | value operand => cases h

theorem Compares.negate {condition : Condition} (h : condition.Compares) :
    ∃ negated, condition.negate = .ok negated ∧ negated.Compares := by
  induction condition with
  | and left right ihl ihr =>
    obtain ⟨l, hl, hl'⟩ := ihl h.1
    obtain ⟨r, hr, hr'⟩ := ihr h.2
    exact ⟨.or l r, by rw [Condition.negate, hl, hr]; rfl, hl', hr'⟩
  | or left right ihl ihr =>
    obtain ⟨l, hl, hl'⟩ := ihl h.1
    obtain ⟨r, hr, hr'⟩ := ihr h.2
    exact ⟨.and l r, by rw [Condition.negate, hl, hr]; rfl, hl', hr'⟩
  | compare op left right =>
    cases op with
    | comparison op => exact ⟨.compare (.comparison op.negated) left right, rfl, rfl⟩
    | _ => simp [Compares, Operator.isComparison] at h
  | column operand => exact h.elim
  | value operand => exact h.elim

end Condition

namespace Grammar

theorem IsCondition.compares {kind : ConditionKind} {tokens : List Token} {condition : Condition}
    (h : IsCondition kind tokens condition) : condition.Compares := by
  induction h with
  | comparison _ _ => exact rfl
  | group _ ih => exact ih
  | not _ hnegated ih =>
    obtain ⟨negated, hnegate, hcompares⟩ := ih.negate
    obtain rfl := Except.ok.inj (hnegated.symm.trans hnegate)
    exact hcompares
  | ofPart _ ih => exact ih
  | and _ _ ih ih' => exact ⟨ih, ih'⟩
  | ofAlternative _ ih => exact ih
  | or _ _ ih ih' => exact ⟨ih, ih'⟩

end Grammar

end Relational
