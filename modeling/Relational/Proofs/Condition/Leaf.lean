import Relational.Proofs.Condition.Reading
import Relational.Proofs.Operand.Shown

/-!
# Leaves of conditions

What tokens write passes the check of trees (`Grammar.IsCondition.check`): a condition stands under a
connective, an operand under a comparison, and `NOT` leaves nothing of itself behind. An operand is a
column exactly if one of its tokens is a name (`Grammar.IsOperand.isColumn_eq`): the lexer makes a name
of what is read as a column and a number of what is read as a constant, and a column does not stay
under an operation. So the leaves of a condition are of the kind that their tokens say
(`Grammar.IsCondition.leavesFit`).
-/

namespace Relational

open Grammar Lexer

/-! ## Trees that pass the check -/

namespace Condition

variable {left right condition negated : Condition}

theorem not_isLeaf_of_check (h : condition.check = .ok ()) : condition.isLeaf = false := by
  cases condition with
  | column operand => cases h
  | value operand => cases h
  | _ => rfl

/-- Under a connective stand two conditions, whichever error says that one of them does not. -/
theorem check_connective_iff {error : Error} :
    (if left.isLeaf || right.isLeaf then .error error
      else do
        left.check
        right.check) = .ok () ↔ left.check = .ok () ∧ right.check = .ok () := by
  constructor
  · intro h
    split at h
    · cases h
    · obtain ⟨⟨⟩, hleft, hright⟩ := bind_eq_ok_iff.mp h
      exact ⟨hleft, hright⟩
  · rintro ⟨hleft, hright⟩
    rw [not_isLeaf_of_check hleft, not_isLeaf_of_check hright, if_neg (by decide), hleft, ok_bind,
      hright]

theorem check_and_iff :
    (and left right).check = .ok () ↔ left.check = .ok () ∧ right.check = .ok () := by
  rw [check, check_connective_iff]

theorem check_or_iff :
    (or left right).check = .ok () ↔ left.check = .ok () ∧ right.check = .ok () := by
  rw [check, check_connective_iff]

theorem check_compare_iff {op : Operator} : (compare op left right).check = .ok () ↔
    op.isComparison = true ∧ left.isLeaf = true ∧ right.isLeaf = true := by
  rw [check]
  cases op.isComparison <;> cases left.isLeaf <;> cases right.isLeaf <;> simp

theorem exists_of_isLeaf (h : condition.isLeaf = true) :
    (∃ operand, condition = column operand) ∨ ∃ operand, condition = value operand := by
  cases condition with
  | column operand => exact .inl ⟨operand, rfl⟩
  | value operand => exact .inr ⟨operand, rfl⟩
  | _ => cases h

theorem isLeaf_leaf (operand : Operand) : (leaf operand).isLeaf = true := by
  rw [leaf]
  split <;> rfl

/-- What `NOT` makes of a condition passes the check too. -/
theorem check_negate (h : condition.negate = .ok negated) (hcheck : condition.check = .ok ()) :
    negated.check = .ok () := by
  induction condition generalizing negated with
  | and left right ihl ihr =>
    obtain ⟨l, r, hl, hr, rfl⟩ := negate_and_eq_ok_iff.mp h
    obtain ⟨hleft, hright⟩ := check_and_iff.mp hcheck
    exact check_or_iff.mpr ⟨ihl hl hleft, ihr hr hright⟩
  | or left right ihl ihr =>
    obtain ⟨l, r, hl, hr, rfl⟩ := negate_or_eq_ok_iff.mp h
    obtain ⟨hleft, hright⟩ := check_or_iff.mp hcheck
    exact check_and_iff.mpr ⟨ihl hl hleft, ihr hr hright⟩
  | compare op left right =>
    obtain ⟨hop, hleaves⟩ := check_compare_iff.mp hcheck
    cases op with
    | comparison op =>
      obtain rfl := Except.ok.inj h
      exact check_compare_iff.mpr ⟨rfl, hleaves⟩
    | _ => cases hop
  | column operand => cases h
  | value operand => cases h

end Condition

namespace Grammar

variable {kind : OperandKind} {kind' : ConditionKind} {tokens piece : List Token}
  {operand : Operand} {condition : Condition}

theorem IsCondition.check (h : IsCondition kind' tokens condition) : condition.check = .ok () := by
  induction h with
  | @comparison op before behind left right _ _ =>
    exact Condition.check_compare_iff.mpr
      ⟨rfl, Condition.isLeaf_leaf left, Condition.isLeaf_leaf right⟩
  | group _ ih => exact ih
  | not _ hnegate ih => exact Condition.check_negate hnegate ih
  | ofPart _ ih => exact ih
  | and _ _ ihl ihr => exact Condition.check_and_iff.mpr ⟨ihl, ihr⟩
  | ofAlternative _ ih => exact ih
  | or _ _ ihl ihr => exact Condition.check_or_iff.mpr ⟨ihl, ihr⟩

/-! ## Columns and names -/

/-- An operand is a column exactly if one of the tokens that write it is a name. -/
theorem IsOperand.isColumn_eq (h : IsOperand kind tokens operand)
    (hlexed : ∀ token ∈ tokens, IsLexed token) : operand.isColumn = tokens.any isName := by
  rw [Bool.eq_iff_iff, List.any_eq_true, ← List.countP_pos_iff, h.countP_isName hlexed]
  cases operand.isColumn <;> decide

/-! ## Leaves -/

/-- Some tokens in a row write an operand, with a name among them or without. -/
def IsPiece (tokens : List Token) (operand : Operand) (named : Bool) : Prop :=
  ∃ piece, piece <:+: tokens ∧ IsOperand .sum piece operand ∧ piece.any isName = named

end Grammar

namespace Condition

/-- A leaf for columns holds a column and is written with a name, a leaf for values holds a constant
and is written without one. -/
def LeavesFit (tokens : List Token) : Condition → Prop
  | and left right => left.LeavesFit tokens ∧ right.LeavesFit tokens
  | or left right => left.LeavesFit tokens ∧ right.LeavesFit tokens
  | compare _ left right => left.LeavesFit tokens ∧ right.LeavesFit tokens
  | column operand => (∃ name, operand.columnName? = some name) ∧ IsPiece tokens operand true
  | value operand => (∃ value, operand.value? = some value) ∧ IsPiece tokens operand false

variable {condition negated : Condition} {tokens piece : List Token} {operand : Operand}

theorem LeavesFit.mono (h : condition.LeavesFit piece) (hpiece : piece <:+: tokens) :
    condition.LeavesFit tokens := by
  induction condition with
  | and left right ihl ihr => exact ⟨ihl h.1, ihr h.2⟩
  | or left right ihl ihr => exact ⟨ihl h.1, ihr h.2⟩
  | compare op left right ihl ihr => exact ⟨ihl h.1, ihr h.2⟩
  | column operand =>
    obtain ⟨hname, inner, hinner, hwrites⟩ := h
    exact ⟨hname, inner, hinner.trans hpiece, hwrites⟩
  | value operand =>
    obtain ⟨hvalue, inner, hinner, hwrites⟩ := h
    exact ⟨hvalue, inner, hinner.trans hpiece, hwrites⟩

theorem LeavesFit.negate (h : condition.LeavesFit tokens) (hnegate : condition.negate = .ok negated) :
    negated.LeavesFit tokens := by
  induction condition generalizing negated with
  | and left right ihl ihr =>
    obtain ⟨l, r, hl, hr, rfl⟩ := negate_and_eq_ok_iff.mp hnegate
    exact ⟨ihl h.1 hl, ihr h.2 hr⟩
  | or left right ihl ihr =>
    obtain ⟨l, r, hl, hr, rfl⟩ := negate_or_eq_ok_iff.mp hnegate
    exact ⟨ihl h.1 hl, ihr h.2 hr⟩
  | compare op left right =>
    rw [Condition.negate] at hnegate
    split at hnegate
    · obtain rfl := Except.ok.inj hnegate
      exact h
    · cases hnegate
  | column operand => cases hnegate
  | value operand => cases hnegate

theorem leavesFit_leaf (h : IsOperand .sum tokens operand)
    (hlexed : ∀ token ∈ tokens, IsLexed token) : (leaf operand).LeavesFit tokens := by
  have hcolumn := h.isColumn_eq hlexed
  rw [leaf]
  cases hmeaning : operand.meaning with
  | column name =>
    have htrue : operand.isColumn = true := by rw [Operand.isColumn, hmeaning]
    rw [if_pos htrue]
    exact ⟨⟨name, by rw [Operand.columnName?, hmeaning]⟩, tokens, List.infix_rfl, h,
      hcolumn.symm.trans htrue⟩
  | constant value =>
    have hfalse : operand.isColumn = false := by rw [Operand.isColumn, hmeaning]
    rw [hfalse, if_neg (by decide)]
    exact ⟨⟨value, by rw [Operand.value?, hmeaning]⟩, tokens, List.infix_rfl, h,
      hcolumn.symm.trans hfalse⟩

end Condition

namespace Grammar

variable {kind : ConditionKind} {tokens : List Token} {condition : Condition}

theorem IsCondition.leavesFit (h : IsCondition kind tokens condition)
    (hlexed : ∀ token ∈ tokens, IsLexed token) : condition.LeavesFit tokens := by
  have hbefore (before behind : List Token) (token : Token) : before <:+: before ++ token :: behind :=
    (List.prefix_append before _).isInfix
  have hbehind (before behind : List Token) (token : Token) : behind <:+: before ++ token :: behind :=
    ((List.suffix_cons token behind).trans (List.suffix_append before _)).isInfix
  induction h with
  | @comparison op before behind left right hleft hright =>
    have hl := Condition.leavesFit_leaf hleft fun token htoken =>
      hlexed token (List.mem_append_left _ htoken)
    have hr := Condition.leavesFit_leaf hright fun token htoken =>
      hlexed token (List.mem_append_right _ (List.mem_cons_of_mem _ htoken))
    exact ⟨hl.mono (hbefore before behind _), hr.mono (hbehind before behind _)⟩
  | @group tokens condition _ ih =>
    have hinside : tokens <:+: .leftParen :: (tokens ++ [.rightParen]) :=
      ⟨[.leftParen], [.rightParen], rfl⟩
    exact (ih fun token htoken => hlexed token (hinside.subset htoken)).mono hinside
  | @not tokens condition negated _ hnegate ih =>
    have hinside : tokens <:+: .operator .negation :: tokens := (List.suffix_cons _ tokens).isInfix
    exact ((ih fun token htoken => hlexed token (hinside.subset htoken)).mono hinside).negate hnegate
  | ofPart _ ih => exact ih hlexed
  | @and before behind left right _ _ ihl ihr =>
    have hl := ihl fun token htoken => hlexed token (List.mem_append_left _ htoken)
    have hr := ihr fun token htoken =>
      hlexed token (List.mem_append_right _ (List.mem_cons_of_mem _ htoken))
    exact ⟨hl.mono (hbefore before behind _), hr.mono (hbehind before behind _)⟩
  | ofAlternative _ ih => exact ih hlexed
  | @or before behind left right _ _ ihl ihr =>
    have hl := ihl fun token htoken => hlexed token (List.mem_append_left _ htoken)
    have hr := ihr fun token htoken =>
      hlexed token (List.mem_append_right _ (List.mem_cons_of_mem _ htoken))
    exact ⟨hl.mono (hbefore before behind _), hr.mono (hbehind before behind _)⟩

end Grammar

end Relational
