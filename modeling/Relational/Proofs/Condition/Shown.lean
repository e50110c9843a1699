import Relational.Proofs.Condition.Reading
import Relational.Proofs.Operand.Shown

/-!
# Conditions as they are shown

A condition that was read is shown as tokens of its own (`Condition.IsShown`): its connectives in
parentheses, and each operand as the token that it was read from or as a constant. The text spells
these tokens (`Condition.IsShown.spells`) and they write the condition (`Condition.IsShown.isCondition`),
if all the constants in it can be written. Otherwise they write another condition or none: a name that
a constant is shown as would be a column (`Grammar.IsCondition.countP_isName`), and the digits of the
least whole number are not read. So a condition is read back from its text exactly if its constants
can be written (`Condition.read_shown_iff`).
-/

namespace Relational

open Grammar Lexer

namespace Condition

variable {tokens : List Token} {condition negated : Condition}

theorem shown_leaf (operand : Operand) : (leaf operand).shown = operand.raw := by
  rw [leaf]
  split <;> rfl

/-- The tokens that a condition is shown as. -/
inductive IsShown : List Token → Condition → Prop
  | compare {op : Comparison} {before behind : List Token} {left right : Operand} :
    left.IsShown before → right.IsShown behind →
      IsShown (before ++ .operator (.comparison op) :: behind)
        (.compare (.comparison op) (.leaf left) (.leaf right))
  | and {before behind : List Token} {left right : Condition} :
    IsShown before left → IsShown behind right →
      IsShown (.leftParen :: (before ++ .operator (.connective .and) :: behind ++ [.rightParen]))
        (.and left right)
  | or {before behind : List Token} {left right : Condition} :
    IsShown before left → IsShown behind right →
      IsShown (.leftParen :: (before ++ .operator (.connective .or) :: behind ++ [.rightParen]))
        (.or left right)

/-- What is negated is shown with other operators. -/
theorem IsShown.negate (h : IsShown tokens condition) (hnegated : condition.negate = .ok negated) :
    ∃ shown, IsShown shown negated := by
  induction h generalizing negated with
  | compare hleft hright =>
    cases hnegated
    exact ⟨_, .compare hleft hright⟩
  | and _ _ ihl ihr =>
    obtain ⟨l, r, hl, hr, rfl⟩ := negate_and_eq_ok_iff.mp hnegated
    obtain ⟨before, hbefore⟩ := ihl hl
    obtain ⟨behind, hbehind⟩ := ihr hr
    exact ⟨_, .or hbefore hbehind⟩
  | or _ _ ihl ihr =>
    obtain ⟨l, r, hl, hr, rfl⟩ := negate_or_eq_ok_iff.mp hnegated
    obtain ⟨before, hbefore⟩ := ihl hl
    obtain ⟨behind, hbehind⟩ := ihr hr
    exact ⟨_, .and hbefore hbehind⟩

/-- The text of a condition spells its tokens. -/
theorem IsShown.spells (h : IsShown tokens condition) : Spells condition.shown.toList tokens := by
  have hblank : " ".toList = [' '] := rfl
  have hleft : "(".toList = ['('] := rfl
  have hright : ")".toList = [')'] := rfl
  have hconnective (op : Connective) : (" " ++ (Operator.connective op).spelling ++ " ").toList =
      ' ' :: ((Operator.connective op).spelling.toList ++ [' ']) := by
    simp only [String.toList_append, hblank, List.cons_append, List.nil_append]
  induction h with
  | @compare op _ _ left right hleft hright =>
    have hspells := hleft.spells.append ((spells_comparison op).append hright.spells)
    rw [shown, shown_leaf, shown_leaf, Operator.spelling]
    simpa only [String.toList_append, hblank, List.append_assoc, List.cons_append, List.nil_append]
      using hspells
  | and _ _ ihl ihr =>
    have hspells := (ihl.append ((spells_connective .and).append ihr)).group
    have hword : " AND ".toList = _ := hconnective .and
    rw [shown]
    simpa only [String.toList_append, hleft, hword, hright, List.append_assoc, List.cons_append,
      List.nil_append] using hspells
  | or _ _ ihl ihr =>
    have hspells := (ihl.append ((spells_connective .or).append ihr)).group
    have hword : " OR ".toList = _ := hconnective .or
    rw [shown]
    simpa only [String.toList_append, hleft, hword, hright, List.append_assoc, List.cons_append,
      List.nil_append] using hspells

/-- The tokens of a condition write it, if its constants can be written. -/
theorem IsShown.isCondition (h : IsShown tokens condition)
    (hwritable : ∀ value, .constant value ∈ condition.operands → value.isWritable = true) :
    IsCondition .part tokens condition := by
  induction h with
  | @compare op _ _ left right hleft hright =>
    simp only [operands, operands_leaf, List.singleton_append, List.mem_cons, List.not_mem_nil,
      or_false] at hwritable
    have hl := hleft.isOperand fun value h => hwritable value (.inl h.symm)
    have hr := hright.isOperand fun value h => hwritable value (.inr h.symm)
    exact .comparison (.ofProduct (.ofFactor hl)) (.ofProduct (.ofFactor hr))
  | and _ _ ihl ihr =>
    have hl := ihl fun value h => hwritable value (List.mem_append_left _ h)
    have hr := ihr fun value h => hwritable value (List.mem_append_right _ h)
    exact .group (.ofAlternative (.and (.ofPart hl) hr))
  | or _ _ ihl ihr =>
    have hl := ihl fun value h => hwritable value (List.mem_append_left _ h)
    have hr := ihr fun value h => hwritable value (List.mem_append_right _ h)
    exact .group (.or (.ofAlternative (.ofPart hl)) (.ofPart hr))

theorem countP_compare (op : Operator) (left right : Operand) :
    (compare op (leaf left) (leaf right)).operands.countP Operand.isColumn =
      (if left.isColumn then 1 else 0) + if right.isColumn then 1 else 0 := by
  rw [operands, operands_leaf, operands_leaf, List.countP_append, List.countP_singleton,
    List.countP_singleton]

/-- The columns of a condition are shown as names. -/
theorem IsShown.le_countP (h : IsShown tokens condition) :
    condition.operands.countP Operand.isColumn ≤ tokens.countP isName := by
  induction h with
  | compare hleft hright =>
    rw [countP_compare, countP_join]
    exact Nat.add_le_add hleft.le_countP hright.le_countP
  | and _ _ ihl ihr =>
    rw [operands, List.countP_append, countP_group, countP_join]
    exact Nat.add_le_add ihl ihr
  | or _ _ ihl ihr =>
    rw [operands, List.countP_append, countP_group, countP_join]
    exact Nat.add_le_add ihl ihr

/-- With a constant that cannot be written there are more names, or digits that are not read. -/
theorem IsShown.of_not_isWritable {constant : Value} (h : IsShown tokens condition)
    (hmem : .constant constant ∈ condition.operands) (hconstant : constant.isWritable = false) :
    condition.operands.countP Operand.isColumn < tokens.countP isName ∨
      .number Value.leastDigits ∈ tokens := by
  induction h with
  | compare hleft hright =>
    rw [operands, operands_leaf, operands_leaf, List.mem_append, List.mem_singleton,
      List.mem_singleton] at hmem
    rw [countP_compare, countP_join]
    rcases hmem with rfl | rfl
    · rcases hleft.of_not_isWritable hconstant with hname | hdigits
      · exact .inl (Nat.add_lt_add_of_lt_of_le hname hright.le_countP)
      · exact .inr (List.mem_append_left _ hdigits)
    · rcases hright.of_not_isWritable hconstant with hname | hdigits
      · exact .inl (Nat.add_lt_add_of_le_of_lt hleft.le_countP hname)
      · exact .inr (List.mem_append_right _ (List.mem_cons_of_mem _ hdigits))
  | and hleft hright ihl ihr =>
    rw [operands, List.countP_append, countP_group, countP_join]
    rcases List.mem_append.mp hmem with hmem | hmem
    · exact (ihl hmem).imp (Nat.add_lt_add_of_lt_of_le · hright.le_countP) fun h => by simp [h]
    · exact (ihr hmem).imp (Nat.add_lt_add_of_le_of_lt hleft.le_countP ·) fun h => by simp [h]
  | or hleft hright ihl ihr =>
    rw [operands, List.countP_append, countP_group, countP_join]
    rcases List.mem_append.mp hmem with hmem | hmem
    · exact (ihl hmem).imp (Nat.add_lt_add_of_lt_of_le · hright.le_countP) fun h => by simp [h]
    · exact (ihr hmem).imp (Nat.add_lt_add_of_le_of_lt hleft.le_countP ·) fun h => by simp [h]

end Condition

namespace Grammar

variable {kind : ConditionKind} {tokens : List Token} {condition : Condition}

theorem IsCondition.exists_isShown (h : IsCondition kind tokens condition)
    (hlexed : ∀ token ∈ tokens, IsLexed token) : ∃ shown, condition.IsShown shown := by
  induction h with
  | comparison hleft hright =>
    obtain ⟨before, hbefore⟩ := hleft.exists_isShown fun token h => hlexed token (by simp [h])
    obtain ⟨behind, hbehind⟩ := hright.exists_isShown fun token h => hlexed token (by simp [h])
    exact ⟨_, .compare hbefore hbehind⟩
  | group _ ih => exact ih fun token h => hlexed token (by simp [h])
  | not _ hnegate ih =>
    obtain ⟨shown, hshown⟩ := ih fun token h => hlexed token (by simp [h])
    exact hshown.negate hnegate
  | ofPart _ ih => exact ih hlexed
  | and _ _ ihl ihr =>
    obtain ⟨before, hbefore⟩ := ihl fun token h => hlexed token (by simp [h])
    obtain ⟨behind, hbehind⟩ := ihr fun token h => hlexed token (by simp [h])
    exact ⟨_, .and hbefore hbehind⟩
  | ofAlternative _ ih => exact ih hlexed
  | or _ _ ihl ihr =>
    obtain ⟨before, hbefore⟩ := ihl fun token h => hlexed token (by simp [h])
    obtain ⟨behind, hbehind⟩ := ihr fun token h => hlexed token (by simp [h])
    exact ⟨_, .or hbefore hbehind⟩

/-- The names among the tokens of a condition are its columns. -/
theorem IsCondition.countP_isName (h : IsCondition kind tokens condition)
    (hlexed : ∀ token ∈ tokens, IsLexed token) :
    tokens.countP isName = condition.operands.countP Operand.isColumn := by
  induction h with
  | comparison hleft hright =>
    have hl := hleft.countP_isName fun token h => hlexed token (by simp [h])
    have hr := hright.countP_isName fun token h => hlexed token (by simp [h])
    rw [Condition.countP_compare, countP_join, hl, hr]
  | group _ ih =>
    rw [countP_group, ih fun token h => hlexed token (by simp [h])]
  | not _ hnegate ih =>
    have hcount := ih fun token h => hlexed token (by simp [h])
    rw [List.countP_cons_of_neg Bool.false_ne_true, hcount, Condition.operands_negate hnegate]
  | ofPart _ ih => exact ih hlexed
  | and _ _ ihl ihr =>
    have hl := ihl fun token h => hlexed token (by simp [h])
    have hr := ihr fun token h => hlexed token (by simp [h])
    rw [countP_join, Condition.operands, List.countP_append, hl, hr]
  | ofAlternative _ ih => exact ih hlexed
  | or _ _ ihl ihr =>
    have hl := ihl fun token h => hlexed token (by simp [h])
    have hr := ihr fun token h => hlexed token (by simp [h])
    rw [countP_join, Condition.operands, List.countP_append, hl, hr]

theorem IsCondition.exists_read (h : IsCondition kind tokens condition) {digits : List Char}
    (hdigits : .number digits ∈ tokens) : ∃ operand, Operand.read digits = .ok operand := by
  induction h with
  | comparison hleft hright =>
    exact (List.mem_append.mp hdigits).elim hleft.exists_read
      fun h => hright.exists_read (by simpa using h)
  | group _ ih => exact ih (by simpa using hdigits)
  | not _ _ ih => exact ih (by simpa using hdigits)
  | ofPart _ ih => exact ih hdigits
  | and _ _ ihl ihr =>
    exact (List.mem_append.mp hdigits).elim ihl fun h => ihr (by simpa using h)
  | ofAlternative _ ih => exact ih hdigits
  | or _ _ ihl ihr =>
    exact (List.mem_append.mp hdigits).elim ihl fun h => ihr (by simpa using h)

end Grammar

namespace Condition

/-- A condition that was read is read back from its text exactly if its constants can be written. -/
theorem read_shown_iff {s : List Char} {condition : Condition} (h : read s = .ok condition) :
    read condition.shown.toList = .ok condition ↔
      ∀ value, .constant value ∈ condition.operands → value.isWritable = true := by
  obtain ⟨tokens, htokens, hwritten⟩ := bind_eq_ok_iff.mp h
  obtain ⟨shown, hshown⟩ :=
    (ofTokens_eq_ok_iff.mp hwritten).exists_isShown (isLexed_of_meaningful htokens)
  have hspelled := hshown.spells.meaningful_eq
  have hread : read condition.shown.toList = ofTokens shown := by rw [read, hspelled, ok_bind]
  rw [hread, ofTokens_eq_ok_iff]
  constructor
  · intro hcondition value hmem
    refine Bool.of_not_eq_false fun hvalue => ?_
    rcases hshown.of_not_isWritable hmem hvalue with hlt | hdigits
    · rw [hcondition.countP_isName (isLexed_of_meaningful hspelled)] at hlt
      exact Nat.lt_irrefl _ hlt
    · obtain ⟨operand, hoperand⟩ := hcondition.exists_read hdigits
      have hrefused : (Operand.read Value.leastDigits).isOk = false := by decide
      rw [hoperand] at hrefused
      cases hrefused
  · intro hwritable
    exact .ofAlternative (.ofPart (hshown.isCondition hwritable))

/-- A condition with names, constants that are worked out, and a negation. -/
def workedOutText : List Char :=
  "NOT (t.a = 1 - 4 OR 'it''s' != b) AND (-0.5 * 3 < c OR LEN(UPPER('x y')) >= d)".toList

theorem read_shown_workedOutText : ∃ condition, read workedOutText = .ok condition ∧
    condition.shown = "((t.a != -3 AND 'it''s' = b) AND (-1.5 < c OR 3 >= d))" ∧
    (∀ value, .constant value ∈ condition.operands → value.isWritable = true) ∧
    read condition.shown.toList = .ok condition := by
  have hrun : ((read workedOutText).toOption.any fun condition =>
      condition.shown == "((t.a != -3 AND 'it''s' = b) AND (-1.5 < c OR 3 >= d))" &&
        condition.operands.all fun operand => operand.value?.all Value.isWritable) = true := by
    decide +kernel
  simp only [Option.any_eq_true, toOption_eq_some_iff, Bool.and_eq_true, beq_iff_eq,
    List.all_eq_true] at hrun
  obtain ⟨condition, hread, hshown, hall⟩ := hrun
  have hwritable : ∀ value, .constant value ∈ condition.operands → value.isWritable = true :=
    fun value hmem => hall _ hmem
  exact ⟨condition, hread, hshown, hwritable, (read_shown_iff hread).mpr hwritable⟩

/-- The condition that a column is the least whole number. -/
def leastCondition : Condition :=
  .compare (.comparison .eq) (.column (.column "a"))
    (.value (.constant (.int ⟨-9223372036854775808, by decide, by decide⟩)))

/-- The least whole number can be worked out and not be written. -/
theorem read_shown_leastCondition :
    read "a = -9223372036854775807 - 1".toList = .ok leastCondition ∧
      leastCondition.shown = "a = -9223372036854775808" ∧
      read leastCondition.shown.toList ≠ .ok leastCondition := by
  decide +kernel

end Condition

end Relational
