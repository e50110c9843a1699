import Relational.Proofs.Condition.Parser

/-!
# Reading conditions

A condition is read from a text exactly if its tokens write it (`Condition.ofTokens_eq_ok_iff`). What is
read is written in the tokens that it is read from, by induction on how many they are
(`Parser.splits_operand`, `Parser.splits_condition`); what is written is read, by induction on how it
is written (`Grammar.IsOperand.isRead`, `Grammar.IsCondition.isRead`).
-/

namespace Relational

open Grammar

namespace Parser

variable {α : Type}

/-! ## What is read is written -/

/-- What is read is the start of the tokens, and they write it. -/
def Splits (reads : List Token → α → List Token → Prop) (writes : List Token → α → Prop)
    (tokens : List Token) : Prop :=
  ∀ a rest, reads tokens a rest → ∃ before, tokens = before ++ rest ∧ writes before a

/-- A reader of pieces that are joined by tokens, and a grammar of them: the first piece is read, and
what is behind it is joined to it, piece by piece. -/
structure Chained (piece whole : List Token → α → List Token → Prop)
    (more : α → List Token → α → List Token → Prop) (isPiece isWhole : List Token → α → Prop)
    (joins : Token → α → α → α → Prop) : Prop where
  length_lt {tokens rest : List Token} {a : α} :
    piece tokens a rest → rest.length < tokens.length
  first {tokens rest : List Token} {a : α} :
    whole tokens a rest → ∃ first behind, piece tokens first behind ∧ more first behind a rest
  next {left a : α} {tokens rest : List Token} : more left tokens a rest →
    (a = left ∧ rest = tokens) ∨ ∃ token tail right behind result, tokens = token :: tail ∧
      piece tail right behind ∧ joins token left right result ∧ more result behind a rest
  ofPiece {tokens : List Token} {a : α} : isPiece tokens a → isWhole tokens a
  join {before behind : List Token} {token : Token} {left right result : α} :
    isWhole before left → isPiece behind right → joins token left right result →
      isWhole (before ++ token :: behind) result

/-- If the pieces of short lists are written in them, then what is joined of them is. -/
theorem Chained.splits {piece whole : List Token → α → List Token → Prop}
    {more : α → List Token → α → List Token → Prop} {isPiece isWhole : List Token → α → Prop}
    {joins : Token → α → α → α → Prop} (h : Chained piece whole more isPiece isWhole joins) {n : Nat}
    (hpiece : ∀ tokens, tokens.length < n → Splits piece isPiece tokens) :
    ∀ tokens, tokens.length < n → Splits whole isWhole tokens := by
  have hmore : ∀ m, m < n → ∀ left tokens a rest before, tokens.length = m →
      isWhole before left → more left tokens a rest →
      ∃ between, tokens = between ++ rest ∧ isWhole (before ++ between) a := by
    intro m
    induction m using Nat.strongRecOn with
    | ind m ih =>
      intro hm left tokens a rest before hlength hleft hread
      rcases h.next hread with ⟨rfl, rfl⟩ | ⟨token, tail, right, behind, result, rfl, hright, hjoin,
        hbehind⟩
      · exact ⟨[], rfl, by rw [List.append_nil]; exact hleft⟩
      · have hlt := h.length_lt hright
        rw [List.length_cons] at hlength
        obtain ⟨piece, rfl, hwrites⟩ := hpiece tail (by omega) right behind hright
        obtain ⟨between, rfl, hwhole⟩ := ih behind.length (by omega) (by omega) result behind a rest
          _ rfl (h.join hleft hwrites hjoin) hbehind
        refine ⟨token :: (piece ++ between), ?_, ?_⟩
        · rw [List.cons_append, List.append_assoc]
        · rw [List.append_assoc, List.cons_append] at hwhole
          exact hwhole
  intro tokens htokens a rest hread
  obtain ⟨first, behind, hfirst, hbehind⟩ := h.first hread
  have hlt := h.length_lt hfirst
  obtain ⟨before, rfl, hwrites⟩ := hpiece tokens htokens first behind hfirst
  obtain ⟨between, rfl, hwhole⟩ := hmore behind.length (by omega) first behind a rest before rfl
    (h.ofPiece hwrites) hbehind
  exact ⟨before ++ between, by rw [List.append_assoc], hwhole⟩

/-- A token joins operands, where it is an operator of some strength and they are worked out. -/
def Joins (operator? : Token → Option Arithmetic) (token : Token) (left right result : Operand) :
    Prop :=
  ∃ op, operator? token = some op ∧ combine op left right = .ok result

theorem chained_products : Chained (fun tokens => Reads (factor tokens))
    (fun tokens => Reads (term tokens)) (fun left tokens => Comes (products left tokens))
    (IsOperand .factor) (IsOperand .product) (Joins productOperator?) where
  length_lt := Reads.length_lt
  first := reads_term_iff.mp
  next {left a tokens rest} h := by
    cases tokens with
    | nil => exact .inl (comes_products_nil_iff.mp h)
    | cons token tail =>
      rcases comes_products_cons_iff.mp h with ⟨-, hend⟩ | ⟨right, behind, hright, op, hop, next,
        hnext, h⟩
      · exact .inl hend
      · exact .inr ⟨token, tail, right, behind, next, rfl, hright, ⟨op, hop, hnext⟩, h⟩
  ofPiece := .ofFactor
  join {before behind token left right result} hleft hright hjoin := by
    obtain ⟨op, hop, hresult⟩ := hjoin
    obtain ⟨rfl, hkind⟩ := productOperator?_eq_some_iff.mp hop
    obtain ⟨l, r, value, hl, hr, hvalue, rfl⟩ := combine_eq_ok_iff.mp hresult
    exact .product hkind hleft hright hl hr hvalue

theorem chained_sums : Chained (fun tokens => Reads (term tokens))
    (fun tokens => Reads (operand tokens)) (fun left tokens => Comes (sums left tokens))
    (IsOperand .product) (IsOperand .sum) (Joins sumOperator?) where
  length_lt := Reads.length_lt
  first := reads_operand_iff.mp
  next {left a tokens rest} h := by
    cases tokens with
    | nil => exact .inl (comes_sums_nil_iff.mp h)
    | cons token tail =>
      rcases comes_sums_cons_iff.mp h with ⟨-, hend⟩ | ⟨right, behind, hright, op, hop, next, hnext,
        h⟩
      · exact .inl hend
      · exact .inr ⟨token, tail, right, behind, next, rfl, hright, ⟨op, hop, hnext⟩, h⟩
  ofPiece := .ofProduct
  join {before behind token left right result} hleft hright hjoin := by
    obtain ⟨op, hop, hresult⟩ := hjoin
    obtain ⟨rfl, hkind⟩ := sumOperator?_eq_some_iff.mp hop
    obtain ⟨l, r, value, hl, hr, hvalue, rfl⟩ := combine_eq_ok_iff.mp hresult
    exact .sum hkind hleft hright hl hr hvalue

theorem splits_factor (tokens : List Token) :
    Splits (fun tokens => Reads (factor tokens)) (IsOperand .factor) tokens := by
  induction hlength : tokens.length using Nat.strongRecOn generalizing tokens with
  | ind n ih =>
    have hfactor (tokens : List Token) (h : tokens.length < n) :
        Splits (fun tokens => Reads (factor tokens)) (IsOperand .factor) tokens :=
      ih tokens.length h tokens rfl
    have hoperand := chained_sums.splits (chained_products.splits hfactor)
    intro result rest h
    cases tokens with
    | nil => exact absurd h not_reads_factor_nil
    | cons token tail =>
      rw [List.length_cons] at hlength
      cases token with
      | number digits =>
        obtain ⟨hread, rfl⟩ := reads_factor_number_iff.mp h
        exact ⟨[_], rfl, .number hread⟩
      | identifier name =>
        obtain ⟨hread, rfl⟩ := reads_factor_identifier_iff.mp h
        exact ⟨[_], rfl, .identifier hread⟩
      | text content =>
        obtain ⟨rfl, rfl⟩ := reads_factor_text_iff.mp h
        exact ⟨[_], rfl, .text content⟩
      | null =>
        obtain ⟨rfl, rfl⟩ := reads_factor_null_iff.mp h
        exact ⟨[_], rfl, .null⟩
      | leftParen =>
        obtain ⟨inside, htail, hwrites⟩ :=
          hoperand tail (by omega) result _ (reads_factor_group_iff.mp h)
        exact ⟨.leftParen :: (inside ++ [.rightParen]), by rw [htail]; simp, .group hwrites⟩
      | operator op =>
        cases op with
        | arithmetic op =>
          cases op with
          | sub =>
            obtain ⟨argument, behind, hargument, value, hvalue, r, hr, rfl, rfl⟩ :=
              reads_factor_minus_iff.mp h
            obtain ⟨before, rfl, hwrites⟩ := hfactor tail (by omega) argument rest hargument
            exact ⟨_ :: before, rfl, .minus hwrites hvalue hr⟩
          | _ => exact absurd h (not_reads_factor rfl)
        | function f =>
          obtain ⟨tail, rfl, argument, hargument, value, hvalue, r, hr, rfl⟩ :=
            reads_factor_function_iff.mp h
          rw [List.length_cons] at hlength
          obtain ⟨inside, htail, hwrites⟩ := hoperand tail (by omega) argument _ hargument
          exact ⟨_ :: .leftParen :: (inside ++ [.rightParen]), by rw [htail]; simp,
            .function hwrites hvalue hr⟩
        | _ => exact absurd h (not_reads_factor rfl)
      | _ => exact absurd h (not_reads_factor rfl)

theorem splits_operand (tokens : List Token) :
    Splits (fun tokens => Reads (operand tokens)) (IsOperand .sum) tokens :=
  chained_sums.splits (chained_products.splits fun tokens _ => splits_factor tokens) tokens
    (Nat.lt_succ_self _)

theorem splits_comparison (tokens : List Token) :
    Splits (fun tokens => Reads (comparison tokens)) (IsCondition .part) tokens := by
  intro result rest h
  obtain ⟨left, op, behind, right, hleft, hright, rfl⟩ := reads_comparison_iff.mp h
  obtain ⟨before, rfl, hwrites⟩ := splits_operand tokens left _ hleft
  obtain ⟨between, rfl, hwrites'⟩ := splits_operand behind right rest hright
  exact ⟨before ++ _ :: between, by simp, .comparison hwrites hwrites'⟩

theorem chained_parts : Chained (fun tokens => Reads (part tokens))
    (fun tokens => Reads (alternative tokens)) (fun left tokens => Comes (parts left tokens))
    (IsCondition .part) (IsCondition .alternative)
    (fun token left right result =>
      token = .operator (.connective .and) ∧ result = .and left right) where
  length_lt := Reads.length_lt
  first := reads_alternative_iff.mp
  next {left a tokens rest} h := by
    by_cases hand : ∃ tail, tokens = .operator (.connective .and) :: tail
    · obtain ⟨tail, rfl⟩ := hand
      obtain ⟨right, behind, hright, h⟩ := comes_parts_and_iff.mp h
      exact .inr ⟨_, tail, right, behind, _, rfl, hright, ⟨rfl, rfl⟩, h⟩
    · exact .inl ((comes_parts_iff fun tail htail => hand ⟨tail, htail⟩).mp h)
  ofPiece := .ofPart
  join {before behind token left right result} hleft hright hjoin := by
    obtain ⟨rfl, rfl⟩ := hjoin
    exact .and hleft hright

theorem chained_alternatives : Chained (fun tokens => Reads (alternative tokens))
    (fun tokens => Reads (condition tokens)) (fun left tokens => Comes (alternatives left tokens))
    (IsCondition .alternative) (IsCondition .whole)
    (fun token left right result =>
      token = .operator (.connective .or) ∧ result = .or left right) where
  length_lt := Reads.length_lt
  first := reads_condition_iff.mp
  next {left a tokens rest} h := by
    by_cases hor : ∃ tail, tokens = .operator (.connective .or) :: tail
    · obtain ⟨tail, rfl⟩ := hor
      obtain ⟨right, behind, hright, h⟩ := comes_alternatives_or_iff.mp h
      exact .inr ⟨_, tail, right, behind, _, rfl, hright, ⟨rfl, rfl⟩, h⟩
    · exact .inl ((comes_alternatives_iff fun tail htail => hor ⟨tail, htail⟩).mp h)
  ofPiece := .ofAlternative
  join {before behind token left right result} hleft hright hjoin := by
    obtain ⟨rfl, rfl⟩ := hjoin
    exact .or hleft hright

theorem splits_part (tokens : List Token) :
    Splits (fun tokens => Reads (part tokens)) (IsCondition .part) tokens := by
  induction hlength : tokens.length using Nat.strongRecOn generalizing tokens with
  | ind n ih =>
    have hpart (tokens : List Token) (h : tokens.length < n) :
        Splits (fun tokens => Reads (part tokens)) (IsCondition .part) tokens :=
      ih tokens.length h tokens rfl
    have hcondition := chained_alternatives.splits (chained_parts.splits hpart)
    intro result rest h
    by_cases hnot : ∃ tail, tokens = .operator .negation :: tail
    · obtain ⟨tail, rfl⟩ := hnot
      rw [List.length_cons] at hlength
      obtain ⟨inner, behind, hinner, hnegate, rfl⟩ := reads_part_not_iff.mp h
      obtain ⟨before, rfl, hwrites⟩ := hpart tail (by omega) inner rest hinner
      exact ⟨_ :: before, rfl, .not hwrites hnegate⟩
    by_cases hgroup : ∃ tail, tokens = .leftParen :: tail
    · obtain ⟨tail, rfl⟩ := hgroup
      rw [List.length_cons] at hlength
      rcases reads_part_group_iff.mp h with ⟨hinside, -⟩ | ⟨-, hcomparison⟩
      · obtain ⟨inside, htail, hwrites⟩ := hcondition tail (by omega) result _ hinside
        exact ⟨.leftParen :: (inside ++ [.rightParen]), by rw [htail]; simp, .group hwrites⟩
      · exact splits_comparison _ result rest hcomparison
    · rw [part_eq_comparison (fun tail htail => hnot ⟨tail, htail⟩)
        fun tail htail => hgroup ⟨tail, htail⟩] at h
      exact splits_comparison _ result rest h

theorem splits_condition (tokens : List Token) :
    Splits (fun tokens => Reads (condition tokens)) (IsCondition .whole) tokens :=
  chained_alternatives.splits (chained_parts.splits fun tokens _ => splits_part tokens) tokens
    (Nat.lt_succ_self _)

end Parser

/-! ## What is written is read -/

namespace Grammar

open Relational.Parser

variable {tokens rest : List Token}

/-- The tokens do not go on with an operator of a sum or a product. -/
def EndsOperand (rest : List Token) : Prop :=
  rest.head?.bind sumOperator? = none ∧ rest.head?.bind productOperator? = none

theorem comes_products (h : rest.head?.bind productOperator? = none) (operand : Operand) :
    Comes (products operand rest) operand rest := by
  cases rest with
  | nil => exact comes_products_nil_iff.mpr ⟨rfl, rfl⟩
  | cons token rest => exact comes_products_cons_iff.mpr (.inl ⟨h, rfl, rfl⟩)

theorem comes_sums (h : rest.head?.bind sumOperator? = none) (operand : Operand) :
    Comes (sums operand rest) operand rest := by
  cases rest with
  | nil => exact comes_sums_nil_iff.mpr ⟨rfl, rfl⟩
  | cons token rest => exact comes_sums_cons_iff.mpr (.inl ⟨h, rfl, rfl⟩)

/-- The reader of a kind of operand reads one, and comes with it to what it would come to behind it. -/
def OperandKind.IsRead : OperandKind → List Token → Operand → Prop
  | .factor, tokens, operand => ∀ rest, Reads (Parser.factor (tokens ++ rest)) operand rest
  | .product, tokens, operand => ∀ rest result behind,
    Comes (products operand rest) result behind → Reads (term (tokens ++ rest)) result behind
  | .sum, tokens, operand => ∀ rest result behind, rest.head?.bind productOperator? = none →
    Comes (sums operand rest) result behind → Reads (Parser.operand (tokens ++ rest)) result behind

theorem OperandKind.IsRead.sum {operand : Operand} (h : OperandKind.sum.IsRead tokens operand)
    (hrest : EndsOperand rest) : Reads (Parser.operand (tokens ++ rest)) operand rest :=
  h rest operand rest hrest.2 (comes_sums hrest.1 operand)

theorem IsOperand.isRead {kind : OperandKind} {operand : Operand}
    (h : IsOperand kind tokens operand) : kind.IsRead tokens operand := by
  have hclosed (rest : List Token) : EndsOperand (.rightParen :: rest) := ⟨rfl, rfl⟩
  induction h with
  | number hread => exact fun rest => reads_factor_number_iff.mpr ⟨hread, rfl⟩
  | identifier hread => exact fun rest => reads_factor_identifier_iff.mpr ⟨hread, rfl⟩
  | text content => exact fun rest => reads_factor_text_iff.mpr ⟨rfl, rfl⟩
  | null => exact fun rest => reads_factor_null_iff.mpr ⟨rfl, rfl⟩
  | minus _ hvalue hresult ih =>
    exact fun rest => reads_factor_minus_iff.mpr ⟨_, rest, ih rest, _, hvalue, _, hresult, rfl, rfl⟩
  | function _ hvalue hresult ih =>
    intro rest
    rw [List.cons_append, List.cons_append, List.append_assoc]
    exact reads_factor_function_iff.mpr
      ⟨_, rfl, _, ih.sum (hclosed rest), _, hvalue, _, hresult, rfl⟩
  | group _ ih =>
    intro rest
    rw [List.cons_append, List.append_assoc]
    exact reads_factor_group_iff.mpr (ih.sum (hclosed rest))
  | ofFactor _ ih =>
    exact fun rest result behind h => reads_term_iff.mpr ⟨_, rest, ih rest, h⟩
  | @product op before behind left right l r result hop _ _ hl hr hresult ihl ihr =>
    intro rest result' behind' h
    rw [List.append_assoc, List.cons_append]
    refine ihl _ _ _ (comes_products_cons_iff.mpr (.inr ⟨right, rest, ihr rest, op, ?_, _, ?_, h⟩))
    · exact productOperator?_eq_some_iff.mpr ⟨rfl, hop⟩
    · exact combine_eq_ok_iff.mpr ⟨l, r, result, hl, hr, hresult, rfl⟩
  | ofProduct _ ih =>
    intro rest result behind hrest h
    exact reads_operand_iff.mpr ⟨_, rest, ih rest _ rest (comes_products hrest _), h⟩
  | @sum op before behind left right l r result hop _ _ hl hr hresult ihl ihr =>
    intro rest result' behind' hrest h
    rw [List.append_assoc, List.cons_append]
    refine ihl _ _ _ ?_ (comes_sums_cons_iff.mpr (.inr ⟨right, rest,
      ihr rest _ rest (comes_products hrest _), op, ?_, _, ?_, h⟩))
    · rcases hop with rfl | rfl <;> rfl
    · exact sumOperator?_eq_some_iff.mpr ⟨rfl, hop⟩
    · exact combine_eq_ok_iff.mpr ⟨l, r, result, hl, hr, hresult, rfl⟩

theorem endsOperand_of_continuesOperand (h : continuesOperand rest = false) : EndsOperand rest := by
  cases rest with
  | nil => exact ⟨rfl, rfl⟩
  | cons token rest =>
    cases token with
    | operator op =>
      cases op with
      | arithmetic op => cases h
      | comparison op => cases h
      | _ => exact ⟨rfl, rfl⟩
    | _ => exact ⟨rfl, rfl⟩

/-- A comparison is read, although it may begin with a parenthesis: no condition in parentheses can be
read there. -/
theorem reads_part_of_comparison {before behind : List Token} {op : Comparison}
    {left right : Operand} (hleft : IsOperand .sum before left) (hright : IsOperand .sum behind right)
    (hrest : continuesOperand rest = false) :
    Reads (part (before ++ .operator (.comparison op) :: behind ++ rest))
      (.compare (.comparison op) (.leaf left) (.leaf right)) rest := by
  have hread : Reads (comparison (before ++ .operator (.comparison op) :: behind ++ rest))
      (.compare (.comparison op) (.leaf left) (.leaf right)) rest := by
    rw [List.append_assoc, List.cons_append]
    refine reads_comparison_iff.mpr ⟨left, op, behind ++ rest, right, ?_, ?_, rfl⟩
    · exact hleft.isRead.sum ⟨rfl, rfl⟩
    · exact hright.isRead.sum (endsOperand_of_continuesOperand hrest)
  obtain ⟨token, before, rfl⟩ := List.exists_cons_of_ne_nil hleft.ne_nil
  by_cases hgroup : token = .leftParen
  · subst hgroup
    rw [List.append_assoc, List.cons_append] at hread ⊢
    refine reads_part_group_iff.mpr (.inr ⟨fun inside closed hinside => ?_, hread⟩)
    obtain ⟨group, heq, hwrites⟩ := splits_condition _ inside _ hinside
    exact absurd heq.symm (hwrites.not_isOperand hleft)
  · rw [part_eq_comparison]
    · exact hread
    · intro tail htail
      obtain ⟨rfl, -⟩ := List.cons.inj htail
      exact hleft.not_negation rfl
    · intro tail htail
      exact hgroup (List.cons.inj htail).1

/-- The reader of a kind of condition reads one, and comes with it to what it would come to behind
it. -/
def ConditionKind.IsRead : ConditionKind → List Token → Condition → Prop
  | .part, tokens, condition => ∀ rest, continuesOperand rest = false →
    Reads (Parser.part (tokens ++ rest)) condition rest
  | .alternative, tokens, condition => ∀ rest result behind, continuesOperand rest = false →
    Comes (parts condition rest) result behind →
    Reads (Parser.alternative (tokens ++ rest)) result behind
  | .whole, tokens, condition => ∀ rest result behind, continuesOperand rest = false →
    (∀ tail, rest ≠ .operator (.connective .and) :: tail) →
    Comes (alternatives condition rest) result behind →
    Reads (Parser.condition (tokens ++ rest)) result behind

theorem IsCondition.isRead {kind : ConditionKind} {condition : Condition}
    (h : IsCondition kind tokens condition) : kind.IsRead tokens condition := by
  induction h with
  | comparison hleft hright => exact fun rest => reads_part_of_comparison hleft hright
  | group _ ih =>
    intro rest hrest
    rw [List.cons_append, List.append_assoc]
    refine reads_part_group_iff.mpr (.inl ⟨?_, hrest⟩)
    exact ih _ _ _ rfl (by simp) ((comes_alternatives_iff (by simp)).mpr ⟨rfl, rfl⟩)
  | not _ hnegate ih =>
    exact fun rest hrest => reads_part_not_iff.mpr ⟨_, rest, ih rest hrest, hnegate, rfl⟩
  | ofPart _ ih =>
    exact fun rest result behind hrest h => reads_alternative_iff.mpr ⟨_, rest, ih rest hrest, h⟩
  | and _ _ ihl ihr =>
    intro rest result behind hrest h
    rw [List.append_assoc, List.cons_append]
    exact ihl _ _ _ rfl (comes_parts_and_iff.mpr ⟨_, rest, ihr rest hrest, h⟩)
  | ofAlternative _ ih =>
    intro rest result behind hrest hand h
    exact reads_condition_iff.mpr
      ⟨_, rest, ih rest _ rest hrest ((comes_parts_iff hand).mpr ⟨rfl, rfl⟩), h⟩
  | or _ _ ihl ihr =>
    intro rest result behind hrest hand h
    rw [List.append_assoc, List.cons_append]
    refine ihl _ _ _ rfl (by simp) (comes_alternatives_or_iff.mpr ⟨_, rest, ?_, h⟩)
    exact ihr rest _ rest hrest ((comes_parts_iff hand).mpr ⟨rfl, rfl⟩)

end Grammar

/-! ## Conditions of texts -/

namespace Condition

open Relational.Parser

/-- Tokens are read as a condition exactly if they write it. -/
theorem ofTokens_eq_ok_iff {tokens : List Token} {condition : Condition} :
    ofTokens tokens = .ok condition ↔ IsCondition .whole tokens condition := by
  rw [ofTokens, guard_eq_ok_iff, bind_eq_ok_iff]
  constructor
  · rintro ⟨-, whole, hwhole, h⟩
    split at h
    · rename_i hrest
      cases h
      have hread := reads_of_eq_ok hwhole
      rw [hrest] at hread
      obtain ⟨before, heq, hwrites⟩ := splits_condition tokens _ _ hread
      rw [List.append_nil] at heq
      exact heq ▸ hwrites
    · cases h
  · intro h
    have hend : Comes (alternatives condition []) condition [] :=
      (comes_alternatives_iff (by simp)).mpr ⟨rfl, rfl⟩
    have hread := h.isRead [] condition [] rfl (by simp) hend
    rw [List.append_nil] at hread
    obtain ⟨hlt, hwhole⟩ := hread
    refine ⟨?_, _, hwhole, rfl⟩
    cases tokens with
    | nil => cases hlt
    | cons token tokens => simp

/-- A text is read as a condition exactly if its tokens, comments left out, write the condition; any
other text is refused. What `NOT` is put before can be negated. -/
theorem read_iff_isCondition {s : List Char} {tokens : List Token}
    (h : Lexer.meaningful s = .ok tokens) :
    (∀ condition, read s = .ok condition ↔ IsCondition .whole tokens condition) ∧
    ∀ part condition, IsCondition .part part condition →
      ∃ negated, condition.negate = .ok negated ∧
        IsCondition .part (.operator .negation :: part) negated := by
  have hread : read s = ofTokens tokens := by
    rw [read, h, ok_bind]
  refine ⟨fun condition => ?_, fun part condition hpart => ?_⟩
  · rw [hread]
    exact ofTokens_eq_ok_iff
  · obtain ⟨negated, hnegated, -⟩ := hpart.compares.negate
    exact ⟨negated, hnegated, .not hpart hnegated⟩

/-- A condition in which one parenthesis opens a condition and another an operand. -/
def groupedText : List Char :=
  "NOT (a = 1 OR b < 2) AND (1 + 2) * 2 < c -- both kinds".toList

theorem read_groupedText : ∃ tokens condition, Lexer.meaningful groupedText = .ok tokens ∧
    tokens.length = 20 ∧ condition.shown = "((a != 1 AND b >= 2) AND 6 < c)" ∧
    IsCondition .whole tokens condition := by
  have hrun : ((Lexer.meaningful groupedText).toOption.any fun tokens => tokens.length == 20 &&
      (read groupedText).toOption.any fun condition =>
        condition.shown == "((a != 1 AND b >= 2) AND 6 < c)") = true := by
    decide +kernel
  simp only [Option.any_eq_true, toOption_eq_some_iff, Bool.and_eq_true, beq_iff_eq] at hrun
  obtain ⟨tokens, htokens, hlength, condition, hread, hshown⟩ := hrun
  exact ⟨tokens, condition, htokens, hlength, hshown,
    ((read_iff_isCondition htokens).1 condition).mp hread⟩

end Condition

end Relational
