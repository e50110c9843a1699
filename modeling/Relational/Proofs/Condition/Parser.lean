import Relational.Condition.Parser
import Relational.Proofs.Condition.Grammar
import Relational.Proofs.Outcome

/-!
# The readers of conditions

What each reader reads, said once for each (`reads_operand_iff` and so on), without the proofs that it
leaves fewer tokens.
-/

namespace Relational

theorem Operand.need_eq_ok_iff {operand : Operand} {operation : String} {value : Value} :
    operand.need operation = .ok value ↔ operand.value? = some value := by
  unfold need value?
  cases operand.meaning <;> simp

namespace Parser

variable {α : Type} {tokens rest : List Token}

/-- A reader has read something and left the rest. -/
def Reads (outcome : Except Error (Read α tokens)) (a : α) (rest : List Token) : Prop :=
  ∃ h, outcome = .ok ⟨a, rest, h⟩

/-- A reader that reads on has come to something and left the rest. -/
def Comes (outcome : Except Error { r : α × List Token // r.2.length ≤ tokens.length }) (a : α)
    (rest : List Token) : Prop :=
  ∃ h, outcome = .ok ⟨(a, rest), h⟩

theorem Reads.length_lt {outcome : Except Error (Read α tokens)} {a : α}
    (h : Reads outcome a rest) : rest.length < tokens.length :=
  h.1

theorem Reads.inj {outcome : Except Error (Read α tokens)} {a a' : α} {rest' : List Token}
    (h : Reads outcome a rest) (h' : Reads outcome a' rest') : a = a' ∧ rest = rest' := by
  obtain ⟨_, h⟩ := h
  obtain ⟨_, h'⟩ := h'
  cases h.symm.trans h'
  exact ⟨rfl, rfl⟩

theorem reads_of_eq_ok {outcome : Except Error (Read α tokens)} {r : Read α tokens}
    (h : outcome = .ok r) : Reads outcome r.result r.rest :=
  ⟨r.length_lt, h⟩

theorem reads_expect_iff {expected : Token} {u : Unit} :
    Reads (expect expected tokens) u rest ↔ tokens = expected :: rest := by
  cases tokens with
  | nil =>
    constructor
    · rintro ⟨_, h⟩
      cases h
    · rintro ⟨⟩
  | cons token tokens =>
    rw [expect]
    split
    · rename_i htoken
      subst htoken
      constructor
      · rintro ⟨_, h⟩
        cases h
        rfl
      · rintro h
        cases h
        exact ⟨by simp, rfl⟩
    · rename_i htoken
      constructor
      · rintro ⟨_, h⟩
        cases h
      · exact fun h => absurd (List.cons.inj h).1 htoken

theorem reads_expect (expected : Token) (rest : List Token) :
    Reads (expect expected (expected :: rest)) () rest :=
  reads_expect_iff.mpr rfl

variable {op : Arithmetic} {left right result : Operand}

theorem combine_eq_ok_iff : combine op left right = .ok result ↔
    ∃ l r value, left.value? = some l ∧ right.value? = some r ∧
      (Operator.arithmetic op).calculate l r = .ok value ∧ result = .constant value := by
  simp only [combine, bind_eq_ok_iff, Operand.need_eq_ok_iff]
  constructor
  · rintro ⟨l, hl, r, hr, value, hvalue, h⟩
    exact ⟨l, r, value, hl, hr, hvalue, (Except.ok.inj h).symm⟩
  · rintro ⟨l, r, value, hl, hr, hvalue, rfl⟩
    exact ⟨l, hl, r, hr, value, hvalue, rfl⟩

theorem sumOperator?_eq_some_iff {token : Token} :
    sumOperator? token = some op ↔ token = .operator (.arithmetic op) ∧ (op = .add ∨ op = .sub) := by
  unfold sumOperator?
  split
  · cases op <;> simp
  · cases op <;> simp
  · rename_i hadd hsub
    refine iff_of_false nofun ?_
    rintro ⟨rfl, rfl | rfl⟩
    · exact hadd rfl
    · exact hsub rfl

theorem productOperator?_eq_some_iff {token : Token} :
    productOperator? token = some op ↔
      token = .operator (.arithmetic op) ∧ (op = .mul ∨ op = .div) := by
  unfold productOperator?
  split
  · cases op <;> simp
  · cases op <;> simp
  · rename_i hmul hdiv
    refine iff_of_false nofun ?_
    rintro ⟨rfl, rfl | rfl⟩
    · exact hmul rfl
    · exact hdiv rfl

/-! ## Binds -/

theorem reads_bind_iff {β : Type} {x : Except Error β} {f : β → Except Error (Read α tokens)} {a : α} :
    Reads (x >>= f) a rest ↔ ∃ b, x = .ok b ∧ Reads (f b) a rest := by
  cases x with
  | error e => exact ⟨fun ⟨_, h⟩ => (nomatch h), fun ⟨_, h, _⟩ => (nomatch h)⟩
  | ok b => exact ⟨fun h => ⟨b, rfl, h⟩, fun ⟨_, h, h'⟩ => by cases h; exact h'⟩

theorem comes_bind_iff {β : Type} {x : Except Error β}
    {f : β → Except Error { r : α × List Token // r.2.length ≤ tokens.length }} {a : α} :
    Comes (x >>= f) a rest ↔ ∃ b, x = .ok b ∧ Comes (f b) a rest := by
  cases x with
  | error e => exact ⟨fun ⟨_, h⟩ => (nomatch h), fun ⟨_, h, _⟩ => (nomatch h)⟩
  | ok b => exact ⟨fun h => ⟨b, rfl, h⟩, fun ⟨_, h, h'⟩ => by cases h; exact h'⟩

variable {tokens' : List Token}

theorem reads_ok_iff {a b : α} {h : tokens'.length < tokens.length} :
    Reads (.ok ⟨a, tokens', h⟩ : Except Error (Read α tokens)) b rest ↔ b = a ∧ rest = tokens' := by
  constructor
  · rintro ⟨_, h⟩
    cases h
    exact ⟨rfl, rfl⟩
  · rintro ⟨rfl, rfl⟩
    exact ⟨h, rfl⟩

theorem comes_ok_iff {r : α × List Token} {h : r.2.length ≤ tokens.length} {a : α} :
    Comes (.ok ⟨r, h⟩ : Except Error { r : α × List Token // r.2.length ≤ tokens.length }) a rest ↔
      a = r.1 ∧ rest = r.2 := by
  constructor
  · rintro ⟨_, h⟩
    cases h
    exact ⟨rfl, rfl⟩
  · rintro ⟨rfl, rfl⟩
    exact ⟨h, rfl⟩

theorem exists_reads_iff {outcome : Except Error (Read α tokens)} {P : α → List Token → Prop} :
    (∃ r, outcome = .ok r ∧ P r.result r.rest) ↔ ∃ a rest, Reads outcome a rest ∧ P a rest :=
  ⟨fun ⟨⟨a, rest, h⟩, houtcome, hp⟩ => ⟨a, rest, ⟨h, houtcome⟩, hp⟩,
    fun ⟨a, rest, ⟨h, houtcome⟩, hp⟩ => ⟨⟨a, rest, h⟩, houtcome, hp⟩⟩

theorem exists_comes_iff {a : α}
    {outcome : Except Error { r : α × List Token // r.2.length ≤ tokens.length }} :
    (∃ r, outcome = .ok r ∧ a = r.1.1 ∧ rest = r.1.2) ↔ Comes outcome a rest := by
  constructor
  · rintro ⟨r, houtcome, rfl, rfl⟩
    exact ⟨r.2, houtcome⟩
  · rintro ⟨h, houtcome⟩
    exact ⟨_, houtcome, rfl, rfl⟩

/-! ## First pieces -/

theorem reads_operand_iff : Reads (operand tokens) result rest ↔
    ∃ first behind, Reads (term tokens) first behind ∧ Comes (sums first behind) result rest := by
  rw [operand, ← exists_reads_iff]
  simp only [reads_bind_iff, pure_eq_ok, reads_ok_iff, exists_comes_iff]

theorem reads_term_iff : Reads (term tokens) result rest ↔
    ∃ first behind, Reads (factor tokens) first behind ∧
      Comes (products first behind) result rest := by
  rw [term, ← exists_reads_iff]
  simp only [reads_bind_iff, pure_eq_ok, reads_ok_iff, exists_comes_iff]

theorem reads_condition_iff {result : Condition} : Reads (condition tokens) result rest ↔
    ∃ first behind, Reads (alternative tokens) first behind ∧
      Comes (alternatives first behind) result rest := by
  rw [condition, ← exists_reads_iff]
  simp only [reads_bind_iff, pure_eq_ok, reads_ok_iff, exists_comes_iff]

theorem reads_alternative_iff {result : Condition} : Reads (alternative tokens) result rest ↔
    ∃ first behind, Reads (part tokens) first behind ∧ Comes (parts first behind) result rest := by
  rw [alternative, ← exists_reads_iff]
  simp only [reads_bind_iff, pure_eq_ok, reads_ok_iff, exists_comes_iff]

/-! ## Reading on -/

theorem comes_sums_nil_iff : Comes (sums left []) result rest ↔ result = left ∧ rest = [] := by
  rw [sums, comes_ok_iff]

theorem comes_sums_cons_iff {token : Token} : Comes (sums left (token :: tokens)) result rest ↔
    (sumOperator? token = none ∧ result = left ∧ rest = token :: tokens) ∨
      ∃ right behind, Reads (term tokens) right behind ∧
        ∃ op, sumOperator? token = some op ∧ ∃ next, combine op left right = .ok next ∧
          Comes (sums next behind) result rest := by
  rw [sums, ← exists_reads_iff]
  split
  · rename_i hnone
    simp [comes_ok_iff, hnone]
  · rename_i op hop
    simp only [comes_bind_iff, pure_eq_ok, comes_ok_iff, exists_comes_iff, hop,
      Option.some.injEq, exists_eq_left', reduceCtorEq, false_and, false_or]

theorem comes_products_nil_iff :
    Comes (products left []) result rest ↔ result = left ∧ rest = [] := by
  rw [products, comes_ok_iff]

theorem comes_products_cons_iff {token : Token} :
    Comes (products left (token :: tokens)) result rest ↔
      (productOperator? token = none ∧ result = left ∧ rest = token :: tokens) ∨
        ∃ right behind, Reads (factor tokens) right behind ∧
          ∃ op, productOperator? token = some op ∧ ∃ next, combine op left right = .ok next ∧
            Comes (products next behind) result rest := by
  rw [products, ← exists_reads_iff]
  split
  · rename_i hnone
    simp [comes_ok_iff, hnone]
  · rename_i op hop
    simp only [comes_bind_iff, pure_eq_ok, comes_ok_iff, exists_comes_iff, hop,
      Option.some.injEq, exists_eq_left', reduceCtorEq, false_and, false_or]

theorem comes_alternatives_or_iff {left result : Condition} :
    Comes (alternatives left (.operator (.connective .or) :: tokens)) result rest ↔
      ∃ right behind, Reads (alternative tokens) right behind ∧
        Comes (alternatives (.or left right) behind) result rest := by
  rw [alternatives, ← exists_reads_iff]
  simp only [comes_bind_iff, pure_eq_ok, comes_ok_iff, exists_comes_iff]

theorem comes_alternatives_iff {left result : Condition}
    (h : ∀ tail, tokens ≠ .operator (.connective .or) :: tail) :
    Comes (alternatives left tokens) result rest ↔ result = left ∧ rest = tokens := by
  rw [alternatives, comes_ok_iff]
  exact h

theorem comes_parts_and_iff {left result : Condition} :
    Comes (parts left (.operator (.connective .and) :: tokens)) result rest ↔
      ∃ right behind, Reads (part tokens) right behind ∧
        Comes (parts (.and left right) behind) result rest := by
  rw [parts, ← exists_reads_iff]
  simp only [comes_bind_iff, pure_eq_ok, comes_ok_iff, exists_comes_iff]

theorem comes_parts_iff {left result : Condition}
    (h : ∀ tail, tokens ≠ .operator (.connective .and) :: tail) :
    Comes (parts left tokens) result rest ↔ result = left ∧ rest = tokens := by
  rw [parts, comes_ok_iff]
  exact h

/-! ## Factors -/

theorem reads_factor_number_iff {digits : List Char} :
    Reads (factor (.number digits :: tokens)) result rest ↔
      Operand.read digits = .ok result ∧ rest = tokens := by
  rw [factor]
  simp only [reads_bind_iff, pure_eq_ok, reads_ok_iff]
  grind

theorem reads_factor_identifier_iff {name : List Char} :
    Reads (factor (.identifier name :: tokens)) result rest ↔
      Operand.read name = .ok result ∧ rest = tokens := by
  rw [factor]
  simp only [reads_bind_iff, pure_eq_ok, reads_ok_iff]
  grind

theorem reads_factor_text_iff {content : List Char} :
    Reads (factor (.text content :: tokens)) result rest ↔
      result = .constant (.text (String.ofList content)) ∧ rest = tokens := by
  rw [factor, reads_ok_iff]

theorem reads_factor_null_iff : Reads (factor (.null :: tokens)) result rest ↔
    result = .constant .null ∧ rest = tokens := by
  rw [factor, reads_ok_iff]

theorem reads_factor_minus_iff :
    Reads (factor (.operator (.arithmetic .sub) :: tokens)) result rest ↔
      ∃ argument behind, Reads (factor tokens) argument behind ∧
        ∃ value, argument.value? = some value ∧
          ∃ r, value.negate = .ok r ∧ result = .constant r ∧ rest = behind := by
  rw [factor, ← exists_reads_iff]
  simp only [reads_bind_iff, pure_eq_ok, reads_ok_iff, Operand.need_eq_ok_iff]

theorem reads_factor_group_iff :
    Reads (factor (.leftParen :: tokens)) result rest ↔
      Reads (operand tokens) result (.rightParen :: rest) := by
  rw [factor]
  simp only [reads_bind_iff, pure_eq_ok, reads_ok_iff]
  constructor
  · rintro ⟨inside, hinside, behind, hbehind, rfl, rfl⟩
    rw [← reads_expect_iff.mp (reads_of_eq_ok hbehind)]
    exact reads_of_eq_ok hinside
  · rintro ⟨_, hinside⟩
    obtain ⟨_, hbehind⟩ := reads_expect .rightParen rest
    exact ⟨_, hinside, _, hbehind, rfl, rfl⟩

theorem reads_factor_function_iff {f : TextFunction} :
    Reads (factor (.operator (.function f) :: tokens)) result rest ↔
      ∃ inside, tokens = .leftParen :: inside ∧
        ∃ argument, Reads (operand inside) argument (.rightParen :: rest) ∧
          ∃ value, argument.value? = some value ∧
            ∃ r, (Operator.function f).applyTo value = .ok r ∧ result = .constant r := by
  rw [factor]
  simp only [reads_bind_iff, pure_eq_ok, reads_ok_iff, Operand.need_eq_ok_iff]
  constructor
  · rintro ⟨opening, hopening, inside, hinside, behind, hbehind, value, hvalue, r, hr, rfl, rfl⟩
    refine ⟨opening.rest, reads_expect_iff.mp (reads_of_eq_ok hopening), inside.result, ?_, value,
      hvalue, r, hr, rfl⟩
    rw [← reads_expect_iff.mp (reads_of_eq_ok hbehind)]
    exact reads_of_eq_ok hinside
  · rintro ⟨tail, rfl, argument, ⟨_, hargument⟩, value, hvalue, r, hr, rfl⟩
    obtain ⟨_, hopening⟩ := reads_expect .leftParen tail
    obtain ⟨_, hbehind⟩ := reads_expect .rightParen rest
    exact ⟨_, hopening, _, hargument, _, hbehind, value, hvalue, r, hr, rfl, rfl⟩

theorem not_reads_factor_nil : ¬Reads (factor []) result rest := by
  rintro ⟨_, h⟩
  unfold factor at h
  cases h

/-- Whether a factor can begin with a token. -/
def beginsFactor : Token → Bool
  | .number _ => true
  | .identifier _ => true
  | .text _ => true
  | .null => true
  | .leftParen => true
  | .operator (.arithmetic .sub) => true
  | .operator (.function _) => true
  | _ => false

theorem not_reads_factor {token : Token} (h : beginsFactor token = false) :
    ¬Reads (factor (token :: tokens)) result rest := by
  rintro ⟨_, hread⟩
  unfold factor at hread
  cases token with
  | operator op =>
    cases op with
    | arithmetic op => cases op <;> simp [beginsFactor] at h hread
    | function f => cases h
    | _ => cases hread
  | _ => simp [beginsFactor] at h hread

/-! ## Comparisons and parts -/

theorem reads_comparison_iff {result : Condition} : Reads (comparison tokens) result rest ↔
    ∃ left op behind right, Reads (operand tokens) left (.operator (.comparison op) :: behind) ∧
      Reads (operand behind) right rest ∧
      result = .compare (.comparison op) (.leaf left) (.leaf right) := by
  rw [comparison]
  constructor
  · rw [reads_bind_iff]
    rintro ⟨left, hleft, h⟩
    have hleft := reads_of_eq_ok hleft
    split at h
    · rename_i op behind hrest
      rw [hrest] at hleft
      simp only [reads_bind_iff, pure_eq_ok, reads_ok_iff] at h
      obtain ⟨right, hright, rfl, rfl⟩ := h
      exact ⟨left.result, op, behind, right.result, hleft, reads_of_eq_ok hright, rfl⟩
    · obtain ⟨_, h⟩ := h
      cases h
    · obtain ⟨_, h⟩ := h
      cases h
  · rintro ⟨left, op, behind, right, ⟨_, hleft⟩, ⟨_, hright⟩, rfl⟩
    refine reads_bind_iff.mpr ⟨_, hleft, ?_⟩
    dsimp only
    simp only [reads_bind_iff, pure_eq_ok, reads_ok_iff]
    exact ⟨_, hright, rfl, rfl⟩

theorem reads_part_not_iff {result : Condition} :
    Reads (part (.operator .negation :: tokens)) result rest ↔
      ∃ condition behind, Reads (part tokens) condition behind ∧
        condition.negate = .ok result ∧ rest = behind := by
  rw [part, ← exists_reads_iff]
  simp only [reads_bind_iff, pure_eq_ok, reads_ok_iff]
  grind

theorem part_eq_comparison (hnot : ∀ tail, tokens ≠ .operator .negation :: tail)
    (hgroup : ∀ tail, tokens ≠ .leftParen :: tail) : part tokens = comparison tokens := by
  rw [part]
  · exact hnot
  · exact hgroup

theorem reads_part_group_iff {result : Condition} :
    Reads (part (.leftParen :: tokens)) result rest ↔
      (Reads (condition tokens) result (.rightParen :: rest) ∧ continuesOperand rest = false) ∨
        (∀ inside behind, Reads (condition tokens) inside (.rightParen :: behind) →
          continuesOperand behind = true) ∧
        Reads (comparison (.leftParen :: tokens)) result rest := by
  rw [part]
  split
  · rename_i inside behind hlt hinside
    have hinside : Reads (condition tokens) inside (.rightParen :: behind) := ⟨hlt, hinside⟩
    have honly {c : Condition} {r : List Token} (h : Reads (condition tokens) c (.rightParen :: r)) :
        c = inside ∧ r = behind := by
      obtain ⟨rfl, hrest⟩ := h.inj hinside
      exact ⟨rfl, (List.cons.inj hrest).2⟩
    split
    · rename_i hcontinues
      constructor
      · intro h
        refine .inr ⟨fun c r hc => ?_, h⟩
        obtain ⟨rfl, rfl⟩ := honly hc
        exact hcontinues
      · rintro (⟨hc, hno⟩ | ⟨-, h⟩)
        · obtain ⟨rfl, rfl⟩ := honly hc
          rw [hcontinues] at hno
          cases hno
        · exact h
    · rename_i hno
      rw [reads_ok_iff]
      constructor
      · rintro ⟨rfl, rfl⟩
        exact .inl ⟨hinside, Bool.eq_false_iff.mpr hno⟩
      · rintro (⟨hc, -⟩ | ⟨hall, -⟩)
        · exact honly hc
        · exact absurd (hall inside behind hinside) hno
  · rename_i hother
    have hnone {c : Condition} {r : List Token} :
        ¬Reads (condition tokens) c (.rightParen :: r) := by
      rintro ⟨hlt, h⟩
      exact hother c r hlt h
    exact ⟨fun h => .inr ⟨fun c r hc => absurd hc hnone, h⟩,
      fun h => h.elim (fun h => absurd h.1 hnone) fun h => h.2⟩

end Parser

end Relational
