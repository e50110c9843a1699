import Relational.Proofs.Condition.Parser
import Relational.Proofs.Statement.Written
import Relational.Proofs.Token.Boundary

/-!
# Written values

A list of texts between quotes and nulls (`Written.Literal`) is read as these values, whatever the
texts are (`Value.readList_commas`). The token of a quoted text is its content
(`Lexer.tokens_written`): its end is the first quote that does not stand before another, and inside
of it there are only pairs.
-/

namespace Relational

open Text (doubleQuotes quote)

namespace Written

/-- A value of a row: a text, or none. -/
inductive Literal where
  | text (content : String)
  | null

namespace Literal

/-- A text stands between quotes. -/
def written : Literal → List Char
  | text content => quote content.toList
  | null => "NULL".toList

def token : Literal → Token
  | text content => .text content.toList
  | null => .null

def value : Literal → Value
  | text content => .text content
  | null => .null

end Literal

end Written

open Written (Literal commas)

/-! ## Tokens -/

namespace Lexer

variable {c : Char} {s rest : List Char} {token : Token}

theorem tokens_comma (s : List Char) : tokens (',' :: ' ' :: s) = (tokens s).map (.comma :: ·) := by
  have hcomma : scan ',' (' ' :: s) = .ok (.comma, ' ' :: s) := rfl
  rw [tokens_cons (by decide) hcomma, tokens_blank (by decide)]

theorem scan_quote (s : List Char) (hrest : rest.head? ≠ some '\'') :
    scan '\'' (doubleQuotes s ++ '\'' :: rest) = .ok (.text s, rest) :=
  scan_eq_ok_iff.mpr (.text rfl (spanQuoted_doubleQuotes s hrest))

theorem spanIdentifier_append (hs : ∀ c ∈ s, isNameChar c = true)
    (hrest : spanIdentifier rest = ([], rest)) : spanIdentifier (s ++ rest) = (s, rest) := by
  induction s with
  | nil => exact hrest
  | cons c s ih =>
    obtain ⟨hc, hs⟩ := List.forall_mem_cons.mp hs
    rw [List.cons_append, spanIdentifier, hc, ih hs]
    rfl

theorem scan_null (hrest : ∀ c ∈ rest.head?, c = ',') :
    scan 'N' ("ULL".toList ++ rest) = .ok (.null, rest) := by
  have hcomma : isNameChar ',' = false := by decide
  have hend : spanIdentifier rest = ([], rest) := by
    cases rest with
    | nil => rfl
    | cons c rest =>
      obtain rfl : c = ',' := hrest c rfl
      simp [spanIdentifier, hcomma]
  have hname : ∀ c ∈ "ULL".toList, isNameChar c = true := List.all_eq_true.mp (by decide)
  have hspan : spanIdentifier ("ULL".toList ++ rest) = ("ULL".toList, rest) :=
    spanIdentifier_append hname hend
  exact scan_eq_ok_iff.mpr (.word (by decide) hspan rfl)

/-- A written value is one token, if a comma stands behind it or nothing. -/
theorem tokens_written (literal : Literal) (hrest : ∀ c ∈ rest.head?, c = ',') :
    tokens (literal.written ++ rest) = (tokens rest).map (literal.token :: ·) := by
  cases literal with
  | text content =>
    have hquote : rest.head? ≠ some '\'' := fun h => absurd (hrest '\'' h) (by decide)
    rw [Literal.written, quote, List.cons_append, List.append_assoc]
    exact tokens_cons (by decide) (scan_quote content.toList hquote)
  | null => exact tokens_cons (by decide) (scan_null hrest)

theorem tokens_commas (literals : List Literal) :
    tokens (commas (literals.map Literal.written)) =
      .ok ((literals.map Literal.token).intersperse .comma) := by
  induction literals with
  | nil => rw [List.map_nil, commas, tokens]; rfl
  | cons literal literals ih =>
    cases literals with
    | nil =>
      rw [List.map_singleton, commas, ← List.append_nil literal.written,
        tokens_written literal (by simp), tokens]
      rfl
    | cons next literals =>
      have hcommas : commas ((literal :: next :: literals).map Literal.written) =
          literal.written ++ ',' :: ' ' :: commas ((next :: literals).map Literal.written) := by
        simp [commas]
      rw [hcommas, tokens_written literal (by simp), tokens_comma, ih]
      rfl

theorem meaningful_commas (literals : List Literal) :
    meaningful (commas (literals.map Literal.written)) =
      .ok ((literals.map Literal.token).intersperse .comma) := by
  have hmeaningful : ∀ token ∈ (literals.map Literal.token).intersperse .comma,
      (!isComment token) = true := by
    have hliteral (literal : Literal) : (!isComment literal.token) = true := by
      cases literal <;> rfl
    induction literals with
    | nil => simp
    | cons literal literals ih =>
      cases literals with
      | nil => exact List.forall_mem_singleton.mpr (hliteral literal)
      | cons next literals =>
        rw [List.map_cons, List.map_cons, List.intersperse_cons_cons]
        exact List.forall_mem_cons.mpr ⟨hliteral literal, List.forall_mem_cons.mpr ⟨rfl, ih⟩⟩
  rw [meaningful, tokens_commas]
  exact congrArg Except.ok (List.filter_eq_self.mpr hmeaningful)

end Lexer

/-! ## Values -/

namespace Parser

variable {tokens rest : List Token} {operand : Operand}

/-- An operand of one factor. -/
theorem reads_operand (h : Reads (factor tokens) operand rest)
    (hrest : ∀ token ∈ rest.head?, token = .comma) : Reads (Parser.operand tokens) operand rest := by
  have hproducts : Comes (products operand rest) operand rest := by
    cases rest with
    | nil => exact comes_products_nil_iff.mpr ⟨rfl, rfl⟩
    | cons token rest =>
      obtain rfl : token = .comma := hrest token rfl
      exact comes_products_cons_iff.mpr (.inl ⟨rfl, rfl, rfl⟩)
  have hsums : Comes (sums operand rest) operand rest := by
    cases rest with
    | nil => exact comes_sums_nil_iff.mpr ⟨rfl, rfl⟩
    | cons token rest =>
      obtain rfl : token = .comma := hrest token rfl
      exact comes_sums_cons_iff.mpr (.inl ⟨rfl, rfl, rfl⟩)
  exact reads_operand_iff.mpr ⟨operand, rest, reads_term_iff.mpr ⟨operand, rest, h, hproducts⟩, hsums⟩

theorem reads_literal (literal : Literal) (hrest : ∀ token ∈ rest.head?, token = .comma) :
    Reads (Parser.operand (literal.token :: rest)) (.constant literal.value) rest := by
  refine reads_operand ?_ hrest
  cases literal with
  | text content => exact reads_factor_text_iff.mpr ⟨by rw [String.ofList_toList]; rfl, rfl⟩
  | null => exact reads_factor_null_iff.mpr ⟨rfl, rfl⟩

theorem values_literals (literal : Literal) (literals : List Literal) :
    values (((literal :: literals).map Literal.token).intersperse .comma) =
      .ok ((literal :: literals).map Literal.value) := by
  induction literals generalizing literal with
  | nil =>
    obtain ⟨_, hread⟩ : Reads (Parser.operand [literal.token]) _ [] := reads_literal literal (by simp)
    rw [List.map_singleton, List.intersperse_singleton, values, hread, ok_bind]
    rfl
  | cons next literals ih =>
    have hbehind : ∀ token ∈ (Token.comma ::
        ((next :: literals).map Literal.token).intersperse .comma).head?, token = .comma := by
      simp
    obtain ⟨_, hread⟩ := reads_literal literal hbehind
    rw [List.map_cons, List.map_cons, List.intersperse_cons_cons, values, ← List.map_cons, hread, ok_bind]
    change (values (((next :: literals).map Literal.token).intersperse .comma) >>= fun values =>
      pure (literal.value :: values)) = _
    rw [ih next]
    rfl

end Parser

/-- A list of written values is read as these values. -/
theorem Value.readList_commas (literals : List Literal) :
    readList (commas (literals.map Literal.written)) = .ok (literals.map Literal.value) := by
  rw [readList, Lexer.meaningful_commas, ok_bind]
  cases literals with
  | nil => rfl
  | cons literal literals =>
    rw [← Parser.values_literals]
    cases literals <;> rfl

end Relational
