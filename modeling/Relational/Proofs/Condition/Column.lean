import Relational.Proofs.Condition.Leaf
import Relational.Proofs.Condition.Shown
import Relational.Proofs.Schema.Definition
import Relational.Proofs.Token.Spaced

/-!
# Columns in conditions

A comparison of a column with a constant is read from its text exactly if the name of the column is an
identifier and not reserved (`Condition.read_ofColumn_iff`): a name is read as a token of its own, and
no other tokens write a column (`Grammar.IsOperand.exists_identifier`). A table is created with any
words as the names of its columns, so a column of it can be named in a condition under these two
provisos and not otherwise (`Condition.read_column_iff`).
-/

namespace Relational

open Grammar Lexer

/-! ## Names -/

namespace Lexer

variable {s : List Char}

/-- Without dots, a word is an identifier. -/
theorem isName_iff_isIdentifier (h : '.' ∉ s) : IsName s ↔ Operand.isIdentifier s = true := by
  cases s with
  | nil => simp [IsName, Operand.isIdentifier]
  | cons c t =>
    have ht : '.' ∉ t := fun hmem => h (List.mem_cons_of_mem c hmem)
    have hspan : spanIdentifier t = (t, []) ↔ t.all isNameChar = true := by
      rw [spanIdentifier_eq_self_iff, List.all_eq_true]
      constructor
      · rintro ⟨hchars, -⟩ d hd
        exact (hchars d hd).resolve_right (ne_of_mem_of_not_mem hd ht)
      · intro hall
        refine ⟨fun d hd => .inl (hall d hd), fun before behind hsplit => ?_⟩
        exact absurd (by simp [hsplit]) ht
    rw [Operand.isIdentifier, Bool.and_eq_true, ← hspan]
    constructor
    · rintro ⟨_, _, hs, hname⟩
      cases hs
      exact hname
    · exact fun hname => ⟨c, t, rfl, hname⟩

end Lexer

namespace Grammar

variable {kind : OperandKind} {tokens : List Token} {operand : Operand}

/-- A column is read from a name among the tokens that write it. -/
theorem IsOperand.exists_identifier (h : IsOperand kind tokens operand)
    (hlexed : ∀ token ∈ tokens, IsLexed token) (hcolumn : operand.isColumn = true) :
    ∃ name, .identifier name ∈ tokens ∧ Operand.read name = .ok operand := by
  induction h with
  | number hread =>
    have hnumber : IsNumber _ := hlexed _ List.mem_cons_self
    rw [(Operand.raw_of_isNumber hnumber hread).2] at hcolumn
    cases hcolumn
  | identifier hread => exact ⟨_, List.mem_cons_self, hread⟩
  | group _ ih =>
    obtain ⟨name, hmem, hread⟩ := ih (fun token h => hlexed token (by simp [h])) hcolumn
    exact ⟨name, by simp [hmem], hread⟩
  | ofFactor _ ih => exact ih hlexed hcolumn
  | ofProduct _ ih => exact ih hlexed hcolumn
  | _ => cases hcolumn

end Grammar

/-! ## Comparisons -/

namespace Condition

/-- The comparison of a column with a constant. -/
def ofColumn (name : String) (op : Comparison) (value : Value) : Condition :=
  .compare (.comparison op) (.column (.column name)) (.value (.constant value))

variable {name : String} {op : Comparison} {value : Value}

/-- A comparison with a constant that can be written is read from its text exactly if the name of the
column is an identifier that is not reserved. -/
theorem read_ofColumn_iff (hdot : '.' ∉ name.toList) (hvalue : value.isWritable = true) :
    read (ofColumn name op value).shown.toList = .ok (ofColumn name op value) ↔
      Operand.isIdentifier name.toList = true ∧ isReserved name.toList = false := by
  rw [← isName_iff_isIdentifier hdot, ← ofWord_eq_identifier_iff]
  constructor
  · intro hread
    obtain ⟨tokens, htokens, hwritten⟩ := bind_eq_ok_iff.mp hread
    have hlexed := isLexed_of_meaningful htokens
    obtain ⟨⟨-, piece, hpiece, hoperand, -⟩, -⟩ :=
      (ofTokens_eq_ok_iff.mp hwritten).leavesFit hlexed
    obtain ⟨word, hmem, hword⟩ := hoperand.exists_identifier
      (fun token htoken => hlexed token (hpiece.subset htoken)) rfl
    obtain ⟨hname, hidentifier⟩ := hlexed _ (hpiece.subset hmem)
    have hcolumn := Operand.eq_column_of_isName hname hidentifier hword
    obtain rfl : name = String.ofList word := congrArg Operand.raw hcolumn
    rw [String.toList_ofList]
    exact ⟨hname, hidentifier⟩
  · rintro ⟨hname, hword⟩
    have hcolumn : Operand.read name.toList = .ok (.column name) := by
      rw [Operand.read_of_isName hname hword, Operand.isColumnReference,
        Operand.splitDot_eq_none hdot, String.ofList_toList]
      exact if_pos ((isName_iff_isIdentifier hdot).mp hname)
    have hshown : (ofColumn name op value).IsShown _ :=
      .compare (.identifier hname hword hcolumn) (.constant value)
    rw [read, hshown.spells.meaningful_eq, ok_bind]
    refine ofTokens_eq_ok_iff.mpr (.ofAlternative (.ofPart (hshown.isCondition ?_)))
    intro constant hmem
    rcases List.mem_cons.mp hmem with hleft | hright
    · cases congrArg Operand.meaning hleft
    · obtain rfl := Reference.constant.inj (congrArg Operand.meaning (List.mem_singleton.mp hright))
      exact hvalue

/-- A column that can be created can be queried exactly if its name is an identifier and not
reserved. -/
theorem read_column_iff {table : String} {definition : List Char} {schema : Schema} {column : Column}
    (h : Schema.ofDefinition table definition = .ok schema) (hcolumn : column ∈ schema.columns) :
    read (column.name.toList ++ " = 1".toList) = .ok (.compare (.comparison .eq)
        (.column (.column column.name)) (.value (.constant (.int 1)))) ↔
      Operand.isIdentifier column.name.toList = true ∧ isReserved column.name.toList = false := by
  have hword : IsWord column.name := ((Schema.defined_of_ofDefinition h).1.fits column hcolumn).1
  have hdot : '.' ∉ column.name.toList := fun hmem => absurd (hword.2 '.' hmem) (by decide)
  have htext : (ofColumn column.name .eq (.int 1)).shown.toList =
      column.name.toList ++ " = 1".toList := by
    have hone : (Operand.constant (.int 1)).raw = "1" := by decide
    rw [ofColumn, shown, shown, shown, hone]
    simp [Operand.column, Operator.spelling, Comparison.spelling]
  have hwritable : (Value.int 1).isWritable = true := by decide
  rw [← htext]
  exact read_ofColumn_iff hdot hwritable

/-- The definition of a table with columns that are named like a function and like a number. -/
def boundsDefinition : List Char :=
  "id INT PRIMARY KEY, lower INT, 2024 INT, größe2 INT".toList

/-- The table of this definition. -/
def boundsSchema : Schema :=
  ⟨"bounds", [⟨"id", .int, false, true, false⟩, ⟨"lower", .int, true, false, false⟩,
    ⟨"2024", .int, true, false, false⟩, ⟨"größe2", .int, true, false, false⟩], ["id"], []⟩

theorem read_sizeColumn :
    Schema.ofDefinition "bounds" boundsDefinition = .ok boundsSchema ∧
      ⟨"größe2", .int, true, false, false⟩ ∈ boundsSchema.columns ∧
      read "größe2 = 1".toList = .ok (.compare (.comparison .eq) (.column (.column "größe2"))
        (.value (.constant (.int 1)))) := by
  have hschema : Schema.ofDefinition "bounds" boundsDefinition = .ok boundsSchema := by
    decide +kernel
  have hcolumn : ⟨"größe2", .int, true, false, false⟩ ∈ boundsSchema.columns := by decide
  exact ⟨hschema, hcolumn, (read_column_iff hschema hcolumn).mpr (by decide +kernel)⟩

/-- Two columns of the table cannot be named in a condition: a function has to stand before a
parenthesis there, and a number is compared itself. -/
theorem read_lowerColumn :
    Schema.ofDefinition "bounds" boundsDefinition = .ok boundsSchema ∧
      ⟨"lower", .int, true, false, false⟩ ∈ boundsSchema.columns ∧
      ⟨"2024", .int, true, false, false⟩ ∈ boundsSchema.columns ∧
      read "lower = 1".toList = .error (.syntaxError (.expectedToken .leftParen
        (some (.operator (.comparison .eq))))) ∧
      read "2024 = 1".toList = .ok (.compare (.comparison .eq) (.value (.constant (.int 2024)))
        (.value (.constant (.int 1)))) := by
  decide +kernel

end Condition

end Relational
