import Relational.Operand
import Relational.Proofs.Number.Shortest
import Relational.Proofs.Text.Blank

/-!
# Constants and their texts

The text of a constant reads as this constant (`Operand.read_literal`). A text stands between quotes, in
which it is read first. A number is written with digits, a minus and a point only, so it is neither
quoted nor a null; a whole number has no point and a float has one, also if it is whole
(`Operand.literal_finite`), so the two are told apart. The floats that are not finite are written with
letters, which stand for a column or for nothing (`Operand.reread_constant_iff`).
-/

namespace Relational

/-- Whether a value is no float, or a finite one. -/
def Value.isFinite : Value → Bool
  | float .nan => false
  | float (.infinite _) => false
  | _ => true

/-! ## Whole floats -/

namespace Decimal

/-- A whole number with one place. -/
theorem plain_tenth (n : Nat) :
    (⟨10 * n, -1⟩ : Decimal).plain false = Nat.toDigits 10 n ++ ['.', '0'] := by
  rcases Nat.eq_zero_or_pos n with rfl | hn
  · decide
  · have hdigits : Nat.toDigits 10 (10 * n) = Nat.toDigits 10 n ++ ['0'] := by
      rw [Nat.toDigits_of_base_le (by decide) (by omega), Nat.mul_div_cancel_left n (by decide),
        Nat.mul_mod_right]
      rfl
    have hlength : 0 < (Nat.toDigits 10 n).length := List.length_pos_iff.mpr Nat.toDigits_ne_nil
    rw [plain, hdigits]
    simp [hlength]

theorem magnitude?_tenth {n : Nat} {m : Magnitude} (h : m.units = n * Magnitude.one) :
    (⟨10 * n, -1⟩ : Decimal).magnitude? = some m := by
  rw [magnitude?_shift]
  refine Magnitude.nearest?_of_eq (den_pos _) ?_
  change n * 1 * Magnitude.one = 1 * m.units
  rw [Nat.mul_one, Nat.one_mul, h]

end Decimal

namespace Operand

variable {c : Char} {s before : List Char}

/-- The first dot of a text splits it. -/
theorem splitDot_append (h : '.' ∉ before) (behind : List Char) :
    splitDot (before ++ '.' :: behind) = some (before, behind) := by
  induction before with
  | nil => rfl
  | cons c before ih =>
    obtain ⟨hc, hbefore⟩ := not_or.mp (mt List.mem_cons.mpr h)
    rw [List.cons_append, splitDot, if_neg (Ne.symm hc), ih hbefore, Option.map_some]

theorem splitDot_eq_none (h : '.' ∉ s) : splitDot s = none := by
  induction s with
  | nil => rfl
  | cons c s ih =>
    obtain ⟨hc, hs⟩ := not_or.mp (mt List.mem_cons.mpr h)
    rw [splitDot, if_neg (Ne.symm hc), ih hs, Option.map_none]

/-- A finite float is written as a decimal with places that reads as the float. -/
theorem literal_finite (m : Magnitude) :
    ∃ d : Decimal, d.exponent < 0 ∧ d.magnitude? = some m ∧ ∀ negative,
      literal (.float (.finite negative m)) =
        if negative then '-' :: d.plain false else d.plain false := by
  by_cases hwhole : m.units % Magnitude.one = 0
  · have hunits : m.units = m.units / Magnitude.one * Magnitude.one :=
      (Nat.div_mul_cancel (Nat.dvd_of_mod_eq_zero hwhole)).symm
    refine ⟨⟨10 * (m.units / Magnitude.one), -1⟩, (by decide : (-1 : Int) < 0),
      Decimal.magnitude?_tenth hunits, fun negative => ?_⟩
    rw [Decimal.plain_tenth, literal, Binary64.whole?, if_pos hwhole]
    generalize m.units / Magnitude.one = n
    cases negative <;> simp [literal.floatLiteral, Integer.digits, Binary64.signed]
  · have hread := m.magnitude?_shortest .up
    refine ⟨m.shortest .up, ?_, hread, fun negative => ?_⟩
    · refine Int.not_le.mp fun hexponent => hwhole ?_
      exact Nat.mod_eq_zero_of_dvd (Magnitude.one_dvd_units hexponent hread)
    · rw [literal, Binary64.whole?, if_neg hwhole]
      rfl

/-! ## Reading numbers -/

/-- A character of a number that is written without an exponent. -/
def isNumeral (c : Char) : Bool :=
  c.isDigit || c == '-' || c == '.'

theorem isNumeral_of_isDigit (h : c.isDigit = true) : isNumeral c = true := by
  simp [isNumeral, h]

theorem isBlank_of_isNumeral (h : isNumeral c = true) : isBlank c = false :=
  isBlank_eq_false_of (by decide) h

theorem toLower_of_isNumeral (h : isNumeral c = true) : c.toLower = c := by
  simp only [isNumeral, Bool.or_eq_true, beq_iff_eq] at h
  obtain (h | rfl) | rfl := h
  · exact Binary64.toLower_of_isDigit h
  · decide
  · decide

theorem unquoted?_numeral (hc : isNumeral c = true) : unquoted? (c :: s) = none := by
  rw [unquoted?]
  rintro t ⟨⟩
  cases hc

theorem sameWord_numeral (hc : isNumeral c = true) :
    Text.sameWord "NULL".toList (c :: s) = false := by
  refine beq_eq_false_iff_ne.mpr fun h => ?_
  rw [List.map_cons, toLower_of_isNumeral hc] at h
  obtain ⟨hhead, -⟩ := List.cons.inj h
  rw [← hhead] at hc
  cases hc

variable {meaning : Reference}

theorem read_of_reference (hs : ∀ c ∈ s, isNumeral c = true) (hne : s ≠ [])
    (h : Reference.read s = .ok meaning) : read s = .ok ⟨String.ofList s, meaning⟩ := by
  have hunbroken : Text.IsUnbroken s := ⟨hne, fun c hc => isBlank_of_isNumeral (hs c hc)⟩
  rw [read, hunbroken.trim_eq, h]
  rfl

/-- What reads as a whole number is one. -/
theorem Reference.read_int {n : Integer} (hc : isNumeral c = true)
    (h : Integer.ofText? (c :: s) = some n) :
    Reference.read (c :: s) = .ok (.constant (.int n)) := by
  rw [Reference.read, unquoted?_numeral hc]
  dsimp only
  rw [sameWord_numeral hc, if_neg (by decide), h]

/-- With a point in it, a number is a float. -/
theorem Reference.read_float {x : Binary64} (hc : isNumeral c = true) (hpoint : '.' ∈ s)
    (hliteral : isFloatLiteral (c :: s) = true) (h : Binary64.ofText? (c :: s) = some x) :
    Reference.read (c :: s) = .ok (.constant (.float x)) := by
  have hint : Integer.ofText? (c :: s) = none := by
    rw [Integer.ofText?, Integer.readInt?_eq_none hpoint (by decide), Option.bind_none]
  rw [Reference.read, unquoted?_numeral hc]
  dsimp only
  rw [sameWord_numeral hc, if_neg (by decide), hint]
  dsimp only
  rw [if_pos hliteral, h]

theorem isNumeral_signed (negative : Bool) (hs : ∀ c ∈ s, isNumeral c = true) :
    ∀ c ∈ if negative then '-' :: s else s, isNumeral c = true := by
  cases negative with
  | true => exact List.forall_mem_cons.mpr ⟨rfl, hs⟩
  | false => exact hs

/-- A whole number is read from its text. -/
theorem read_toText (n : Integer) : read n.toText = .ok (constant (.int n)) := by
  have hdigits : ∀ c ∈ Integer.digits n.val.natAbs, isNumeral c = true := fun c hc =>
    isNumeral_of_isDigit (Decimal.isDigit_toDigits hc)
  have hnumeral : ∀ c ∈ n.toText, isNumeral c = true := by
    have hsigned := isNumeral_signed (n.val < 0) hdigits
    simp only [decide_eq_true_eq] at hsigned
    exact hsigned
  have hread := Integer.ofText?_toText n
  obtain ⟨c, s, hs⟩ : ∃ c s, n.toText = c :: s := by
    refine List.exists_cons_of_ne_nil fun hnil => ?_
    rw [hnil] at hread
    cases hread
  rw [constant, literal]
  refine read_of_reference hnumeral (by rw [hs]; exact List.cons_ne_nil _ _) ?_
  rw [hs] at hread ⊢
  exact Reference.read_int (hnumeral c (hs ▸ List.mem_cons_self)) hread

theorem isNumeral_pointed (h : Decimal.IsPointed s) : ∀ c ∈ s, isNumeral c = true := by
  obtain ⟨c, whole, fraction, rfl, hwhole, hfraction⟩ := h
  intro d hd
  rcases List.mem_append.mp (List.cons_append ▸ hd) with hd | hd
  · exact isNumeral_of_isDigit (hwhole d hd)
  · rcases List.mem_cons.mp hd with rfl | hd
    · rfl
    · exact isNumeral_of_isDigit (hfraction d hd)

theorem isFloatLiteral_pointed (h : Decimal.IsPointed s) (negative : Bool) :
    isFloatLiteral (if negative then '-' :: s else s) = true := by
  obtain ⟨c, whole, fraction, rfl, hwhole, hfraction⟩ := h
  have hdot : '.' ∉ c :: whole := fun h => absurd (hwhole '.' h) (by decide)
  have hsplit : splitDot (c :: (whole ++ '.' :: fraction)) = some (c :: whole, fraction) :=
    splitDot_append hdot fraction
  have hdigits : (!((c :: whole).isEmpty && fraction.isEmpty) && (c :: whole).all Char.isDigit &&
      fraction.all Char.isDigit) = true := by
    rw [List.all_eq_true.mpr hwhole, List.all_eq_true.mpr hfraction]
    rfl
  cases negative with
  | true =>
    rw [if_pos rfl, isFloatLiteral, hsplit]
    exact hdigits
  | false =>
    rw [if_neg (by decide), isFloatLiteral]
    · rw [hsplit]
      exact hdigits
    · rintro t ⟨⟩
      exact absurd (hwhole '-' List.mem_cons_self) (by decide)

/-- A finite float is read from its text. -/
theorem read_finite (negative : Bool) (m : Magnitude) :
    read (literal (.float (.finite negative m))) = .ok (constant (.float (.finite negative m))) := by
  obtain ⟨d, hexponent, hd, hliterals⟩ := literal_finite m
  have hliteral := hliterals negative
  have hread (negative : Bool) : Binary64.readMagnitude? negative (d.plain false) =
      some (.finite negative m) := Binary64.readMagnitude?_plain hd
  have hpointed := Decimal.isPointed_plain hexponent
  have hfloat := isFloatLiteral_pointed hpointed negative
  have hnumeral := isNumeral_signed negative (isNumeral_pointed hpointed)
  obtain ⟨c, whole, fraction, hs, hwhole, -⟩ := hpointed
  have hpoint : '.' ∈ whole ++ '.' :: fraction := List.mem_append_right _ List.mem_cons_self
  rw [hs] at hread hfloat hnumeral hliteral
  rw [constant, hliteral]
  cases negative with
  | true =>
    refine read_of_reference hnumeral (List.cons_ne_nil _ _) ?_
    exact Reference.read_float rfl (List.mem_cons_of_mem c hpoint) hfloat (hread true)
  | false =>
    have hc := hwhole c List.mem_cons_self
    refine read_of_reference hnumeral (List.cons_ne_nil _ _) ?_
    exact Reference.read_float (isNumeral_of_isDigit hc) hpoint hfloat
      ((Binary64.ofText?_cons hc).trans (hread false))

/-! ## Reading constants -/

theorem trim_quote (s : List Char) : Text.trim (Text.quote s) = Text.quote s := by
  have hquote : isBlank '\'' = false := by decide
  have hstart : Text.trimStart (Text.quote s) = Text.quote s :=
    Text.trimStart_eq_self (Text.begins_cons (by rw [hquote]; rfl) _)
  rw [Text.trim, hstart]
  exact Text.trimEnd_eq_self hquote ('\'' :: Text.doubleQuotes s)

/-- A text is read from between its quotes. -/
theorem read_quote (content : String) :
    read (Text.quote content.toList) = .ok (constant (.text content)) := by
  have hquote : unquoted? (Text.quote content.toList) =
      some (Text.doubleQuotes content.toList) := by
    rw [Text.quote, unquoted?, List.getLast?_concat, if_pos rfl, List.dropLast_concat]
  rw [read, trim_quote, Reference.read, hquote]
  dsimp only
  rw [Text.undoubleQuotes_doubleQuotes, String.ofList_toList]
  rfl

/-- The text of a constant is read as this constant, unless it is a float without a finite value. -/
theorem read_literal {value : Value} (h : value.isFinite = true) :
    read (literal value) = .ok (constant value) := by
  cases value with
  | int n => exact read_toText n
  | float x =>
    cases x with
    | nan => cases h
    | infinite negative => cases h
    | finite negative m => exact read_finite negative m
  | text content => exact read_quote content
  | null => rfl

theorem reread_constant (value : Value) :
    (constant value).reread = read (literal value) := by
  rw [reread, constant, String.toList_ofList]

/-- What is not a number and the infinity are written as names. -/
theorem read_name : ∀ x ∈ [Binary64.nan, .infinite false],
    read (literal (.float x)) = .ok (column (String.ofList (Value.floatText x))) := by
  decide

/-- A constant is read back from its text exactly if it is no float, or a finite one. -/
theorem reread_constant_iff (value : Value) :
    (∃ operand, (constant value).reread = .ok operand ∧ operand.value? = some value) ↔
      value.isFinite = true := by
  rw [reread_constant]
  constructor
  · rintro ⟨operand, hread, hvalue⟩
    cases value with
    | int n => rfl
    | text content => rfl
    | null => rfl
    | float x =>
      cases x with
      | finite negative m => rfl
      | nan =>
        rw [read_name .nan (by decide)] at hread
        obtain rfl := Except.ok.inj hread
        cases hvalue
      | infinite negative =>
        cases negative with
        | false =>
          rw [read_name (.infinite false) (by decide)] at hread
          obtain rfl := Except.ok.inj hread
          cases hvalue
        | true =>
          have hrefused : (read (literal (.float (.infinite true)))).isOk = false := by
            decide
          rw [hread] at hrefused
          cases hrefused
  · exact fun h => ⟨constant value, read_literal h, rfl⟩

/-- The infinity is written as a name and read as a column. -/
theorem reread_infinity :
    (constant (.float (.infinite false))).reread = .ok (column "inf") ∧
      (column "inf").value? ≠ some (.float (.infinite false)) := by
  decide

end Operand

end Relational
