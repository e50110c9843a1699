/-!
# Texts as bytes

A text is stored as the bytes of its UTF-8 form. A character beyond ASCII has a leading byte, which
tells how many bytes follow and holds the upper bits of the code point, and trailing bytes of six
bits each. No character has more bytes than it needs.

Bytes are read one by one (`readBytes`), each as far as some character begins with it and the bytes
before it. Where none does, the bytes before it are no text.

* `Text.ofBytes?`: the text of bytes that are a text from start to end;
* `Text.ofBytes`: the text of any bytes, with a mark for each part of them that is none;
* `ofBytes?_toBytes`: reading undoes writing.
-/

namespace Relational.Text

/-- The trailing byte with the last six bits of a number. -/
def trailingByte (n : Nat) : UInt8 :=
  UInt8.ofNat (0x80 + n % 64)

/-- The UTF-8 form of a character. -/
def charBytes (c : Char) : List UInt8 :=
  let n := c.toNat
  if n < 0x80 then [UInt8.ofNat n]
  else if n < 0x800 then [UInt8.ofNat (0xC0 + n / 64), trailingByte n]
  else if n < 0x10000 then
    [UInt8.ofNat (0xE0 + n / 4096), trailingByte (n / 64), trailingByte n]
  else
    [UInt8.ofNat (0xF0 + n / 262144), trailingByte (n / 4096), trailingByte (n / 64),
      trailingByte n]

/-- The UTF-8 form of a text. -/
def toBytes (s : List Char) : List UInt8 :=
  s.flatMap charBytes

/-- Whether a number is the code point of a character. -/
def isCodePoint (n : Nat) : Bool :=
  n < 0xD800 || (0xE000 ≤ n && n < 0x110000)

/-- The start of a character: how many bytes are to follow, the least code point that needs so many
bytes in all, and the bits of the code point so far. -/
structure CharStart where
  count : Nat
  least : Nat
  high : Nat

namespace CharStart

/-- Whether the start is one of some character: the first code point with these bits that is not too
small is a character's, and has these bits. -/
def isPossible (start : CharStart) : Bool :=
  let unit := Nat.pow 64 start.count
  let first := max start.least (start.high * unit)
  first < (start.high + 1) * unit && isCodePoint first

/-- The start that a leading byte is. -/
def ofLeading? (b : UInt8) : Option CharStart :=
  let b := b.toNat
  if b < 0x80 then some ⟨0, 0, b⟩
  else if b < 0xC0 then none
  else if b < 0xE0 then (some ⟨1, 0x80, b - 0xC0⟩).filter isPossible
  else if b < 0xF0 then (some ⟨2, 0x800, b - 0xE0⟩).filter isPossible
  else if b < 0xF8 then (some ⟨3, 0x10000, b - 0xF0⟩).filter isPossible
  else none

/-- The start with a trailing byte more. -/
def add? (start : CharStart) (b : UInt8) : Option CharStart :=
  let b := b.toNat
  match start.count with
  | 0 => none
  | count + 1 =>
    if 0x80 ≤ b ∧ b < 0xC0 then
      (some ⟨count, start.least, 64 * start.high + (b - 0x80)⟩).filter isPossible
    else none

/-- What is known once a byte has led to a start: the character, if the start is all of it, and
else the start. -/
def settle (start : CharStart) : List (Option Char) × Option CharStart :=
  if start.count = 0 then ([some (Char.ofNat start.high)], none) else ([], some start)

end CharStart

/-- Reads a byte behind the start of a character, or between characters; returns what has come to its
end with the byte, and the start that the byte leaves. -/
def readByte (start : Option CharStart) (b : UInt8) : List (Option Char) × Option CharStart :=
  match start.bind (·.add? b) with
  | some next => next.settle
  | none =>
    let broken := if start.isSome then [none] else []
    match CharStart.ofLeading? b with
    | some next => (broken ++ next.settle.1, next.settle.2)
    | none => (broken ++ [none], none)

/-- Reads bytes behind the start of a character, or between characters: each character, and nothing
in its place for each part that is none. -/
def readBytes (start : Option CharStart) : List UInt8 → List (Option Char)
  | [] => if start.isSome then [none] else []
  | b :: bytes => (readByte start b).1 ++ readBytes (readByte start b).2 bytes

/-- The text of a UTF-8 form. -/
def ofBytes? (bytes : List UInt8) : Option (List Char) :=
  (readBytes none bytes).mapM id

/-- The text of any bytes, with the replacement character for what is no character. -/
def ofBytes (bytes : List UInt8) : List Char :=
  (readBytes none bytes).map (·.getD '\uFFFD')

theorem isCodePoint_toNat (c : Char) : isCodePoint c.toNat = true := by
  have := c.valid
  simp only [UInt32.isValidChar, Nat.isValidChar] at this
  simp only [isCodePoint, Char.toNat, Bool.or_eq_true, Bool.and_eq_true, decide_eq_true_eq]
  omega

/-- The upper bits of a code point are the start of its character, as long as they tell how many
bytes it has. -/
theorem isPossible_toNat (count least : Nat) (c : Char) (hc : count ≤ 3)
    (hp : isCodePoint least = true) (hl : least ≤ c.toNat) :
    CharStart.isPossible ⟨count, least, c.toNat / Nat.pow 64 count⟩ = true := by
  have hv := isCodePoint_toNat c
  simp only [isCodePoint, Bool.or_eq_true, Bool.and_eq_true, decide_eq_true_eq] at hv hp
  simp only [CharStart.isPossible, isCodePoint, Bool.or_eq_true, Bool.and_eq_true,
    decide_eq_true_eq]
  have h0 : Nat.pow 64 0 = 1 := rfl
  have h1 : Nat.pow 64 1 = 64 := rfl
  have h2 : Nat.pow 64 2 = 4096 := rfl
  have h3 : Nat.pow 64 3 = 262144 := rfl
  obtain rfl | rfl | rfl | rfl : count = 0 ∨ count = 1 ∨ count = 2 ∨ count = 3 := by omega
  all_goals simp only [h0, h1, h2, h3]; omega

theorem toNat_trailingByte (n : Nat) : (trailingByte n).toNat = 0x80 + n % 64 := by
  simp only [trailingByte, UInt8.toNat_ofNat']
  omega

/-- A byte that is the start of a character leaves this start, or ends the character. -/
theorem readByte_of_ofLeading? {b : UInt8} {next : CharStart}
    (h : CharStart.ofLeading? b = some next) : readByte none b = next.settle := by
  simp [readByte, h]

/-- A trailing byte goes on from the start of a character, and ends it if no byte is to follow. -/
theorem readByte_trailingByte {count least high n : Nat} (hh : high = n / 64)
    (hp : CharStart.isPossible ⟨count, least, n⟩ = true) :
    readByte (some ⟨count + 1, least, high⟩) (trailingByte n) =
      CharStart.settle ⟨count, least, n⟩ := by
  have hn : 64 * high + n % 64 = n := by omega
  have hadd : CharStart.add? ⟨count + 1, least, high⟩ (trailingByte n) =
      some ⟨count, least, n⟩ := by
    simp only [CharStart.add?, toNat_trailingByte]
    rw [if_pos (by omega), Nat.add_sub_cancel_left, hn, Option.filter_some, if_pos hp]
  simp [readByte, hadd]

/-- A character is read back from its bytes. -/
theorem readBytes_charBytes (c : Char) (bytes : List UInt8) :
    readBytes none (charBytes c ++ bytes) = some c :: readBytes none bytes := by
  have hc : c.toNat < 0x110000 := by
    have := isCodePoint_toNat c
    simp only [isCodePoint, Bool.or_eq_true, Bool.and_eq_true, decide_eq_true_eq] at this
    omega
  have leading {n : Nat} (h : n < 256) : (UInt8.ofNat n).toNat = n := UInt8.toNat_ofNat_of_lt h
  have whole (least : Nat) (hp : isCodePoint least = true) (hl : least ≤ c.toNat) :
      CharStart.isPossible ⟨0, least, c.toNat⟩ = true := by
    simpa using isPossible_toNat 0 least c (by omega) hp hl
  have h1 : Nat.pow 64 1 = 64 := rfl
  have h2 : Nat.pow 64 2 = 4096 := rfl
  have h3 : Nat.pow 64 3 = 262144 := rfl
  have done (least : Nat) : CharStart.settle ⟨0, least, c.toNat⟩ = ([some c], none) := by
    simp [CharStart.settle]
  have more (count least high : Nat) : CharStart.settle ⟨count + 1, least, high⟩ =
      ([], some ⟨count + 1, least, high⟩) := by
    simp [CharStart.settle]
  simp only [charBytes]
  split
  · have h : CharStart.ofLeading? (UInt8.ofNat c.toNat) = some ⟨0, 0, c.toNat⟩ := by
      simp only [CharStart.ofLeading?, leading (show c.toNat < 256 by omega)]
      rw [if_pos ‹_›]
    simp only [List.cons_append, List.nil_append, readBytes, readByte_of_ofLeading? h, done]
  split
  · have h : CharStart.ofLeading? (UInt8.ofNat (0xC0 + c.toNat / 64)) =
        some ⟨1, 0x80, c.toNat / 64⟩ := by
      simp only [CharStart.ofLeading?, leading (show 0xC0 + c.toNat / 64 < 256 by omega)]
      rw [if_neg (by omega), if_neg (by omega), if_pos (by omega), Nat.add_sub_cancel_left,
        Option.filter_some, if_pos (h1 ▸ isPossible_toNat 1 _ c (by omega) rfl (by omega))]
    have hl := readByte_trailingByte rfl (whole 0x80 rfl (by omega))
    simp only [List.cons_append, List.nil_append, readBytes, readByte_of_ofLeading? h, more 0, hl,
      done]
  split
  · have h : CharStart.ofLeading? (UInt8.ofNat (0xE0 + c.toNat / 4096)) =
        some ⟨2, 0x800, c.toNat / 4096⟩ := by
      simp only [CharStart.ofLeading?, leading (show 0xE0 + c.toNat / 4096 < 256 by omega)]
      rw [if_neg (by omega), if_neg (by omega), if_neg (by omega), if_pos (by omega),
        Nat.add_sub_cancel_left, Option.filter_some,
        if_pos (h2 ▸ isPossible_toNat 2 _ c (by omega) rfl (by omega))]
    have hm := readByte_trailingByte (show c.toNat / 4096 = c.toNat / 64 / 64 by omega)
      (h1 ▸ isPossible_toNat 1 0x800 c (by omega) rfl (by omega))
    have hl := readByte_trailingByte rfl (whole 0x800 rfl (by omega))
    simp only [List.cons_append, List.nil_append, readBytes, readByte_of_ofLeading? h, more 1, hm,
      more 0, hl, done]
  · have h : CharStart.ofLeading? (UInt8.ofNat (0xF0 + c.toNat / 262144)) =
        some ⟨3, 0x10000, c.toNat / 262144⟩ := by
      simp only [CharStart.ofLeading?, leading (show 0xF0 + c.toNat / 262144 < 256 by omega)]
      rw [if_neg (by omega), if_neg (by omega), if_neg (by omega), if_neg (by omega),
        if_pos (by omega), Nat.add_sub_cancel_left, Option.filter_some,
        if_pos (h3 ▸ isPossible_toNat 3 _ c (by omega) rfl (by omega))]
    have hk := readByte_trailingByte (show c.toNat / 262144 = c.toNat / 4096 / 64 by omega)
      (h2 ▸ isPossible_toNat 2 0x10000 c (by omega) rfl (by omega))
    have hm := readByte_trailingByte (show c.toNat / 4096 = c.toNat / 64 / 64 by omega)
      (h1 ▸ isPossible_toNat 1 0x10000 c (by omega) rfl (by omega))
    have hl := readByte_trailingByte rfl (whole 0x10000 rfl (by omega))
    simp only [List.cons_append, List.nil_append, readBytes, readByte_of_ofLeading? h, more 2, hk,
      more 1, hm, more 0, hl, done]

theorem readBytes_toBytes (s : List Char) : readBytes none (toBytes s) = s.map some := by
  induction s with
  | nil => rfl
  | cons c s ih =>
    rw [toBytes, List.flatMap_cons, readBytes_charBytes, ← toBytes, ih, List.map_cons]

theorem ofBytes?_toBytes (s : List Char) : ofBytes? (toBytes s) = some s := by
  rw [ofBytes?, readBytes_toBytes]
  induction s with
  | nil => rfl
  | cons c s ih => rw [List.map_cons, List.mapM_cons, ih]; rfl

theorem ofBytes_toBytes (s : List Char) : ofBytes (toBytes s) = s := by
  rw [ofBytes, readBytes_toBytes, List.map_map]
  exact List.map_id s

end Relational.Text
