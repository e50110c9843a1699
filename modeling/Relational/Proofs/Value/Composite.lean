import Relational.Value.Key

/-!
# Keys of several values

A key is read back into the parts that it was made of (`Key.split_join`): a part ends at a `#` without a
backslash before it, and the backslash before any other character is taken out. So the key of several
values tells how many they are and what each of them is known by (`Key.eq_iff_of_ofValues?`), whatever
marks stand in their texts.
-/

namespace Relational.Key

variable {parts parts' : List (List Char)} {values values' : List Value} {key key' : String}

/-! ## Reading a key back -/

/-- The parts of a key. -/
def split : List Char → List (List Char)
  | [] => [[]]
  | '\\' :: c :: s => (split s).modifyHead (c :: ·)
  | c :: s => if c = '#' then [] :: split s else (split s).modifyHead (c :: ·)

theorem split_mark (s : List Char) : split ('#' :: s) = [] :: split s := by
  rw [split]
  · exact if_pos rfl
  · simp

theorem split_cons {c : Char} (hslash : c ≠ '\\') (hmark : c ≠ '#') (s : List Char) :
    split (c :: s) = (split s).modifyHead (c :: ·) := by
  rw [split]
  · exact if_neg hmark
  · exact fun d t h => absurd h hslash

/-- A part goes in front of what the rest of the key begins with. -/
theorem split_escapePart (part s : List Char) :
    split (escapePart part ++ s) = (split s).modifyHead (part ++ ·) := by
  induction part with
  | nil => cases h : split s <;> simp [escapePart, h]
  | cons c part ih =>
    rw [escapePart]
    split
    · rw [List.cons_append, List.cons_append, split, ih, List.modifyHead_modifyHead]
      rfl
    · rename_i hc
      rw [not_or] at hc
      rw [List.cons_append, split_cons hc.1 hc.2, ih, List.modifyHead_modifyHead]
      rfl

/-- The parts of a key can be told apart. -/
theorem split_join (hne : parts ≠ []) : split (join (parts.map escapePart)) = parts := by
  induction parts with
  | nil => exact absurd rfl hne
  | cons part parts ih =>
    cases parts with
    | nil =>
      have hsplit := split_escapePart part []
      rw [List.append_nil] at hsplit
      rw [List.map_singleton, join, hsplit]
      simp [split]
    | cons next parts =>
      have hrest := ih (List.cons_ne_nil next parts)
      rw [List.map_cons] at hrest
      rw [List.map_cons, List.map_cons, join, split_escapePart, split_mark, hrest]
      · simp
      · simp

theorem join_inj (hne : parts ≠ []) (hne' : parts' ≠ []) :
    join (parts.map escapePart) = join (parts'.map escapePart) ↔ parts = parts' := by
  refine ⟨fun h => ?_, fun h => h ▸ rfl⟩
  rw [← split_join hne, h, split_join hne']

/-! ## Values -/

theorem mapM_key?_eq_some_iff :
    values.mapM Value.key? = some parts ↔ values.map Value.key? = parts.map some := by
  induction values generalizing parts with
  | nil => cases parts <;> simp
  | cons value values ih =>
    rw [List.mapM_cons, List.map_cons]
    simp only [Option.bind_eq_bind, Option.pure_def, Option.bind_eq_some_iff, Option.some.injEq, ih]
    constructor
    · rintro ⟨part, hpart, rest, hrest, rfl⟩
      rw [hpart, hrest, List.map_cons]
    · intro h
      obtain ⟨part, rest, rfl, hpart, hrest⟩ := List.map_eq_cons_iff.mp h.symm
      exact ⟨part, hpart.symm, rest, hrest.symm, rfl⟩

/-- The key of several values is made of what each of them is known by. -/
theorem exists_parts_of_ofValues? (h : ofValues? values = some key) :
    ∃ parts : List (List Char), values.map Value.key? = parts.map some ∧
      key = String.ofList (join (parts.map escapePart)) := by
  obtain ⟨parts, hparts, rfl⟩ := Option.map_eq_some_iff.mp h
  exact ⟨parts, mapM_key?_eq_some_iff.mp hparts, rfl⟩

/-- Keys do not collide: two lists of values have one key exactly if they are of one length and have the
same values in each place, as single keys tell values apart. -/
theorem eq_iff_of_ofValues? (hne : values ≠ []) (hne' : values' ≠ [])
    (h : ofValues? values = some key) (h' : ofValues? values' = some key') :
    key = key' ↔ values.length = values'.length ∧
      ∀ (i : Nat) (_ : i < values.length) (_ : i < values'.length),
        values[i].key? = values'[i].key? := by
  obtain ⟨parts, hparts, rfl⟩ := exists_parts_of_ofValues? h
  obtain ⟨parts', hparts', rfl⟩ := exists_parts_of_ofValues? h'
  have hparts_ne : parts ≠ [] := by
    rintro rfl
    exact hne (List.map_eq_nil_iff.mp hparts)
  have hparts_ne' : parts' ≠ [] := by
    rintro rfl
    exact hne' (List.map_eq_nil_iff.mp hparts')
  calc String.ofList (join (parts.map escapePart)) = String.ofList (join (parts'.map escapePart))
      ↔ parts = parts' := by rw [String.ofList_inj, join_inj hparts_ne hparts_ne']
    _ ↔ values.map Value.key? = values'.map Value.key? := by
        rw [hparts, hparts', List.map_inj_right fun _ _ => Option.some.inj]
    _ ↔ _ := by simp [List.ext_getElem_iff]

/-- The key `a\\#b` of two values, the first of which ends with a backslash, is not the key `a\\\#b`
of one value. -/
theorem eq_iff_of_ofValues?_slash :
    ofValues? [.text "a\\", .text "b"] = some "a\\\\#b" ∧
      ofValues? [.text "a\\#b"] = some "a\\\\\\#b" ∧
      ("a\\\\#b" = "a\\\\\\#b" ↔ [Value.text "a\\", .text "b"].length = [Value.text "a\\#b"].length ∧
        ∀ (i : Nat) (_ : i < [Value.text "a\\", .text "b"].length)
          (_ : i < [Value.text "a\\#b"].length),
          [Value.text "a\\", .text "b"][i].key? = [Value.text "a\\#b"][i].key?) := by
  have htwo : ofValues? [.text "a\\", .text "b"] = some "a\\\\#b" := by decide
  have hone : ofValues? [.text "a\\#b"] = some "a\\\\\\#b" := by decide
  exact ⟨htwo, hone, eq_iff_of_ofValues? (by simp) (by simp) htwo hone⟩

end Relational.Key
