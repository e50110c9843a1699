import Relational.Proofs.Statement.Written

/-!
# Reading the parts of a query

How the patterns read what a written query is made of. An alias that is written is read
(`Pattern.aliasName_bind`); where none is written, the next keyword is taken for one first
(`Pattern.aliasName_lead`), and that is given up again if nothing can be read behind it
(`Pattern.aliasName_behind`). The joins are read one by one, the condition up to the end, and the list
up to the first word that spells `FROM`.

* `Pattern.first?_join`: a join on its own;
* `Pattern.first?_select`, `Pattern.first?_aliasedTable`: a whole query.
-/

namespace Relational.Pattern

open Text (Begins IsUnbroken spells)
open Relational.Written

variable {α β : Type} {run text rest : List Char} {key : String}

/-! ## Words -/

theorem begins_not_of_isBlank {kind : Char → Bool} (hkind : ∀ c, kind c = true → isBlank c = false)
    (h : Begins isBlank rest) : Begins (!kind ·) rest := by
  intro c hc
  cases hk : kind c with
  | false => simp [hk]
  | true =>
    have hblank := h c hc
    rw [hkind c hk] at hblank
    cases hblank

theorem isBlank_of_mem_singleton : ∀ c ∈ [' '], isBlank c = true :=
  List.forall_mem_singleton.mpr (by decide)

theorem word_bind {k : List Char → Pattern β} (hne : run ≠ [])
    (hrun : ∀ c ∈ run, isWordChar c = true) (hrest : Begins isBlank rest) :
    (word >>= k) (run ++ rest) = k run rest :=
  bind_of_single (many1_apply hne hrun
    (begins_not_of_isBlank (fun _ => isBlank_of_isWordChar) hrest))

theorem name_bind {k : String → Pattern β} (table : Written.Name) (hrest : Begins isBlank rest) :
    (name >>= k) (table.text ++ rest) = k table.name rest := by
  rw [name, bind_assoc, word_bind Written.Name.ne_nil Written.Name.isWordChar_of_mem hrest,
    pure_bind, Written.Name.text, String.ofList_toList]

theorem reference_bind {k : List Char → Pattern β} (column : Written.Reference)
    (hrest : Begins isBlank rest) : (reference >>= k) (column.text ++ rest) = k column.text rest := by
  refine bind_of_single (many1_apply column.ne_nil column.isReferenceChar_of_mem
    (begins_not_of_isBlank (fun c hc => ?_) hrest))
  rw [Bool.or_eq_true, beq_iff_eq] at hc
  rcases hc with hc | rfl
  · exact isBlank_of_isWordChar hc
  · decide

theorem lead_bind {k : Unit → Pattern β} (hkey : key ∈ keywords)
    (htext : IsUnbroken text) :
    (keyword key >>= fun _ => gap >>= k) (lead key ++ (text ++ rest)) =
      k () (text ++ rest) := by
  rw [lead_append, keyword_gap_bind (isUpper_of_mem hkey) (htext.begins rest)]

theorem lead_none {k : Unit → Pattern β} (hkey : key ∈ keywords) (htext : IsUnbroken text)
    (hspells : spells key.toList text = false) (hrest : Begins isBlank rest) :
    (keyword key >>= fun _ => gap >>= k) (text ++ rest) = [] :=
  keyword_gap_none (isUpper_of_mem hkey) htext hspells hrest

/-- A keyword that may be left out is not read from another word. -/
theorem optional_lead_none {k : Option Unit → Pattern β} (hkey : key ∈ keywords)
    (htext : IsUnbroken text) (hspells : spells key.toList text = false)
    (hrest : Begins isBlank rest) :
    (optional (do keyword key; gap) >>= k) (text ++ rest) = k none (text ++ rest) := by
  rw [optional_bind, bind_assoc, lead_none hkey htext hspells hrest, List.nil_append]

/-- A keyword that may be left out is read first, and then left out. -/
theorem optional_lead_bind {k : Option Unit → Pattern β} (hkey : key ∈ keywords)
    (htext : IsUnbroken text) :
    (optional (do keyword key; gap) >>= k) (lead key ++ (text ++ rest)) =
      k (some ()) (text ++ rest) ++ k none (lead key ++ (text ++ rest)) := by
  rw [optional_bind, bind_assoc, lead_bind hkey htext]

/-! ## Aliases -/

/-- A word behind a table is read as its alias. -/
theorem aliasName_word {k : List Char → Pattern β} (hne : text ≠ [])
    (htext : ∀ c ∈ text, isWordChar c = true) (hspells : spells "AS".toList text = false)
    (hrest : Begins isBlank rest) :
    (aliasName >>= k) (' ' :: (text ++ rest)) = k text rest := by
  have hunbroken : IsUnbroken text := ⟨hne, fun c hc => isBlank_of_isWordChar (htext c hc)⟩
  rw [aliasName, bind_assoc, gap_bind_cons (hunbroken.begins rest), bind_assoc,
    optional_lead_none (by simp [keywords]) hunbroken hspells hrest, word_bind hne htext hrest]

/-- An alias is read as it is written; then `AS` is taken for one, if it is written. -/
theorem aliasName_bind {k : List Char → Pattern β} (nickname : Written.Alias)
    (hrest : Begins isBlank rest) :
    (aliasName >>= k) (' ' :: (nickname.text ++ rest)) = k nickname.name.text rest ++
      if nickname.withAs then k "AS".toList (' ' :: (nickname.name.text ++ rest)) else [] := by
  obtain ⟨name, withAs⟩ := nickname
  rw [Written.Alias.text]
  cases withAs with
  | false =>
    rw [if_neg (by simp), if_neg (by simp), List.nil_append, List.append_nil,
      aliasName_word name.ne_nil name.isWordChar_of_mem (name.spells_text (by simp [keywords])) hrest]
  | true =>
    have has : "AS" ∈ keywords := by simp [keywords]
    rw [if_pos rfl, if_pos rfl, List.append_assoc, aliasName, bind_assoc,
      gap_bind_cons (begins_lead has _), bind_assoc, optional_lead_bind has name.isUnbroken,
      word_bind name.ne_nil name.isWordChar_of_mem hrest, lead_append,
      word_bind (by simp) (isWordChar_of_mem has) (begins_cons _)]

/-- Where no alias is written, the next keyword is taken for one first. -/
theorem aliasName_lead {k : List Char → Pattern β} (hkey : key ∈ keywords)
    (hspells : spells "AS".toList key.toList = false) (s : List Char) :
    (aliasName >>= k) (' ' :: (lead key ++ s)) = k key.toList (' ' :: s) := by
  rw [lead_append, aliasName_word (isUnbroken_of_mem hkey).ne_nil
    (isWordChar_of_mem hkey) hspells (begins_cons _)]

/-! ## Joins -/

/-- A join begins with `JOIN`, with or without `INNER` before it. -/
theorem opening_bind {k : Pattern β} (withInner : Bool) (htext : IsUnbroken text) :
    (do
      let _ ← optional (do keyword "INNER"; gap)
      keyword "JOIN"
      gap
      k) ((if withInner then lead "INNER" else []) ++ (lead "JOIN" ++ (text ++ rest))) =
      k (text ++ rest) := by
  have hjoin : IsUnbroken "JOIN".toList := isUnbroken_of_mem (by simp [keywords])
  have hlead : lead "JOIN" ++ (text ++ rest) = "JOIN".toList ++ ' ' :: (text ++ rest) := lead_append _ _
  cases withInner with
  | false =>
    rw [if_neg (by simp), List.nil_append, hlead,
      optional_lead_none (by simp [keywords]) hjoin (by decide) (begins_cons _), ← hlead,
      lead_bind (by simp [keywords]) htext]
  | true =>
    rw [if_pos rfl, hlead, optional_lead_bind (by simp [keywords]) hjoin, ← hlead,
      lead_bind (by simp [keywords]) htext, lead_append "INNER",
      lead_none (by simp [keywords]) (isUnbroken_of_mem (by simp [keywords])) (by decide)
        (begins_cons _), List.append_nil]

theorem opening_none {k : Pattern β} (htext : IsUnbroken text)
    (hinner : spells "INNER".toList text = false) (hjoin : spells "JOIN".toList text = false)
    (hrest : Begins isBlank rest) :
    (do
      let _ ← optional (do keyword "INNER"; gap)
      keyword "JOIN"
      gap
      k) (text ++ rest) = [] := by
  rw [optional_lead_none (by simp [keywords]) htext hinner hrest,
    lead_none (by simp [keywords]) htext hjoin hrest]

/-- The two columns of a join, behind `ON`. -/
theorem on_bind {k : List Char → List Char → Pattern β} (left right : Written.Reference)
    (hrest : Begins isBlank rest) :
    (do
      gap
      keyword "ON"
      gap
      let left ← reference
      blanks
      char '='
      blanks
      let right ← reference
      k left right)
      (' ' :: (lead "ON" ++ (left.text ++ ' ' :: (lead "=" ++ (right.text ++ rest))))) =
      k left.text right.text rest := by
  have hequal : one (· == '=') (lead "=" ++ (right.text ++ rest)) =
      [((), ' ' :: (right.text ++ rest))] := rfl
  rw [gap_bind_cons (begins_lead (by simp [keywords]) _), lead_bind (by simp [keywords]) left.isUnbroken,
    reference_bind left (begins_cons _), blanks_bind_cons, char, bind_of_single hequal,
    blanks_bind_cons (right.isUnbroken.begins rest), reference_bind right hrest]
  · intro c hc
    obtain rfl : '=' = c := by simpa [lead] using hc
    decide

theorem on_none {k : Pattern β} (htext : IsUnbroken text) (hspells : spells "ON".toList text = false)
    (hrest : Begins isBlank rest) :
    (do
      gap
      keyword "ON"
      gap
      k) (' ' :: (text ++ rest)) = [] := by
  rw [gap_bind_cons (htext.begins rest),
    lead_none (by simp [keywords]) htext hspells hrest]

/-- In place of an alias, `ON` is not read. -/
theorem on_none_alias {k : Pattern β} (nickname : Written.Alias) (hrest : Begins isBlank rest) :
    (do
      gap
      keyword "ON"
      gap
      k) (' ' :: (nickname.text ++ rest)) = [] := by
  obtain ⟨name, withAs⟩ := nickname
  rw [Written.Alias.text]
  cases withAs with
  | false => exact on_none name.isUnbroken (name.spells_text (by simp [keywords])) hrest
  | true =>
    rw [if_pos rfl, List.append_assoc, lead_append]
    exact on_none (isUnbroken_of_mem (by simp [keywords])) (by decide) (begins_cons _)

/-- A join is taken off the text. -/
theorem first?_joined (join : Written.Join) (hrest : Begins isBlank rest) :
    joined.first? (' ' :: (join.text ++ rest)) = some ((), rest) := by
  obtain ⟨withInner, table, nickname, left, right⟩ := join
  have hbegins {s : List Char} : Begins (!isBlank ·)
      ((if withInner then lead "INNER" else []) ++ (lead "JOIN" ++ s)) := by
    cases withInner with
    | false => exact begins_lead (by simp [keywords]) _
    | true => exact begins_lead (by simp [keywords]) _
  rw [Written.Join.text_append, first?, joined, gap_bind_cons hbegins,
    opening_bind withInner table.isUnbroken,
    word_bind table.ne_nil table.isWordChar_of_mem (begins_aliasText nickname (begins_cons _)),
    optional_bind]
  cases nickname with
  | none =>
    rw [aliasText, Option.elim_none, List.nil_append, aliasName_lead (by simp [keywords]) (by decide),
      on_none left.isUnbroken (left.spells_text (by simp [keywords])) (begins_cons _),
      List.nil_append, on_bind left right hrest]
    rfl
  | some nickname =>
    rw [aliasText, Option.elim_some, List.cons_append, aliasName_bind nickname (begins_cons _),
      on_bind left right hrest]
    rfl

theorem first?_join (join : Written.Join) (hrest : Begins isBlank rest) :
    Pattern.join.first? (join.text ++ rest) = some (join.clause, rest) := by
  obtain ⟨withInner, table, nickname, left, right⟩ := join
  rw [Written.Join.text_append, first?, Pattern.join, opening_bind withInner table.isUnbroken,
    name_bind table (begins_aliasText nickname (begins_cons _)), optionalLast_bind]
  cases nickname with
  | none =>
    rw [aliasText, Option.elim_none, List.nil_append, on_bind left right hrest]
    rfl
  | some nickname =>
    rw [aliasText, Option.elim_some, List.cons_append, on_none_alias nickname (begins_cons _),
      List.nil_append, aliasName_bind nickname (begins_cons _), on_bind left right hrest,
      Option.map_some, show String.ofList nickname.name.text = nickname.name.name from
        String.ofList_toList]
    rfl

theorem joined_none (hne : run ≠ [])
    (hrun : ∀ c ∈ run, isBlank c = true) (htext : IsUnbroken text)
    (hinner : spells "INNER".toList text = false) (hjoin : spells "JOIN".toList text = false)
    (hrest : Begins isBlank rest) : joined (run ++ (text ++ rest)) = [] := by
  rw [joined, gap_bind hne hrun (htext.begins rest), opening_none htext hinner hjoin hrest]

/-- All joins are taken off the text. -/
theorem first?_star_joined (joins : List Written.Join) (hrest : Begins isBlank rest)
    (hnone : joined rest = []) : first? (star joined) (joinsText joins ++ rest) = some ((), rest) := by
  induction joins with
  | nil =>
    change (star joined rest).head? = some ((), rest)
    rw [star_of_none hnone, List.head?_cons]
  | cons join joins ih =>
    have hbegins : Begins isBlank (joinsText joins ++ rest) := by
      cases joins with
      | nil => exact hrest
      | cons join joins => exact begins_cons _
    have htext : joinsText (join :: joins) ++ rest = ' ' :: (join.text ++ (joinsText joins ++ rest)) := by
      simp only [joinsText, List.flatMap_cons, List.cons_append, List.append_assoc]
    rw [htext]
    refine first?_star (first?_joined join hbegins) ?_ ih
    simp only [List.length_cons, List.length_append]
    omega

/-! ## Conditions -/

theorem joined_trimmed (condition : Option Written.Condition) :
    joined (Written.trimmed condition) = [] := by
  cases condition with
  | none => exact gap_bind_none (s := []) (by simp [Begins])
  | some condition =>
    have hjoined (s : List Char) : joined ([' '] ++ ("WHERE".toList ++ ' ' :: s)) = [] :=
      joined_none (by simp) isBlank_of_mem_singleton (isUnbroken_of_mem (by simp [keywords])) (by decide)
        (by decide) (begins_cons s)
    rw [Written.trimmed, Option.elim_some, lead_append]
    exact hjoined _

theorem first?_condition? {k : Option (List Char) → Pattern β} {r : β × List Char}
    (condition : Option Written.Condition)
    (hk : (k (condition.map (Text.trim ·.text))).first? [] = some r) :
    (condition? >>= k).first? (Written.trimmed condition) = some r := by
  rw [first?, condition?, optional_bind]
  cases condition with
  | none =>
    simp only [bind_assoc]
    rw [Written.trimmed, Option.elim_none, gap_bind_none (by simp [Begins])]
    exact hk
  | some condition =>
    have hblanks : ∀ c ∈ ' ' :: condition.text.takeWhile isBlank, isBlank c = true :=
      List.forall_mem_cons.mpr ⟨by decide, List.all_eq_true.mp List.all_takeWhile⟩
    have hremainder : remainder (Text.trim condition.text) = [(Text.trim condition.text, [])] := by
      rw [remainder]
      exact condition.trim_ne_nil
    have hwhere : ∀ letter ∈ "WHERE".toList, letter.isUpper = true :=
      isUpper_of_mem (by simp [keywords])
    simp only [bind_assoc]
    rw [Written.trimmed, Option.elim_some, gap_bind_cons (begins_lead (by simp [keywords]) _),
      lead_append, keyword, letters_bind hwhere, ← List.cons_append,
      gap_bind (by simp) hblanks (Text.begins_trim _), bind_of_single hremainder]
    exact first?_append hk

theorem condition?_none {k : Option (List Char) → Pattern β} (hne : run ≠ [])
    (hrun : ∀ c ∈ run, isBlank c = true) (htext : IsUnbroken text)
    (hwhere : spells "WHERE".toList text = false) (hrest : Begins isBlank rest) :
    (condition? >>= k) (run ++ (text ++ rest)) = k none (run ++ (text ++ rest)) := by
  rw [condition?, optional_bind]
  simp only [bind_assoc]
  rw [gap_bind hne hrun (htext.begins rest),
    lead_none (by simp [keywords]) htext hwhere hrest, List.nil_append]

/-! ## Lists -/

/-- The list of a query is read up to `FROM`. -/
theorem first?_columns {k : Stretch → Pattern β} {s : List Char} {r : β × List Char}
    (list : Written.SelectList) (hs : Begins (!isBlank ·) s)
    (hk : (k ⟨list.text ++ ' ' :: (lead "FROM" ++ s), ' ' :: (lead "FROM" ++ s)⟩).first? s =
      some r) :
    (columns >>= fun columns => gap >>= fun _ => keyword "FROM" >>= fun _ => gap >>= fun _ =>
      k columns).first? (' ' :: (list.text ++ ' ' :: (lead "FROM" ++ s))) = some r := by
  have hfrom : "FROM" ∈ keywords := by simp [keywords]
  have hpieces := Written.isPiece_of_mem hfrom list.isUnbroken_of_mem
  have hne := list.texts_ne_nil
  rw [columns]
  refine first?_orElse ?_
  rw [first?, bind_assoc, gap_bind_cons (list.begins_text _), stretch_bind, Written.SelectList.text,
    Written.commas_append hne]
  refine first?_upToBlank (Written.pieces_ne_nil hne) (fun piece h => (hpieces piece h).1) ?_ ?_
  · intro piece h s
    rw [since_apply, gap_bind_cons ((hpieces piece h).1.begins _),
      keyword_gap_none (isUpper_of_mem hfrom) (hpieces piece h).1 (hpieces piece h).2 (begins_cons _)]
  · have hfound (k : Pattern β) : (gap >>= fun _ => keyword "FROM" >>= fun _ => gap >>= fun _ => k)
        (' ' :: (lead "FROM" ++ s)) = k s := by
      rw [gap_bind_cons (begins_lead hfrom _), lead_append, keyword_gap_bind (isUpper_of_mem hfrom) hs]
    rw [Written.SelectList.text, Written.commas_append hne] at hk
    exact (congrArg List.head? (hfound _)).trans hk

/-! ## Tables -/

/-- What is read behind the table of a query. -/
def behindTable (columns table : Stretch) :
    Pattern (Stretch × Stretch × Stretch × Option (List Char)) := do
  let joins ← stretch (star joined)
  let condition ← condition?
  finish
  return (columns, table, joins, condition)

theorem first?_behindTable (columns table : Stretch) (select : Written.Select) :
    (behindTable columns table).first? select.behind =
      some ((columns, table, ⟨select.behind, Written.trimmed select.condition⟩,
        select.selection.condition), []) :=
  first?_stretch (first?_star_joined select.joins (Written.begins_trimmed select.condition)
    (joined_trimmed select.condition)) (first?_condition? select.condition rfl)

/-- Behind a table, nothing is read from a word that begins neither a join nor a condition. -/
theorem behindTable_none (columns table : Stretch) (hne : run ≠ [])
    (hrun : ∀ c ∈ run, isBlank c = true) (htext : IsUnbroken text)
    (hspells : ∀ key ∈ continuations, spells key.toList text = false)
    (hrest : Begins isBlank rest) : behindTable columns table (run ++ (text ++ rest)) = [] := by
  have hjoined : joined (run ++ (text ++ rest)) = [] :=
    joined_none hne hrun htext (hspells _ (by simp [continuations])) (hspells _ (by simp [continuations])) hrest
  have hfinish : finish (run ++ (text ++ rest)) = [] := by
    obtain ⟨c, run, rfl⟩ := List.exists_cons_of_ne_nil hne
    rfl
  refine stretch_bind.trans ((bind_of_single (star_of_none hjoined)).trans ?_)
  rw [since_apply, condition?_none hne hrun htext (hspells _ (by simp [continuations])) hrest,
    bind_of_none hfinish]

theorem aliasedTable_word {k : Stretch → Pattern α} (hne : run ≠ [])
    (hrun : ∀ c ∈ run, isWordChar c = true) (hrest : Begins isBlank rest) :
    (stretch aliasedTable >>= k) (run ++ rest) =
      (optional aliasName >>= fun _ => since (run ++ rest) k) rest := by
  rw [stretch_bind, aliasedTable]
  simp only [bind_assoc, pure_bind]
  rw [word_bind hne hrun hrest]

theorem aliasedTable_bind {k : Stretch → Pattern α} (table : Written.Name)
    (hrest : Begins isBlank rest) :
    (stretch aliasedTable >>= k) (table.text ++ rest) =
      (optional aliasName >>= fun _ => since (table.text ++ rest) k) rest :=
  aliasedTable_word table.ne_nil table.isWordChar_of_mem hrest

/-- Behind the list of a query, its table is read. -/
theorem first?_select (list : Written.SelectList) {s : List Char}
    {r : (Stretch × Stretch × Stretch × Option (List Char)) × List Char}
    (hs : Begins (!isBlank ·) s)
    (hr : (stretch aliasedTable >>= behindTable
      ⟨list.text ++ ' ' :: (lead "FROM" ++ s), ' ' :: (lead "FROM" ++ s)⟩).first? s = some r) :
    select.first? (lead "SELECT" ++ (list.text ++ ' ' :: (lead "FROM" ++ s))) = some r := by
  rw [select, first?, lead_append, keyword, letters_bind (isUpper_of_mem (by simp [keywords]))]
  exact first?_columns list hs hr

/-- Where no alias is written, none is read, if nothing behind the table can be taken for one. -/
theorem aliasName_behind {select : Written.Select} (h : select.IsClear) (hnone : select.nickname = none)
    (columns : Stretch) (s : List Char) :
    (aliasName >>= fun _ => since s (behindTable columns)) select.behind = [] := by
  have hjoin := h.join hnone
  have hcondition := h.condition hnone
  obtain ⟨list, table, nickname, joins | ⟨join, joins⟩, condition⟩ := select
  · cases condition with
    | none => exact bind_of_none (p := aliasName) (s := []) rfl
    | some condition =>
      have hblanks : ∀ c ∈ ' ' :: condition.text.takeWhile isBlank, isBlank c = true :=
        List.forall_mem_cons.mpr ⟨by decide, List.all_eq_true.mp List.all_takeWhile⟩
      have hnone (table : Stretch) := behindTable_none columns table (List.cons_ne_nil _ _) hblanks
        (Text.isUnbroken_takeWhile condition.trim_ne_nil (Text.begins_trim condition.text))
        (hcondition rfl condition rfl) (Text.begins_dropWhile_unbroken (Text.trim condition.text))
      simp only [List.takeWhile_append_dropWhile] at hnone
      refine (aliasName_lead (by simp [keywords]) (by decide) _).trans ?_
      rw [since_apply, ← List.cons_append]
      exact hnone _
  · have hinner : join.withInner = false := hjoin join rfl
    have hnone (table : Stretch) (rest : List Char) (hrest : Begins isBlank rest) :
        behindTable columns table ([' '] ++ (join.table.text ++ rest)) = [] :=
      behindTable_none columns table (by simp) isBlank_of_mem_singleton join.table.isUnbroken
        (fun _ hkey => join.table.spells_text (Written.mem_keywords_of_mem hkey)) hrest
    rw [Written.Select.behind_cons, Written.Join.text_append, hinner, if_neg (by simp), List.nil_append]
    refine (aliasName_lead (by simp [keywords]) (by decide) _).trans ?_
    exact hnone _ _ (begins_aliasText join.nickname (begins_cons _))

/-- A table is read with its alias. -/
theorem first?_aliasedTable {select : Written.Select} (h : select.IsClear) (columns : Stretch) :
    (stretch aliasedTable >>= behindTable columns).first?
      (select.table.text ++ (aliasText select.nickname ++ select.behind)) =
    some ((columns,
      ⟨select.table.text ++ (aliasText select.nickname ++ select.behind), select.behind⟩,
      ⟨select.behind, Written.trimmed select.condition⟩, select.selection.condition), []) := by
  have hbehind (table : Stretch) := first?_behindTable columns table select
  have hbegins := begins_aliasText select.nickname select.begins_behind
  rw [first?, aliasedTable_bind select.table hbegins, optional_bind]
  cases hnickname : select.nickname with
  | none =>
    rw [aliasText, Option.elim_none, List.nil_append, aliasName_behind h hnickname, List.nil_append,
      since_apply]
    exact hbehind _
  | some nickname =>
    rw [aliasText, Option.elim_some, List.cons_append, aliasName_bind nickname select.begins_behind,
      since_apply]
    exact first?_append (first?_append (hbehind _))

/-- Where a join behind a bare table is written with `INNER`, that is read as the alias. -/
theorem first?_bareTable (columns : Stretch) (list : SelectList) (table : Written.Name)
    (join : Written.Join) (joins : List Written.Join) (condition : Option Written.Condition)
    (hinner : join.withInner = true) :
    (stretch aliasedTable >>= behindTable columns).first?
      (table.text ++ (Select.mk list table none (join :: joins) condition).behind) =
    some ((columns,
      ⟨table.text ++ (Select.mk list table none (join :: joins) condition).behind,
        (Select.mk list table none (join.bare :: joins) condition).behind⟩,
      ⟨(Select.mk list table none (join.bare :: joins) condition).behind,
        Written.trimmed condition⟩, condition.map (Text.trim ·.text)), []) := by
  have htext : (Select.mk list table none (join :: joins) condition).behind =
      ' ' :: (lead "INNER" ++ (join.bare.text ++ (joinsText joins ++ trimmed condition))) := by
    rw [Select.behind_cons, Written.Join.text_append, Written.Join.text_append, hinner]
    rfl
  have hbehind (place : Stretch) := first?_behindTable columns place
    (Select.mk list table none (join.bare :: joins) condition)
  rw [first?, aliasedTable_bind table (Select.begins_behind _), optional_bind, htext,
    aliasName_lead (by simp [keywords]) (by decide), since_apply]
  rw [Select.behind_cons] at hbehind ⊢
  exact first?_append (hbehind _)

end Relational.Pattern
