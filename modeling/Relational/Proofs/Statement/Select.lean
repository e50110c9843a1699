import Relational.Proofs.Script.Sentence
import Relational.Proofs.Statement.Clause

/-!
# Reading written queries

The text of a clear query (`Written.Select.IsClear`), alone in a script, is read as one statement with
the parts that are meant, and the text of its joins as the joins that are meant
(`Script.batches_select`). It is one statement because it stands on one line
(`Script.split_of_isOneLine`), and it is no statement of another kind because of its first letter. A
query that is not clear can be faulty: behind a table without an alias, the `INNER` of a join is taken
for the alias (`Script.batches_of_withInner`).
-/

namespace Relational

open Text (Begins IsUnbroken spells)
open Relational.Written (lead lead_append aliasText joinsText keywords isUpper_of_mem)

namespace Statement

/-- No name is a reserved word. -/
theorem any_reservedWords (name : Written.Name) :
    (reservedWords.any fun reserved => Text.sameWord reserved.toList name.text) = false := by
  have hsub : ∀ reserved ∈ reservedWords, reserved ∈ keywords := by decide
  rw [List.any_eq_false]
  intro reserved hreserved hsame
  have hkeyword := hsub reserved hreserved
  have hspells := Text.spells_of_sameWord (isUpper_of_mem hkeyword) hsame
  rw [name.spells_text hkeyword] at hspells
  cases hspells

/-- A table is split from its alias as it is written. -/
theorem readTable_text (table : Written.Name) (nickname : Option Written.Alias) :
    readTable (table.text ++ aliasText nickname) =
      .ok (table.name, nickname.map (·.name.name)) := by
  have htable : String.ofList table.text = table.name := String.ofList_toList
  rw [readTable]
  cases nickname with
  | none =>
    rw [aliasText, Option.elim_none, List.append_nil, Text.words_unbroken table.isUnbroken]
    simp only [ok_bind, pure_eq_ok, htable, Option.map_none]
  | some nickname =>
    obtain ⟨name, withAs⟩ := nickname
    have hname : String.ofList name.text = name.name := String.ofList_toList
    have hreserved := any_reservedWords name
    have hwords : Text.words (table.text ++ aliasText (some ⟨name, withAs⟩)) =
        table.text :: ((if withAs then ["AS".toList] else []) ++ [name.text]) := by
      rw [aliasText, Option.elim_some, Text.words_cons table.isUnbroken, Written.Alias.text]
      cases withAs with
      | false => exact congrArg _ (Text.words_unbroken name.isUnbroken)
      | true =>
        rw [if_pos rfl, lead_append, Text.words_cons (Written.isUnbroken_of_mem (by simp [keywords])),
          Text.words_unbroken name.isUnbroken]
        rfl
    have has : Text.sameWord "AS".toList "AS".toList = true := by decide
    rw [hwords]
    cases withAs with
    | false =>
      simp only [Bool.false_eq_true, ↓reduceIte, List.nil_append, ok_bind, hreserved, htable, hname,
        pure_eq_ok, Option.map_some]
    | true =>
      simp only [↓reduceIte, List.cons_append, List.nil_append, has, ok_bind, hreserved,
        Bool.false_eq_true, htable, hname, pure_eq_ok, Option.map_some]

/-- What is read of the table, the joins and the condition of a query makes the statement. -/
theorem read?_query (list : Written.SelectList) {s : List Char} {table joins : Pattern.Stretch}
    {condition : Option (List Char)} (hs : Begins (!isBlank ·) s)
    (h : ∀ columns, (Pattern.stretch Pattern.aliasedTable >>= Pattern.behindTable columns).first? s =
      some ((columns, table, joins, condition), [])) :
    read? (lead "SELECT" ++ (list.text ++ ' ' :: (lead "FROM" ++ s))) =
      some (orFaulty .select (readSelect list.text table.text joins.text condition)) := by
  have hselect := Pattern.whole?_eq_some (Pattern.first?_select list hs (h _))
  have hlist := Pattern.Stretch.text_append list.text (' ' :: (lead "FROM" ++ s))
  rw [read?_eq_readAs? .select (by rw [lead_append]; rfl) (by decide), readAs?, hselect,
    Option.map_some]
  simp only [hlist]

end Statement

namespace Written.Select

theorem start_append (select : Select) :
    select.start ++ trimmed select.condition = lead "SELECT" ++ (select.list.text ++
      ' ' :: (lead "FROM" ++ (select.table.text ++ (aliasText select.nickname ++ select.behind)))) := by
  simp only [start, behind, List.append_assoc, List.cons_append]

theorem head?_start (select : Select) (s : List Char) : (select.start ++ s).head? = some 'S' := by
  simp only [start, List.append_assoc, lead_append]
  rfl

/-- What is read of the table, the joins and the condition makes the statement. -/
theorem read?_start {select : Select} {table joins : Pattern.Stretch} {condition : Option (List Char)}
    (h : ∀ columns, (Pattern.stretch Pattern.aliasedTable >>= Pattern.behindTable columns).first?
      (select.table.text ++ (aliasText select.nickname ++ select.behind)) =
        some ((columns, table, joins, condition), [])) :
    Statement.read? (select.start ++ trimmed select.condition) =
      some (Statement.orFaulty .select
        (Statement.readSelect select.list.text table.text joins.text condition)) := by
  rw [start_append]
  exact Statement.read?_query select.list (select.table.isUnbroken.begins _) h

theorem text_behind (select : Select) :
    Pattern.Stretch.text ⟨select.behind, trimmed select.condition⟩ = joinsText select.joins :=
  Pattern.Stretch.text_append _ _

/-- A clear query is read as it is meant. -/
theorem read?_of_isClear {select : Select} (h : select.IsClear) :
    Statement.read? (select.start ++ trimmed select.condition) =
      some (.select select.selection) := by
  have htable := Pattern.Stretch.text_append (select.table.text ++ aliasText select.nickname)
    select.behind
  rw [List.append_assoc] at htable
  rw [read?_start (Pattern.first?_aliasedTable h), htable, text_behind, Statement.readSelect,
    Statement.readTable_text, ok_bind]
  rfl

/-- A join with `INNER` behind a bare table makes the query faulty. -/
theorem read?_of_withInner (list : SelectList) (table : Name) (join : Join) (joins : List Join)
    (condition : Option Condition) (hinner : join.withInner = true) :
    Statement.read? ((Select.mk list table none (join :: joins) condition).start ++
      trimmed condition) = some (.faulty .select (.reservedAlias "INNER")) := by
  have htable := Pattern.Stretch.text_append (table.text ++ ' ' :: "INNER".toList)
    (Select.mk list table none (join.bare :: joins) condition).behind
  have hread : Statement.readTable (table.text ++ ' ' :: "INNER".toList) =
      .error (.reservedAlias "INNER") := by
    have hinner : IsUnbroken "INNER".toList := Written.isUnbroken_of_mem (by simp [keywords])
    rw [Statement.readTable, Text.words_cons table.isUnbroken, Text.words_unbroken hinner]
    rfl
  have htext : (Select.mk list table none (join :: joins) condition).behind =
      ' ' :: "INNER".toList ++ (Select.mk list table none (join.bare :: joins) condition).behind := by
    rw [behind_cons, behind_cons, Join.text_append, Join.text_append, hinner]
    rfl
  have hfirst := fun columns => Pattern.first?_bareTable columns list table join joins condition hinner
  refine (@read?_start (Select.mk list table none (join :: joins) condition) _ _ _ hfirst).trans ?_
  rw [htext, ← List.append_assoc, htable, Statement.readSelect, hread, error_bind]
  rfl

end Written.Select

/-! ## Scripts -/

namespace Script

/-- A statement on one line goes on to the end of the text. -/
theorem spanStatement_of_isOneLine {cursor : Cursor} {s : List Char} (hstart : cursor.atLineStart = false)
    (h : Written.isOneLine cursor.quoted s = true) : spanStatement cursor s = (s, []) := by
  induction s generalizing cursor with
  | nil => rfl
  | cons c s ih =>
    simp only [Written.isOneLine, Bool.and_eq_true, bne_iff_ne, Bool.or_eq_true] at h
    obtain ⟨⟨hbreak, hsemicolon⟩, hs⟩ := h
    have hends : cursor.endsBefore (c :: s) = false := by
      rw [Cursor.endsBefore, hstart]
      rcases hsemicolon with hquoted | hsemicolon
      · simp [hquoted]
      · simp [hsemicolon]
    have hafter : (cursor.after c).atLineStart = false := by
      simp [Cursor.after, hbreak, hstart]
    rw [spanStatement, hends, ih hafter hs]
    rfl

theorem split_of_isOneLine {c : Char} {s : List Char} (hc : Text.isFoldedLetter c = true)
    (h : Written.isOneLine false (c :: s) = true) : split (c :: s) = ([⟨[], c :: s⟩], []) := by
  have hblank : isBlank c = false := isBlank_eq_false_of (by decide) hc
  have hne (d : Char) (hd : Text.isFoldedLetter d = false) : c ≠ d := by
    rintro rfl
    rw [hc] at hd
    nomatch hd
  have hskipped : spanSkipped false (c :: s) = ([], c :: s) := by
    simp [spanSkipped, hblank, hne ';' (by decide), hne '-' (by decide)]
  have hstart : Cursor.start.after c = .start := by
    simp [Cursor.after, Cursor.start, hblank, hne '\'' (by decide), hne '(' (by decide),
      hne ')' (by decide), hne '\n' (by decide)]
  have hline : Written.isOneLine false s = true := by
    simpa [Written.isOneLine, hne '\n' (by decide), hne ';' (by decide), hne '\'' (by decide)]
      using h
  have hspan : spanStatement (Cursor.start.after c) s = (s, []) := by
    rw [hstart]
    exact spanStatement_of_isOneLine rfl hline
  rw [split_cons hskipped hspan, split_of_skipped rfl]

/-- A statement on one line is a script on its own. -/
theorem batches_of_read? {c : Char} {s t : List Char} {statement : Statement}
    (hc : Text.isFoldedLetter c = true) (hs : s.head? = some c)
    (hline : Written.isOneLine false s = true) (htrim : Text.trim s = t)
    (hread : Statement.read? t = some statement) : batches s = .ok [[statement]] := by
  obtain ⟨s, rfl⟩ := List.head?_eq_some_iff.mp hs
  have hgo := Statement.sameWord_go_of_read? hread
  rw [batches, split_of_isOneLine hc hline]
  simp only [readParts, readItem, htrim, hgo, hread, Bool.false_eq_true, ↓reduceIte, ok_bind,
    pure_eq_ok, group, List.isEmpty_cons, List.reverse_singleton]

end Script

namespace JoinClause

theorem readAll_nil : readAll [] = .ok [] := by
  rw [readAll]
  rfl

theorem readAll_of_search? {s before rest : List Char} {clause : JoinClause}
    (h : Pattern.join.search? s = some (before, clause, rest)) (hbefore : Text.trim before = []) :
    readAll s = do return clause :: (← readAll rest) := by
  rw [readAll]
  split
  · rename_i hnone
    rw [h] at hnone
    cases hnone
  · rename_i hsome
    rw [h] at hsome
    cases hsome
    rw [hbefore]
    rfl

/-- The text of joins is read as the joins that are meant. -/
theorem readAll_joinsText (joins : List Written.Join) :
    readAll (joinsText joins) = .ok (joins.map Written.Join.clause) := by
  induction joins with
  | nil => exact readAll_nil
  | cons join joins ih =>
    have hbegins : Begins isBlank (joinsText joins) := by
      cases joins with
      | nil => simp [joinsText, Begins]
      | cons join joins => exact Written.begins_cons _
    have hlt : (joinsText joins).length < (join.text ++ joinsText joins).length := by
      simp only [Written.Join.text, lead, List.length_append, List.length_cons]
      omega
    have hsearch : Pattern.join.search? (' ' :: (join.text ++ joinsText joins)) =
        some ([' '], join.clause, joinsText joins) := by
      rw [Pattern.search?_of_none rfl,
        Pattern.search?_of_first? (Pattern.first?_join join hbegins) hlt, Option.map_some]
    have htext : joinsText (join :: joins) = ' ' :: (join.text ++ joinsText joins) := by
      rw [joinsText, List.flatMap_cons, List.cons_append]
      rfl
    rw [htext, readAll_of_search? hsearch (by decide), ih, ok_bind, pure_eq_ok, List.map_cons]

end JoinClause

namespace Written

theorem Join.ends_text (join : Join) : Text.Ends join.text := by
  rw [Join.text]
  exact join.right.isUnbroken.ends.append _

theorem ends_aliasText {s : List Char} (h : Text.Ends s) (nickname : Option Alias) :
    Text.Ends (s ++ aliasText nickname) := by
  cases nickname with
  | none => rwa [aliasText, Option.elim_none, List.append_nil]
  | some nickname =>
    rw [aliasText, Option.elim_some, Alias.text, ← List.cons_append]
    exact (nickname.name.isUnbroken.ends.append _).append s

theorem ends_joinsText {s : List Char} (h : Text.Ends s) (joins : List Join) :
    Text.Ends (s ++ joinsText joins) := by
  induction joins generalizing s with
  | nil => rwa [joinsText, List.flatMap_nil, List.append_nil]
  | cons join joins ih =>
    rw [joinsText, List.flatMap_cons, ← List.append_assoc]
    exact ih ((join.ends_text.append [' ']).append s)

namespace Select

/-- A name or a column stands last before the condition. -/
theorem ends_start (select : Select) : Text.Ends select.start :=
  ends_joinsText (ends_aliasText (select.table.isUnbroken.ends.append _) select.nickname) select.joins

theorem trimEnd_conditionText (condition : Condition) :
    Text.trimEnd (' ' :: lead "WHERE" ++ condition.text) = trimmed (some condition) := by
  have htrim := Text.trimEnd_eq_append condition.trim_ne_nil
  rw [Text.trimEnd_append, htrim]
  · rfl
  · rw [htrim]
    exact fun h => condition.trim_ne_nil (List.append_eq_nil_iff.mp h).2

/-- Only blanks behind the condition are trimmed off a query. -/
theorem trim_text (select : Select) :
    Text.trim select.text = select.start ++ trimmed select.condition := by
  have hstart : Text.trimStart select.text = select.text := by
    refine Text.trimStart_eq_self fun c hc => ?_
    rw [text, head?_start] at hc
    cases hc
    decide
  rw [Text.trim, hstart, text]
  cases select.condition with
  | none =>
    rw [Option.elim_none, List.append_nil, select.ends_start.trimEnd_eq]
    exact (List.append_nil _).symm
  | some condition =>
    rw [Option.elim_some, Text.trimEnd_append, trimEnd_conditionText]
    rw [trimEnd_conditionText]
    exact List.cons_ne_nil _ _

end Select

/-! ## One line -/

theorem isPlain_lead {keyword : String} (h : keyword ∈ keywords) : ∀ c ∈ lead keyword, isPlain c = true :=
  List.forall_mem_append.mpr ⟨fun c hc =>
    isPlain_of_isWordChar (isWordChar_of_mem h c hc),
    List.forall_mem_singleton.mpr (by decide)⟩

theorem Name.isPlain_of_mem {name : Name} : ∀ c ∈ name.text, isPlain c = true :=
  fun c hc => isPlain_of_isWordChar (name.isWordChar_of_mem c hc)

theorem isPlain_cons {s : List Char} (h : ∀ c ∈ s, isPlain c = true) :
    ∀ c ∈ ' ' :: s, isPlain c = true :=
  List.forall_mem_cons.mpr ⟨by decide, h⟩

theorem isPlain_aliasText (nickname : Option Alias) : ∀ c ∈ aliasText nickname, isPlain c = true := by
  cases nickname with
  | none => simp [aliasText]
  | some nickname =>
    obtain ⟨name, withAs⟩ := nickname
    refine isPlain_cons (List.forall_mem_append.mpr ⟨?_, name.isPlain_of_mem⟩)
    cases withAs with
    | false => simp
    | true => exact isPlain_lead (by simp [keywords])

theorem Join.isPlain_text (join : Join) : ∀ c ∈ join.text, isPlain c = true := by
  have hinner : ∀ c ∈ (if join.withInner then lead "INNER" else []), isPlain c = true := by
    cases join.withInner with
    | false => simp
    | true => exact isPlain_lead (by simp [keywords])
  have hon := isPlain_cons (isPlain_lead (show "ON" ∈ keywords by simp [keywords]))
  have hequal : ∀ c ∈ ' ' :: lead "=", isPlain c = true :=
    List.all_eq_true.mp (by decide)
  simp only [Join.text, List.forall_mem_append]
  exact ⟨⟨⟨⟨⟨⟨⟨hinner, isPlain_lead (by simp [keywords])⟩, Name.isPlain_of_mem⟩,
    isPlain_aliasText join.nickname⟩, hon⟩, Reference.isPlain_of_mem⟩, hequal⟩,
    Reference.isPlain_of_mem⟩

theorem forall_mem_commas {p : Char → Prop} {texts : List (List Char)} (hcomma : p ',') (hblank : p ' ')
    (h : ∀ text ∈ texts, ∀ c ∈ text, p c) : ∀ c ∈ commas texts, p c := by
  induction texts with
  | nil => nofun
  | cons text texts ih =>
    obtain ⟨htext, htexts⟩ := List.forall_mem_cons.mp h
    cases texts with
    | nil => exact htext
    | cons next texts =>
      rw [commas]
      · refine List.forall_mem_append.mpr ⟨List.forall_mem_append.mpr ⟨htext, ?_⟩, ih htexts⟩
        exact List.forall_mem_cons.mpr ⟨hcomma, List.forall_mem_singleton.mpr hblank⟩
      · simp

theorem SelectList.isPlain_text (list : SelectList) : ∀ c ∈ list.text, isPlain c = true := by
  refine forall_mem_commas (by decide) (by decide) ?_
  cases list with
  | star => exact List.forall_mem_singleton.mpr (List.forall_mem_singleton.mpr (by decide))
  | items first more =>
    intro text htext
    obtain ⟨item, -, rfl⟩ := List.mem_map.mp htext
    exact item.isPlain_of_mem

namespace Select

theorem isPlain_start (select : Select) : ∀ c ∈ select.start, isPlain c = true := by
  have hfrom := isPlain_cons (isPlain_lead (show "FROM" ∈ keywords by simp [keywords]))
  have hjoins : ∀ c ∈ joinsText select.joins, isPlain c = true := by
    intro c hc
    obtain ⟨join, -, hc⟩ := List.mem_flatMap.mp hc
    exact isPlain_cons join.isPlain_text c hc
  simp only [start, List.forall_mem_append]
  exact ⟨⟨⟨⟨⟨isPlain_lead (by simp [keywords]), select.list.isPlain_text⟩, hfrom⟩,
    Name.isPlain_of_mem⟩, isPlain_aliasText select.nickname⟩, hjoins⟩

theorem isOneLine_text (select : Select) : isOneLine false select.text = true := by
  rw [text, isOneLine_append select.isPlain_start]
  cases select.condition with
  | none => rfl
  | some condition =>
    have hwhere := isPlain_cons (isPlain_lead (show "WHERE" ∈ keywords by simp [keywords]))
    rw [Option.elim_some, isOneLine_append hwhere]
    exact condition.isOneLine

end Select

end Written

theorem Script.batches_text {select : Written.Select} {statement : Statement}
    (h : Statement.read? (select.start ++ Written.trimmed select.condition) = some statement) :
    Script.batches select.text = .ok [[statement]] :=
  Script.batches_of_read? (by decide) (select.head?_start _) select.isOneLine_text select.trim_text h

/-- A clear query is read as it is written: as one statement with the list, the table, the alias and
the condition that are meant, and with the joins that are meant. -/
theorem Script.batches_select (select : Written.Select) (h : select.IsClear) :
    Script.batches select.text = .ok [[.select select.selection]] ∧
      JoinClause.readAll select.selection.joins = .ok (select.joins.map Written.Join.clause) :=
  ⟨Script.batches_text (Written.Select.read?_of_isClear h),
    JoinClause.readAll_joinsText select.joins⟩

namespace Written

/-- `SELECT t.a, COUNT(*) FROM t JOIN u AS v ON t.a = v.b WHERE a = 1`. -/
def joinedSelect : Select where
  list := .items (.column ⟨some (.of "t" (by decide)), .of "a" (by decide)⟩)
    [.aggregate .count none]
  table := .of "t" (by decide)
  nickname := none
  joins := [⟨false, .of "u" (by decide), some ⟨.of "v" (by decide), true⟩,
    ⟨some (.of "t" (by decide)), .of "a" (by decide)⟩,
    ⟨some (.of "v" (by decide)), .of "b" (by decide)⟩⟩]
  condition := some ⟨"a = 1".toList, by decide, by decide⟩

/-- `SELECT a FROM t INNER JOIN u ON a = b`. -/
def innerSelect : Select where
  list := .items (.column ⟨none, .of "a" (by decide)⟩) []
  table := .of "t" (by decide)
  nickname := none
  joins := [⟨true, .of "u" (by decide), none, ⟨none, .of "a" (by decide)⟩,
    ⟨none, .of "b" (by decide)⟩⟩]
  condition := none

end Written

theorem Script.batches_joinedSelect :
    Written.joinedSelect.text =
        "SELECT t.a, COUNT(*) FROM t JOIN u AS v ON t.a = v.b WHERE a = 1".toList ∧
      Written.joinedSelect.IsClear ∧
      Script.batches Written.joinedSelect.text = .ok [[.select Written.joinedSelect.selection]] ∧
      JoinClause.readAll Written.joinedSelect.selection.joins = .ok [⟨"u", some "v", "t.a", "v.b"⟩] := by
  have hclear : Written.joinedSelect.IsClear := by
    refine ⟨fun _ join hjoin => ?_, nofun⟩
    cases hjoin
    rfl
  have h := Script.batches_select Written.joinedSelect hclear
  exact ⟨by decide, hclear, h.1, h.2⟩

/-- Where a join with `INNER` stands behind a table without an alias, the query is faulty. -/
theorem Script.batches_of_withInner (list : Written.SelectList) (table : Written.Name)
    (join : Written.Join) (joins : List Written.Join) (condition : Option Written.Condition)
    (hinner : join.withInner = true) :
    Script.batches (Written.Select.mk list table none (join :: joins) condition).text =
      .ok [[.faulty .select (.reservedAlias "INNER")]] :=
  Script.batches_text (Written.Select.read?_of_withInner list table join joins condition hinner)

theorem Script.batches_innerSelect_ne :
    Written.innerSelect.text = "SELECT a FROM t INNER JOIN u ON a = b".toList ∧
      Script.batches Written.innerSelect.text ≠ .ok [[.select Written.innerSelect.selection]] := by
  refine ⟨by decide, ?_⟩
  rw [Written.innerSelect, Script.batches_of_withInner _ _ _ _ _ rfl]
  nofun

end Relational
