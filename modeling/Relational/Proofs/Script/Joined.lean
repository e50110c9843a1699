import Relational.Engine
import Relational.Proofs.Script.Sentence

/-!
# Scripts after one another

A script stands behind another one with a semicolon on a line of its own between them
(`Script.join`). If the last statement of the first closes its quotes (`Script.IsClosed`), no text of
either is cut elsewhere than before: the statements of the joined script are those of the first and
then those of the second (`Script.texts_join`), whatever stands at the seam. So both are read as they
are alone (`Script.batches_join`), and an engine carries out the joined script as it does the two
one after the other (`Engine.execute_join`).
-/

namespace Relational

namespace Script

variable {cursor : Cursor} {inComment : Bool} {c : Char} {s a b statement skipped rest : List Char}

/-- A script behind another one, with a semicolon on a line of its own between them. -/
def join (a b : List Char) : List Char :=
  a ++ '\n' :: ';' :: '\n' :: b

/-- The last statement has an even number of quotes. -/
def IsClosed (s : List Char) : Prop :=
  ∀ part ∈ (split s).1.getLast?, Even (part.statement.count '\'')

instance : Decidable (IsClosed s) :=
  inferInstanceAs (Decidable (∀ part ∈ (split s).1.getLast?, Even (part.statement.count '\'')))

/-! ## Statements in front of a line break -/

/-- A statement that ends within a text ends there whatever lines come behind the text. -/
theorem spanStatement_append (h : spanStatement cursor s = (statement, c :: rest))
    (t : List Char) :
    spanStatement cursor (s ++ '\n' :: t) = (statement, c :: rest ++ '\n' :: t) := by
  induction s generalizing cursor statement with
  | nil => simp [spanStatement] at h
  | cons d s ih =>
    have hends := cursor.endsBefore_append d s (any_isNameChar_lineBreak t)
    rw [List.cons_append] at hends
    rw [spanStatement] at h
    rw [List.cons_append, spanStatement, hends]
    split at h
    · rename_i hd
      cases h
      rw [if_pos hd]
      rfl
    · rename_i hd
      obtain ⟨h₁, h₂⟩ := Prod.mk.inj h
      rw [if_neg hd, ih (Prod.ext rfl h₂)]
      simp [← h₁]

/-- A statement that goes on to the end of a text is not cut. -/
theorem isUncut_of_spanStatement (h : spanStatement cursor s = (statement, [])) :
    isUncut cursor s = true ∧ statement = s := by
  have hs := spanStatement_parts cursor s
  rw [h, List.append_nil] at hs
  obtain rfl : statement = s := hs
  have hspan : spanStatement cursor (statement ++ []) = (statement, []) := by rwa [List.append_nil]
  exact ⟨((spanStatement_eq_iff rfl).mp hspan).1, rfl⟩

/-! ## What is skipped in front of a line break -/

theorem spanSkipped_append (h : spanSkipped inComment s = (skipped, c :: rest)) (t : List Char) :
    spanSkipped inComment (s ++ '\n' :: t) = (skipped, c :: rest ++ '\n' :: t) := by
  induction s generalizing inComment skipped with
  | nil => simp [spanSkipped] at h
  | cons d s ih =>
    -- a dash at the end of the text does not become a comment, since a line break follows it
    have hdash : d = '-' ∧ (s ++ '\n' :: t).head? = some '-' ↔ d = '-' ∧ s.head? = some '-' := by
      cases s <;> simp
    rw [spanSkipped] at h
    rw [List.cons_append, spanSkipped]
    split at h
    · rename_i hd
      obtain ⟨h₁, h₂⟩ := Prod.mk.inj h
      rw [if_pos hd, ih (Prod.ext rfl h₂)]
      simp [← h₁]
    · rename_i hd
      rw [if_neg hd]
      split at h
      · rename_i hcomment
        obtain ⟨h₁, h₂⟩ := Prod.mk.inj h
        rw [if_pos (hdash.mpr hcomment), ih (Prod.ext rfl h₂)]
        simp [← h₁]
      · rename_i hcomment
        cases h
        rw [if_neg (mt hdash.mp hcomment)]
        rfl

/-- Where all of a text is skipped, also a comment at its end ends with the line. -/
theorem spanSkipped_append_of_skipped (h : (spanSkipped inComment s).2 = []) (t : List Char) :
    (spanSkipped inComment (s ++ '\n' :: t)).2 = (spanSkipped false t).2 := by
  induction s generalizing inComment with
  | nil =>
    have hblank : isBlank '\n' = true := by decide
    simp [spanSkipped, hblank]
  | cons d s ih =>
    rw [spanSkipped] at h
    rw [List.cons_append, spanSkipped]
    split at h
    · rename_i hd
      rw [if_pos hd]
      exact ih h
    · rename_i hd
      rw [if_neg hd]
      split at h
      · rename_i hdash
        obtain ⟨hdash, hhead⟩ := hdash
        obtain ⟨s, rfl⟩ := List.head?_eq_some_iff.mp hhead
        rw [if_pos ⟨hdash, rfl⟩]
        exact ih h
      · cases h

/-! ## The texts of statements -/

/-- The texts of the statements of a script. -/
def texts (s : List Char) : List (List Char) :=
  (split s).1.map fun part => Text.trim part.statement

theorem texts_of_skipped (h : (spanSkipped false s).2 = []) : texts s = [] := by
  rw [texts, split_of_skipped (Prod.ext rfl h), List.map_nil]

theorem texts_cons {t : List Char} (hskipped : (spanSkipped false s).2 = c :: t)
    (hstatement : spanStatement (Cursor.start.after c) t = (statement, rest)) :
    texts s = Text.trim (c :: statement) :: texts rest := by
  rw [texts, split_cons (Prod.ext rfl hskipped) hstatement, List.map_cons, texts]

/-- What is skipped at the start of a script does not matter. -/
theorem texts_congr {t : List Char} (h : (spanSkipped false s).2 = (spanSkipped false t).2) :
    texts s = texts t := by
  cases hs : (spanSkipped false s).2 with
  | nil => rw [texts_of_skipped hs, texts_of_skipped (h ▸ hs)]
  | cons c s' =>
    have ht : (spanSkipped false t).2 = c :: s' := h ▸ hs
    rw [texts_cons hs (Prod.eta _).symm, texts_cons ht (Prod.eta _).symm]

theorem texts_semicolon (b : List Char) : texts (';' :: '\n' :: b) = texts b := by
  refine texts_congr ?_
  have hsemicolon : isBlank ';' = false := by decide
  have hbreak : isBlank '\n' = true := by decide
  simp [spanSkipped, hsemicolon, hbreak]

/-- What follows a statement of a closed script is closed. -/
theorem IsClosed.of_split_eq {part : Part} (h : IsClosed s)
    (hsplit : (split s).1 = part :: (split rest).1) : IsClosed rest := by
  intro last hlast
  refine h last ?_
  rw [hsplit, List.getLast?_cons, Option.mem_def.mp hlast]
  rfl

/-- The statements of joined scripts are those of the first and those of the second. -/
theorem texts_join (a b : List Char) (h : IsClosed a) : texts (join a b) = texts a ++ texts b := by
  generalize hn : a.length = n
  induction n using Nat.strongRecOn generalizing a with
  | ind n ih =>
    subst hn
    rcases hskipped : spanSkipped false a with ⟨skipped, - | ⟨c, t⟩⟩
    · have hseam : texts (join a b) = texts (';' :: '\n' :: b) :=
        texts_congr (spanSkipped_append_of_skipped (congrArg Prod.snd hskipped) _)
          |>.trans (by rfl)
      rw [hseam, texts_semicolon, texts_of_skipped (congrArg Prod.snd hskipped), List.nil_append]
    · have hjoin : (spanSkipped false (join a b)).2 = c :: (t ++ '\n' :: ';' :: '\n' :: b) :=
        congrArg Prod.snd (spanSkipped_append hskipped _)
      have hlength := length_spanSkipped_le false a
      rw [hskipped, List.length_cons] at hlength
      rcases hstatement : spanStatement (Cursor.start.after c) t with ⟨statement, - | ⟨d, rest⟩⟩
      · -- the last statement of the first script goes on to its end: the semicolon ends it
        have hnil : spanSkipped false [] = ([], []) := rfl
        have hsplit := congrArg Prod.fst (split_cons hskipped hstatement)
        rw [split_of_skipped hnil] at hsplit
        have heven : Even ((c :: statement).count '\'') :=
          h ⟨skipped, c :: statement⟩ (by rw [hsplit]; rfl)
        obtain ⟨huncut, rfl⟩ := isUncut_of_spanStatement hstatement
        have hquotes : (Cursor.past (c :: statement)).quoted = false := by
          rw [← Bool.not_eq_true, Cursor.quoted_past, Nat.not_odd_iff_even]
          exact heven
        have hend : texts [] = [] := texts_of_skipped rfl
        rw [texts_cons hjoin (spanStatement_of_isUncut huncut hquotes), texts_semicolon,
          texts_cons (congrArg Prod.snd hskipped) hstatement, hend, ← List.cons_append,
          Text.trim_concat (by decide)]
        rfl
      · have hlength' := length_spanStatement_le (Cursor.start.after c) t
        rw [hstatement] at hlength'
        have hshorter : (d :: rest).length < a.length := Nat.lt_of_le_of_lt hlength' hlength
        have hrest : IsClosed (d :: rest) :=
          h.of_split_eq (congrArg Prod.fst (split_cons hskipped hstatement))
        have hcut := spanStatement_append hstatement (';' :: '\n' :: b)
        rw [texts_cons hjoin hcut, texts_cons (congrArg Prod.snd hskipped) hstatement,
          List.cons_append]
        exact congrArg _ (ih _ hshorter (d :: rest) hrest rfl)

/-! ## Reading -/

/-- What a text is read as, on whatever line it stands. -/
def Item.read? (s : List Char) : Option Item :=
  if Text.sameWord "GO".toList s then some .go else (Statement.read? s).map .statement

/-- The statement of a line. -/
def Item.statements : Item → List Statement
  | .statement statement => [statement]
  | .go => []

theorem readItem_eq_ok_iff {line : Nat} {item : Item} :
    readItem line s = .ok item ↔ Item.read? (Text.trim s) = some item := by
  rw [readItem, Item.read?]
  split
  · simp
  · cases Statement.read? (Text.trim s) <;> simp

theorem readParts_eq_ok_iff {line : Nat} {parts : List Part} {items : List Item} :
    readParts line parts = .ok items ↔
      parts.map (fun part => Item.read? (Text.trim part.statement)) = items.map some := by
  induction parts generalizing line items with
  | nil =>
    rw [readParts, List.map_nil, eq_comm, List.nil_eq, List.map_eq_nil_iff, Except.ok.injEq, eq_comm]
  | cons part parts ih =>
    simp only [readParts, bind_eq_ok_iff, pure_eq_ok, readItem_eq_ok_iff, ih, List.map_cons]
    constructor
    · rintro ⟨item, hitem, items, hitems, h⟩
      cases h
      rw [hitem, hitems, List.map_cons]
    · intro h
      obtain ⟨item, items, rfl, hitem, hitems⟩ := List.map_eq_cons_iff.mp h.symm
      exact ⟨item, hitem.symm, items, hitems.symm, rfl⟩

/-- A script is read if each of its statements is. -/
theorem batches_eq_ok_iff {batches : List (List Statement)} :
    Script.batches s = .ok batches ↔
      ∃ items, (texts s).map Item.read? = items.map some ∧ group [] items = batches := by
  simp only [Script.batches, bind_eq_ok_iff, pure_eq_ok, readParts_eq_ok_iff, texts, List.map_map,
    Except.ok.injEq]
  rfl

theorem flatten_group (current : List Statement) (items : List Item) :
    (group current items).flatten = current.reverse ++ items.flatMap Item.statements := by
  induction items generalizing current with
  | nil => cases current <;> simp [group]
  | cons item items ih =>
    cases item with
    | statement statement => rw [group, ih]; simp [Item.statements]
    | go => cases current <;> simp [group, ih, Item.statements]

/-- Joined scripts are read as the first and then the second. -/
theorem batches_join {first second : List (List Statement)} (ha : batches a = .ok first)
    (hb : batches b = .ok second) (hclosed : IsClosed a) :
    ∃ joined, batches (join a b) = .ok joined ∧
      joined.flatten = first.flatten ++ second.flatten := by
  obtain ⟨items, hitems, rfl⟩ := batches_eq_ok_iff.mp ha
  obtain ⟨items', hitems', rfl⟩ := batches_eq_ok_iff.mp hb
  refine ⟨_, batches_eq_ok_iff.mpr ⟨items ++ items', ?_, rfl⟩, ?_⟩
  · rw [texts_join a b hclosed, List.map_append, hitems, hitems', List.map_append]
  · simp [flatten_group]

end Script

/-! ## Carrying out -/

namespace Engine

/-- Goes on behind work, if it has answers. -/
def followedBy : Except Failure (List Answer) × Engine →
    (Engine → Except Failure (List Answer) × Engine) → Except Failure (List Answer) × Engine
  | (.ok answers, engine), next => ((next engine).1.map (answers ++ ·), (next engine).2)
  | (.error failure, engine), _ => (.error failure, engine)

/-- Carries out two scripts one after the other. -/
def executeBoth (engine : Engine) (session : SessionId) (a b : List Char) :
    Except Failure (List Answer) × Engine :=
  followedBy (engine.execute session a) (·.execute session b)

theorem answerAll_append (engine : Engine) (session : SessionId)
    (statements more : List Statement) : engine.answerAll session (statements ++ more) =
      followedBy (engine.answerAll session statements) (·.answerAll session more) := by
  induction statements generalizing engine with
  | nil =>
    rw [List.nil_append, answerAll, followedBy]
    rcases engine.answerAll session more with ⟨failure | answers, engine⟩ <;> rfl
  | cons statement statements ih =>
    rw [List.cons_append, answerAll, answerAll]
    rcases engine.answer session statement with ⟨failure | answer, engine⟩
    · rfl
    · simp only [ih]
      rcases engine.answerAll session statements with ⟨failure | answers, engine⟩
      · rfl
      · simp only [followedBy, map_ok]
        rcases engine.answerAll session more with ⟨failure | others, engine⟩ <;> rfl

theorem execute_of_batches {script : List Char} {batches : List (List Statement)}
    (h : Script.batches script = .ok batches) (engine : Engine) (session : SessionId) :
    engine.execute session script = engine.answerAll session batches.flatten := by
  rw [execute, h]

/-- A script of one statement has the answer of the statement. -/
theorem execute_single_iff {script : List Char} {statement : Statement} {engine engine' : Engine}
    {session : SessionId} {answers : List Answer} (h : Script.batches script = .ok [[statement]]) :
    engine.execute session script = (.ok answers, engine') ↔
      ∃ answer, engine.answer session statement = (.ok answer, engine') ∧ answers = [answer] := by
  rw [execute_of_batches h, List.flatten_singleton, answerAll]
  rcases engine.answer session statement with ⟨failure | answer, between⟩
  · simp
  · constructor
    · rintro ⟨⟩
      exact ⟨answer, rfl, rfl⟩
    · rintro ⟨_, ⟨⟩, rfl⟩
      rfl

/-- Scripts compose: where both are read and the first closes its quotes, the joined script is read
as the first and then the second, and carried out so. -/
theorem execute_join {a b : List Char} {first second : List (List Statement)}
    (ha : Script.batches a = .ok first) (hb : Script.batches b = .ok second)
    (hclosed : Script.IsClosed a) :
    ∃ joined, Script.batches (Script.join a b) = .ok joined ∧
      joined.flatten = first.flatten ++ second.flatten ∧
      ∀ (engine : Engine) (session : SessionId),
        engine.execute session (Script.join a b) = engine.executeBoth session a b := by
  obtain ⟨joined, hjoined, hflatten⟩ := Script.batches_join ha hb hclosed
  refine ⟨joined, hjoined, hflatten, fun engine session => ?_⟩
  simp only [executeBoth, execute_of_batches ha, execute_of_batches hb,
    execute_of_batches hjoined, hflatten, answerAll_append]

/-- A script whose last statement leaves a parenthesis open and ends with what looks like a
comment. -/
def openScript : List Char :=
  "USE d\nGO\nSELECT id FROM t WHERE (id = 1 -- GO".toList

/-- A script that begins within a comment, with a quote in it. -/
def commentScript : List Char :=
  "-- of u; and 'more\nSELECT id FROM u\n;".toList

theorem execute_join_openScript :
    Script.batches openScript = .ok [[.use "d"],
        [.select ⟨"id".toList, "t", none, [], some "(id = 1 -- GO".toList⟩]] ∧
      Script.batches commentScript = .ok [[.select ⟨"id".toList, "u", none, [], none⟩]] ∧
      Script.IsClosed openScript ∧
      ∃ joined, Script.batches (Script.join openScript commentScript) = .ok joined ∧
        joined.flatten = [.use "d",
          .select ⟨"id".toList, "t", none, [], some "(id = 1 -- GO".toList⟩,
          .select ⟨"id".toList, "u", none, [], none⟩] ∧
        ∀ (engine : Engine) (session : SessionId),
          engine.execute session (Script.join openScript commentScript) =
            engine.executeBoth session openScript commentScript := by
  have hopen : Script.batches openScript = .ok [[.use "d"],
      [.select ⟨"id".toList, "t", none, [], some "(id = 1 -- GO".toList⟩]] := by decide +kernel
  have hcomment : Script.batches commentScript =
      .ok [[.select ⟨"id".toList, "u", none, [], none⟩]] := by decide +kernel
  have hclosed : Script.IsClosed openScript := by decide +kernel
  exact ⟨hopen, hcomment, hclosed, execute_join hopen hcomment hclosed⟩

end Engine

end Relational
