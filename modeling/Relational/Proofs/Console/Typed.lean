import Relational.Proofs.Console.Lines
import Relational.Proofs.Engine.Returns

/-!
# Scripts that are typed

A console carries out a script where a line ends that has a semicolon at its end, or that is `GO`
(`Console.script?`). The break behind such a line does not stand within a statement if none of the
statement's lines but the last one looks like that (`Console.not_isInside`); so each script that is
carried out has the next statements of the text that is typed, and the lines behind it the rest
(`Console.results_of_items`, by induction on the lines, with those that are collected in front). Where
the last statement ends with a semicolon at the end of a line, none is left at the end
(`Console.leavesNothing_splitLines`). So what is typed is carried out as the whole script is
(`Console.results_splitLines`).
-/

namespace Relational

/-! ## Scripts with punctuation -/

namespace Script

variable {s tail : List Char} {parts : List Part}

/-- Whether a text is the end of a batch. -/
def isGo (text : List Char) : Bool :=
  Text.sameWord "GO".toList text

/-- `GO` has no line break in it. -/
theorem not_mem_of_isGo {text : List Char} (h : isGo text = true) : '\n' ∉ text := by
  intro hmem
  have hlower : "go".toList = text.map Char.toLower := beq_iff_eq.mp h
  have hbreak : '\n'.toLower ∈ "go".toList := by
    rw [hlower]
    exact List.mem_map_of_mem hmem
  exact absurd hbreak (by decide)

/-- Whether a text begins with a semicolon at the end of a line. -/
def endsLine (s : List Char) : Bool :=
  s.head? == some ';' && (s.tail.takeWhile (· != '\n')).all isBlank

/-- Whether each statement of some parts, `GO` apart, ends with a semicolon at the end of a line. -/
def arePunctuated (tail : List Char) : List Part → Bool
  | [] => true
  | part :: parts =>
    (isGo (Text.trim part.statement) || endsLine (parts.flatMap Part.text ++ tail)) &&
      arePunctuated tail parts

/-- Each statement of the script, `GO` apart, ends with a semicolon at the end of a line. -/
def IsPunctuated (s : List Char) : Prop :=
  arePunctuated (split s).2 (split s).1 = true

instance (s : List Char) : Decidable (IsPunctuated s) :=
  inferInstanceAs (Decidable (arePunctuated (split s).2 (split s).1 = true))

theorem exists_of_endsLine (h : endsLine s = true) : ∃ blanks behind, s = ';' :: (blanks ++ behind) ∧
    '\n' ∉ blanks ∧ (∀ c ∈ blanks, isBlank c = true) ∧ Text.Begins (· == '\n') behind := by
  rw [endsLine, Bool.and_eq_true, beq_iff_eq, List.all_eq_true] at h
  obtain ⟨hhead, hblanks⟩ := h
  obtain ⟨t, rfl⟩ := List.head?_eq_some_iff.mp hhead
  obtain ⟨content, line, rfl, hcontent, hline⟩ := exists_line t
  refine ⟨content, line, rfl, hcontent, fun c hc => hblanks c ?_, hline⟩
  have hgoes : ∀ c ∈ content, (c != '\n') = true := fun c hc =>
    bne_iff_ne.mpr fun hbreak => hcontent (hbreak ▸ hc)
  rw [List.tail_cons, List.takeWhile_append_of_pos hgoes]
  exact List.mem_append_left _ hc

/-- A script has no statement, or the last one ends with a semicolon at the end of a line and nothing
but `GO` stands behind it. -/
theorem exists_lastStatement (hsplit : IsSplit s parts tail) (h : arePunctuated tail parts = true) :
    (∀ text ∈ texts s, isGo text = true) ∨ ∃ before rest, s = before ++ rest ∧ endsLine rest = true ∧
      ∀ text ∈ texts rest, isGo text = true := by
  induction hsplit with
  | tail htail =>
    refine .inl ?_
    rw [texts, split_eq_iff.mpr (.tail htail)]
    exact List.forall_mem_nil _
  | @part part rest parts tail hskipped hstatement hrest ih =>
    have htexts : texts (part.text ++ rest) = Text.trim part.statement :: texts rest := by
      rw [texts, texts, split_eq_iff.mpr (.part hskipped hstatement hrest), split_eq_iff.mpr hrest]
      rfl
    rw [arePunctuated, Bool.and_eq_true, Bool.or_eq_true, ← hrest.text_eq] at h
    rcases ih h.2 with hgo | ⟨before, last, rfl, hlast⟩
    · rw [htexts, List.forall_mem_cons]
      exact h.1.imp (⟨·, hgo⟩) fun hends => ⟨part.text, rest, rfl, hends, hgo⟩
    · exact .inr ⟨part.text ++ before, last, (List.append_assoc ..).symm, hlast⟩

end Script

namespace Console

open Script (texts ofLines isGo)

variable {console : Console} {s line : List Char} {collected lines : List (List Char)}

/-! ## Scripts that are carried out -/

/-- Whether a line is a word that the console can take for itself: one of its commands, or `clear`. -/
def isSpecial (line : List Char) : Bool :=
  !(Text.trim line).isEmpty && (Command.read? (Text.trim line)).isSome ||
    Text.sameWord (Text.trim line) "clear".toList

/-- The script that a console carries out at a line, if the line ends one. -/
def script? (console : Console) (line : List Char) : Option (List Char) :=
  let isTaken :=
    if console.collected.isEmpty then (Command.read? (Text.trim line)).isSome
    else Text.sameWord (Text.trim line) "clear".toList
  if !isTaken && endsScript (Text.trim line) then some (script (line :: console.collected)) else none

/-- The results of the scripts that a console carries out as it reads lines. -/
def results (console : Console) : List (List Char) → List (Except Failure (List Answer))
  | [] => []
  | line :: more =>
    let result := (console.script? line).map fun script =>
      (console.engine.execute console.session script).1
    let reply := console.readLine line
    match reply.outcome with
    | .goOn => result.toList ++ reply.console.results more
    | _ => result.toList

/-- All answers of results that have answers, one after the other. -/
def allAnswers (results : List (Except Failure (List Answer))) : Except Failure (List Answer) :=
  (results.mapM id).map List.flatten

theorem script?_eq_some_iff : console.script? line = some s ↔
    (console.collected = [] → Command.read? (Text.trim line) = none) ∧
      (console.collected ≠ [] → Text.sameWord (Text.trim line) "clear".toList = false) ∧
      endsScript (Text.trim line) = true ∧ s = script (line :: console.collected) := by
  unfold script?
  generalize Command.read? (Text.trim line) = command
  generalize Text.sameWord (Text.trim line) "clear".toList = clears
  generalize endsScript (Text.trim line) = ends
  cases hcollected : console.collected with
  | nil => cases command <;> cases ends <;> simp [eq_comm]
  | cons last collected => cases clears <;> cases ends <;> simp [eq_comm]

/-- The script is carried out at the line. -/
theorem readLine_of_script? (h : console.script? line = some s) :
    console.readLine line = { console with collected := [] }.runScript s := by
  obtain ⟨hcommand, hclear, hends, rfl⟩ := script?_eq_some_iff.mp h
  have hcollect : console.collect line =
      { console with collected := [] }.runScript (script (line :: console.collected)) := by
    rw [collect]
    exact if_pos hends
  rw [readLine]
  by_cases hcollected : console.collected = []
  · rw [if_pos (by simpa using hcollected), hcommand hcollected, hcollect]
  · rw [if_neg (by simpa using hcollected), hclear hcollected, hcollect]
    rfl

theorem script?_of_isSpecial (hspecial : isSpecial line = false)
    (hends : endsScript (Text.trim line) = true) :
    console.script? line = some (script (line :: console.collected)) := by
  have hne : Text.trim line ≠ [] := fun h => absurd (h ▸ hends) (by decide)
  rw [isSpecial, Bool.or_eq_false_iff] at hspecial
  refine script?_eq_some_iff.mpr ⟨fun _ => ?_, fun _ => hspecial.2, hends, rfl⟩
  simpa [hne] using hspecial.1

/-- A line that is no special word and does not end a script is collected, but for a blank line in
front of a script. -/
theorem readLine_of_isSpecial (hspecial : isSpecial line = false)
    (hends : endsScript (Text.trim line) = false) :
    console.script? line = none ∧
      (console.readLine line = console.goOn "" ∧ console.collected = [] ∧ Text.trim line = [] ∨
        console.readLine line =
          { console with collected := line :: console.collected }.goOn "") := by
  have hscript : console.script? line = none := by
    cases hs : console.script? line with
    | none => rfl
    | some s =>
      obtain ⟨-, -, htrue, -⟩ := script?_eq_some_iff.mp hs
      rw [hends] at htrue
      cases htrue
  have hcollect : console.collect line =
      { console with collected := line :: console.collected }.goOn "" := by
    rw [collect]
    exact if_neg (by simp [hends])
  rw [isSpecial, Bool.or_eq_false_iff] at hspecial
  refine ⟨hscript, ?_⟩
  rw [readLine]
  by_cases hcollected : console.collected = []
  · rw [if_pos (by simpa using hcollected)]
    by_cases hblank : Text.trim line = []
    · have hnothing : Command.read? [] = some .nothing := by decide +kernel
      rw [hblank, hnothing]
      exact .inl ⟨rfl, hcollected, rfl⟩
    · have hnone : Command.read? (Text.trim line) = none := by simpa [hblank] using hspecial.1
      rw [hnone, hcollect]
      exact .inr rfl
  · rw [if_neg (by simpa using hcollected), hspecial.2, hcollect]
    exact .inr rfl

/-! ## Statements that can be typed -/

/-- No line of a statement but its last one ends a script, and none loses a carriage return. -/
def IsTyped (text : List Char) : Prop :=
  ∀ line ∈ (text.splitOn '\n').dropLast,
    endsScript (Text.trim line) = false ∧ line.getLast? ≠ some '\r'

instance (text : List Char) : Decidable (IsTyped text) :=
  inferInstanceAs (Decidable (∀ line ∈ (text.splitOn '\n').dropLast,
    endsScript (Text.trim line) = false ∧ line.getLast? ≠ some '\r'))

theorem IsTyped.not_return {text : List Char} (h : IsTyped text) : ¬['\r', '\n'] <:+: text := by
  rintro ⟨front, behind, rfl⟩
  obtain ⟨before, line, hfront, hline, hbefore⟩ := Text.exists_lastLine front
  have hreturn : '\n' ∉ line ++ ['\r'] := by simp [hline]
  have hmem := Text.mem_dropLast_splitOn hreturn hbefore behind
  have htext : front ++ ['\r', '\n'] ++ behind = before ++ (line ++ ['\r']) ++ '\n' :: behind := by
    simp [hfront]
  rw [← htext] at hmem
  exact (h _ hmem).2 List.getLast?_concat

/-- What is read as a statement begins with none of the letters of `GO`. -/
theorem not_mem_go_of_read? {c : Char} {text : List Char} {statement : Statement}
    (h : Statement.read? (c :: text) = some statement) : c.toLower ∉ "go".toList := by
  intro hmem
  have hletter : ∃ letter ∈ "GO".toList, letter.toLower = c.toLower := by
    rcases List.mem_cons.mp hmem with hg | hmem
    · exact ⟨'G', by decide, by rw [hg]; decide⟩
    · exact ⟨'O', by decide, by rw [List.mem_singleton.mp hmem]; decide⟩
  obtain ⟨letter, hgo, hlower⟩ := hletter
  have hall : ("GO".toList.all fun letter => letter.isUpper &&
      Statement.kinds.all fun kind => kind.letter != letter) = true := by decide
  obtain ⟨kind, hkind, hsame⟩ := Statement.sameLetter_of_read? h
  obtain ⟨hupper, hothers⟩ := Bool.and_eq_true_iff.mp (List.all_eq_true.mp hall letter hgo)
  have hother := bne_iff_ne.mp (List.all_eq_true.mp hothers kind hkind)
  have hletter : Text.sameLetter letter c = true := by
    simp [Text.sameLetter, Text.toUpper_eq_of_toLower_eq hupper hlower]
  rw [Text.sameLetter_eq_false_of_ne hupper kind.isUpper_letter hother hletter] at hsame
  cases hsame

/-- Where a line has the beginning of a text at its end, it ends a script only if that does. -/
theorem endsScript_of_suffix {start : List Char} (hbegins : Text.Begins (!isBlank ·) start)
    (hne : start ≠ []) (hgo : ∀ c ∈ start.head?, c.toLower ∉ "go".toList)
    (hstart : endsScript (Text.trim start) = false) (front : List Char) :
    endsScript (Text.trim (front ++ start)) = false := by
  obtain ⟨c, start, rfl⟩ := List.exists_cons_of_ne_nil hne
  have hc : isBlank c = false := by simpa using hbegins c rfl
  have hlast : (Text.trim (front ++ c :: start)).getLast? = (Text.trim (c :: start)).getLast? := by
    have hmem := Text.mem_trimEnd (s := c :: start) List.mem_cons_self hc
    rw [Text.getLast?_trim, Text.getLast?_trim, Text.trimEnd_append _ (List.ne_nil_of_mem hmem),
      List.getLast?_append_of_ne_nil _ (List.ne_nil_of_mem hmem)]
  rw [endsScript, Bool.or_eq_false_iff] at hstart ⊢
  refine ⟨by rw [hlast]; exact hstart.1, Bool.eq_false_iff.mpr fun hword => hgo c rfl ?_⟩
  have hlower : (Text.trim (front ++ c :: start)).map Char.toLower = "go".toList := beq_iff_eq.mp hword
  rw [← hlower]
  exact List.mem_map_of_mem (Text.mem_trim (by simp) hc)

/-- A line that ends a script does not end within a statement that can be typed. -/
theorem not_isInside {front line t start more : List Char} {before behind : List (List Char)}
    (hinside : Script.IsInside (front ++ line) t start more before behind) (hline : '\n' ∉ line)
    (hfront : front = [] ∨ ∃ u, front = u ++ ['\n'])
    (hread : (Script.Item.read? (start ++ '\n' :: more)).isSome = true)
    (htyped : IsTyped (start ++ '\n' :: more)) : endsScript (Text.trim line) = false := by
  rcases List.suffix_or_suffix_of_suffix (List.suffix_append front line) hinside.suffix with
    hwithin | hfirst
  -- the statement has the line, as one of its own lines
  · obtain ⟨x, rfl⟩ := hwithin
    have hx : x <:+ front := by
      obtain ⟨w, hw⟩ := hinside.suffix
      exact ⟨w, List.append_cancel_right ((List.append_assoc w x line).trans hw)⟩
    refine (htyped line (Text.mem_dropLast_splitOn hline ?_ more)).1
    rcases hfront with rfl | ⟨u, rfl⟩
    · exact .inl (List.suffix_nil.mp hx)
    · rcases List.suffix_concat_iff.mp hx with rfl | ⟨v, rfl, -⟩
      · exact .inl rfl
      · exact .inr ⟨v, rfl⟩
  -- the statement begins on the line
  · obtain ⟨y, rfl⟩ := hfirst
    have hstart : '\n' ∉ start := fun hmem => hline (List.mem_append_right y hmem)
    have hmem := Text.mem_dropLast_splitOn hstart (.inl rfl) more
    rw [List.nil_append] at hmem
    refine endsScript_of_suffix hinside.begins hinside.ne_nil (fun c hc => ?_) (htyped start hmem).1 y
    obtain ⟨start, rfl⟩ := List.head?_eq_some_iff.mp hc
    obtain ⟨item, hitem⟩ := Option.isSome_iff_exists.mp hread
    rw [Script.Item.read?] at hitem
    split at hitem
    · rename_i hgo
      exact absurd (by simp) (Script.not_mem_of_isGo hgo)
    · obtain ⟨statement, hstatement, -⟩ := Option.map_eq_some_iff.mp hitem
      exact not_mem_go_of_read? hstatement

/-! ## Lines that leave no statement -/

/-- No statement is left in lines behind the last one of them that ends a script. -/
def LeavesNothing (collected : List (List Char)) : List (List Char) → Prop
  | [] => ∀ text ∈ texts (script collected), isGo text = true
  | line :: more =>
    LeavesNothing (if endsScript (Text.trim line) then [] else line :: collected) more

theorem leavesNothing_of_texts
    (h : ∀ text ∈ texts (ofLines (collected.reverse ++ lines)), isGo text = true) :
    LeavesNothing collected lines := by
  induction lines generalizing collected with
  | nil => rwa [List.append_nil] at h
  | cons line more ih =>
    rw [LeavesNothing]
    refine ih ?_
    split
    · rw [Script.ofLines_append_cons] at h
      rw [Script.texts_append_of_forall fun text htext => Script.not_mem_of_isGo (h text htext)] at h
      exact (List.forall_mem_append.mp h).2
    · rwa [List.reverse_cons, List.append_assoc, List.singleton_append]

theorem leavesNothing_append (hline : endsScript (Text.trim line) = true)
    (before behind : List (List Char)) :
    LeavesNothing collected (before ++ line :: behind) ↔ LeavesNothing [] behind := by
  induction before generalizing collected with
  | nil => rw [List.nil_append, LeavesNothing, if_pos hline]
  | cons earlier before ih => rw [List.cons_append, LeavesNothing, ih]

/-- A blank line in front of a script does not count. -/
theorem leavesNothing_of_blank (hblank : Text.trim line = [])
    (h : LeavesNothing (collected ++ [line]) lines) : LeavesNothing collected lines := by
  induction lines generalizing collected with
  | nil =>
    have hscript : script (collected ++ [line]) = ofLines (line :: collected.reverse) := by
      simp [script, ofLines]
    rwa [LeavesNothing, hscript, Script.texts_blankLine hblank] at h
  | cons last more ih =>
    rw [LeavesNothing] at h ⊢
    by_cases hlast : endsScript (Text.trim last) = true
    · rwa [if_pos hlast] at h ⊢
    · rw [if_neg hlast] at h ⊢
      exact ih h

theorem texts_ofLines_of_isGo (h : ∀ text ∈ texts s, isGo text = true) :
    texts (ofLines (splitLines s)) = texts s := by
  refine texts_ofLines [] s fun text htext hreturn => Script.not_mem_of_isGo (h text htext) ?_
  exact hreturn.subset (by simp)

theorem endsScript_semicolon {blanks : List Char} (hblanks : ∀ c ∈ blanks, isBlank c = true)
    (content : List Char) : endsScript (Text.trim (content ++ ';' :: blanks)) = true := by
  have hlast : (Text.trim (content ++ ';' :: blanks)).getLast? = some ';' := by
    have htrim := Text.trimEnd_append_of_eq_nil (Text.trimEnd_of_isBlank hblanks) (content ++ [';'])
    rw [List.append_assoc, List.singleton_append] at htrim
    rw [Text.getLast?_trim, htrim, Text.trimEnd_eq_self (by decide), List.getLast?_concat]
  rw [endsScript, hlast]
  rfl

/-- The lines of a script with punctuation leave no statement. -/
theorem leavesNothing_splitLines (h : Script.IsPunctuated s) : LeavesNothing [] (splitLines s) := by
  rcases Script.exists_lastStatement (Script.isSplit_split s) h with hgo | ⟨u, rest, rfl, hends, hgo⟩
  · exact leavesNothing_of_texts ((texts_ofLines_of_isGo hgo).symm ▸ hgo)
  obtain ⟨blanks, behind, rfl, hbreak, hblanks, hbehind⟩ := Script.exists_of_endsLine hends
  obtain ⟨before, line, rfl, hline, hbefore⟩ := Text.exists_lastLine u
  have hcontent : '\n' ∉ line ++ ';' :: blanks := by simp [hline, hbreak]
  have hsplit : ∃ front, splitLines (before ++ line ++ ';' :: (blanks ++ behind)) =
      front ++ splitLines (line ++ ';' :: blanks ++ behind) := by
    rcases hbefore with rfl | ⟨u, rfl⟩
    · exact ⟨[], by simp⟩
    · refine ⟨splitLines (u ++ ['\n']), ?_⟩
      rw [← splitLines_append]
      simp
  obtain ⟨front, hsplit⟩ := hsplit
  rw [hsplit]
  cases behind with
  | nil =>
    rw [List.append_nil, splitLines_content hcontent (by simp),
      leavesNothing_append (endsScript_semicolon hblanks line)]
    have hnil : texts (ofLines ([].reverse ++ [])) = [] := Script.texts_of_skipped rfl
    exact leavesNothing_of_texts (hnil.symm ▸ nofun)
  | cons c t =>
    obtain rfl : c = '\n' := by simpa using hbehind c rfl
    have hends := endsScript_semicolon hblanks line
    rw [← trim_withoutReturn] at hends
    rw [splitLines_cons hcontent, leavesNothing_append hends]
    have htexts : texts (';' :: (blanks ++ '\n' :: t)) = texts t := by
      have hblanks : ∀ c ∈ blanks ++ ['\n'], isBlank c = true :=
        List.forall_mem_append.mpr ⟨hblanks, List.forall_mem_singleton.mpr (by decide)⟩
      rw [← Script.texts_blanks hblanks t, List.append_assoc, List.singleton_append]
      exact Script.texts_congr (by rw [Script.spanSkipped_blank rfl])
    rw [htexts] at hgo
    exact leavesNothing_of_texts ((texts_ofLines_of_isGo hgo).symm ▸ hgo)

/-! ## Lines that are typed -/

theorem allAnswers_cons (answers : List Answer) (results : List (Except Failure (List Answer))) :
    allAnswers (.ok answers :: results) = (allAnswers results).map (answers ++ ·) := by
  rw [allAnswers, allAnswers, List.mapM_cons]
  cases results.mapM id <;> rfl

/-- `GO` is no statement. -/
theorem flatMap_statements_of_isGo {ts : List (List Char)} {items : List Script.Item}
    (h : ∀ text ∈ ts, isGo text = true) (hread : ts.map Script.Item.read? = items.map some) :
    items.flatMap Script.Item.statements = [] := by
  refine List.flatMap_eq_nil_iff.mpr fun item hitem => ?_
  have hmem : some item ∈ ts.map Script.Item.read? := hread ▸ List.mem_map_of_mem hitem
  obtain ⟨text, htext, hitem⟩ := List.mem_map.mp hmem
  have hgo : Script.Item.read? text = some .go := if_pos (h text htext)
  rw [← Option.some.inj (hgo.symm.trans hitem)]
  rfl

/-- The console and the results behind a line at which no script is carried out. -/
theorem results_of_goOn {next : Console} {output : String} (hscript : console.script? line = none)
    (hreply : console.readLine line = next.goOn output) (more : List (List Char)) :
    console.results (line :: more) = next.results more ∧
      (console.readLines (line :: more)).console = (next.readLines more).console := by
  rw [results, readLines, hscript, hreply]
  exact ⟨rfl, rfl⟩

/-- The console and the results behind a line at which a script is carried out that can be read. -/
theorem results_of_script? {script : List Char} {batches : List (List Statement)}
    (hscript : console.script? line = some script) (hread : Script.batches script = .ok batches)
    (more : List (List Char)) : (allAnswers (console.results (line :: more)),
        (console.readLines (line :: more)).console.engine) =
      Engine.followedBy (console.engine.answerAll console.session batches.flatten) fun engine =>
        let next : Console := { console with engine := engine, collected := [] }
        (allAnswers (next.results more), (next.readLines more).console.engine) := by
  have hexecute := Engine.execute_of_batches hread console.engine console.session
  rw [results, readLines, readLine_of_script? hscript, hscript, runScript]
  dsimp only [Option.map_some]
  rw [hexecute]
  rcases hrun : console.engine.answerAll console.session batches.flatten with ⟨failure | answers, engine⟩
  · obtain ⟨name, rfl, -⟩ := Engine.lacks_of_answerAll hrun
    rfl
  · exact Prod.ext (allAnswers_cons answers _) rfl

/-- The break behind a line that ends a script stands between statements. -/
theorem isBetween_of_endsScript {front t : List Char} {items : List Script.Item}
    (hends : endsScript (Text.trim line) = true) (hline : '\n' ∉ line)
    (hfront : front = [] ∨ ∃ u, front = u ++ ['\n'])
    (hread : (texts (front ++ line ++ '\n' :: t)).map Script.Item.read? = items.map some)
    (htyped : ∀ text ∈ texts (front ++ line ++ '\n' :: t), IsTyped text) :
    Script.IsBetween (front ++ line) t := by
  refine (Script.isBetween_or_isInside (front ++ line) t).resolve_right ?_
  rintro ⟨start, more, before, behind, hinside⟩
  have htexts := hinside.texts_append [] nofun
  rw [List.nil_append, List.nil_append] at htexts
  have hmem : start ++ '\n' :: more ∈ texts (front ++ line ++ '\n' :: t) := by
    rw [htexts]
    simp
  have hitem : Script.Item.read? (start ++ '\n' :: more) ∈ items.map some :=
    hread ▸ List.mem_map_of_mem hmem
  obtain ⟨item, -, hitem⟩ := List.mem_map.mp hitem
  have hgoes := not_isInside hinside hline hfront (by rw [← hitem]; rfl) (htyped _ hmem)
  rw [hends] at hgoes
  cases hgoes

/-- Lines that are typed carry out the statements of the script that they make, those collected before
included. -/
theorem results_of_items {items : List Script.Item} (hlines : ∀ line ∈ lines, '\n' ∉ line)
    (hspecial : ∀ line ∈ lines, isSpecial line = false)
    (hread : (texts (ofLines (console.collected.reverse ++ lines))).map Script.Item.read? =
      items.map some)
    (htyped : ∀ text ∈ texts (ofLines (console.collected.reverse ++ lines)), IsTyped text)
    (hleaves : LeavesNothing console.collected lines) :
    (allAnswers (console.results lines), (console.readLines lines).console.engine) =
      console.engine.answerAll console.session (items.flatMap Script.Item.statements) := by
  induction lines generalizing console items with
  | nil =>
    rw [List.append_nil] at hread
    rw [flatMap_statements_of_isGo hleaves hread]
    rfl
  | cons line more ih =>
    obtain ⟨hline, hlines⟩ := List.forall_mem_cons.mp hlines
    obtain ⟨hordinary, hspecial⟩ := List.forall_mem_cons.mp hspecial
    rw [LeavesNothing] at hleaves
    by_cases hends : endsScript (Text.trim line) = true
    · rw [if_pos hends] at hleaves
      rw [Script.ofLines_append_cons] at hread htyped
      have hbetween := isBetween_of_endsScript hends hline
        (Script.ofLines_eq console.collected.reverse) hread htyped
      have htexts := hbetween [] nofun
      rw [List.nil_append] at htexts
      rw [htexts] at hread htyped
      -- the script at hand has the first items, and the lines behind it have the others
      rw [List.map_append, eq_comm, List.map_eq_append_iff] at hread
      obtain ⟨first, second, rfl, hfirst, hsecond⟩ := hread
      have hbatches : Script.batches (script (line :: console.collected)) =
          .ok (Script.group [] first) := by
        have hscript : script (line :: console.collected) =
            ofLines console.collected.reverse ++ line ++ ['\n'] := by simp [script, ofLines]
        refine Script.batches_eq_ok_iff.mpr ⟨first, ?_, rfl⟩
        rw [hscript, Script.texts_lineBreak, hfirst]
      rw [results_of_script? (script?_of_isSpecial hordinary hends) hbatches,
        Script.flatten_group, List.reverse_nil, List.nil_append, List.flatMap_append,
        Engine.answerAll_append]
      congr 1
      funext engine
      exact ih hlines hspecial hsecond.symm (List.forall_mem_append.mp htyped).2 hleaves
    · obtain ⟨hscript, hreply⟩ := readLine_of_isSpecial hordinary (Bool.eq_false_iff.mpr hends)
      rw [if_neg hends] at hleaves
      rcases hreply with ⟨hreply, hcollected, hblank⟩ | hreply
      · obtain ⟨hresults, hconsole⟩ := results_of_goOn hscript hreply more
        rw [hresults, hconsole]
        have htexts : texts (ofLines (console.collected.reverse ++ line :: more)) =
            texts (ofLines (console.collected.reverse ++ more)) := by
          rw [hcollected]
          exact Script.texts_blankLine hblank more
        rw [htexts] at hread htyped
        refine ih hlines hspecial hread htyped (leavesNothing_of_blank hblank ?_)
        rwa [hcollected] at hleaves ⊢
      · obtain ⟨hresults, hconsole⟩ := results_of_goOn hscript hreply more
        rw [hresults, hconsole]
        have hlines' : console.collected.reverse ++ line :: more =
            (line :: console.collected).reverse ++ more := by simp
        rw [hlines'] at hread htyped
        exact ih hlines hspecial hread htyped hleaves

/-- A script that is typed line by line is carried out as the whole: the console carries out scripts
whose answers, one after the other, are those to the script, and leaves the engine that the script
does. -/
theorem results_splitLines {batches : List (List Statement)} (hcollected : console.collected = [])
    (hread : Script.batches s = .ok batches) (hpunctuated : Script.IsPunctuated s)
    (hspecial : ∀ line ∈ splitLines s, isSpecial line = false)
    (htyped : ∀ text ∈ texts s, IsTyped text) :
    (allAnswers (console.results (splitLines s)),
        (console.readLines (splitLines s)).console.engine) =
      console.engine.execute console.session s := by
  have htexts : texts (ofLines (console.collected.reverse ++ splitLines s)) = texts s := by
    rw [hcollected]
    exact texts_ofLines [] s fun text htext => (htyped text htext).not_return
  have hexecute := Engine.execute_of_batches hread console.engine console.session
  obtain ⟨items, hitems, rfl⟩ := Script.batches_eq_ok_iff.mp hread
  rw [hexecute, Script.flatten_group, List.reverse_nil, List.nil_append]
  refine results_of_items (not_mem_splitLines s) hspecial (by rw [htexts, hitems]) ?_ ?_
  · rwa [htexts]
  · rw [hcollected]
    exact leavesNothing_splitLines hpunctuated

/-- A console in memory. -/
def memoryConsole : Console :=
  new .inMemory .brief .report

/-- A script with a comment, with statements and a text literal that go on to other lines, and with
semicolons in the comment and in the literal. -/
def spreadScript : List Char :=
  "CREATE DATABASE d;\n-- in d;\nUSE\n  d;\nCREATE TABLE t (\n  id INT PRIMARY KEY,\n".toList ++
    "  a VARCHAR(9)\n);\nINSERT INTO t\n  VALUES (1, 'x; y\nz');\nGO\nSELECT id FROM t WHERE a = 'x; y\nz';\n".toList

theorem results_splitLines_spreadScript :
    (Script.batches spreadScript).isOk = true ∧ Script.IsPunctuated spreadScript ∧
      (∀ line ∈ splitLines spreadScript, isSpecial line = false) ∧
      (∀ text ∈ texts spreadScript, IsTyped text) ∧
      (allAnswers (memoryConsole.results (splitLines spreadScript)),
          (memoryConsole.readLines (splitLines spreadScript)).console.engine) =
        memoryConsole.engine.execute memoryConsole.session spreadScript := by
  have hscript : spreadScript = _ ++ _ :=
    congrArg₂ (· ++ ·) String.toList_ofList String.toList_ofList
  have hok : (Script.batches spreadScript).isOk = true := by
    rewrite [hscript]
    decide +kernel
  have hpunctuated : Script.IsPunctuated spreadScript := by
    rewrite [hscript]
    decide +kernel
  have hspecial : ∀ line ∈ splitLines spreadScript, isSpecial line = false := by
    rewrite [hscript]
    decide +kernel
  have htyped : ∀ text ∈ texts spreadScript, IsTyped text := by
    rewrite [hscript]
    decide +kernel
  refine ⟨hok, hpunctuated, hspecial, htyped, ?_⟩
  cases hread : Script.batches spreadScript with
  | ok batches => exact results_splitLines rfl hread hpunctuated hspecial htyped
  | error e =>
    rw [hread] at hok
    cases hok

/-- A script with a text literal that has a semicolon at the end of a line. -/
def literalScript : List Char :=
  "CREATE DATABASE d;\nUSE d;\nCREATE TABLE t (id INT PRIMARY KEY, a VARCHAR(9));\n".toList ++
    "INSERT INTO t VALUES (1, 'x;\ny');\n".toList

/-- The console takes a semicolon in a literal for the end of the script. -/
theorem not_results_splitLines : ¬∀ (console : Console) (s : List Char) (batches : List (List Statement)),
    console.collected = [] → Script.batches s = .ok batches → Script.IsPunctuated s →
      (∀ line ∈ splitLines s, isSpecial line = false) →
        allAnswers (console.results (splitLines s)) =
          (console.engine.execute console.session s).1 := by
  intro h
  have hscript : literalScript = _ ++ _ :=
    congrArg₂ (· ++ ·) String.toList_ofList String.toList_ofList
  have hpunctuated : Script.IsPunctuated literalScript := by
    rewrite [hscript]
    decide +kernel
  have hspecial : ∀ line ∈ splitLines literalScript, isSpecial line = false := by
    rewrite [hscript]
    decide +kernel
  have htyped : allAnswers (memoryConsole.results (splitLines literalScript)) =
      .error (.error (.unmatchedStatement "INSERT" 1)) := by
    rewrite [hscript]
    decide +kernel
  have hwhole : (memoryConsole.engine.execute memoryConsole.session literalScript).1.isOk = true := by
    rewrite [hscript]
    decide +kernel
  cases hread : Script.batches literalScript with
  | ok batches =>
    rw [← h memoryConsole literalScript batches rfl hread hpunctuated hspecial, htyped] at hwhole
    cases hwhole
  | error e =>
    rw [Engine.execute, hread] at hwhole
    cases hwhole

end Console

end Relational
