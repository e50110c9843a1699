import Relational.Proofs.Json.Text

/-!
# Documents read back

A document whose numbers and texts are such (`Json.IsWritten`) is read back from its text with a line
for each item and field (`Json.read?_pretty`). The text of a part of it is cut into the same tokens
wherever it stands (`Json.Cuts`), and these are taken in as that part (`Json.Writes`). The induction
is on what the document is written with, and for arrays and objects on their items and fields.
-/

namespace Relational.Json

/-! ## Cutting -/

/-- No number or word goes on with the text. -/
def Ends (s : List Char) : Prop :=
  ∀ c ∈ s.head?, isAtomChar c = false

theorem ends_cons {c : Char} (h : isAtomChar c = false) (s : List Char) : Ends (c :: s) := by
  intro d hd
  rw [← Option.some.inj hd]
  exact h

/-- A text is cut into tokens wherever it stands, unless a number or word goes on behind it. -/
def Cuts (s : List Char) (tokens : List Token) : Prop :=
  ∀ rest, Ends rest → tokens? (s ++ rest) = (tokens? rest).map (tokens ++ ·)

variable {s s' : List Char} {tokens tokens' : List Token}

theorem tokens?_blank {c : Char} (h : isJsonBlank c = true) (s : List Char) :
    tokens? (c :: s) = tokens? s := by
  rw [tokens?, if_pos h]

theorem tokens?_scan {c : Char} {rest : List Char} {token : Token} (hc : isJsonBlank c = false)
    (h : scan? c s = some (token, rest)) : tokens? (c :: s) = (tokens? rest).map (token :: ·) := by
  rw [tokens?, if_neg (by simp [hc])]
  split
  · rename_i hnone
    simp [h] at hnone
  · rename_i hsome
    rw [h] at hsome
    obtain ⟨rfl, rfl⟩ := Prod.mk.inj (Option.some.inj hsome)
    rfl

theorem cuts_nil : Cuts [] [] := by
  intro rest _
  cases h : tokens? rest <;> simp [h]

/-- Two texts are cut one after the other, if nothing goes on from the first into the second. -/
theorem Cuts.append (h : Cuts s tokens) (h' : Cuts s' tokens') (hends : ∀ rest, Ends (s' ++ rest)) :
    Cuts (s ++ s') (tokens ++ tokens') := by
  intro rest hrest
  rw [List.append_assoc, h _ (hends rest), h' rest hrest, Option.map_map]
  simp only [Function.comp_def, List.append_assoc]

theorem Cuts.blank {c : Char} (hc : isJsonBlank c = true) (h : Cuts s tokens) :
    Cuts (c :: s) tokens := by
  intro rest hrest
  rw [List.cons_append, tokens?_blank hc, h rest hrest]

/-- A token of one character. -/
theorem Cuts.cons {c : Char} {token : Token} (hc : isJsonBlank c = false)
    (hscan : ∀ s, scan? c s = some (token, s)) (h : Cuts s tokens) :
    Cuts (c :: s) (token :: tokens) := by
  intro rest hrest
  rw [List.cons_append, tokens?_scan hc (hscan _), h rest hrest, Option.map_map]
  rfl

theorem Cuts.lineBreak (h : Cuts s tokens) (level : Nat) : Cuts (newLine level ++ s) tokens := by
  have hblanks (n : Nat) : Cuts (List.replicate n ' ' ++ s) tokens := by
    induction n with
    | zero => exact h
    | succ n ih => exact Cuts.blank (by decide) ih
  exact Cuts.blank (by decide) (hblanks _)

theorem ends_newLine (level : Nat) (s : List Char) : Ends (newLine level ++ s) :=
  ends_cons (by decide) _

/-! ## Taking in -/

/-- A value can begin. -/
def Expected.Begins (expected : Expected) : Prop :=
  expected = .value ∨ expected = .firstItem

/-- Where a value can begin, every token begins one, but for the end of an array. -/
theorem Expected.Begins.read_eq {expected : Expected} (h : expected.Begins) {token : Token}
    (htoken : token ≠ .closeArray) (opened : List Open) :
    Progress.read ⟨opened, expected⟩ token = Progress.beginValue opened token := by
  rcases h with rfl | rfl
  · rfl
  · cases token with
    | closeArray => exact absurd rfl htoken
    | _ =>
      cases opened with
      | nil => rfl
      | cons o opened => cases o <;> rfl

/-- A text writes a document: its tokens are taken in as the document, where a value can begin. -/
def Writes (s : List Char) (json : Json) : Prop :=
  ∃ tokens, Cuts s tokens ∧ ∀ opened expected more, expected.Begins →
    (tokens ++ more).foldlM Progress.read ⟨opened, expected⟩ =
      more.foldlM Progress.read ⟨opened, .behind json⟩

/-- A token that is a value by itself. -/
theorem writes_of_cuts {token : Token} {json : Json} (h : Cuts s [token])
    (htoken : token ≠ .closeArray)
    (hread : ∀ opened, Progress.beginValue opened token = some ⟨opened, .behind json⟩) :
    Writes s json := by
  refine ⟨[token], h, fun opened expected more hexpected => ?_⟩
  rw [List.singleton_append, List.foldlM_cons, hexpected.read_eq htoken, hread]
  rfl

theorem scan?_atom {c : Char} (hc : isAtomChar c = true) (s : List Char) :
    isJsonBlank c = false ∧ scan? c s = (atom? (c :: s.takeWhile isAtomChar)).map fun json =>
      (.atom json, s.dropWhile isAtomChar) := by
  have hne {d : Char} (hd : isAtomChar d = false) : c ≠ d := by
    rintro rfl
    simp [hc] at hd
  refine ⟨?_, ?_⟩
  · simp only [isJsonBlank, Bool.or_eq_false_iff, beq_eq_false_iff_ne]
    exact ⟨⟨⟨hne (by decide), hne (by decide)⟩, hne (by decide)⟩, hne (by decide)⟩
  · rw [scan?, if_neg (hne (by decide)), if_neg (hne (by decide)), if_neg (hne (by decide)),
      if_neg (hne (by decide)), if_neg (hne (by decide)), if_neg (hne (by decide)),
      if_neg (hne (by decide))]
    cases atom? (c :: s.takeWhile isAtomChar) <;> rfl

theorem span_atom {rest : List Char} (h : ∀ c ∈ s, isAtomChar c = true) (hrest : Ends rest) :
    (s ++ rest).takeWhile isAtomChar = s ∧ (s ++ rest).dropWhile isAtomChar = rest := by
  rw [List.takeWhile_append_of_pos h, List.dropWhile_append_of_pos h]
  cases rest with
  | nil => simp
  | cons c rest =>
    have hc := hrest c rfl
    rw [List.takeWhile_cons_of_neg (by simp [hc]), List.dropWhile_cons_of_neg (by simp [hc])]
    simp

/-- Numbers and words. -/
theorem writes_atom {json : Json} (hatoms : ∀ c ∈ s, isAtomChar c = true)
    (h : atom? s = some json) : Writes s json := by
  have hcuts : Cuts s [.atom json] := by
    intro rest hrest
    cases s with
    | nil => simp [atom?, isNumber, isWhole, Integer.isDigits] at h
    | cons c s =>
      obtain ⟨hc, hs⟩ := List.forall_mem_cons.mp hatoms
      obtain ⟨hblank, hscan⟩ := scan?_atom hc (s ++ rest)
      rw [(span_atom hs hrest).1, (span_atom hs hrest).2, h, Option.map_some] at hscan
      rw [List.cons_append, tokens?_scan hblank hscan]
      rfl
  exact writes_of_cuts hcuts nofun fun _ => rfl

/-- What can stand between quotes. -/
def IsInside (written : List Char) : Prop :=
  (∀ rest, spanQuoted (written ++ '"' :: rest) = some (written, rest)) ∧
    (units? written).isSome = true

theorem isInside_escape (s : String) : IsInside (escape s) := by
  obtain ⟨units, hunits, -⟩ := units?_escape s
  exact ⟨spanQuoted_escape s, by rw [hunits]; rfl⟩

theorem cuts_quoted {written : List Char} (h : IsInside written) :
    Cuts (quoted written) [.string written] := by
  intro rest _
  obtain ⟨units, hunits⟩ := Option.isSome_iff_exists.mp h.2
  have hscan : scan? '"' (written ++ '"' :: rest) = some (.string written, rest) := by
    rw [scan?, if_neg (by decide), if_neg (by decide), if_neg (by decide), if_neg (by decide),
      if_neg (by decide), if_neg (by decide), if_pos rfl, h.1 rest]
    simp only [Option.bind_eq_bind, Option.bind_some, hunits]
    rfl
  rw [quoted, List.cons_append, List.append_assoc, List.singleton_append,
    tokens?_scan (by decide) hscan]
  rfl

theorem writes_string {written : List Char} (h : IsInside written) :
    Writes (quoted written) (string written) := by
  exact writes_of_cuts (cuts_quoted h) nofun fun _ => rfl

/-! ## Items and fields -/

/-- A text writes the items of an array, behind those that were read before. -/
def WritesItems (s : List Char) (items : List Json) : Prop :=
  ∃ tokens, Cuts s tokens ∧ ∀ opened before (expected : Expected) (more : List Token),
    expected.Begins →
      (tokens ++ .closeArray :: more).foldlM Progress.read ⟨.array before :: opened, expected⟩ =
        more.foldlM Progress.read ⟨opened, .behind (array (before.reverse ++ items))⟩

/-- A text writes the fields of an object, behind those that were read before. -/
def WritesFields (s : List Char) (fields : List (List Char × Json)) : Prop :=
  ∃ tokens, Cuts s tokens ∧ ∀ opened before (expected : Expected) (more : List Token),
    expected = .field ∨ expected = .firstField →
      (tokens ++ .closeObject :: more).foldlM Progress.read ⟨.object before :: opened, expected⟩ =
        more.foldlM Progress.read ⟨opened, .behind (object (before.reverse ++ fields))⟩

variable {json : Json} {items : List Json} {name : List Char} {fields : List (List Char × Json)}

/-- What stands behind a separator. -/
theorem Cuts.comma (h : Cuts s tokens) (level : Nat) :
    Cuts (',' :: newLine level ++ s) (.comma :: tokens) :=
  .cons (by decide) (fun _ => rfl) (h.lineBreak level)

theorem Writes.toItems (h : Writes s json) : WritesItems s [json] := by
  obtain ⟨tokens, hcuts, hread⟩ := h
  refine ⟨tokens, hcuts, fun opened before expected more hexpected => ?_⟩
  rw [hread _ _ _ hexpected, List.foldlM_cons, ← List.reverse_cons]
  rfl

theorem WritesItems.cons (h : Writes s json) (h' : WritesItems s' items) (level : Nat) :
    WritesItems (s ++ (',' :: newLine level ++ s')) (json :: items) := by
  obtain ⟨tokens, hcuts, hread⟩ := h
  obtain ⟨tokens', hcuts', hread'⟩ := h'
  refine ⟨tokens ++ .comma :: tokens', ?_, fun opened before expected more hexpected => ?_⟩
  · exact hcuts.append (hcuts'.comma level) fun _ => ends_cons (by decide) _
  · rw [List.append_assoc, hread _ _ _ hexpected, List.cons_append, List.foldlM_cons]
    have hcomma : Progress.read ⟨.array before :: opened, .behind json⟩ .comma =
        some ⟨.array (json :: before) :: opened, .value⟩ := rfl
    rw [hcomma]
    change (tokens' ++ .closeArray :: more).foldlM Progress.read _ = _
    rw [hread' _ _ _ _ (.inl rfl), List.reverse_cons, List.append_assoc, List.singleton_append]

/-- The tokens of a field are taken in up to the end of its value. -/
theorem Writes.field (hname : IsInside name) (h : Writes s json) :
    ∃ tokens, Cuts (quoted name ++ ':' :: ' ' :: s) tokens ∧
      ∀ opened before (expected : Expected) (more : List Token),
        expected = .field ∨ expected = .firstField →
          (tokens ++ more).foldlM Progress.read ⟨.object before :: opened, expected⟩ =
            more.foldlM Progress.read ⟨.field before name :: opened, .behind json⟩ := by
  obtain ⟨tokens, hcuts, hread⟩ := h
  refine ⟨.string name :: .colon :: tokens, ?_, fun opened before expected more hexpected => ?_⟩
  · exact (cuts_quoted hname).append (.cons (by decide) (fun _ => rfl) (hcuts.blank (by decide)))
      fun _ => ends_cons (by decide) _
  · have hstring : Progress.read ⟨.object before :: opened, expected⟩ (.string name) =
        some ⟨.object before :: opened, .colon name⟩ := by
      rcases hexpected with rfl | rfl <;> rfl
    rw [List.cons_append, List.foldlM_cons, hstring]
    exact hread (.field before name :: opened) .value more (.inl rfl)

theorem Writes.toFields (hname : IsInside name) (h : Writes s json) :
    WritesFields (quoted name ++ ':' :: ' ' :: s) [(name, json)] := by
  obtain ⟨tokens, hcuts, hread⟩ := h.field hname
  refine ⟨tokens, hcuts, fun opened before expected more hexpected => ?_⟩
  rw [hread _ _ _ _ hexpected, List.foldlM_cons, ← List.reverse_cons]
  rfl

theorem WritesFields.cons (hname : IsInside name) (h : Writes s json)
    (h' : WritesFields s' fields) (level : Nat) :
    WritesFields ((quoted name ++ ':' :: ' ' :: s) ++ (',' :: newLine level ++ s'))
      ((name, json) :: fields) := by
  obtain ⟨tokens, hcuts, hread⟩ := h.field hname
  obtain ⟨tokens', hcuts', hread'⟩ := h'
  refine ⟨tokens ++ .comma :: tokens', ?_, fun opened before expected more hexpected => ?_⟩
  · exact hcuts.append (hcuts'.comma level) fun _ => ends_cons (by decide) _
  · rw [List.append_assoc, hread _ _ _ _ hexpected, List.cons_append, List.foldlM_cons]
    have hcomma : Progress.read ⟨.field before name :: opened, .behind json⟩ .comma =
        some ⟨.object ((name, json) :: before) :: opened, .field⟩ := rfl
    rw [hcomma]
    change (tokens' ++ .closeObject :: more).foldlM Progress.read _ = _
    rw [hread' _ _ _ _ (.inl rfl), List.reverse_cons, List.append_assoc, List.singleton_append]

/-! ## Arrays and objects -/

/-- The lines between two brackets. -/
theorem Cuts.lines {closing : Char} {token : Token} (h : Cuts s tokens)
    (hclosing : isJsonBlank closing = false) (hscan : ∀ s, scan? closing s = some (token, s))
    (level : Nat) :
    Cuts (newLine (level + 1) ++ (s ++ (newLine level ++ [closing]))) (tokens ++ [token]) :=
  (h.append (Cuts.lineBreak (.cons hclosing hscan cuts_nil) level)
    fun _ => by rw [List.append_assoc]; exact ends_newLine _ _).lineBreak _

theorem writes_array_nil : Writes ['[', ']'] (array []) := by
  refine ⟨[.openArray, .closeArray], ?_, fun opened expected more hexpected => ?_⟩
  · exact .cons (by decide) (fun _ => rfl) (.cons (by decide) (fun _ => rfl) cuts_nil)
  · have hopen := hexpected.read_eq (show Token.openArray ≠ .closeArray from nofun) opened
    rw [List.cons_append, List.foldlM_cons, hopen]
    rfl

theorem WritesItems.array (h : WritesItems s items) (level : Nat) :
    Writes ('[' :: (newLine (level + 1) ++ (s ++ (newLine level ++ [']'])))) (.array items) := by
  obtain ⟨tokens, hcuts, hread⟩ := h
  refine ⟨.openArray :: (tokens ++ [.closeArray]), ?_, fun opened expected more hexpected => ?_⟩
  · exact .cons (by decide) (fun _ => rfl) (hcuts.lines (by decide) (fun _ => rfl) level)
  · have hopen := hexpected.read_eq (show Token.openArray ≠ .closeArray from nofun) opened
    rw [List.cons_append, List.foldlM_cons, hopen, List.append_assoc]
    exact hread opened [] .firstItem more (.inr rfl)

theorem writes_object_nil : Writes [openBrace, closeBrace] (object []) := by
  refine ⟨[.openObject, .closeObject], ?_, fun opened expected more hexpected => ?_⟩
  · exact .cons (by decide) (fun _ => rfl) (.cons (by decide) (fun _ => rfl) cuts_nil)
  · have hopen := hexpected.read_eq (show Token.openObject ≠ .closeArray from nofun) opened
    rw [List.cons_append, List.foldlM_cons, hopen]
    rfl

theorem WritesFields.object (h : WritesFields s fields) (level : Nat) :
    Writes (openBrace :: (newLine (level + 1) ++ (s ++ (newLine level ++ [closeBrace]))))
      (.object fields) := by
  obtain ⟨tokens, hcuts, hread⟩ := h
  refine ⟨.openObject :: (tokens ++ [.closeObject]), ?_, fun opened expected more hexpected => ?_⟩
  · exact .cons (by decide) (fun _ => rfl) (hcuts.lines (by decide) (fun _ => rfl) level)
  · have hopen := hexpected.read_eq (show Token.openObject ≠ .closeArray from nofun) opened
    rw [List.cons_append, List.foldlM_cons, hopen, List.append_assoc]
    exact hread opened [] .firstField more (.inr rfl)

/-! ## Documents -/

/-- The numbers and texts of the document are such as they are written. -/
inductive IsWritten : Json → Prop
  | null : IsWritten null
  | bool (b : Bool) : IsWritten (bool b)
  | number {written : List Char} : (∀ c ∈ written, isAtomChar c = true) →
    atom? written = some (number written) → IsWritten (number written)
  | string {written : List Char} : IsInside written → IsWritten (string written)
  | array {items : List Json} : (∀ item ∈ items, IsWritten item) → IsWritten (array items)
  | object {fields : List (List Char × Json)} : (∀ field ∈ fields, IsInside field.1) →
    (∀ field ∈ fields, IsWritten field.2) → IsWritten (object fields)

theorem writesItems_prettyItems {level : Nat} {item : Json} {items : List Json}
    (h : ∀ json ∈ item :: items, Writes (json.prettyAt level) json) :
    WritesItems (separated (',' :: newLine level) (prettyItems level (item :: items)))
      (item :: items) := by
  induction items generalizing item with
  | nil => exact (h item List.mem_cons_self).toItems
  | cons next items ih =>
    obtain ⟨hitem, hitems⟩ := List.forall_mem_cons.mp h
    exact (ih hitems).cons hitem level

theorem writesFields_prettyFields {level : Nat} {field : List Char × Json}
    {fields : List (List Char × Json)} (hnames : ∀ f ∈ field :: fields, IsInside f.1)
    (h : ∀ f ∈ field :: fields, Writes (f.2.prettyAt level) f.2) :
    WritesFields (separated (',' :: newLine level) (prettyFields level (field :: fields)))
      (field :: fields) := by
  induction fields generalizing field with
  | nil => exact (h field List.mem_cons_self).toFields (hnames field List.mem_cons_self)
  | cons next fields ih =>
    obtain ⟨hname, hnames⟩ := List.forall_mem_cons.mp hnames
    obtain ⟨hfield, hfields⟩ := List.forall_mem_cons.mp h
    exact WritesFields.cons hname hfield (ih hnames hfields) level

theorem IsWritten.writes (h : json.IsWritten) (level : Nat) :
    Writes (json.prettyAt level) json := by
  induction h generalizing level with
  | null =>
    have hatoms : ∀ c ∈ "null".toList, isAtomChar c = true :=
      List.all_eq_true.mp (by decide)
    exact writes_atom hatoms rfl
  | bool b =>
    have htrue : ∀ c ∈ "true".toList, isAtomChar c = true :=
      List.all_eq_true.mp (by decide)
    have hfalse : ∀ c ∈ "false".toList, isAtomChar c = true :=
      List.all_eq_true.mp (by decide)
    cases b with
    | true => exact writes_atom htrue rfl
    | false => exact writes_atom hfalse rfl
  | number hatoms h => exact writes_atom hatoms h
  | string h => exact writes_string h
  | @array items _ ih =>
    cases items with
    | nil => exact writes_array_nil
    | cons item items =>
      exact (writesItems_prettyItems fun json hmem => ih json hmem (level + 1)).array level
  | @object fields hnames _ ih =>
    cases fields with
    | nil => exact writes_object_nil
    | cons field fields =>
      exact (writesFields_prettyFields hnames fun f hmem => ih f hmem (level + 1)).object level

/-- A document is read back from its text with a line for each item and field. -/
theorem IsWritten.read?_pretty (h : json.IsWritten) : read? json.pretty = some json := by
  obtain ⟨tokens, hcuts, hread⟩ := h.writes 0
  have htokens : tokens? json.pretty = some tokens := by
    have h := hcuts [] (by simp [Ends])
    rw [List.append_nil] at h
    rw [pretty, h]
    simp [tokens?]
  have hfold : tokens.foldlM Progress.read Progress.start = some ⟨[], .behind json⟩ := by
    have h := hread [] .value [] (.inl rfl)
    rw [List.append_nil] at h
    exact h
  rw [read?, htokens, Option.bind_some, ofTokens?, hfold]
  rfl

end Relational.Json
