import Relational.Proofs.Schema.Field
import Relational.Proofs.Statement.Select

/-!
# Written tables

The definition of a table as somebody means it (`Written.Definition`): columns with different names,
a primary key, and unique keys over several columns. It is written with the columns first and the
keys behind them, and the schema that is read from it has those columns in their order, those of the
primary key marked, and an index for each unique key (`Written.Definition.ofDefinition_text`).
-/

namespace Relational

open Text (Begins Ends IsUnbroken isItem isItemChar)

namespace Schema

variable {columns : List Column} {f : Column → Column} {name : String}

/-! ## Marking columns -/

/-- Of columns with different names, all those of a name are changed. -/
theorem updateColumn_eq_map (hnodup : (columns.map (·.name)).Nodup) :
    updateColumn name f columns = columns.map fun c => if c.name = name then f c else c := by
  induction columns with
  | nil => rfl
  | cons c columns ih =>
    obtain ⟨hc, hcolumns⟩ := List.nodup_cons.mp hnodup
    rw [updateColumn, List.map_cons]
    split
    · rename_i hname
      have hkeep : (columns.map fun c => if c.name = name then f c else c) = columns :=
        Text.map_eq_self fun d hd => if_neg fun h =>
          hc (List.mem_map.mpr ⟨d, hd, h.trans hname.symm⟩)
      rw [hkeep]
    · rw [ih hcolumns]

/-- The column as part of the primary key, if it is one. -/
def keyed (names : List String) (c : Column) : Column :=
  if c.name ∈ names then { c with primaryKey := true, nullable := false } else c

theorem name_keyed (names : List String) (c : Column) : (keyed names c).name = c.name := by
  rw [keyed]
  split <;> rfl

theorem map_name_keyed (names : List String) :
    (columns.map (keyed names)).map (·.name) = columns.map (·.name) := by
  rw [List.map_map]
  exact List.map_congr_left fun c _ => name_keyed names c

/-- The columns of a key are marked, if there are such columns. -/
theorem markPrimary_eq_ok {names : List String} (hnodup : (columns.map (·.name)).Nodup)
    (hnames : ∀ name ∈ names, name ∈ columns.map (·.name)) :
    markPrimary columns names = .ok (columns.map (keyed names)) := by
  induction names generalizing columns with
  | nil =>
    have hkeep : columns.map (keyed []) = columns :=
      Text.map_eq_self fun c _ => if_neg List.not_mem_nil
    rw [hkeep, markPrimary]
  | cons name names ih =>
    obtain ⟨hname, hrest⟩ := List.forall_mem_cons.mp hnames
    have hany : columns.any (·.name == name) = true := by simpa using hname
    have hmark : updateColumn name (fun c => { c with primaryKey := true, nullable := false }) columns =
        columns.map (keyed [name]) := by
      rw [updateColumn_eq_map hnodup]
      exact List.map_congr_left fun c _ => by simp [keyed]
    rw [markPrimary, if_pos hany, hmark, ih, List.map_map]
    · refine congrArg Except.ok (List.map_congr_left fun c _ => ?_)
      by_cases h1 : c.name = name <;> by_cases h2 : c.name ∈ names <;> simp [keyed, h1, h2]
    · rw [map_name_keyed]
      exact hnodup
    · rw [map_name_keyed]
      exact hrest

/-- Unique keys over several columns are indexes. -/
theorem addUniqueKeys_eq_ok {schema : Schema} {keys : List (List String)}
    (hseveral : ∀ key ∈ keys, 2 ≤ key.length)
    (hknown : ∀ key ∈ keys, ∀ name ∈ key, name ∈ schema.columnNames) :
    addUniqueKeys schema keys =
      .ok { schema with indexes := schema.indexes ++ keys.map (uniqueIndex schema.name) } := by
  have hlength : ∀ key ∈ keys, key.length ≠ 1 := fun key hkey => Nat.ne_of_gt (hseveral key hkey)
  have hfilter : keys.filter (·.length ≠ 1) = keys :=
    List.filter_eq_self.mpr fun key hkey => decide_eq_true (hlength key hkey)
  exact addUniqueKeys_eq_ok_iff.mpr ⟨hknown, by rw [foldl_markUnique_of_length hlength, hfilter]⟩

end Schema

/-! ## Keys -/

namespace Written

/-- The keywords of a key. -/
def keyWords (isPrimary : Bool) : List Char :=
  if isPrimary then lead "PRIMARY" ++ lead "KEY" else lead "UNIQUE"

/-- A key over columns. -/
def keyText (isPrimary : Bool) (names : List String) : List Char :=
  keyWords isPrimary ++ inParentheses (commas (names.map String.toList))

variable {isPrimary : Bool} {names : List String}

/-- The characters of a list of words can stand in the parentheses of an item. -/
theorem isItemChar_of_mem_commas (h : ∀ name ∈ names, IsWord name) :
    ∀ c ∈ commas (names.map String.toList), isItemChar c = true ∨ c = ',' := by
  refine forall_mem_commas (.inr rfl) (.inl (by decide)) fun text htext c hc => ?_
  obtain ⟨name, hname, rfl⟩ := List.mem_map.mp htext
  exact .inl (Text.isItemChar_of_isWordChar ((h name hname).2 c hc))

theorem splitCommas_names (h : ∀ name ∈ names, IsWord name) :
    Text.splitCommas (commas (names.map String.toList)) = names.map String.toList := by
  refine Text.splitCommas_commas (fun text htext => ?_) fun text htext => ?_
  · obtain ⟨name, hname, rfl⟩ := List.mem_map.mp htext
    exact Text.isItem_of_forall fun c hc => Text.isItemChar_of_isWordChar ((h name hname).2 c hc)
  · obtain ⟨name, hname, rfl⟩ := List.mem_map.mp htext
    have hword := (h name hname).isUnbroken
    exact ⟨hword.trim_eq, hword.ne_nil⟩

/-- The columns of a key, in parentheses behind a blank, are read up to the closing one. -/
theorem inParentheses_bind {β : Type} {k : List Char → Pattern β} (h : ∀ name ∈ names, IsWord name) :
    (Pattern.blanks >>= fun _ => Pattern.char '(' >>= fun _ =>
      Pattern.many (fun c => c ≠ '(' && c ≠ ')') >>= fun columns => Pattern.char ')' >>= fun _ =>
        k columns) (' ' :: inParentheses (commas (names.map String.toList))) =
      k (commas (names.map String.toList)) [] := by
  have hopen : Begins (!isBlank ·) (inParentheses (commas (names.map String.toList))) :=
    Text.begins_cons (by decide) _
  have hrun : Pattern.many (fun c => c ≠ '(' && c ≠ ')')
      (commas (names.map String.toList) ++ [')']) = [(commas (names.map String.toList), [')'])] := by
    refine Pattern.many_apply (fun c hc => ?_) (Text.begins_cons (by decide) [])
    rcases isItemChar_of_mem_commas h c hc with hitem | rfl
    · simp only [isItemChar, Bool.and_eq_true, bne_iff_ne] at hitem
      simp [hitem.1.1.2, hitem.1.2]
    · decide
  rw [Pattern.blanks_bind_cons hopen, inParentheses, Pattern.char_bind, Pattern.bind_of_single hrun,
    Pattern.char_bind]

theorem first?_keyText (h : ∀ name ∈ names, IsWord name) :
    Pattern.keyDefinition.first? (keyText isPrimary names) =
      some ((isPrimary, commas (names.map String.toList)), []) := by
  rw [Pattern.first?, Pattern.keyDefinition, Pattern.orElse_bind, Pattern.orElse]
  simp only [bind_assoc, pure_bind]
  cases isPrimary with
  | true =>
    have hkey (s : List Char) : Begins (!isBlank ·) ("KEY".toList ++ ' ' :: s) :=
      Text.begins_cons (c := 'K') (by decide) _
    have htext : keyText true names = "PRIMARY".toList ++ ' ' :: ("KEY".toList ++ ' ' ::
        inParentheses (commas (names.map String.toList))) := by
      simp [keyText, keyWords, lead]
    refine Pattern.first?_append ?_
    rw [htext, Pattern.keyword_gap_bind (List.all_eq_true.mp (by decide)) (hkey _), Pattern.keyword,
      Pattern.letters_bind (List.all_eq_true.mp (by decide)), inParentheses_bind h]
    rfl
  | false =>
    have htext : keyText false names = "UNIQUE".toList ++ ' ' ::
        inParentheses (commas (names.map String.toList)) := by
      simp [keyText, keyWords, lead]
    have hprimary : Pattern.keyword "PRIMARY" (keyText false names) = [] := by
      rw [htext]
      exact Pattern.keyword_eq_nil (c := 'U') rfl (by decide)
    rw [Pattern.bind_of_none hprimary, List.nil_append, htext, Pattern.keyword,
      Pattern.letters_bind (List.all_eq_true.mp (by decide)), inParentheses_bind h]
    rfl

/-- A key is read as the one that is meant. -/
theorem read?_keyText (hne : names ≠ []) (h : ∀ name ∈ names, IsWord name) :
    KeyDefinition.read? (keyText isPrimary names) = some (.ok ⟨isPrimary, names⟩) := by
  have hempty : (names.map String.toList).any List.isEmpty = false := by
    rw [List.any_map, List.any_eq_false]
    intro name hname
    simpa using (h name hname).1
  have hnone : (names.map String.toList).isEmpty = false := by simpa using hne
  have hback : (names.map String.toList).map String.ofList = names := by
    rw [List.map_map]
    exact Text.map_eq_self fun name _ => String.ofList_toList
  rw [KeyDefinition.read?, Pattern.whole?_eq_some (first?_keyText h), Option.map_some]
  dsimp only
  rw [splitCommas_names h, hempty, hnone, hback]
  rfl

/-- A key is an item of a list. -/
theorem isItem_keyText (h : ∀ name ∈ names, IsWord name) : isItem false (keyText isPrimary names) = true := by
  have hwords : ∀ c ∈ keyWords isPrimary, isItemChar c = true := by
    cases isPrimary <;> exact List.all_eq_true.mp (by decide)
  exact Text.isItem_append (Text.isItem_of_forall hwords)
    (Text.isItem_inParentheses (isItemChar_of_mem_commas h))

theorem trim_keyText (isPrimary : Bool) (names : List String) :
    Text.trim (keyText isPrimary names) = keyText isPrimary names := by
  have hbegins : Begins (!isBlank ·) (keyText isPrimary names) := by
    cases isPrimary with
    | true => exact Text.begins_cons (c := 'P') (by decide) _
    | false => exact Text.begins_cons (c := 'U') (by decide) _
  have hends : Ends (keyText isPrimary names) := (ends_inParentheses _).append _
  exact hends.trim_eq hbegins

/-! ## Definitions -/

/-- The definition of a table. -/
structure Definition where
  table : String
  isWord : IsWord table
  fields : List Field
  nodup : (fields.map Field.name).Nodup
  primaryKey : List String
  primaryKey_ne_nil : primaryKey ≠ []
  primaryKey_known (name : String) : name ∈ primaryKey → name ∈ fields.map Field.name
  uniqueKeys : List (List String)
  uniqueKeys_several (key : List String) : key ∈ uniqueKeys → 2 ≤ key.length
  uniqueKeys_known (key : List String) :
    key ∈ uniqueKeys → ∀ name ∈ key, name ∈ fields.map Field.name

namespace Definition

variable (definition : Definition)

/-- The columns first, and the keys behind them. -/
def items : List (List Char) :=
  definition.fields.map Field.text ++
    keyText true definition.primaryKey :: definition.uniqueKeys.map (keyText false)

def text : List Char :=
  lead "CREATE" ++ lead "TABLE" ++ definition.table.toList ++ ' ' ::
    inParentheses (commas definition.items)

/-- The schema that is meant. -/
def schema : Schema where
  name := definition.table
  columns := definition.fields.map fun field =>
    { field.column with
      nullable := decide (.notNull ∉ field.marks ∧ field.name ∉ definition.primaryKey)
      primaryKey := decide (field.name ∈ definition.primaryKey) }
  primaryKeys := definition.primaryKey
  indexes := definition.uniqueKeys.map fun key =>
    ⟨Schema.uniqueIndexName definition.table key, key, true⟩

theorem map_name_schema : definition.schema.columns.map (·.name) = definition.fields.map Field.name := by
  rw [schema, List.map_map]
  rfl

theorem isWord_of_mem {name : String} (h : name ∈ definition.fields.map Field.name) : IsWord name := by
  obtain ⟨field, -, rfl⟩ := List.mem_map.mp h
  exact field.isWord

theorem forall_mem_items {p : List Char → Prop} (hfield : ∀ field ∈ definition.fields, p field.text)
    (hkey : ∀ isPrimary names, (∀ name ∈ names, IsWord name) → p (keyText isPrimary names)) :
    ∀ item ∈ definition.items, p item := by
  refine List.forall_mem_append.mpr ⟨?_, List.forall_mem_cons.mpr ⟨?_, ?_⟩⟩
  · intro item hitem
    obtain ⟨field, hmem, rfl⟩ := List.mem_map.mp hitem
    exact hfield field hmem
  · exact hkey _ _ fun name hname =>
      definition.isWord_of_mem (definition.primaryKey_known name hname)
  · intro item hitem
    obtain ⟨key, hmem, rfl⟩ := List.mem_map.mp hitem
    exact hkey _ _ fun name hname =>
      definition.isWord_of_mem (definition.uniqueKeys_known key hmem name hname)

theorem isItem_items : ∀ item ∈ definition.items, isItem false item = true :=
  definition.forall_mem_items (fun field _ => field.isItem_text) fun _ _ => isItem_keyText

/-- The definition is cut into its items. -/
theorem splitCommas_items : Text.splitCommas (commas definition.items) = definition.items := by
  refine Text.splitCommas_commas definition.isItem_items (definition.forall_mem_items ?_ ?_)
  · exact fun field _ => ⟨field.trim_text, by simp [Field.text]⟩
  · exact fun isPrimary names _ => ⟨trim_keyText isPrimary names, by simp [keyText, inParentheses]⟩

/-! ### The outline -/

theorem add_field {outline : Schema.Outline} (field : Field)
    (hnew : field.name ∉ outline.columns.map (·.name)) :
    outline.add field.text = .ok { outline with columns := outline.columns ++ [field.column] } := by
  have hempty : field.text.isEmpty = false := by simp [Field.text]
  have hany : (outline.columns.any fun other => other.name == field.column.name) = false := by
    rw [List.any_eq_false]
    intro other hother
    rw [beq_iff_eq]
    exact fun h => hnew (List.mem_map.mpr ⟨other, hother, h⟩)
  rw [Schema.Outline.add, hempty, field.read?_text, field.ofDefinition_text, ok_bind, hany]
  rfl

theorem foldlM_fields {fields : List Field} {outline : Schema.Outline}
    (hnodup : (outline.columns.map (·.name) ++ fields.map Field.name).Nodup) :
    (fields.map Field.text).foldlM Schema.Outline.add outline =
      .ok { outline with columns := outline.columns ++ fields.map Field.column } := by
  induction fields generalizing outline with
  | nil => rw [List.map_nil, List.foldlM_nil, List.map_nil, List.append_nil]; rfl
  | cons field fields ih =>
    have hnew : field.name ∉ outline.columns.map (·.name) :=
      fun h => (List.nodup_append.mp hnodup).2.2 _ h _ List.mem_cons_self rfl
    have hrest : ((outline.columns ++ [field.column]).map (·.name) ++ fields.map Field.name).Nodup := by
      simpa using hnodup
    have hfields := @ih { outline with columns := outline.columns ++ [field.column] } hrest
    rw [List.map_cons, List.foldlM_cons, add_field field hnew, ok_bind, hfields, List.append_assoc]
    rfl

theorem foldlM_uniqueKeys {keys : List (List String)} {outline : Schema.Outline}
    (h : ∀ key ∈ keys, key ≠ [] ∧ ∀ name ∈ key, IsWord name) :
    (keys.map (keyText false)).foldlM Schema.Outline.add outline =
      .ok { outline with uniqueKeys := outline.uniqueKeys ++ keys } := by
  induction keys generalizing outline with
  | nil => rw [List.map_nil, List.foldlM_nil, List.append_nil]; rfl
  | cons key keys ih =>
    obtain ⟨⟨hne, hwords⟩, hkeys⟩ := List.forall_mem_cons.mp h
    have hadd : outline.add (keyText false key) =
        .ok { outline with uniqueKeys := outline.uniqueKeys ++ [key] } := by
      have hempty : (keyText false key).isEmpty = false := by simp [keyText, inParentheses]
      rw [Schema.Outline.add, hempty, read?_keyText hne hwords]
      rfl
    have hrest := @ih { outline with uniqueKeys := outline.uniqueKeys ++ [key] } hkeys
    rw [List.map_cons, List.foldlM_cons, hadd, ok_bind, hrest, List.append_assoc]
    rfl

/-- The definition lists what is meant. -/
theorem read_text : Schema.Outline.read (commas definition.items) =
    .ok ⟨definition.fields.map Field.column, some definition.primaryKey, definition.uniqueKeys⟩ := by
  have hfields := @foldlM_fields definition.fields ⟨[], none, []⟩ definition.nodup
  have hprimary : Schema.Outline.add ⟨definition.fields.map Field.column, none, []⟩
      (keyText true definition.primaryKey) =
        .ok ⟨definition.fields.map Field.column, some definition.primaryKey, []⟩ := by
    have hempty : (keyText true definition.primaryKey).isEmpty = false := by
      simp [keyText, inParentheses]
    rw [Schema.Outline.add, hempty, read?_keyText definition.primaryKey_ne_nil fun name hname =>
      definition.isWord_of_mem (definition.primaryKey_known name hname)]
    rfl
  have hunique := @foldlM_uniqueKeys definition.uniqueKeys
    ⟨definition.fields.map Field.column, some definition.primaryKey, []⟩ fun key hkey => by
      have hseveral := definition.uniqueKeys_several key hkey
      refine ⟨fun h => by simp [h] at hseveral, fun name hname => ?_⟩
      exact definition.isWord_of_mem (definition.uniqueKeys_known key hkey name hname)
  rw [Schema.Outline.read, splitCommas_items, items, List.foldlM_append, hfields, ok_bind,
    List.foldlM_cons, List.nil_append, hprimary, ok_bind, hunique, List.nil_append]

/-- The definition is read as the schema that is meant. -/
theorem ofDefinition_text :
    Schema.ofDefinition definition.table (commas definition.items) = .ok definition.schema := by
  have hnames : (definition.fields.map Field.column).map (·.name) = definition.fields.map Field.name := by
    rw [List.map_map]
    rfl
  have hkeys : Schema.Outline.primaryKeys ⟨definition.fields.map Field.column,
      some definition.primaryKey, definition.uniqueKeys⟩ = .ok definition.primaryKey := by
    have hmarked : (definition.fields.map Field.column).filter (·.primaryKey) = [] := by
      rw [List.filter_eq_nil_iff]
      intro column hcolumn
      obtain ⟨field, -, rfl⟩ := List.mem_map.mp hcolumn
      simp [Field.column]
    rw [Schema.Outline.primaryKeys, hmarked]
    rfl
  have hread := definition.read_text
  rw [Schema.Outline.read] at hread
  rw [Schema.ofDefinition, hread, Schema.orSyntaxError, ok_bind, hkeys, Schema.orSyntaxError, ok_bind,
    Schema.markPrimary_eq_ok, ok_bind, Schema.addUniqueKeys_eq_ok definition.uniqueKeys_several]
  · have hcolumns : (definition.fields.map Field.column).map (Schema.keyed definition.primaryKey) =
        definition.schema.columns := by
      rw [List.map_map]
      refine List.map_congr_left fun field _ => ?_
      rw [Function.comp_apply, Schema.keyed, Field.name_column]
      split
      · rename_i hkey
        simp [Field.column, hkey]
      · rename_i hkey
        simp [Field.column, hkey]
    rw [hcolumns]
    rfl
  · intro key hkey name hname
    rw [Schema.columnNames, Schema.map_name_keyed, hnames]
    exact definition.uniqueKeys_known key hkey name hname
  · rw [hnames]
    exact definition.nodup
  · intro name hname
    rw [hnames]
    exact definition.primaryKey_known name hname

/-! ### The statement -/

/-- What stands behind the first keyword. -/
def behind : List Char :=
  "TABLE".toList ++ ' ' :: (definition.table.toList ++ ' ' :: inParentheses (commas definition.items))

theorem text_eq : definition.text = "CREATE".toList ++ ' ' :: definition.behind := by
  simp [text, behind, lead]

theorem begins_behind : Begins (!isBlank ·) definition.behind :=
  Text.begins_cons (c := 'T') (by decide) _

theorem create_bind {β : Type} {k : Unit → Pattern β} :
    (Pattern.keyword "CREATE" >>= fun _ => Pattern.gap >>= k) definition.text =
      k () definition.behind := by
  rw [text_eq, Pattern.keyword_gap_bind (List.all_eq_true.mp (by decide)) definition.begins_behind]

theorem first?_text : Pattern.createTable.first? definition.text =
    some ((definition.table, commas definition.items), []) := by
  have hopen : Begins (!isBlank ·) (inParentheses (commas definition.items)) :=
    Text.begins_cons (by decide) _
  have hflat := Pattern.enclosed_inParentheses (Text.isFlat_commas definition.isItem_items)
  rw [Pattern.createTable, Pattern.named, Pattern.opening, Pattern.name]
  simp only [bind_assoc, pure_bind]
  rw [Pattern.first?, create_bind, behind, Pattern.keyword_gap_bind (List.all_eq_true.mp (by decide))
      (definition.isWord.isUnbroken.begins _),
    Pattern.word_bind definition.isWord.isUnbroken.ne_nil definition.isWord.2 (begins_cons _),
    Pattern.blanks_bind_cons hopen, Pattern.bind_of_single hflat, String.ofList_toList]
  rfl

/-- A definition is no statement of another kind. -/
theorem readAs?_text {kind : StatementKind} (h : kind ≠ .createTable) :
    Statement.readAs? kind definition.text = none := by
  have hletter (hkind : Text.sameLetter kind.letter 'C' = false) :
      Statement.readAs? kind definition.text = none :=
    Statement.readAs?_eq_none hkind
  have hnone {word : String} {letter : Char} {letters : List Char}
      (hword : word.toList = letter :: letters) (hT : Text.sameLetter letter 'T' = false) :
      Pattern.keyword word definition.behind = [] :=
    Pattern.keyword_eq_nil hword hT
  cases kind with
  | createTable => exact absurd rfl h
  | createDatabase =>
    have hnamed : Pattern.named "CREATE" "DATABASE" definition.text = [] := by
      rw [Pattern.named, Pattern.opening]
      simp only [bind_assoc]
      rw [create_bind, Pattern.bind_of_none (hnone rfl (by decide))]
    rw [Statement.readAs?, Pattern.whole?_eq_none hnamed, Option.map_none]
  | createIndex =>
    have hindex : Pattern.createIndex definition.text = [] := by
      rw [Pattern.createIndex, create_bind, Pattern.optional_bind, bind_assoc,
        Pattern.bind_of_none (hnone rfl (by decide)), List.nil_append,
        Pattern.bind_of_none (hnone rfl (by decide))]
    rw [Statement.readAs?, Pattern.whole?_eq_none hindex, Option.map_none]
  | _ => exact hletter (by decide)

theorem read?_text : Statement.read? definition.text =
    some (.createTable definition.table (commas definition.items)) := by
  rw [Statement.read?_eq_of_readAs?_none .createTable fun other _ => ?_, Statement.readAs?,
    Pattern.whole?_eq_some definition.first?_text, Option.map_some]
  exact (Decidable.em (other = .createTable)).imp_right definition.readAs?_text

theorem isOneLine_text : isOneLine false definition.text = true := by
  have hitems : ∀ c ∈ commas definition.items, isPlain c = true :=
    forall_mem_commas (by decide) (by decide) fun item hitem =>
      Text.isPlain_of_isItem (definition.isItem_items item hitem)
  have hplain : ∀ c ∈ definition.text, isPlain c = true := by
    intro c hc
    simp only [text, lead, inParentheses, List.mem_append, List.mem_cons, List.not_mem_nil,
      or_false] at hc
    rcases hc with (((hc | rfl) | hc | rfl) | hc) | rfl | rfl | hc | rfl
    · exact List.all_eq_true.mp (by decide) c hc
    · decide
    · exact List.all_eq_true.mp (by decide) c hc
    · decide
    · exact isPlain_of_isWordChar (definition.isWord.2 c hc)
    · decide
    · decide
    · exact hitems c hc
    · decide
  have hline : isOneLine false (definition.text ++ []) = true := isOneLine_append hplain
  rw [List.append_nil] at hline
  exact hline

theorem trim_text : Text.trim definition.text = definition.text := by
  have hends : Ends definition.text :=
    ((ends_inParentheses (commas definition.items)).append [' ']).append _
  exact hends.trim_eq (Text.begins_cons (c := 'C') (by decide) _)

end Definition

end Written

/-- The definition of a table is one statement by itself. -/
theorem Script.batches_definition (definition : Written.Definition) : batches definition.text =
    .ok [[.createTable definition.table (Written.commas definition.items)]] :=
  batches_of_read? (c := 'C') (by decide) rfl definition.isOneLine_text definition.trim_text
    definition.read?_text

end Relational
