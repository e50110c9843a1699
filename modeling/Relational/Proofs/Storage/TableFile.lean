import Relational.Proofs.Json.Number
import Relational.Proofs.Ordered.Lookup
import Relational.Proofs.Schema.Definition
import Relational.Storage.TableFile

/-!
# Table files read back

What a table file holds is kept by it (`Json.Keeps`): its document can be written, and is read as the
same again. This goes from the parts to the whole, for records field by field and for lists item by
item, and asks two things of a table: that the limits of its columns fit into 64 bits, and that its
floats are kept (`TableFile.IsKept`). Then the content of the file is decoded to what was encoded
(`TableFile.decode_encode`).
-/

namespace Relational

namespace Json

/-- Something is written as a document, and is read back from it. -/
structure Keeps {α : Type} (toJson : α → Json) (ofJson? : Json → Option α) (a : α) : Prop where
  written : (toJson a).IsWritten
  read : ofJson? (toJson a) = some a

variable {α : Type} {toJson : α → Json} {ofJson? : Json → Option α}

/-! ## Texts, lists and records -/

theorem isWritten_ofText (s : String) : (ofText s).IsWritten :=
  .string (isInside_escape s)

theorem keeps_ofText (s : String) : Keeps ofText string? s :=
  ⟨isWritten_ofText s, string?_ofText s⟩

theorem mapM_map_eq_some {l : List α} {β : Type} {f : α → β} {g : β → Option α}
    (h : ∀ a ∈ l, g (f a) = some a) : (l.map f).mapM g = some l := by
  induction l with
  | nil => rfl
  | cons a l ih =>
    obtain ⟨ha, hl⟩ := List.forall_mem_cons.mp h
    rw [List.map_cons, List.mapM_cons, ha, ih hl]
    rfl

theorem Keeps.list {l : List α} (h : ∀ a ∈ l, Keeps toJson ofJson? a) :
    Keeps (fun l => array (l.map toJson)) (list? ofJson?) l where
  written := .array (List.forall_mem_map.mpr fun a ha => (h a ha).written)
  read := mapM_map_eq_some fun a ha => (h a ha).read

theorem keeps_ofTexts (l : List String) : Keeps ofTexts (list? string?) l :=
  Keeps.list fun s _ => keeps_ofText s

theorem isWritten_ofFields {fields : List (String × Json)} (h : ∀ field ∈ fields, field.2.IsWritten) :
    (ofFields fields).IsWritten :=
  .object (List.forall_mem_map.mpr fun field _ => isInside_escape field.1)
    (List.forall_mem_map.mpr h)

theorem fields?_ofFields (fields : List (String × Json)) :
    (ofFields fields).fields? = some fields := by
  refine mapM_map_eq_some fun (name, value) _ => ?_
  dsimp only
  rw [unescape?_escape]
  rfl

theorem field?_eq_some {fields : List (String × Json)} (hnodup : (fields.map (·.1)).Nodup)
    {field : String × Json} (h : field ∈ fields) : field? fields field.1 = some field.2 := by
  have hfilter : fields.filter (·.1 == field.1) = [field] := by
    induction fields with
    | nil => simp at h
    | cons other fields ih =>
      obtain ⟨hother, hfields⟩ := List.nodup_cons.mp hnodup
      rcases List.mem_cons.mp h with rfl | h
      · rw [List.filter_cons_of_pos (by simp)]
        congr 1
        refine List.filter_eq_nil_iff.mpr fun f hf => ?_
        rw [beq_iff_eq]
        exact fun he => hother (List.mem_map.mpr ⟨f, hf, he⟩)
      · rw [List.filter_cons_of_neg, ih hfields h]
        rw [beq_iff_eq]
        exact fun he => hother (List.mem_map.mpr ⟨field, h, he.symm⟩)
  rw [field?, hfilter]

/-- The record of fields with different names has their values. -/
theorem record?_ofFields {fields : List (String × Json)} {names : List String}
    (hnames : fields.map (·.1) = names) (hnodup : names.Nodup) :
    (ofFields fields).record? names = some (fields.map (·.2)) := by
  subst hnames
  have hrecord : (ofFields fields).record? (fields.map (·.1)) =
      (ofFields fields).fields?.bind fun fields' => (fields.map (·.1)).mapM (field? fields') := rfl
  have hall : ∀ l, l ⊆ fields → (l.map (·.1)).mapM (field? fields) = some (l.map (·.2)) := by
    intro l hl
    induction l with
    | nil => rfl
    | cons field l ih =>
      obtain ⟨hfield, hl⟩ := List.cons_subset.mp hl
      rw [List.map_cons, List.mapM_cons, field?_eq_some hnodup hfield, ih hl]
      rfl
  rw [hrecord, fields?_ofFields, Option.bind_some, hall fields (List.Subset.refl _)]

theorem isWritten_ofCase {name : String} {content : Json} (h : content.IsWritten) :
    (ofCase name content).IsWritten :=
  isWritten_ofFields (List.forall_mem_singleton.mpr h)

theorem case?_ofCase (name : String) (content : Json) :
    (ofCase name content).case? = some (name, content) := by
  change (unescape? (escape name)).map _ = _
  rw [unescape?_escape, Option.map_some]

theorem case?_ofText (name : String) : (ofText name).case? = some (name, null) := by
  change (unescape? (escape name)).map _ = _
  rw [unescape?_escape, Option.map_some]

end Json

open Json (Keeps)

/-! ## Values -/

/-- A float is read back from what is written for it. -/
def Binary64.IsKept (x : Binary64) : Prop :=
  (Json.ofFloat x).float? = some x

/-- A value is no float, or one that is read back. -/
def Value.IsKept : Value → Prop
  | .float x => x.IsKept
  | _ => True

instance : DecidablePred Value.IsKept
  | .float x => inferInstanceAs (Decidable ((Json.ofFloat x).float? = some x))
  | .int _ | .text _ | .null => isTrue trivial

theorem Value.keeps {value : Value} (h : value.IsKept) : Keeps toJson ofJson? value := by
  cases value with
  | int n =>
    refine ⟨Json.isWritten_ofCase (Json.isWritten_ofInteger n), ?_⟩
    rw [ofJson?, toJson, Json.case?_ofCase]
    change (Json.ofInteger n).integer?.map int = _
    rw [Json.integer?_ofInteger, Option.map_some]
  | float x =>
    refine ⟨Json.isWritten_ofCase (Json.isWritten_ofFloat x), ?_⟩
    rw [ofJson?, toJson, Json.case?_ofCase]
    change (Json.ofFloat x).float?.map float = _
    rw [show (Json.ofFloat x).float? = some x from h, Option.map_some]
  | text s =>
    refine ⟨Json.isWritten_ofCase (Json.isWritten_ofText s), ?_⟩
    rw [ofJson?, toJson, Json.case?_ofCase]
    change (Json.ofText s).string?.map text = _
    rw [Json.string?_ofText, Option.map_some]
  | null =>
    refine ⟨Json.isWritten_ofText "Null", ?_⟩
    rw [ofJson?, toJson, Json.case?_ofText]
    rfl

/-! ## Schemas -/

theorem ColumnType.keeps {type : ColumnType} (h : type.Fits) : Keeps toJson ofJson? type := by
  cases type with
  | int | float | date | bit =>
    refine ⟨Json.isWritten_ofText _, ?_⟩
    rw [ofJson?, toJson, Json.case?_ofText]
    rfl
  | varchar limit =>
    refine ⟨Json.isWritten_ofCase (Json.isWritten_ofNat limit), ?_⟩
    rw [ofJson?, toJson, Json.case?_ofCase]
    change (Json.ofNat limit).nat?.map varchar = _
    rw [Json.nat?_ofNat h, Option.map_some]

theorem Column.keeps {column : Column} (h : column.type.Fits) : Keeps toJson ofJson? column := by
  have htype := ColumnType.keeps h
  refine ⟨Json.isWritten_ofFields ?_, ?_⟩
  · simp only [List.forall_mem_cons, List.not_mem_nil, false_implies, implies_true, and_true]
    exact ⟨Json.isWritten_ofText _, htype.written, .bool _, .bool _, .bool _⟩
  · rw [ofJson?, toJson, Json.record?_ofFields]
    · simp only [List.map_cons, List.map_nil, Option.bind_eq_bind, Option.bind_some,
        Json.string?_ofText, htype.read, Json.bool?]
      rfl
    · rfl
    · decide

theorem IndexDefinition.keeps (definition : IndexDefinition) :
    Keeps toJson ofJson? definition := by
  have hcolumns := Json.keeps_ofTexts definition.columns
  refine ⟨Json.isWritten_ofFields ?_, ?_⟩
  · simp only [List.forall_mem_cons, List.not_mem_nil, false_implies, implies_true, and_true]
    exact ⟨Json.isWritten_ofText _, hcolumns.written, .bool _⟩
  · rw [ofJson?, toJson, Json.record?_ofFields]
    · simp only [List.map_cons, List.map_nil, Option.bind_eq_bind, Option.bind_some,
        Json.string?_ofText, hcolumns.read, Json.bool?]
      rfl
    · rfl
    · decide

theorem Schema.keeps {schema : Schema} (h : ∀ column ∈ schema.columns, column.type.Fits) :
    Keeps toJson ofJson? schema := by
  have hcolumns := Keeps.list fun column hcolumn => Column.keeps (h column hcolumn)
  have hkeys := Json.keeps_ofTexts schema.primaryKeys
  have hindexes := Keeps.list fun definition (_ : definition ∈ schema.indexes) =>
    IndexDefinition.keeps definition
  refine ⟨Json.isWritten_ofFields ?_, ?_⟩
  · simp only [List.forall_mem_cons, List.not_mem_nil, false_implies, implies_true, and_true]
    exact ⟨Json.isWritten_ofText _, hcolumns.written, hkeys.written, hindexes.written⟩
  · rw [ofJson?, toJson, Json.record?_ofFields]
    · simp only [List.map_cons, List.map_nil, Option.bind_eq_bind, Option.bind_some,
        Json.string?_ofText, hcolumns.read, hkeys.read, hindexes.read]
      rfl
    · rfl
    · decide

/-! ## Rows -/

/-- Every value of the row is kept. -/
def Row.IsKept (row : Row) : Prop :=
  ∀ column value, row.get? column = some value → value.IsKept

instance : DecidablePred Row.IsKept := fun row =>
  decidable_of_iff (∀ value ∈ row.values, value.IsKept) SortedMap.forall_mem_values

theorem Row.keeps {row : Row} (h : row.IsKept) : Keeps toJson ofJson? row := by
  have hcell (cell : String × Value) (hcell : cell ∈ row.entries) :
      Keeps Value.toJson Value.ofJson? cell.2 :=
    Value.keeps (h cell.1 cell.2 (SortedMap.mem_entries_iff.mp hcell))
  refine ⟨Json.isWritten_ofFields <|
    List.forall_mem_map.mpr fun cell hmem => (hcell cell hmem).written, ?_⟩
  have hcells : (row.entries.map fun cell => (cell.1, cell.2.toJson)).mapM
      (fun cell => do return (cell.1, ← Value.ofJson? cell.2)) = some row.entries := by
    refine Json.mapM_map_eq_some fun cell hmem => ?_
    dsimp only
    rw [(hcell cell hmem).read]
    rfl
  rw [ofJson?, toJson, Json.fields?_ofFields]
  exact (congrArg (·.bind fun cells => some (SortedMap.ofList cells)) hcells).trans
    (congrArg some (SortedMap.ofList_entries row))

namespace TableFile

theorem keeps_row (id : RowId) {row : Row} (h : row.IsKept) :
    Keeps (fun (id, row) => rowToJson id row) rowOfJson? (id, row) := by
  have hid := Json.keeps_ofTexts id.parts
  have hrow := Row.keeps h
  refine ⟨Json.isWritten_ofFields ?_, ?_⟩
  · simp only [List.forall_mem_cons, List.not_mem_nil, false_implies, implies_true, and_true]
    exact ⟨hid.written, hrow.written⟩
  · dsimp only
    rw [rowOfJson?, rowToJson, Json.record?_ofFields]
    · simp only [List.map_cons, List.map_nil, Option.bind_eq_bind, Option.bind_some, hid.read,
        hrow.read]
      rfl
    · rfl
    · decide

/-- The limits of the columns fit into 64 bits, and the values of the rows are kept. -/
structure IsKept (file : TableFile) : Prop where
  fits (column : Column) : column ∈ file.schema.columns → column.type.Fits
  row (id : RowId) (row : Row) : file.rows.get? id = some row → row.IsKept

theorem keeps {file : TableFile} (h : file.IsKept) : Keeps toJson ofJson? file := by
  have hschema := Schema.keeps h.fits
  have hrows := Keeps.list fun entry (hentry : entry ∈ file.rows.entries) =>
    keeps_row entry.1 (h.row entry.1 entry.2 (SortedMap.mem_entries_iff.mp hentry))
  refine ⟨Json.isWritten_ofFields ?_, ?_⟩
  · simp only [List.forall_mem_cons, List.not_mem_nil, false_implies, implies_true, and_true]
    exact ⟨hschema.written, hrows.written⟩
  · rw [ofJson?, toJson, Json.record?_ofFields]
    · simp only [List.map_cons, List.map_nil, Option.bind_eq_bind, Option.bind_some, hschema.read,
        hrows.read, SortedMap.ofList_entries]
      rfl
    · rfl
    · decide

/-- The content of a table file is decoded to what was encoded. -/
theorem decode_encode {file : TableFile} (h : file.IsKept) : decode (encode file) = .ok file := by
  rw [decode, encode, Text.ofBytes?_toBytes]
  dsimp only
  rw [(keeps h).written.read?_pretty, Option.bind_some, (keeps h).read]

end TableFile

end Relational
