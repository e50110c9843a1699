import Relational.Proofs.Pattern
import Relational.Proofs.Schema
import Relational.Schema.Definition

/-!
# Schemas of definitions

What a schema is made of that is read from a definition (`Schema.ofDefinition_spec`): the columns that
the definition lists, with marks more for its keys (`Schema.Refines`), and an index for each unique
key of several columns. So its columns have different names, each column of the primary key is
marked, and the indexes it comes with are over several columns or none (`Schema.Defined`).
-/

namespace Relational

/-- A limit of a type fits into 64 bits. -/
def ColumnType.Fits : ColumnType → Prop
  | varchar limit => limit < 18446744073709551616
  | _ => True

theorem ColumnType.fits_of_ofName {name : String} {length : Option (List Char)}
    {type : ColumnType} (h : ofName name length = .ok type) : type.Fits := by
  unfold ofName at h
  dsimp only at h
  split at h
  · have hplain : type = int ∨ type = float ∨ type = date ∨ type = bit := by
      repeat' split at h
      all_goals simp_all
    rcases hplain with rfl | rfl | rfl | rfl <;> trivial
  · split at h
    · split at h
      · split at h
        · rename_i hn
          cases h
          exact hn
        · simp at h
      · simp at h
    · simp at h

namespace Column

theorem of_constrain {column column' : Column} {words : List String}
    (h : column.constrain words = .ok column') :
    column'.name = column.name ∧ column'.type = column.type := by
  fun_induction constrain column words with
  | case1 => cases h; exact ⟨rfl, rfl⟩
  | case2 _ _ ih => exact ih h
  | case3 _ _ ih => exact ih h
  | case4 _ _ ih => exact ih h
  | case5 _ _ ih => exact ih h
  | case6 => simp at h

/-- A name that is a word, and a type with a limit that fits. -/
def Fits (column : Column) : Prop :=
  IsWord column.name ∧ column.type.Fits

theorem fits_of_ofDefinition {s : List Char} {column : Column}
    (h : ofDefinition s = .ok column) : column.Fits := by
  unfold ofDefinition at h
  split at h
  · simp at h
  · rename_i name type length constraints rest hread
    have hname : Pattern.columnDefinition.Yields fun r => IsWord r.1 :=
      Pattern.yields_name.bind fun name hname => Pattern.yields_bind fun _ =>
        Pattern.yields_bind fun _ => Pattern.yields_bind fun _ => Pattern.yields_bind fun _ =>
          Pattern.yields_pure hname
    obtain ⟨type, htype, h⟩ := bind_eq_ok_iff.mp h
    obtain ⟨hsame, hkept⟩ := of_constrain h
    rw [Fits, hsame, hkept]
    exact ⟨hname.first? hread, ColumnType.fits_of_ofName htype⟩

/-- A version of a column: it has the same name and type, and may have marks more. -/
structure Refines (c c' : Column) : Prop where
  name : c'.name = c.name
  type : c'.type = c.type
  primaryKey : c.primaryKey = true → c'.primaryKey = true
  nullable : c.nullable = false → c'.nullable = false
  unique : c.unique = true → c'.unique = true

theorem Refines.refl (c : Column) : c.Refines c := ⟨rfl, rfl, id, id, id⟩

theorem Refines.trans {c c' c'' : Column} (h : c.Refines c') (h' : c'.Refines c'') :
    c.Refines c'' where
  name := h'.name.trans h.name
  type := h'.type.trans h.type
  primaryKey hc := h'.primaryKey (h.primaryKey hc)
  nullable hc := h'.nullable (h.nullable hc)
  unique hc := h'.unique (h.unique hc)

end Column

namespace Schema

/-- A column of a name is marked as part of the primary key. -/
def IsMarked (columns : List Column) (name : String) : Prop :=
  ∃ column ∈ columns, column.name = name ∧ column.primaryKey = true

/-- An index that a unique key of several columns makes. -/
def IsUniqueKey (schema : Schema) (definition : IndexDefinition) : Prop :=
  definition.columns.length ≠ 1 ∧
    definition.name = uniqueIndexName schema.name definition.columns ∧
    ∀ name ∈ definition.columns, name ∈ schema.columnNames

/-- What a schema has that is read from a definition. -/
structure Defined (schema : Schema) : Prop where
  nodup : schema.columnNames.Nodup
  marked (name : String) : name ∈ schema.primaryKeys → IsMarked schema.columns name
  fits (column : Column) : column ∈ schema.columns → column.Fits
  indexes (definition : IndexDefinition) : definition ∈ schema.indexes →
    schema.IsUniqueKey definition

variable {columns columns' : List Column} {name : String} {f : Column → Column}

/-! ## Changing columns -/

theorem map_name_updateColumn (hf : ∀ c, (f c).name = c.name) :
    (updateColumn name f columns).map (·.name) = columns.map (·.name) := by
  induction columns with
  | nil => rfl
  | cons c columns ih =>
    rw [updateColumn]
    split
    · simp [hf]
    · simp [ih]

theorem mem_updateColumn {c : Column} (h : c ∈ updateColumn name f columns) :
    c ∈ columns ∨ ∃ c' ∈ columns, c'.name = name ∧ c = f c' := by
  induction columns with
  | nil => simp [updateColumn] at h
  | cons d columns ih =>
    rw [updateColumn] at h
    split at h
    · rename_i hd
      rcases List.mem_cons.mp h with rfl | h
      · exact .inr ⟨d, List.mem_cons_self, hd, rfl⟩
      · exact .inl (List.mem_cons_of_mem _ h)
    · rcases List.mem_cons.mp h with rfl | h
      · exact .inl List.mem_cons_self
      · refine (ih h).imp (List.mem_cons_of_mem _) ?_
        exact fun ⟨c', hc', h⟩ => ⟨c', List.mem_cons_of_mem _ hc', h⟩

theorem mem_updateColumn_of_mem {c : Column} (h : c ∈ columns) :
    c ∈ updateColumn name f columns ∨ f c ∈ updateColumn name f columns := by
  induction columns with
  | nil => simp at h
  | cons d columns ih =>
    rw [updateColumn]
    split
    · rcases List.mem_cons.mp h with rfl | h
      · exact .inr List.mem_cons_self
      · exact .inl (List.mem_cons_of_mem _ h)
    · rcases List.mem_cons.mp h with rfl | h
      · exact .inl List.mem_cons_self
      · exact (ih h).imp (List.mem_cons_of_mem _) (List.mem_cons_of_mem _)

theorem mem_updateColumn_self (h : name ∈ columns.map (·.name)) :
    ∃ c ∈ columns, c.name = name ∧ f c ∈ updateColumn name f columns := by
  induction columns with
  | nil => simp at h
  | cons d columns ih =>
    rw [updateColumn]
    split
    · rename_i hd
      exact ⟨d, List.mem_cons_self, hd, List.mem_cons_self⟩
    · rename_i hd
      rcases List.mem_cons.mp h with rfl | h
      · exact absurd rfl hd
      · obtain ⟨c, hc, hname, hmem⟩ := ih h
        exact ⟨c, List.mem_cons_of_mem _ hc, hname, List.mem_cons_of_mem _ hmem⟩

/-! ## Reading the items -/

/-- What the columns of an outline have. -/
def Outline.IsSound (outline : Outline) : Prop :=
  (outline.columns.map (·.name)).Nodup ∧ ∀ column ∈ outline.columns, column.Fits

theorem Outline.IsSound.add {outline outline' : Outline} {item : List Char}
    (h : outline.IsSound) (hadd : outline.add item = .ok outline') : outline'.IsSound := by
  unfold Outline.add at hadd
  rw [guard_eq_ok_iff] at hadd
  obtain ⟨-, hadd⟩ := hadd
  split at hadd
  · obtain ⟨key, -, hadd⟩ := bind_eq_ok_iff.mp hadd
    dsimp only at hadd
    split at hadd
    · cases hadd; exact h
    · rw [guard_eq_ok_iff] at hadd
      obtain ⟨-, hadd⟩ := hadd
      cases hadd; exact h
  · simp only [bind_eq_ok_iff, guard_eq_ok_iff] at hadd
    obtain ⟨column, hcolumn, hnew, hadd⟩ := hadd
    cases hadd
    refine ⟨?_, fun c hc => ?_⟩
    · rw [List.map_append, List.nodup_append]
      refine ⟨h.1, by simp, fun a ha b hb => ?_⟩
      simp only [List.map_cons, List.map_nil, List.mem_singleton] at hb
      obtain ⟨c, hc, rfl⟩ := List.mem_map.mp ha
      rintro he
      exact hnew (List.any_eq_true.mpr ⟨c, hc, by simp [he, hb]⟩)
    · rcases List.mem_append.mp hc with hc | hc
      · exact h.2 c hc
      · rw [List.mem_singleton.mp hc]
        exact Column.fits_of_ofDefinition hcolumn

theorem Outline.IsSound.foldlM {items : List (List Char)} {outline outline' : Outline}
    (h : outline.IsSound) (hadd : items.foldlM Outline.add outline = .ok outline') :
    outline'.IsSound := by
  induction items generalizing outline with
  | nil => cases hadd; exact h
  | cons item items ih =>
    rw [List.foldlM_cons] at hadd
    obtain ⟨next, hnext, hadd⟩ := bind_eq_ok_iff.mp hadd
    exact ih (h.add hnext) hadd

/-! ## Keys -/

/-- The first columns with marks more: of each column there is a version, and of each version a
column. -/
structure Refines (columns columns' : List Column) : Prop where
  names : columns'.map (·.name) = columns.map (·.name)
  stored (c : Column) : c ∈ columns → ∃ c' ∈ columns', c.Refines c'
  declared (c' : Column) : c' ∈ columns' → ∃ c ∈ columns, c.Refines c'

theorem Refines.refl : Refines columns columns :=
  ⟨rfl, fun c hc => ⟨c, hc, .refl c⟩, fun c hc => ⟨c, hc, .refl c⟩⟩

theorem Refines.trans {columns'' : List Column} (h : Refines columns columns')
    (h' : Refines columns' columns'') : Refines columns columns'' where
  names := h'.names.trans h.names
  stored c hc := by
    obtain ⟨c', hc', hrefines⟩ := h.stored c hc
    obtain ⟨c'', hc'', hrefines'⟩ := h'.stored c' hc'
    exact ⟨c'', hc'', hrefines.trans hrefines'⟩
  declared c'' hc'' := by
    obtain ⟨c', hc', hrefines'⟩ := h'.declared c'' hc''
    obtain ⟨c, hc, hrefines⟩ := h.declared c' hc'
    exact ⟨c, hc, hrefines.trans hrefines'⟩

theorem Refines.fits (h : Refines columns columns') (hc : ∀ c ∈ columns, c.Fits) :
    ∀ c' ∈ columns', c'.Fits := by
  intro c' hc'
  obtain ⟨c, hmem, hrefines⟩ := h.declared c' hc'
  rw [Column.Fits, hrefines.name, hrefines.type]
  exact hc c hmem

theorem Refines.marked (h : Refines columns columns') (hmarked : IsMarked columns name) :
    IsMarked columns' name := by
  obtain ⟨c, hc, rfl, hkey⟩ := hmarked
  obtain ⟨c', hc', hrefines⟩ := h.stored c hc
  exact ⟨c', hc', hrefines.name, hrefines.primaryKey hkey⟩

theorem refines_updateColumn (hf : ∀ c : Column, c.Refines (f c)) :
    Refines columns (updateColumn name f columns) where
  names := map_name_updateColumn fun c => (hf c).name
  stored c hc := by
    rcases mem_updateColumn_of_mem (f := f) hc with h | h
    · exact ⟨c, h, .refl c⟩
    · exact ⟨f c, h, hf c⟩
  declared c hc := by
    rcases mem_updateColumn hc with h | ⟨c', h, -, rfl⟩
    · exact ⟨c, h, .refl c⟩
    · exact ⟨c', h, hf c'⟩

theorem refines_markPrimary {names : List String} (h : markPrimary columns names = .ok columns') :
    Refines columns columns' ∧ ∀ name ∈ names, IsMarked columns' name := by
  induction names generalizing columns with
  | nil => cases h; exact ⟨.refl, by simp⟩
  | cons name names ih =>
    rw [markPrimary] at h
    split at h
    · rename_i hany
      obtain ⟨hrefines, hmarked⟩ := ih h
      have hname : name ∈ columns.map (·.name) := by simpa using hany
      have hself : IsMarked (updateColumn name
          (fun c => { c with primaryKey := true, nullable := false }) columns) name := by
        obtain ⟨c, -, hc, hmem⟩ := mem_updateColumn_self (f := fun c =>
          { c with primaryKey := true, nullable := false }) hname
        exact ⟨_, hmem, hc, rfl⟩
      have hmark : Refines columns (updateColumn name
          (fun c => { c with primaryKey := true, nullable := false }) columns) :=
        refines_updateColumn fun c => ⟨rfl, rfl, fun _ => rfl, fun _ => rfl, id⟩
      refine ⟨hmark.trans hrefines, ?_⟩
      intro other hother
      rcases List.mem_cons.mp hother with rfl | hother
      · exact hrefines.marked hself
      · exact hmarked other hother
    · simp at h

/-- The index of a unique key of several columns. -/
def uniqueIndex (table : String) (columns : List String) : IndexDefinition :=
  ⟨uniqueIndexName table columns, columns, true⟩

/-- The columns with the mark of a unique key, if it is of one column. -/
def markUnique (columns : List Column) : List String → List Column
  | [name] => updateColumn name (fun c => { c with unique := true }) columns
  | _ => columns

theorem refines_markUnique (key : List String) : Refines columns (markUnique columns key) := by
  unfold markUnique
  split
  · exact refines_updateColumn fun c => ⟨rfl, rfl, id, id, fun _ => rfl⟩
  · exact .refl

theorem markUnique_of_length {key : List String} (h : key.length ≠ 1) :
    markUnique columns key = columns := by
  unfold markUnique
  split
  · exact absurd rfl h
  · rfl

theorem unique_markUnique (h : name ∈ columns.map (·.name)) :
    ∃ c ∈ markUnique columns [name], c.name = name ∧ c.unique = true := by
  obtain ⟨c, -, hname, hmem⟩ := mem_updateColumn_self (f := fun c => { c with unique := true }) h
  exact ⟨_, hmem, hname, rfl⟩

/-- Unique keys can be added if there is a column for each of their names: one of a single column is a
mark of the column, and one of several is an index. -/
theorem addUniqueKeys_eq_ok_iff {schema schema' : Schema} {keys : List (List String)} :
    addUniqueKeys schema keys = .ok schema' ↔
      (∀ key ∈ keys, ∀ name ∈ key, name ∈ schema.columnNames) ∧
        schema' = { schema with
          columns := keys.foldl markUnique schema.columns
          indexes := schema.indexes ++
            (keys.filter (·.length ≠ 1)).map (uniqueIndex schema.name) } := by
  induction keys generalizing schema with
  | nil =>
    rw [addUniqueKeys, Except.ok.injEq, eq_comm]
    simp
  | cons key keys ih =>
    unfold addUniqueKeys
    rw [List.forall_mem_cons]
    dsimp only
    split
    · rename_i hmissing
      exact iff_of_false nofun fun h => find?_missing_eq_some hmissing h.1.1
    · rename_i hfound
      rw [and_iff_right (find?_missing_eq_none_iff.mp hfound)]
      split
      · rename_i name
        have hnames : (updateColumn name (fun c => { c with unique := true }) schema.columns).map
            (·.name) = schema.columnNames := (refines_markUnique [name]).names
        rw [ih]
        simp [columnNames, hnames, markUnique]
      · rename_i hseveral
        have hlength : key.length ≠ 1 := fun hone =>
          (List.length_eq_one_iff.mp hone).elim hseveral
        rw [ih, List.foldl_cons, markUnique_of_length hlength,
          List.filter_cons_of_pos (by simpa using hlength), List.append_assoc]
        rfl

theorem refines_foldl_markUnique (keys : List (List String)) :
    Refines columns (keys.foldl markUnique columns) := by
  induction keys generalizing columns with
  | nil => exact .refl
  | cons key keys ih => exact (refines_markUnique key).trans ih

theorem foldl_markUnique_of_length {keys : List (List String)} (h : ∀ key ∈ keys, key.length ≠ 1) :
    keys.foldl markUnique columns = columns := by
  induction keys with
  | nil => rfl
  | cons key keys ih =>
    obtain ⟨hkey, hkeys⟩ := List.forall_mem_cons.mp h
    rw [List.foldl_cons, markUnique_of_length hkey, ih hkeys]

/-- Each unique key of one column has marked the column. -/
theorem unique_foldl_markUnique {keys : List (List String)} (hkey : [name] ∈ keys)
    (hname : name ∈ columns.map (·.name)) :
    ∃ c ∈ keys.foldl markUnique columns, c.name = name ∧ c.unique = true := by
  obtain ⟨before, behind, rfl⟩ := List.append_of_mem hkey
  rw [List.foldl_append, List.foldl_cons]
  rw [← (refines_foldl_markUnique before).names] at hname
  obtain ⟨c, hc, hcname, hunique⟩ := unique_markUnique hname
  obtain ⟨c', hc', hrefines⟩ := (refines_foldl_markUnique behind).stored c hc
  exact ⟨c', hc', hrefines.name.trans hcname, hrefines.unique hunique⟩

theorem orSyntaxError_eq_ok_iff {α : Type} {x : Except SyntaxFault α} {a : α} :
    orSyntaxError x = .ok a ↔ x = .ok a := by
  cases x <;> simp [orSyntaxError]

/-- Reads what a definition lists. -/
def Outline.read (definition : List Char) : Except SyntaxFault Outline :=
  (Text.splitCommas definition).foldlM Outline.add ⟨[], none, []⟩

theorem Outline.isSound_of_read {definition : List Char} {outline : Outline}
    (h : Outline.read definition = .ok outline) : outline.IsSound :=
  IsSound.foldlM (⟨by simp, by simp⟩ : (⟨[], none, []⟩ : Outline).IsSound) h

/-- What a definition makes a schema of: the columns that it lists, with marks more for its keys, and
an index for each unique key of several columns. -/
theorem ofDefinition_spec {table : String} {definition : List Char} {schema : Schema}
    (h : ofDefinition table definition = .ok schema) :
    ∃ outline, Outline.read definition = .ok outline ∧ schema.name = table ∧
      outline.primaryKeys = .ok schema.primaryKeys ∧ Refines outline.columns schema.columns ∧
      (∀ name ∈ schema.primaryKeys, IsMarked schema.columns name) ∧
      schema.indexes = (outline.uniqueKeys.filter (·.length ≠ 1)).map (uniqueIndex table) ∧
      (∀ key ∈ outline.uniqueKeys, ∀ name ∈ key, name ∈ schema.columnNames) ∧
      ∀ name, [name] ∈ outline.uniqueKeys → ∃ column ∈ schema.columns, column.name = name ∧
        column.unique = true := by
  unfold ofDefinition at h
  simp only [bind_eq_ok_iff, orSyntaxError_eq_ok_iff] at h
  obtain ⟨outline, houtline, keys, hkeys, columns, hcolumns, h⟩ := h
  obtain ⟨hmark, hmarked⟩ := refines_markPrimary hcolumns
  obtain ⟨hknown, rfl⟩ := addUniqueKeys_eq_ok_iff.mp h
  have hrefines : Refines columns (outline.uniqueKeys.foldl markUnique columns) :=
    refines_foldl_markUnique outline.uniqueKeys
  refine ⟨outline, houtline, rfl, hkeys, hmark.trans hrefines,
    fun name hname => hrefines.marked (hmarked name hname), List.nil_append _,
    fun key hkey name hname => ?_, fun name hkey => ?_⟩
  · rw [columnNames, hrefines.names]
    exact hknown key hkey name hname
  · exact unique_foldl_markUnique hkey (hknown [name] hkey name List.mem_cons_self)

/-- A schema that is read from a definition. -/
theorem defined_of_ofDefinition {table : String} {s : List Char} {schema : Schema}
    (h : ofDefinition table s = .ok schema) : schema.Defined ∧ schema.name = table := by
  obtain ⟨outline, houtline, hname, -, hrefines, hmarked, hindexes, hknown, -⟩ :=
    ofDefinition_spec h
  obtain ⟨hnodup, hfits⟩ := Outline.isSound_of_read houtline
  refine ⟨⟨?_, hmarked, hrefines.fits hfits, fun d hd => ?_⟩, hname⟩
  · rw [columnNames, hrefines.names]
    exact hnodup
  · rw [hindexes, List.mem_map] at hd
    obtain ⟨key, hkey, rfl⟩ := hd
    obtain ⟨hmem, hseveral⟩ := List.mem_filter.mp hkey
    exact ⟨by simpa [uniqueIndex] using hseveral, by rw [hname]; rfl, hknown key hmem⟩

/-- The names of the indexes of a definition are words, where the name of the table is one. -/
theorem Defined.isWord_index {schema : Schema} (h : schema.Defined) (hname : IsWord schema.name)
    {definition : IndexDefinition} (hmem : definition ∈ schema.indexes) :
    IsWord definition.name := by
  obtain ⟨-, hd, hcolumns⟩ := h.indexes definition hmem
  have hline : ∀ c ∈ "_".toList, isWordChar c = true := List.all_eq_true.mp (by decide)
  rw [hd, uniqueIndexName]
  refine IsWord.append (IsWord.append (IsWord.append ?_ hname.2) hline) ?_
  · exact ⟨by decide, List.all_eq_true.mp (by decide)⟩
  · refine isWordChar_intercalate hline fun name hmem => ?_
    obtain ⟨column, hcolumn, rfl⟩ := List.mem_map.mp (hcolumns name hmem)
    exact (h.fits column hcolumn).1

end Schema

end Relational
