import Relational.Proofs.Operand
import Relational.Proofs.Query.Evaluation

/-!
# Names of columns

The scope of sources that are added one after the other holds them in this order, no two of them under
one name (`Scope.addAll_eq_ok_iff`). A name without a dot in it stands before a dot for the source that
`Scope.source?` finds (`Scope.resolve_qualified`). This is the source that goes by the name, unless it
goes by the name of its table and an earlier source refers to a table of this name as well
(`Scope.source?_name_iff`): aliases are looked at first, but then the names of all tables are, also of
those that go by an alias. So a column behind the name of its source stands for the column of this
source, with that exception (`Scope.resolve_qualified_iff`, `Scope.resolve_shadowedSources`).
-/

namespace Relational

namespace Scope

variable {scope : Scope} {sources before after : List Source} {source : Source} {column : String}

/-! ## Adding sources -/

/-- The scope with sources more, one after the other. -/
def addAll (scope : Scope) (sources : List Source) : Except Error Scope :=
  sources.foldlM add scope

theorem nodup_concat_iff :
    ((scope.sources ++ [source]).map (·.name)).Nodup ↔
      source.name ∉ scope.sources.map (·.name) ∧ (scope.sources.map (·.name)).Nodup := by
  rw [List.map_append, List.map_singleton, ← List.concat_eq_append, List.nodup_concat]

/-- Sources can be added if no two go by one name then, and are kept in their order. -/
theorem addAll_eq_ok_iff {scope' : Scope} (hscope : (scope.sources.map (·.name)).Nodup) :
    scope.addAll sources = .ok scope' ↔
      ((scope.sources ++ sources).map (·.name)).Nodup ∧ scope' = ⟨scope.sources ++ sources⟩ := by
  induction sources generalizing scope with
  | nil =>
    rw [List.append_nil]
    exact ⟨fun h => ⟨hscope, (Except.ok.inj h).symm⟩, fun h => h.2 ▸ rfl⟩
  | cons source sources ih =>
    have hstep : scope.addAll (source :: sources) =
        (scope.add source >>= fun next => next.addAll sources) := List.foldlM_cons
    rw [hstep, bind_eq_ok_iff, List.append_cons]
    simp only [JoinClause.add_eq_ok_iff]
    constructor
    · rintro ⟨next, ⟨hname, rfl⟩, h⟩
      exact (ih (nodup_concat_iff.mpr ⟨hname, hscope⟩)).mp h
    · rintro ⟨hnodup, rfl⟩
      have hnext : ((scope.sources ++ [source]).map (·.name)).Nodup := by
        rw [List.map_append] at hnodup
        exact hnodup.of_append_left
      exact ⟨⟨scope.sources ++ [source]⟩, ⟨(nodup_concat_iff.mp hnext).1, rfl⟩,
        (ih hnext).mpr ⟨hnodup, rfl⟩⟩

/-! ## Looking up -/

/-- Only the source that goes by a name can have it for its alias. -/
theorem find?_nickname (hnodup : (scope.sources.map (·.name)).Nodup)
    (hsource : source ∈ scope.sources) :
    scope.sources.find? (fun other => other.nickname == some source.name) =
      if source.nickname = none then none else some source := by
  have hunique {other : Source} (hother : other ∈ scope.sources)
      (h : other.nickname = some source.name) : other = source := by
    refine List.inj_on_of_nodup_map hnodup hother hsource ?_
    rw [Source.name, h, Option.getD_some]
  split
  · rename_i hnone
    rw [List.find?_eq_none]
    intro other hother h
    have hnickname := beq_iff_eq.mp h
    rw [hunique hother hnickname, hnone] at hnickname
    cases hnickname
  · rename_i hsome
    obtain ⟨nickname, hnickname⟩ := Option.ne_none_iff_exists'.mp hsome
    have hself : (source.nickname == some source.name) = true := by
      rw [Source.name, hnickname, Option.getD_some, beq_self_eq_true]
    obtain ⟨other, hother⟩ : ∃ other,
        scope.sources.find? (fun other => other.nickname == some source.name) = some other :=
      Option.isSome_iff_exists.mp (List.find?_isSome.mpr ⟨source, hsource, hself⟩)
    have hnamed : other.nickname = some source.name := by simpa using List.find?_some hother
    rw [hother, hunique (List.mem_of_find?_eq_some hother) hnamed]

/-- A source is found by the name that it goes by, unless this is the name of its table and of the
table of an earlier source. -/
theorem source?_name_iff (hnodup : (scope.sources.map (·.name)).Nodup)
    (hsources : scope.sources = before ++ source :: after) :
    scope.source? source.name = some source ↔
      (source.nickname = none →
        ∀ other ∈ before, other.table.schema.name ≠ source.table.schema.name) := by
  have hmem : source ∈ scope.sources := by
    rw [hsources]
    exact List.mem_append_right _ List.mem_cons_self
  rw [source?, find?_nickname hnodup hmem]
  by_cases hnickname : source.nickname = none
  · have hname : source.name = source.table.schema.name := by
      rw [Source.name, hnickname, Option.getD_none]
    have hbefore : source ∉ before := by
      rw [hsources, List.map_append, List.map_cons, List.nodup_append] at hnodup
      exact fun h => hnodup.2.2 _ (List.mem_map_of_mem h) _ List.mem_cons_self rfl
    have hself : (source.table.schema.name == source.name) = true := by rw [hname, beq_self_eq_true]
    have hfind : (source :: after).find? (fun other => other.table.schema.name == source.name) =
        some source := List.find?_cons_of_pos hself
    rw [if_pos hnickname, forall_prop_of_true hnickname, hsources]
    dsimp only
    rw [List.find?_append, hfind, Option.or_eq_some_iff]
    constructor
    · rintro (hfound | ⟨hnone, -⟩) other hother heq
      · exact hbefore (List.mem_of_find?_eq_some hfound)
      · exact List.find?_eq_none.mp hnone other hother (by rw [heq, hname, beq_self_eq_true])
    · intro hother
      refine .inr ⟨List.find?_eq_none.mpr fun other hmem => ?_, rfl⟩
      rw [beq_iff_eq, hname]
      exact hother other hmem
  · simp [hnickname]

/-- A name without a dot stands before a dot for the source that is found by it. -/
theorem resolve_qualified {name : String} (hdot : '.' ∉ name.toList) :
    scope.resolve (qualified name column) = .ok (source, column) ↔
      scope.source? name = some source ∧ source.hasColumn column = true := by
  have htext : (qualified name column).toList = name.toList ++ '.' :: column.toList := by
    simp [qualified]
  rw [resolve, htext, Operand.splitDot_append hdot]
  simp only [String.ofList_toList]
  cases hfound : scope.source? name with
  | none => simp
  | some found =>
    simp only [Option.some.injEq]
    split
    · rename_i hcolumn
      rw [Except.ok.injEq, Prod.mk.injEq, and_iff_left rfl]
      exact ⟨fun h => ⟨h, h ▸ hcolumn⟩, fun h => h.1⟩
    · rename_i hcolumn
      refine iff_of_false nofun ?_
      rintro ⟨rfl, h⟩
      exact hcolumn h

/-- Each column of each of the sources that were added is listed behind the name of its source, and
stands for the column of this source; but if the source has no alias and an earlier one refers to a
table of the same name, then it does not. -/
theorem resolve_qualified_iff (hscope : empty.addAll (before ++ source :: after) = .ok scope)
    (hdot : '.' ∉ source.name.toList) (hcolumn : column ∈ source.table.schema.columnNames) :
    qualified source.name column ∈ (scope.columns.map fun (name, column) => qualified name column) ∧
    (scope.resolve (qualified source.name column) = .ok (source, column) ↔
      (source.nickname = none →
        ∀ other ∈ before, other.table.schema.name ≠ source.table.schema.name)) := by
  have hempty : (empty.sources.map (·.name)).Nodup := List.nodup_nil
  obtain ⟨hnodup, rfl⟩ := (addAll_eq_ok_iff hempty).mp hscope
  have hmem : source ∈ before ++ source :: after := List.mem_append_right _ List.mem_cons_self
  have hhas : source.hasColumn column = true := by
    obtain ⟨found, hfound, rfl⟩ := List.mem_map.mp hcolumn
    exact List.find?_isSome.mpr ⟨found, hfound, beq_self_eq_true found.name⟩
  constructor
  · refine List.mem_map.mpr ⟨(source.name, column), List.mem_flatMap.mpr ⟨source, hmem, ?_⟩, rfl⟩
    exact List.mem_map_of_mem hcolumn
  · rw [resolve_qualified hdot, and_iff_left hhas]
    exact source?_name_iff hnodup rfl

/-- A table whose rows refer to each other. -/
def partTable : Table :=
  .ofSchema ⟨"t", [⟨"id", .int, false, true, false⟩, ⟨"part", .int, true, false, false⟩], ["id"], []⟩

/-- The table under its own name, and behind that under an alias. -/
theorem resolve_qualified_partTable : ∃ scope,
    empty.addAll [⟨partTable, none, false⟩, ⟨partTable, some "x", false⟩] = .ok scope ∧
    scope.resolve "t.part" = .ok (⟨partTable, none, false⟩, "part") ∧
    scope.resolve "x.part" = .ok (⟨partTable, some "x", false⟩, "part") := by
  have hplain : empty.addAll ([] ++ ⟨partTable, none, false⟩ :: [⟨partTable, some "x", false⟩]) =
      .ok ⟨[⟨partTable, none, false⟩, ⟨partTable, some "x", false⟩]⟩ := by
    decide
  have halias : empty.addAll ([⟨partTable, none, false⟩] ++ ⟨partTable, some "x", false⟩ :: []) =
      .ok ⟨[⟨partTable, none, false⟩, ⟨partTable, some "x", false⟩]⟩ := hplain
  have hcolumn : "part" ∈ partTable.schema.columnNames := by decide
  refine ⟨_, hplain, ?_, ?_⟩
  · exact (resolve_qualified_iff hplain (by decide) hcolumn).2.mpr (by simp)
  · exact (resolve_qualified_iff halias (by decide) hcolumn).2.mpr (by simp)

/-- The other way round, the table's own name stands for the source that goes by the alias. -/
theorem resolve_shadowedSources : ∃ scope,
    empty.addAll [⟨partTable, some "x", false⟩, ⟨partTable, none, false⟩] = .ok scope ∧
    scope.columns = [("x", "id"), ("x", "part"), ("t", "id"), ("t", "part")] ∧
    scope.resolve "t.part" = .ok (⟨partTable, some "x", false⟩, "part") ∧
    scope.resolve "t.part" ≠ .ok (⟨partTable, none, false⟩, "part") :=
  ⟨⟨[⟨partTable, some "x", false⟩, ⟨partTable, none, false⟩]⟩, by decide⟩

end Scope

end Relational
