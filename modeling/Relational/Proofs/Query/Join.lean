import Relational.Proofs.Table.Sound
import Relational.Query.Join

/-!
# Joined rows

A joined row has a part for each source, which is a stored row of the source, under the name of the
source and under its identity at the position of the source (`Join.IsJoined`). Since a join puts the
part of its table behind the others, rows may be chosen by their first part before or after they are
joined (`Join.extendAll_filter`).
-/

namespace Relational

open Std

/-! ## Parts -/

namespace RowId

theorem part?_join_of_lt {id more : RowId} {position : Nat} (h : position < id.parts.length) :
    (id.join more).part? position = id.part? position := by
  rw [part?, join, List.getElem?_append_left h, part?]

theorem part?_join_ofKey {id : RowId} (key : String) :
    (id.join (.ofKey key)).part? id.parts.length = some (.ofKey key) := by
  rw [part?, join, ofKey, List.getElem?_concat_length]
  rfl

theorem length_join (id more : RowId) :
    (id.join more).parts.length = id.parts.length + more.parts.length :=
  List.length_append

end RowId

namespace Join

variable {join : Join} {joins : List Join} {rows result : JoinedRows}

/-! ## One join -/

/-- What a join makes of one row: the row with each row of the table that agrees with it. -/
theorem mem_extendRow_iff {id : RowId} {row : JoinedRow} {joined : List (RowId × JoinedRow)}
    (h : join.extendRow id row = .ok joined) {e : RowId × JoinedRow} :
    e ∈ joined ↔ ∃ part stored, join.target.table.rows.get? part = some stored ∧
      agree (((row.get? join.leftTable).map (·.cell join.leftColumn)).getD .null)
        (stored.cell join.rightColumn) = .ok true ∧
      e = (id.join part, row.insert join.target.name stored) := by
  obtain ⟨hall, rfl⟩ := filterMapM_eq_ok_iff.mp h
  rw [List.mem_filterMap]
  constructor
  · rintro ⟨⟨part, stored⟩, hmem, hgain⟩
    obtain ⟨o, ho⟩ := hall _ hmem
    rw [ho, gain_ok] at hgain
    obtain ⟨b, hb, ho⟩ := bind_eq_ok_iff.mp ho
    cases b with
    | true =>
      rw [← Except.ok.inj ho] at hgain
      exact ⟨part, stored, SortedMap.mem_entries_iff.mp hmem, hb, (Option.some.inj hgain).symm⟩
    | false =>
      rw [← Except.ok.inj ho] at hgain
      nomatch hgain
  · rintro ⟨part, stored, hstored, hagree, rfl⟩
    refine ⟨(part, stored), SortedMap.mem_entries_iff.mpr hstored, ?_⟩
    dsimp only
    rw [hagree]
    rfl

theorem extend_eq_ok_iff : join.extend rows = .ok result ↔
    (∀ e ∈ rows.entries, ∃ joined, join.extendRow e.1 e.2 = .ok joined) ∧
      result = .ofList (rows.entries.flatMap fun e => gain (join.extendRow e.1 e.2)) := by
  rw [extend, bind_eq_ok_iff]
  constructor
  · rintro ⟨joined, hjoined, h⟩
    obtain ⟨hall, rfl⟩ := flatMapM_eq_ok_iff.mp hjoined
    exact ⟨hall, (Except.ok.inj h).symm⟩
  · rintro ⟨hall, rfl⟩
    exact ⟨_, flatMapM_eq_ok_iff.mpr ⟨hall, rfl⟩, rfl⟩

/-- Where the rows of a join come from. -/
theorem get?_extend (h : join.extend rows = .ok result) {id : RowId} {row : JoinedRow}
    (hrow : result.get? id = some row) :
    ∃ before left part stored, rows.get? before = some left ∧
      join.target.table.rows.get? part = some stored ∧ id = before.join part ∧
      row = left.insert join.target.name stored := by
  obtain ⟨hall, rfl⟩ := extend_eq_ok_iff.mp h
  obtain ⟨⟨before, left⟩, hmem, hjoined⟩ :=
    List.mem_flatMap.mp (SortedMap.mem_of_get?_ofList hrow)
  obtain ⟨joined, hj⟩ := hall _ hmem
  rw [hj, gain_ok] at hjoined
  obtain ⟨part, stored, hstored, -, he⟩ := (mem_extendRow_iff hj).mp hjoined
  obtain ⟨rfl, rfl⟩ := Prod.mk.inj he
  exact ⟨before, left, part, stored, SortedMap.mem_entries_iff.mp hmem, hstored, rfl, rfl⟩

theorem filter_flatMap {α β : Type} {f : α → List β} {p : β → Bool} {q : α → Bool} {l : List α}
    (h : ∀ a ∈ l, ∀ b ∈ f a, p b = q a) :
    (l.flatMap f).filter p = (l.filter q).flatMap f := by
  induction l with
  | nil => rfl
  | cons a l ih =>
    obtain ⟨ha, hl⟩ := List.forall_mem_cons.mp h
    rw [List.flatMap_cons, List.filter_append, ih hl, List.filter_cons]
    split
    · rename_i hq
      rw [List.flatMap_cons, List.filter_eq_self.mpr fun b hb => (ha b hb).trans hq]
    · rename_i hq
      rw [List.filter_eq_nil_iff.mpr fun b hb => by rw [ha b hb]; exact hq, List.nil_append]

/-- Rows may be chosen before or after a join, if it does not change what they are chosen by. -/
theorem extend_filter {p : RowId → Bool} (h : join.extend rows = .ok result)
    (hp : ∀ id part, rows.contains id = true → p (id.join part) = p id) :
    join.extend (rows.filter fun id _ => p id) = .ok (result.filter fun id _ => p id) := by
  obtain ⟨hall, rfl⟩ := extend_eq_ok_iff.mp h
  rw [extend_eq_ok_iff, SortedMap.filter_ofList]
  refine ⟨fun e he => hall e (List.mem_filter.mp he).1, congrArg _ ?_⟩
  refine filter_flatMap fun e he joined hjoined => ?_
  obtain ⟨joined, hj⟩ := hall e he
  rw [hj, gain_ok] at hjoined
  obtain ⟨part, stored, -, -, rfl⟩ := (mem_extendRow_iff hj).mp hjoined
  exact hp e.1 part (SortedMap.contains_of_get? (SortedMap.mem_entries_iff.mp he))

/-! ## All joins -/

/-- Rows may be chosen by their first part before or after they are joined. -/
theorem extendAll_filter {p : Option RowId → Bool} (h : extendAll joins rows = .ok result)
    (hrows : ∀ id, rows.contains id = true → id.parts ≠ []) :
    extendAll joins (rows.filter fun id _ => p (id.part? 0)) =
      .ok (result.filter fun id _ => p (id.part? 0)) := by
  induction joins generalizing rows with
  | nil => cases h; rfl
  | cons join joins ih =>
    obtain ⟨next, hnext, h⟩ := bind_eq_ok_iff.mp h
    have hfilter : join.extend (rows.filter fun id _ => p (id.part? 0)) =
        .ok (next.filter fun id _ => p (id.part? 0)) := by
      refine extend_filter (p := fun id => p (id.part? 0)) hnext fun id part hid => ?_
      rw [RowId.part?_join_of_lt (List.length_pos_iff.mpr (hrows id hid))]
    rw [extendAll, hfilter, ok_bind]
    refine ih h fun id hid => ?_
    obtain ⟨row, hrow⟩ := SortedMap.contains_iff.mp hid
    obtain ⟨before, left, part, -, hleft, -, rfl, -⟩ := get?_extend hnext hrow
    have hbefore := hrows before (SortedMap.contains_of_get? hleft)
    exact fun hnil => hbefore (List.append_eq_nil_iff.mp hnil).1

/-! ## What joined rows are -/

/-- The row has a part for each source: a stored row of it, under its name, known by the key at its
position. -/
structure IsJoined (sources : List Source) (id : RowId) (row : JoinedRow) : Prop where
  width : id.parts.length = sources.length
  part (position : Nat) (source : Source) : sources[position]? = some source →
    ∃ part stored, id.part? position = some part ∧ source.table.rows.get? part = some stored ∧
      row.get? source.name = some stored

variable {sources : List Source}

theorem isJoined_extend (h : join.extend rows = .ok result)
    (hname : join.target.name ∉ sources.map (·.name)) (htarget : join.target.table.Coherent)
    (hrows : ∀ id row, rows.get? id = some row → IsJoined sources id row) {id : RowId}
    {row : JoinedRow} (hrow : result.get? id = some row) :
    IsJoined (sources ++ [join.target]) id row := by
  obtain ⟨before, left, part, stored, hleft, hstored, rfl, rfl⟩ := get?_extend h hrow
  obtain ⟨hwidth, hpart⟩ := hrows before left hleft
  obtain ⟨key, rfl⟩ := htarget.parts hstored
  refine ⟨?_, fun position source hsource => ?_⟩
  · rw [RowId.length_join, hwidth, List.length_append]
    rfl
  · rcases Nat.lt_or_ge position sources.length with hlt | hge
    · rw [List.getElem?_append_left hlt] at hsource
      obtain ⟨part', stored', hpart', hstored', hrow'⟩ := hpart position source hsource
      refine ⟨part', stored', ?_, hstored', ?_⟩
      · rw [RowId.part?_join_of_lt (hwidth ▸ hlt), hpart']
      · have hne : source.name ≠ join.target.name := fun he =>
          hname (he ▸ List.mem_map_of_mem (List.mem_of_getElem? hsource))
        rw [SortedMap.get?_insert, if_neg hne, hrow']
    · rw [List.getElem?_append_right hge, List.getElem?_singleton] at hsource
      split at hsource
      · rename_i hzero
        have hposition : position = before.parts.length := by omega
        rw [← Option.some.inj hsource, hposition]
        exact ⟨_, stored, RowId.part?_join_ofKey key, hstored, SortedMap.get?_insert_self _ _ _⟩
      · simp at hsource

theorem isJoined_extendAll (h : extendAll joins rows = .ok result)
    (hnames : ((sources ++ joins.map (·.target)).map (·.name)).Nodup)
    (htables : ∀ join ∈ joins, join.target.table.Coherent)
    (hrows : ∀ id row, rows.get? id = some row → IsJoined sources id row) {id : RowId}
    {row : JoinedRow} (hrow : result.get? id = some row) :
    IsJoined (sources ++ joins.map (·.target)) id row := by
  induction joins generalizing sources rows with
  | nil =>
    cases h
    rw [List.map_nil, List.append_nil]
    exact hrows id row hrow
  | cons join joins ih =>
    obtain ⟨next, hnext, h⟩ := bind_eq_ok_iff.mp h
    obtain ⟨htarget, htables⟩ := List.forall_mem_cons.mp htables
    rw [List.map_cons, List.append_cons] at hnames ⊢
    have hname : join.target.name ∉ sources.map (·.name) := by
      rw [List.map_append, List.map_append] at hnames
      have hdisjoint := (List.nodup_append.mp (List.nodup_append.mp hnames).1).2.2
      exact fun hmem => hdisjoint _ hmem _ List.mem_cons_self rfl
    exact ih h hnames htables fun id row hrow => isJoined_extend hnext hname htarget hrows hrow

/-- The rows of one source. -/
theorem isJoined_rows {source : Source} (h : source.table.Coherent) {id : RowId} {row : JoinedRow}
    (hrow : source.rows.get? id = some row) : IsJoined [source] id row := by
  rw [Source.rows, Source.group, SortedMap.get?_map] at hrow
  obtain ⟨stored, hstored, rfl⟩ := Option.map_eq_some_iff.mp hrow
  obtain ⟨key, rfl⟩ := h.parts hstored
  refine ⟨rfl, fun position other hother => ?_⟩
  rw [List.getElem?_singleton] at hother
  split at hother
  · rename_i hzero
    subst hzero
    rw [← Option.some.inj hother]
    exact ⟨_, stored, rfl, hstored, SortedMap.get?_insert_self _ _ _⟩
  · simp at hother

end Join

end Relational
