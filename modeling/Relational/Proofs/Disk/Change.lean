import Relational.Proofs.Disk.Walk

/-!
# Changes of a disk

What a change leaves on a disk, if it can be made: `apply_makeDirectory`, `apply_write`,
`apply_removeFile` and `apply_removeTree` say so of what has a plain name in a directory that the
segments before the name lead to. So a change is known by the place that it is about, and what is
elsewhere is as it was.
-/

namespace Relational.Disk

open Relational.Path (IsPlain)

variable {disk disk' : Disk} {place below : Place} {segments : List String} {name : String}

/-! ## Directories -/

/-- Segments begin at a directory if they lead to one. -/
theorem isDirectory_of_walk? (hwalk : disk.walk? place segments = some below)
    (hdir : disk.isDirectory below = true) : disk.isDirectory place = true := by
  cases segments with
  | nil =>
    rw [walk?, Option.some.injEq] at hwalk
    rw [hwalk, hdir]
  | cons segment segments =>
    rw [walk?] at hwalk
    split at hwalk
    · simp at hwalk
    · rename_i h
      simpa using h

/-- Where segments lead to a directory, no directory is missing along them. -/
theorem makeAlong_append (hwalk : disk.walk? place segments = some below)
    (hdir : disk.isDirectory below = true) (more : List String) :
    disk.makeAlong place (segments.filter (!Path.stays ·) ++ more) = disk.makeAlong below more := by
  induction segments generalizing place with
  | nil =>
    rw [walk?, Option.some.injEq] at hwalk
    rw [hwalk, List.filter_nil, List.nil_append]
  | cons segment segments ih =>
    rw [walk?] at hwalk
    split at hwalk
    · simp at hwalk
    · split at hwalk
      · rename_i hstays
        rw [List.filter_cons_of_neg (by simp [hstays])]
        exact ih hwalk
      · rename_i hstays
        rw [List.filter_cons_of_pos (by simp [hstays]), List.cons_append, makeAlong]
        split at hwalk
        · rename_i hback
          rw [if_pos hback]
          exact ih hwalk
        · rename_i hback
          rw [if_neg hback]
          split at hwalk
          · dsimp only
            rw [isDirectory_iff.mp (isDirectory_of_walk? hwalk hdir)]
            exact ih hwalk
          · simp at hwalk

theorem apply_makeDirectory (h : disk.Leads segments place) (hname : IsPlain name)
    (happly : disk.apply (.makeDirectory ⟨segments ++ [name]⟩) = (true, disk')) :
    Path.isUsable ⟨segments ++ [name]⟩ = true ∧
      disk' = ⟨disk.entries.insert (place ++ [name]) .directory⟩ := by
  rw [apply, makeDirectory] at happly
  split at happly
  · simp at happly
  · rename_i husable
    refine ⟨by simpa using husable, ?_⟩
    rw [Path.trimmed_mk hname, List.getLast?_concat, if_neg (by simpa using hname.ne_dot),
      Path.leading_mk hname, makeAlong_append h.walk h.isDirectory, makeAlong,
      if_neg hname.ne_back] at happly
    dsimp only at happly
    split at happly
    · rename_i hthere
      rw [makeAlong, Prod.mk.injEq] at happly
      rw [← happly.2]
      rw [entry?_append] at hthere
      rw [SortedMap.insert_of_get? hthere]
    · simp at happly
    · split at happly
      · rw [makeAlong, Prod.mk.injEq] at happly
        exact happly.2.symm
      · simp at happly

/-! ## Files -/

theorem apply_write {content : Content} (h : disk.Leads segments place)
    (happly : disk.apply (.write ⟨segments ++ [name]⟩ content) = (true, disk')) :
    Path.isUsable ⟨segments ++ [name]⟩ = true ∧
      disk' = ⟨disk.entries.insert (place ++ [name]) (.file content)⟩ := by
  rw [apply, writable?] at happly
  dsimp only at happly
  rw [List.getLast?_concat, List.dropLast_concat] at happly
  cases hfind : disk.find? ⟨segments⟩ with
  | none =>
    rw [hfind] at happly
    simp at happly
  | some found =>
    rw [hfind] at happly
    rw [find?_mk (isUsable_of_find? hfind), h.walk, Option.some.injEq] at hfind
    subst hfind
    dsimp only at happly
    split at happly
    · rename_i hplace
      split at hplace
      · rename_i husable
        rw [Bool.and_eq_true, Bool.and_eq_true, Bool.and_eq_true] at husable
        rw [Prod.mk.injEq] at happly
        rw [← happly.2, ← Option.some.inj hplace]
        exact ⟨husable.1.1.1, rfl⟩
      · simp at hplace
    · simp at happly

theorem apply_removeFile (h : disk.Leads segments place) (hname : IsPlain name)
    (happly : disk.apply (.removeFile ⟨segments ++ [name]⟩) = (true, disk')) :
    disk' = ⟨disk.entries.erase (place ++ [name])⟩ := by
  rw [apply] at happly
  split at happly
  · simp at happly
  · rename_i found hfind
    rw [find?_mk (isUsable_of_find? hfind), h.walk?_append hname] at hfind
    split at hfind
    · rw [← Option.some.inj hfind] at happly
      split at happly
      · simp at happly
      · rw [Prod.mk.injEq] at happly
        exact happly.2.symm
    · simp at hfind

/-! ## Trees -/

/-- A directory is gone with all below it, if the segments before its name do not lead through that.
-/
theorem apply_removeTree (h : disk.Reaches segments place) (hname : IsPlain name)
    (happly : disk.apply (.removeTree ⟨segments ++ [name]⟩) = (true, disk')) (other : Place) :
    disk'.entries.get? other =
      if place ++ [name] <+: other then none else disk.entries.get? other := by
  rw [apply, removeTree] at happly
  split at happly
  · simp at happly
  · rename_i found hfind
    rw [find?_mk (isUsable_of_find? hfind), h.leads.walk?_append hname] at hfind
    split at hfind
    · rw [← Option.some.inj hfind] at happly
      split at happly
      · simp at happly
      · rw [Path.trimmed_mk hname, List.dropLast_concat, List.getLast?_concat] at happly
        dsimp only at happly
        rw [(h.emptied name).walk] at happly
        dsimp only at happly
        split at happly
        · rw [Prod.mk.injEq] at happly
          rw [← happly.2]
          dsimp only
          rw [SortedMap.get?_erase, get?_emptied]
          by_cases hother : other = place ++ [name]
          · simp [hother]
          · simp [hother]
        · simp at happly
    · simp at hfind

/-! ## Several changes -/

theorem applyAll_cons {change : DiskChange} {changes : List DiskChange} :
    disk.applyAll (change :: changes) = (true, disk') ↔
      ∃ next, disk.apply change = (true, next) ∧ next.applyAll changes = (true, disk') := by
  rw [applyAll]
  split
  · rename_i next h
    rw [h]
    simp
  · rename_i next h
    rw [h]
    simp

/-- Files that are written into a directory are there then, if each has one content. -/
theorem applyAll_writes {files : List (String × Content)} (h : disk.Reaches segments place)
    (hfiles : ∀ file content content', (file, content) ∈ files → (file, content') ∈ files →
      content = content')
    (happly : disk.applyAll (files.map fun (file, content) =>
      .write ⟨segments ++ [file]⟩ content) = (true, disk')) :
    (∀ file content, (file, content) ∈ files → Path.isUsable ⟨segments ++ [file]⟩ = true ∧
      disk'.entries.get? (place ++ [file]) = some (.file content)) ∧
    ∀ other, (∀ file content, (file, content) ∈ files → other ≠ place ++ [file]) →
      disk'.entries.get? other = disk.entries.get? other := by
  induction files generalizing disk with
  | nil =>
    rw [List.map_nil, applyAll, Prod.mk.injEq] at happly
    simp [happly.2]
  | cons head files ih =>
    obtain ⟨name, written⟩ := head
    obtain ⟨next, hnext, happly⟩ := applyAll_cons.mp happly
    obtain ⟨husable, rfl⟩ := apply_write h.leads hnext
    have hrest : ∀ other, other ≠ place ++ [name] →
        (disk.entries.insert (place ++ [name]) (.file written)).get? other =
          disk.entries.get? other := by
      intro other hother
      rw [SortedMap.get?_insert, if_neg hother]
    have hreaches : Reaches ⟨disk.entries.insert (place ++ [name]) (.file written)⟩ segments place :=
      h.congr fun other hother => hrest other (by rintro rfl; exact hother (by simp))
    obtain ⟨hwritten, hsame⟩ := ih hreaches (fun file content content' hmem hmem' =>
      hfiles file content content' (List.mem_cons_of_mem _ hmem) (List.mem_cons_of_mem _ hmem'))
      happly
    refine ⟨fun file content hmem => ?_, fun other hother => ?_⟩
    · rcases List.mem_cons.mp hmem with he | hmem
      · obtain ⟨rfl, rfl⟩ := Prod.mk.inj he
        refine ⟨husable, ?_⟩
        -- A later file of this name has this content too.
        by_cases hagain : ∃ again, (file, again) ∈ files
        · obtain ⟨again, hagain⟩ := hagain
          rw [hfiles file content again List.mem_cons_self (List.mem_cons_of_mem _ hagain)]
          exact (hwritten file again hagain).2
        · rw [hsame, SortedMap.get?_insert, if_pos rfl]
          rintro other again hmem hother
          obtain rfl : file = other := by simpa using hother
          exact hagain ⟨again, hmem⟩
      · exact hwritten file content hmem
    · rw [hsame other fun file content hmem => hother file content (List.mem_cons_of_mem _ hmem)]
      exact hrest other (hother name written List.mem_cons_self)

/-- Files that are removed from a directory are gone. -/
theorem applyAll_removeFiles {names : List String} (h : disk.Reaches segments place)
    (hplain : ∀ name ∈ names, IsPlain name)
    (happly : disk.applyAll (names.map fun name => .removeFile ⟨segments ++ [name]⟩) =
      (true, disk')) :
    (∀ name ∈ names, disk'.entries.get? (place ++ [name]) = none) ∧
    ∀ other, (∀ name ∈ names, other ≠ place ++ [name]) →
      disk'.entries.get? other = disk.entries.get? other := by
  induction names generalizing disk with
  | nil =>
    rw [List.map_nil, applyAll, Prod.mk.injEq] at happly
    simp [happly.2]
  | cons name names ih =>
    obtain ⟨hname, hnames⟩ := List.forall_mem_cons.mp hplain
    obtain ⟨next, hnext, happly⟩ := applyAll_cons.mp happly
    obtain rfl := apply_removeFile h.leads hname hnext
    have hrest : ∀ other, other ≠ place ++ [name] →
        (disk.entries.erase (place ++ [name])).get? other = disk.entries.get? other := by
      intro other hother
      rw [SortedMap.get?_erase, if_neg hother]
    have hreaches : Reaches ⟨disk.entries.erase (place ++ [name])⟩ segments place :=
      h.congr fun other hother => hrest other (by rintro rfl; exact hother (by simp))
    obtain ⟨hgone, hsame⟩ := ih hreaches hnames happly
    refine ⟨fun other hother => ?_, fun other hother => ?_⟩
    · by_cases hagain : other ∈ names
      · exact hgone other hagain
      · obtain rfl : other = name := (List.mem_cons.mp hother).resolve_right hagain
        rw [hsame, SortedMap.get?_erase, if_pos rfl]
        rintro again hmem hsame
        obtain rfl : other = again := by simpa using hsame
        exact hagain hmem
    · rw [hsame other fun again hmem => hother again (List.mem_cons_of_mem _ hmem)]
      exact hrest other (hother name List.mem_cons_self)

/-! ## Looking into directories -/

theorem mem_children {entry : DiskEntry} :
    (name, entry) ∈ disk.children place ↔ disk.entries.get? (place ++ [name]) = some entry := by
  rw [← SortedMap.mem_entries_iff, children, List.mem_filterMap]
  constructor
  · rintro ⟨⟨other, found⟩, hmem, h⟩
    dsimp only at h
    split at h
    · rename_i last hlast
      obtain ⟨before, rfl⟩ := List.getLast?_eq_some_iff.mp hlast
      rw [List.dropLast_concat] at h
      split at h
      · rename_i hbefore
        cases h
        rwa [← hbefore]
      · simp at h
    · simp at h
  · intro hmem
    refine ⟨_, hmem, ?_⟩
    dsimp only
    rw [List.getLast?_concat]
    dsimp only
    rw [List.dropLast_concat, if_pos rfl]

end Relational.Disk
