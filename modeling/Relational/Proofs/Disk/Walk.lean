import Relational.Disk
import Relational.Proofs.Ordered.Lookup

/-!
# Where paths lead

A name without slashes is the last segment of the path that it is joined to (`Path.join_ofText`), and
a plain one leads to what has this name in a directory (`Disk.walk?_name`). Segments lead to a
directory (`Disk.Leads`) as long as what they were led along is there (`Leads.mono`), whatever else
the disk holds; and if they do not lead through what is below it, whatever it holds
(`Reaches.congr`).
-/

namespace Relational

namespace Path

/-! ## Joining -/

/-- A segment without slashes that leads to what has its name. -/
structure IsPlain (name : String) : Prop where
  noSlash : '/' ∉ name.toList
  stays : stays name = false
  ne_back : name ≠ ".."

/-- The segments that a joined name stands behind. -/
def stem (path : Path) : List String :=
  if path.segments.getLast? = some "" then path.segments.dropLast else path.segments

theorem split_eq {segment s : List Char} (h : '/' ∉ s) :
    ofText.split segment s = [String.ofList (segment.reverse ++ s)] := by
  induction s generalizing segment with
  | nil => rw [ofText.split, List.append_nil]
  | cons c s ih =>
    rw [List.mem_cons, not_or] at h
    rw [ofText.split, if_neg (Ne.symm h.1), ih h.2, List.reverse_cons, List.append_assoc,
      List.singleton_append]

theorem ofText_eq {name : String} (h : '/' ∉ name.toList) : ofText name = ⟨[name]⟩ := by
  rw [ofText, split_eq h, List.reverse_nil, List.nil_append, String.ofList_toList]

theorem join_ofText {name : String} (path : Path) (h : '/' ∉ name.toList) :
    path.join (ofText name) = ⟨path.stem ++ [name]⟩ := by
  rw [ofText_eq h, stem, join]
  split
  · rename_i he
    simp at he
  · split <;> rfl

theorem IsPlain.ne_empty {name : String} (h : IsPlain name) : name ≠ "" := by
  rintro rfl
  exact absurd h.stays (by decide)

theorem IsPlain.ne_dot {name : String} (h : IsPlain name) : name ≠ "." := by
  rintro rfl
  exact absurd h.stays (by decide)

theorem stem_mk {segments : List String} {name : String} (h : IsPlain name) :
    (⟨segments ++ [name]⟩ : Path).stem = segments ++ [name] := by
  rw [stem, List.getLast?_append, if_neg]
  simpa using h.ne_empty

/-- The segments of a path that ends in a plain name, up to the last that is not empty. -/
theorem trimmed_mk {segments : List String} {name : String} (h : IsPlain name) :
    (⟨segments ++ [name]⟩ : Path).trimmed = segments ++ [name] := by
  have hne : (name == "") = false := by simpa using h.ne_empty
  simp [trimmed, hne]

theorem leading_mk {segments : List String} {name : String} (h : IsPlain name) :
    (⟨segments ++ [name]⟩ : Path).leading = segments.filter (!Path.stays ·) ++ [name] := by
  simp [leading, h.stays]

end Path

namespace Disk

open Relational.Path (IsPlain)

variable {disk disk' : Disk} {place below : Place} {segments : List String} {name : String}

/-! ## Walking -/

theorem entry?_append (disk : Disk) (place : Place) (name : String) :
    disk.entry? (place ++ [name]) = disk.entries.get? (place ++ [name]) := by
  rw [Disk.entry?, if_neg (by simp)]

theorem isDirectory_iff : disk.isDirectory place = true ↔ disk.entry? place = some .directory := by
  rw [isDirectory, beq_iff_eq]

theorem walk?_append (disk : Disk) (place : Place) (segments more : List String) :
    disk.walk? place (segments ++ more) =
      (disk.walk? place segments).bind fun below => disk.walk? below more := by
  induction segments generalizing place with
  | nil => rfl
  | cons segment segments ih =>
    simp only [List.cons_append, walk?, ih]
    repeat' split
    all_goals rfl

theorem walk?_name (disk : Disk) (place : Place) (h : IsPlain name) :
    disk.walk? place [name] =
      if disk.isDirectory place = true ∧ (disk.entry? (place ++ [name])).isSome = true then
        some (place ++ [name])
      else none := by
  simp only [walk?, h.stays, h.ne_back, Bool.not_eq_true', if_false, Bool.false_eq_true]
  cases disk.isDirectory place <;> simp

/-- What leads somewhere leads there still when more is on the disk. -/
theorem walk?_mono (h : ∀ place entry, disk.entry? place = some entry →
      disk'.entry? place = some entry) (hwalk : disk.walk? place segments = some below) :
    disk'.walk? place segments = some below := by
  induction segments generalizing place with
  | nil => exact hwalk
  | cons segment segments ih =>
    rw [walk?] at hwalk ⊢
    split at hwalk
    · simp at hwalk
    · rename_i hdir
      rw [Bool.not_eq_true, Bool.not_eq_false', isDirectory_iff] at hdir
      rw [if_neg (by simpa using isDirectory_iff.mpr (h _ _ hdir))]
      split at hwalk
      · rename_i hstays
        rw [if_pos hstays]
        exact ih hwalk
      · rename_i hstays
        rw [if_neg hstays]
        split at hwalk
        · rename_i hback
          rw [if_pos hback]
          exact ih hwalk
        · rename_i hback
          rw [if_neg hback]
          split at hwalk
          · rename_i hsome
            obtain ⟨entry, hentry⟩ := Option.isSome_iff_exists.mp hsome
            rw [if_pos (by rw [h _ _ hentry]; rfl)]
            exact ih hwalk
          · simp at hwalk

/-- Segments lead to a directory. -/
structure Leads (disk : Disk) (segments : List String) (place : Place) : Prop where
  walk : disk.walk? [] segments = some place
  isDirectory : disk.isDirectory place = true

theorem Leads.mono (hleads : disk.Leads segments place)
    (h : ∀ place entry, disk.entry? place = some entry → disk'.entry? place = some entry) :
    disk'.Leads segments place :=
  ⟨walk?_mono h hleads.walk,
    isDirectory_iff.mpr (h place _ (isDirectory_iff.mp hleads.isDirectory))⟩

/-- A path to a directory leads there, and so does its stem. -/
theorem leads_stem {path : Path} (hfind : disk.find? path = some place)
    (hdir : disk.isDirectory place = true) : disk.Leads path.stem place := by
  rw [find?] at hfind
  split at hfind
  · refine ⟨?_, hdir⟩
    rw [Path.stem]
    split
    · rename_i hlast
      obtain ⟨before, hsegments⟩ := List.getLast?_eq_some_iff.mp hlast
      rw [hsegments, walk?_append, Option.bind_eq_some_iff] at hfind
      obtain ⟨found, hfound, hwalk⟩ := hfind
      rw [walk?] at hwalk
      split at hwalk
      · simp at hwalk
      · rw [hsegments, List.dropLast_concat, hfound]
        exact hwalk
    · exact hfind
  · simp at hfind

theorem find?_mk (h : Path.isUsable ⟨segments⟩ = true) :
    disk.find? ⟨segments⟩ = disk.walk? [] segments := by
  rw [find?, if_pos h]

theorem isUsable_of_find? {path : Path} (h : disk.find? path = some place) :
    path.isUsable = true := by
  rw [find?] at h
  split at h
  · assumption
  · simp at h

theorem find?_of_stem {path : Path} (husable : path.isUsable = true)
    (h : disk.Leads path.stem place) : disk.find? path = some place := by
  rw [find?, if_pos husable]
  have hwalk := h.walk
  rw [Path.stem] at hwalk
  split at hwalk
  · rename_i hlast
    obtain ⟨before, hsegments⟩ := List.getLast?_eq_some_iff.mp hlast
    rw [hsegments, List.dropLast_concat] at hwalk
    rw [hsegments, walk?_append, hwalk, Option.bind_some, walk?, h.isDirectory]
    rfl
  · exact hwalk

/-- A plain name leads on from where segments lead. -/
theorem Leads.walk?_append (h : disk.Leads segments place) (hname : IsPlain name) :
    disk.walk? [] (segments ++ [name]) =
      if (disk.entry? (place ++ [name])).isSome = true then some (place ++ [name]) else none := by
  rw [Disk.walk?_append, h.walk, Option.bind_some, walk?_name _ _ hname]
  simp [h.isDirectory]

theorem Leads.append (h : disk.Leads segments place) (hname : IsPlain name)
    (hdir : disk.isDirectory (place ++ [name]) = true) :
    disk.Leads (segments ++ [name]) (place ++ [name]) := by
  refine ⟨?_, hdir⟩
  rw [h.walk?_append hname, isDirectory_iff.mp hdir]
  rfl

/-! ## Not through what is below -/

theorem get?_emptied (disk : Disk) (place other : Place) :
    (disk.emptied place).entries.get? other =
      if place <+: other ∧ other ≠ place then none else disk.entries.get? other := by
  rw [emptied, SortedMap.get?_filter]
  cases disk.entries.get? other with
  | none => simp
  | some entry =>
    rw [Option.filter_some]
    by_cases hother : other = place <;> by_cases hprefix : place <+: other <;> simp [hother, hprefix]

/-- What is on a disk without what is below a place is on every disk that agrees with it elsewhere. -/
theorem entry?_of_emptied (h : ∀ other, ¬(place <+: other ∧ other ≠ place) →
      disk'.entries.get? other = disk.entries.get? other) {other : Place} {entry : DiskEntry}
    (hentry : Disk.entry? (disk.emptied place) other = some entry) : disk'.entry? other = some entry := by
  rw [Disk.entry?] at hentry ⊢
  split
  · rename_i hroot
    rwa [if_pos hroot] at hentry
  · rename_i hroot
    rw [if_neg hroot, get?_emptied] at hentry
    split at hentry
    · simp at hentry
    · rename_i hother
      rw [h other hother, hentry]

/-- Segments lead to a directory, and not through what is below it. -/
def Reaches (disk : Disk) (segments : List String) (place : Place) : Prop :=
  (disk.emptied place).Leads segments place

theorem Reaches.leads (h : disk.Reaches segments place) : disk.Leads segments place :=
  Leads.mono h fun _ _ => entry?_of_emptied fun _ _ => rfl

/-- What is below the directory does not matter. -/
theorem Reaches.congr (h : disk.Reaches segments place)
    (hsame : ∀ other, ¬(place <+: other ∧ other ≠ place) →
      disk'.entries.get? other = disk.entries.get? other) : disk'.Reaches segments place := by
  have hemptied : disk'.emptied place = disk.emptied place := by
    refine congrArg Disk.mk (SortedMap.ext fun other => ?_)
    have hdisk := get?_emptied disk place other
    have hdisk' := get?_emptied disk' place other
    refine hdisk'.trans (Eq.trans ?_ hdisk.symm)
    split
    · rfl
    · rename_i hother
      exact hsame other hother
  rw [Reaches, hemptied]
  exact h

theorem Reaches.emptied (h : disk.Reaches segments place) (name : String) :
    (disk.emptied (place ++ [name])).Leads segments place := by
  refine Leads.mono h fun _ _ => entry?_of_emptied fun other hother => ?_
  rw [get?_emptied, if_neg]
  rintro ⟨hbelow, hne⟩
  refine hother ⟨(List.prefix_append _ _).trans hbelow, ?_⟩
  rintro rfl
  have hlength := hbelow.length_le
  rw [List.length_append, List.length_singleton] at hlength
  omega

theorem Reaches.append (h : disk.Reaches segments place) (hname : IsPlain name)
    (hdir : disk.entries.get? (place ++ [name]) = some .directory) :
    disk.Reaches (segments ++ [name]) (place ++ [name]) := by
  refine (h.emptied name).append hname ?_
  rw [isDirectory_iff, entry?_append, get?_emptied, if_neg (by simp), hdir]

end Disk

end Relational
