import Relational.Pattern

/-!
# What patterns read

Whatever text a pattern is given, its readings can have a property in common (`Pattern.Yields`): of
a sequence, it is enough that its last part has it for every reading of the parts before.
-/

namespace Relational

/-- A text of word characters, at least one. -/
def IsWord (s : String) : Prop :=
  s ≠ "" ∧ ∀ c ∈ s.toList, isWordChar c = true

theorem IsWord.append {s t : String} (hs : IsWord s) (ht : ∀ c ∈ t.toList, isWordChar c = true) :
    IsWord (s ++ t) := by
  refine ⟨fun h => hs.1 (String.append_eq_empty_iff.mp h).1, fun c hc => ?_⟩
  rw [String.toList_append, List.mem_append] at hc
  exact hc.elim (hs.2 c) (ht c)

theorem isWordChar_intercalate {s : String} {words : List String}
    (hs : ∀ c ∈ s.toList, isWordChar c = true) (hwords : ∀ word ∈ words, IsWord word) :
    ∀ c ∈ (s.intercalate words).toList, isWordChar c = true := by
  induction words with
  | nil => simp
  | cons word words ih =>
    obtain ⟨hword, hwords⟩ := List.forall_mem_cons.mp hwords
    cases words with
    | nil =>
      rw [String.intercalate_singleton]
      exact hword.2
    | cons next words =>
      intro c hc
      simp only [String.intercalate_cons_cons, String.toList_append, List.mem_append] at hc
      rcases hc with (hc | hc) | hc
      · exact hword.2 c hc
      · exact hs c hc
      · exact ih hwords c hc

namespace Pattern

variable {α β : Type} {P : α → Prop} {Q : β → Prop} {p : Pattern α} {q : α → Pattern β}

theorem orElse_bind {p q : Pattern α} {k : α → Pattern β} :
    (Pattern.orElse p q >>= k) = Pattern.orElse (p >>= k) (q >>= k) := by
  funext s
  simp only [Pattern.orElse, bind_apply, List.flatMap_append]

/-- Whatever the pattern reads has a property. -/
def Yields (p : Pattern α) (P : α → Prop) : Prop :=
  ∀ s, ∀ r ∈ p s, P r.1

theorem yields_pure {a : α} (h : P a) : Yields (pure a) P := by
  intro s r hr
  rw [pure_apply, List.mem_singleton] at hr
  rw [hr]
  exact h

theorem Yields.bind (hp : p.Yields P) (hq : ∀ a, P a → (q a).Yields Q) : (p >>= q).Yields Q := by
  intro s r hr
  rw [bind_apply, List.mem_flatMap] at hr
  obtain ⟨⟨a, rest⟩, ha, hr⟩ := hr
  exact hq a (hp s _ ha) rest r hr

/-- A sequence reads what its second part reads. -/
theorem yields_bind (hq : ∀ a, (q a).Yields Q) : (p >>= q).Yields Q :=
  Yields.bind (P := fun _ => True) (fun _ _ _ => trivial) fun a _ => hq a

theorem yields_name : name.Yields IsWord := by
  refine Yields.bind (P := fun run => run ≠ [] ∧ ∀ c ∈ run, isWordChar c = true) ?_ fun run hrun =>
    yields_pure ⟨?_, ?_⟩
  · intro s r hr
    unfold word many1 at hr
    split at hr
    · simp at hr
    · rename_i hne
      rw [List.mem_singleton.mp hr]
      exact ⟨hne, List.all_eq_true.mp List.all_takeWhile⟩
  · simpa using hrun.1
  · rw [String.toList_ofList]
    exact hrun.2

theorem Yields.first? (h : p.Yields P) {s rest : List Char} {a : α}
    (hs : p.first? s = some (a, rest)) : P a :=
  h s (a, rest) (List.mem_of_head? hs)

theorem Yields.whole? (h : p.Yields P) {s : List Char} {a : α} (hs : p.whole? s = some a) : P a := by
  rw [Pattern.whole?, Option.map_eq_some_iff] at hs
  obtain ⟨⟨_, rest⟩, hs, rfl⟩ := hs
  refine Yields.first? (p := do let a ← p; finish; return a) ?_ hs
  exact h.bind fun a ha => yields_bind fun _ => yields_pure ha

end Pattern

end Relational
