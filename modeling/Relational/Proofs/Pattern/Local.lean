import Relational.Proofs.Pattern.Reading

/-!
# What follows a text

The readings of a text that stop before its end do not depend on what follows the text
(`Pattern.IsLocal`). That holds of a character and of a run, and of everything that is put together
from them: sequences, choices and repetitions. A stretch is kept as its text here (`Pattern.cut`),
since its place in the text changes with what follows.
-/

namespace Relational.Pattern

open Text (Begins begins_cons isFoldedLetter isFoldedLetter_of_sameLetter)

variable {α β : Type} {p q : Pattern α} {k : α → Pattern β} {kind test : Char → Bool}
  {s behind : List Char}

/-- Whether a reading leaves more than so many characters. -/
def leaves (count : Nat) (r : α × List Char) : Bool :=
  count < r.2.length

/-- A reading of a text, with something behind the text. -/
def followedBy (behind : List Char) (r : α × List Char) : α × List Char :=
  (r.1, r.2 ++ behind)

/-- A pattern takes characters of a class, and the readings that leave some of a text are the same
whatever follows the text. -/
structure IsLocal (kind : Char → Bool) (p : Pattern α) : Prop where
  taken (s : List Char) : ∀ r ∈ p s, ∃ run, s = run ++ r.2 ∧ ∀ c ∈ run, kind c = true
  inside (s behind : List Char) : (p (s ++ behind)).filter (leaves behind.length) =
    ((p s).filter (leaves 0)).map (followedBy behind)

theorem IsLocal.length_le (h : IsLocal kind p) {r : α × List Char} (hr : r ∈ p s) :
    r.2.length ≤ s.length := by
  obtain ⟨run, hrun, -⟩ := h.taken s r hr
  rw [hrun, List.length_append]
  omega

theorem IsLocal.mono {kind' : Char → Bool} (h : IsLocal kind p)
    (hkind : ∀ c, kind c = true → kind' c = true) : IsLocal kind' p where
  taken s r hr := by
    obtain ⟨run, hs, hrun⟩ := h.taken s r hr
    exact ⟨run, hs, fun c hc => hkind c (hrun c hc)⟩
  inside := h.inside

/-! ## Sequences and choices -/

theorem leaves_followedBy (behind : List Char) (r : α × List Char) :
    leaves behind.length (followedBy behind r) = leaves 0 r := by
  simp [leaves, followedBy]

theorem filter_map_followedBy (behind : List Char) (readings : List (α × List Char)) :
    (readings.map (followedBy behind)).filter (leaves behind.length) =
      (readings.filter (leaves 0)).map (followedBy behind) := by
  rw [List.filter_map]
  congr 2
  funext r
  exact leaves_followedBy behind r

theorem isLocal_pure (a : α) : IsLocal kind (pure a) where
  taken s r hr := by
    rw [pure_apply, List.mem_singleton] at hr
    exact ⟨[], by rw [hr, List.nil_append], by simp⟩
  inside s behind := filter_map_followedBy behind [(a, s)]

/-- The pattern that reads nothing. -/
def refuse : Pattern α := fun _ => []

theorem isLocal_refuse : IsLocal kind (refuse : Pattern α) where
  taken _ _ hr := nomatch hr
  inside _ _ := rfl

theorem flatMap_filter {γ : Type} {l : List γ} {f : γ → List β} {test : γ → Bool}
    (h : ∀ a ∈ l, test a = false → f a = []) : (l.filter test).flatMap f = l.flatMap f := by
  induction l with
  | nil => rfl
  | cons a l ih =>
    obtain ⟨ha, hl⟩ := List.forall_mem_cons.mp h
    rw [List.flatMap_cons]
    cases htest : test a with
    | false => rw [List.filter_cons_of_neg (by simp [htest]), ih hl, ha htest, List.nil_append]
    | true => rw [List.filter_cons_of_pos htest, List.flatMap_cons, ih hl]

/-- What the first part of a sequence leaves, its second part does not make longer. -/
theorem filter_bind (hk : ∀ a, IsLocal kind (k a)) (count : Nat) (readings : List (α × List Char)) :
    (readings.flatMap fun r => k r.1 r.2).filter (leaves count) =
      (readings.filter (leaves count)).flatMap fun r => (k r.1 r.2).filter (leaves count) := by
  rw [List.filter_flatMap, flatMap_filter]
  intro first _ hfirst
  refine List.filter_eq_nil_iff.mpr fun r hr => ?_
  have hle := (hk first.1).length_le hr
  simp only [leaves, decide_eq_false_iff_not, decide_eq_true_eq] at hfirst ⊢
  omega

theorem IsLocal.bind (hp : IsLocal kind p) (hk : ∀ a, IsLocal kind (k a)) :
    IsLocal kind (p >>= k) where
  taken s r hr := by
    rw [bind_apply, List.mem_flatMap] at hr
    obtain ⟨first, hfirst, hr⟩ := hr
    obtain ⟨run, hs, hrun⟩ := hp.taken s first hfirst
    obtain ⟨run', hrest, hrun'⟩ := (hk first.1).taken first.2 r hr
    refine ⟨run ++ run', ?_, List.forall_mem_append.mpr ⟨hrun, hrun'⟩⟩
    rw [List.append_assoc, ← hrest, ← hs]
  inside s behind := by
    rw [bind_apply, bind_apply, filter_bind hk, filter_bind hk, hp.inside, List.flatMap_map,
      List.map_flatMap]
    simp only [followedBy, (hk _).inside]

theorem IsLocal.orElse (hp : IsLocal kind p) (hq : IsLocal kind q) :
    IsLocal kind (orElse p q) where
  taken s r hr := (List.mem_append.mp hr).elim (hp.taken s r) (hq.taken s r)
  inside s behind := by
    rw [Pattern.orElse, Pattern.orElse, List.filter_append, List.filter_append, List.map_append,
      hp.inside, hq.inside]

theorem IsLocal.optional (hp : IsLocal kind p) : IsLocal kind (optional p) :=
  (hp.bind fun a => isLocal_pure (some a)).orElse (isLocal_pure none)

/-- The text that a pattern takes. -/
def cut (p : Pattern Unit) : Pattern (List Char) := fun s =>
  (p s).map fun r => (Stretch.text ⟨s, r.2⟩, r.2)

theorem stretch_bind_text {p : Pattern Unit} {k : List Char → Pattern β} :
    (stretch p >>= fun stretch => k stretch.text) = cut p >>= k := by
  funext s
  rw [stretch_bind, bind_apply, bind_apply, cut, List.flatMap_map]
  rfl

theorem IsLocal.cut {p : Pattern Unit} (hp : IsLocal kind p) : IsLocal kind (cut p) where
  taken s r hr := by
    obtain ⟨first, hfirst, rfl⟩ := List.mem_map.mp hr
    exact hp.taken s first hfirst
  inside s behind := by
    let place (t : List Char) (r : Unit × List Char) := (Stretch.text ⟨t, r.2⟩, r.2)
    have hplace : ∀ r ∈ (p s).filter (leaves 0),
        place (s ++ behind) (followedBy behind r) = followedBy behind (place s r) := by
      intro r hr
      obtain ⟨run, hs, -⟩ := hp.taken s r (List.mem_filter.mp hr).1
      refine Prod.ext ?_ rfl
      change Stretch.text ⟨s ++ behind, r.2 ++ behind⟩ = Stretch.text ⟨s, r.2⟩
      rw [hs, List.append_assoc, Stretch.text_append, Stretch.text_append]
    calc ((p (s ++ behind)).map (place (s ++ behind))).filter (leaves behind.length)
        = ((p (s ++ behind)).filter (leaves behind.length)).map (place (s ++ behind)) := by
          rw [List.filter_map]
          rfl
      _ = ((p s).filter (leaves 0)).map fun r => followedBy behind (place s r) := by
          rw [hp.inside, List.map_map]
          exact List.map_congr_left hplace
      _ = (((p s).map (place s)).filter (leaves 0)).map (followedBy behind) := by
          rw [List.filter_map, List.map_map]
          rfl

/-! ## Characters and runs -/

theorem length_le_of_one {r : Unit × List Char} (hr : r ∈ one test s) :
    r.2.length ≤ s.length := by
  cases s with
  | nil => cases hr
  | cons c s =>
    rw [one] at hr
    split at hr
    · rw [List.mem_singleton.mp hr]
      exact Nat.le_succ _
    · cases hr

theorem isLocal_one (htest : ∀ c, test c = true → kind c = true) : IsLocal kind (one test) where
  taken s r hr := by
    cases s with
    | nil => cases hr
    | cons c s =>
      rw [one] at hr
      split at hr
      · rename_i hc
        rw [List.mem_singleton.mp hr]
        exact ⟨[c], rfl, List.forall_mem_singleton.mpr (htest c hc)⟩
      · cases hr
  inside s behind := by
    cases s with
    | nil =>
      refine List.filter_eq_nil_iff.mpr fun r hr => ?_
      rw [List.nil_append] at hr
      have hle := length_le_of_one hr
      simp only [leaves, decide_eq_true_eq]
      omega
    | cons c s =>
      have happly : one test (c :: s ++ behind) = (one test (c :: s)).map (followedBy behind) := by
        rw [List.cons_append, one, one]
        split <;> rfl
      rw [happly, filter_map_followedBy]

theorem isLocal_many (htest : ∀ c, test c = true → kind c = true) :
    IsLocal kind (many test) where
  taken s r hr := by
    rw [List.mem_singleton.mp hr]
    exact ⟨s.takeWhile test, List.takeWhile_append_dropWhile.symm, fun c hc =>
      htest c (List.all_eq_true.mp List.all_takeWhile c hc)⟩
  inside s behind := by
    have hrun : ∀ c ∈ s.takeWhile test, test c = true := List.all_eq_true.mp List.all_takeWhile
    have hs : s.takeWhile test ++ s.dropWhile test = s := List.takeWhile_append_dropWhile
    have hend := List.head?_dropWhile_not test s
    cases hrest : s.dropWhile test with
    | nil =>
      -- the run goes on into what follows
      rw [hrest, List.append_nil] at hs
      rw [hs] at hrun
      have hle := (List.dropWhile_sublist test (l := behind)).length_le
      have hlt : ¬behind.length < (behind.dropWhile test).length := by omega
      simp [many, List.takeWhile_append_of_pos hrun, List.dropWhile_append_of_pos hrun, hrest,
        leaves, hlt]
    | cons c rest =>
      rw [hrest] at hs hend
      have hbegins (t : List Char) : Begins (!test ·) (c :: t) := begins_cons (by simpa using hend) t
      have happly : many test (s ++ behind) = (many test s).map (followedBy behind) := by
        rw [← hs, List.append_assoc, List.cons_append, many_apply hrun (hbegins _),
          many_apply hrun (hbegins _)]
        rfl
      rw [happly, filter_map_followedBy]

theorem many1_eq (test : Char → Bool) :
    many1 test = many test >>= fun run => if run = [] then refuse else pure run := by
  funext s
  have hmany : many test s = [(s.takeWhile test, s.dropWhile test)] := rfl
  rw [many1, bind_of_single hmany]
  cases s.takeWhile test <;> rfl

theorem isLocal_many1 (htest : ∀ c, test c = true → kind c = true) :
    IsLocal kind (many1 test) := by
  rw [many1_eq]
  refine (isLocal_many htest).bind fun run => ?_
  by_cases hrun : run = []
  · rw [if_pos hrun]
    exact isLocal_refuse
  · rw [if_neg hrun]
    exact isLocal_pure run

theorem taken_of_upToBlank {r : Unit × List Char} (hr : r ∈ upToBlank s) :
    ∃ run, run ≠ [] ∧ s = run ++ r.2 := by
  fun_induction upToBlank s with
  | case1 c d s _ ih =>
    rcases List.mem_cons.mp hr with rfl | hr
    · exact ⟨[c], by simp, rfl⟩
    · obtain ⟨run, -, hrun⟩ := ih hr
      exact ⟨c :: run, by simp, congrArg _ hrun⟩
  | case2 c d s _ ih =>
    obtain ⟨run, -, hrun⟩ := ih hr
    exact ⟨c :: run, by simp, congrArg _ hrun⟩
  | case3 => cases hr

theorem isLocal_upToBlank : IsLocal (fun _ => true) upToBlank where
  taken s r hr := by
    obtain ⟨run, -, hrun⟩ := taken_of_upToBlank hr
    exact ⟨run, hrun, fun _ _ => rfl⟩
  inside s behind := by
    have hbehind (c : List Char) (hc : c.length ≤ 1) :
        (upToBlank (c ++ behind)).filter (leaves behind.length) = [] := by
      refine List.filter_eq_nil_iff.mpr fun r hr => ?_
      obtain ⟨run, hne, hrun⟩ := taken_of_upToBlank hr
      have hlength := congrArg List.length hrun
      have hpos := List.length_pos_iff.mpr hne
      simp only [List.length_append] at hlength
      simp only [leaves, decide_eq_true_eq]
      omega
    fun_induction upToBlank s with
    | case1 c d s hcd ih =>
      have hfirst : leaves behind.length ((), (d :: s) ++ behind) = true :=
        leaves_followedBy behind ((), d :: s)
      rw [List.cons_append, List.cons_append, upToBlank, if_pos hcd, ← List.cons_append,
        List.filter_cons_of_pos hfirst, ih, List.filter_cons_of_pos (by rfl), List.map_cons]
      rfl
    | case2 c d s hcd ih =>
      rw [List.cons_append, List.cons_append, upToBlank, if_neg hcd, ← List.cons_append]
      exact ih
    | case3 s hs =>
      refine hbehind s ?_
      rcases s with _ | ⟨c, _ | ⟨d, s⟩⟩
      · exact Nat.zero_le 1
      · exact Nat.le_refl 1
      · exact absurd rfl (hs c d s)

/-! ## Repetition -/

theorem taken_of_star {p : Pattern Unit} (hp : IsLocal kind p) :
    ∀ r ∈ star p s, ∃ run, s = run ++ r.2 ∧ ∀ c ∈ run, kind c = true := by
  generalize hn : s.length = n
  induction n using Nat.strongRecOn generalizing s with
  | ind n ih =>
    intro r hr
    rw [star_apply, List.mem_append, List.mem_flatMap] at hr
    rcases hr with ⟨first, hfirst, hr⟩ | hr
    · split at hr
      · rename_i hlt
        obtain ⟨run, hs, hrun⟩ := hp.taken s first hfirst
        obtain ⟨run', hrest, hrun'⟩ := ih _ (hn ▸ hlt) rfl r hr
        refine ⟨run ++ run', ?_, List.forall_mem_append.mpr ⟨hrun, hrun'⟩⟩
        rw [List.append_assoc, ← hrest, ← hs]
      · cases hr
    · rw [List.mem_singleton.mp hr]
      exact ⟨[], rfl, by simp⟩

theorem inside_star {p : Pattern Unit} (hp : IsLocal kind p) (s behind : List Char) :
    (star p (s ++ behind)).filter (leaves behind.length) =
      ((star p s).filter (leaves 0)).map (followedBy behind) := by
  let again (length : Nat) (r : Unit × List Char) := if r.2.length < length then star p r.2 else []
  have hshort (count length : Nat) (r : Unit × List Char) (hr : leaves count r = false) :
      (again length r).filter (leaves count) = [] := by
    refine List.filter_eq_nil_iff.mpr fun r' hr' => ?_
    unfold again at hr'
    split at hr'
    · obtain ⟨run, hrun, -⟩ := taken_of_star hp r' hr'
      have hlength := congrArg List.length hrun
      rw [List.length_append] at hlength
      simp only [leaves, decide_eq_false_iff_not, decide_eq_true_eq] at hr ⊢
      omega
    · cases hr'
  have hstar (t : List Char) (count : Nat) : (star p t).filter (leaves count) =
      ((p t).filter (leaves count)).flatMap (fun r => (again t.length r).filter (leaves count)) ++
        [((), t)].filter (leaves count) := by
    rw [star_apply, List.filter_append, List.filter_flatMap,
      flatMap_filter fun r _ => hshort count t.length r]
  generalize hn : s.length = n
  induction n using Nat.strongRecOn generalizing s with
  | ind n ih =>
    have hagain (r : Unit × List Char) :
        (again (s ++ behind).length (followedBy behind r)).filter (leaves behind.length) =
          ((again s.length r).filter (leaves 0)).map (followedBy behind) := by
      simp only [again, followedBy, List.length_append, Nat.add_lt_add_iff_right]
      split
      · rename_i hlt
        exact ih _ (hn ▸ hlt) r.2 rfl
      · rfl
    rw [hstar, hstar, hp.inside, List.flatMap_map, List.map_append, List.map_flatMap]
    simp only [hagain]
    exact congrArg _ (filter_map_followedBy behind [((), s)])

theorem IsLocal.star {p : Pattern Unit} (hp : IsLocal kind p) : IsLocal kind (star p) :=
  ⟨fun _ => taken_of_star hp, inside_star hp⟩

/-! ## Words -/

theorem isLocal_letters {word : List Char} (hword : ∀ letter ∈ word, letter.isUpper = true)
    (hkind : ∀ c, isFoldedLetter c = true → kind c = true) : IsLocal kind (letters word) := by
  induction word with
  | nil => exact isLocal_pure ()
  | cons letter word ih =>
    obtain ⟨hletter, hword⟩ := List.forall_mem_cons.mp hword
    exact (isLocal_one fun c hc => hkind c (isFoldedLetter_of_sameLetter hletter hc)).bind
      fun _ => ih hword

theorem isLocal_gap (hkind : ∀ c, isBlank c = true → kind c = true) : IsLocal kind gap :=
  (isLocal_many1 hkind).bind fun _ => isLocal_pure ()

theorem isLocal_blanks (hkind : ∀ c, isBlank c = true → kind c = true) : IsLocal kind blanks :=
  (isLocal_many hkind).bind fun _ => isLocal_pure ()

/-! ## Patterns with at most one reading -/

/-- The pattern has no choice. -/
def IsSingle (p : Pattern α) : Prop :=
  ∀ s, p s = [] ∨ ∃ r, p s = [r]

theorem isSingle_pure (a : α) : IsSingle (pure a) :=
  fun s => .inr ⟨(a, s), rfl⟩

theorem IsSingle.bind (hp : IsSingle p) (hk : ∀ a, IsSingle (k a)) : IsSingle (p >>= k) := by
  intro s
  rcases hp s with h | ⟨r, h⟩
  · exact .inl (bind_of_none h)
  · rw [bind_of_single h]
    exact hk r.1 r.2

theorem isSingle_many1 (test : Char → Bool) : IsSingle (many1 test) := by
  intro s
  rw [many1]
  split
  · exact .inl rfl
  · exact .inr ⟨_, rfl⟩

theorem isSingle_gap : IsSingle gap :=
  (isSingle_many1 isBlank).bind fun _ => isSingle_pure ()

theorem isSingle_letters (word : List Char) : IsSingle (letters word) := by
  induction word with
  | nil => exact isSingle_pure ()
  | cons letter word ih =>
    refine IsSingle.bind (fun s => ?_) fun _ => ih
    cases s with
    | nil => exact .inl rfl
    | cons c s =>
      rw [one]
      split
      · exact .inr ⟨_, rfl⟩
      · exact .inl rfl

/-! ## Readings in order -/

/-- The readings that leave more come first. -/
def IsDescending (readings : List (α × List Char)) : Prop :=
  readings.Pairwise fun r r' => r'.2.length ≤ r.2.length

theorem isDescending_upToBlank (s : List Char) : IsDescending (upToBlank s) := by
  fun_induction upToBlank s with
  | case1 c d s _ ih =>
    exact List.pairwise_cons.mpr ⟨fun r hr => isLocal_upToBlank.length_le hr, ih⟩
  | case2 c d s _ ih => exact ih
  | case3 => exact List.Pairwise.nil

theorem IsSingle.isDescending_bind (hp : IsSingle p) (hk : ∀ a s, IsDescending (k a s))
    (s : List Char) : IsDescending ((p >>= k) s) := by
  rcases hp s with h | ⟨r, h⟩
  · rw [bind_of_none h]
    exact List.Pairwise.nil
  · rw [bind_of_single h]
    exact hk r.1 r.2

theorem IsDescending.exists_append {readings : List (α × List Char)} (h : IsDescending readings)
    (count : Nat) : ∃ others, readings = readings.filter (leaves count) ++ others := by
  induction readings with
  | nil => exact ⟨[], rfl⟩
  | cons r readings ih =>
    obtain ⟨hr, hreadings⟩ := List.pairwise_cons.mp h
    cases hleaves : leaves count r with
    | true =>
      obtain ⟨others, hothers⟩ := ih hreadings
      refine ⟨others, ?_⟩
      rw [List.filter_cons_of_pos hleaves, List.cons_append, ← hothers]
    | false =>
      have hnone : (r :: readings).filter (leaves count) = [] := by
        refine List.filter_eq_nil_iff.mpr (List.forall_mem_cons.mpr ⟨by simp [hleaves], ?_⟩)
        intro r' hr'
        have hle := hr r' hr'
        simp only [leaves, decide_eq_false_iff_not, decide_eq_true_eq] at hleaves ⊢
        omega
      exact ⟨r :: readings, by rw [hnone, List.nil_append]⟩

/-! ## Exchanging what follows -/

section

variable {γ δ : Type} {l : List γ} {f : γ → List β} {g : γ → List δ} {b : β} {b' : δ}

theorem head?_flatMap_filter {test : γ → Bool} (h : (l.flatMap f).head? = some b)
    (htest : ∀ a ∈ l, b ∈ f a → test a = true) : ((l.filter test).flatMap f).head? = some b := by
  induction l with
  | nil => cases h
  | cons a l ih =>
    obtain ⟨ha, hl⟩ := List.forall_mem_cons.mp htest
    rw [List.flatMap_cons] at h
    cases hf : f a with
    | nil =>
      rw [hf, List.nil_append] at h
      cases hfilter : test a with
      | false =>
        rw [List.filter_cons_of_neg (by simp [hfilter])]
        exact ih h hl
      | true =>
        rw [List.filter_cons_of_pos hfilter, List.flatMap_cons, hf, List.nil_append]
        exact ih h hl
    | cons c cs =>
      rw [hf] at h ha
      obtain rfl : c = b := by simpa using h
      rw [List.filter_cons_of_pos (ha List.mem_cons_self), List.flatMap_cons, hf]
      rfl

theorem head?_flatMap_exchange (hnone : ∀ a ∈ l, f a = [] → g a = [])
    (hsome : ∀ a ∈ l, (f a).head? = some b → (g a).head? = some b')
    (h : (l.flatMap f).head? = some b) : (l.flatMap g).head? = some b' := by
  induction l with
  | nil => cases h
  | cons a l ih =>
    obtain ⟨ha, hl⟩ := List.forall_mem_cons.mp hnone
    obtain ⟨ha', hl'⟩ := List.forall_mem_cons.mp hsome
    rw [List.flatMap_cons] at h ⊢
    cases hf : f a with
    | nil =>
      rw [hf, List.nil_append] at h
      rw [ha hf, List.nil_append]
      exact ih hl hl' h
    | cons c cs =>
      have hhead : (f a).head? = some b := by
        rw [hf] at h ⊢
        exact h
      rw [List.head?_append, ha' hhead, Option.some_or]

end

variable {other : List Char} {b b' : β × List Char}

/-- What follows a text is exchanged, and the first reading of a sequence with it, where the second
part goes on with both in the same way behind the readings that leave some of the text. -/
theorem IsLocal.first?_exchange (hp : IsLocal kind p)
    (hothers : ∃ others, p (s ++ other) = (p (s ++ other)).filter (leaves other.length) ++ others)
    (hleaves : ∀ r ∈ p (s ++ behind), b ∈ k r.1 r.2 → leaves behind.length r = true)
    (hnone : ∀ r ∈ p s, leaves 0 r = true → k r.1 (r.2 ++ behind) = [] → k r.1 (r.2 ++ other) = [])
    (hsome : ∀ r ∈ p s, leaves 0 r = true → (k r.1).first? (r.2 ++ behind) = some b →
      (k r.1).first? (r.2 ++ other) = some b')
    (h : (p >>= k).first? (s ++ behind) = some b) : (p >>= k).first? (s ++ other) = some b' := by
  obtain ⟨others, hothers⟩ := hothers
  rw [first?, bind_apply] at h ⊢
  have hinside := head?_flatMap_filter h hleaves
  rw [hp.inside, List.flatMap_map] at hinside
  have hexchange : (((p s).filter (leaves 0)).flatMap fun r => k r.1 (r.2 ++ other)).head? = some b' := by
    refine head?_flatMap_exchange (fun r hr => ?_) (fun r hr => ?_) hinside
    · exact hnone r (List.mem_filter.mp hr).1 (List.mem_filter.mp hr).2
    · exact hsome r (List.mem_filter.mp hr).1 (List.mem_filter.mp hr).2
  rw [hothers, List.flatMap_append, hp.inside, List.flatMap_map]
  exact first?_append hexchange

theorem IsLocal.none_exchange (hp : IsLocal kind p)
    (hleaves : ∀ r ∈ p (s ++ other), leaves other.length r = true)
    (hnone : ∀ r ∈ p s, leaves 0 r = true → k r.1 (r.2 ++ behind) = [] → k r.1 (r.2 ++ other) = [])
    (h : (p >>= k) (s ++ behind) = []) : (p >>= k) (s ++ other) = [] := by
  have hfilter : p (s ++ other) = ((p s).filter (leaves 0)).map (followedBy other) := by
    rw [← hp.inside, List.filter_eq_self.mpr hleaves]
  rw [bind_apply, List.flatMap_eq_nil_iff] at h
  rw [bind_apply, hfilter, List.flatMap_map, List.flatMap_eq_nil_iff]
  intro r hr
  refine hnone r (List.mem_filter.mp hr).1 (List.mem_filter.mp hr).2 (h (followedBy behind r) ?_)
  have hmem : followedBy behind r ∈ (p (s ++ behind)).filter (leaves behind.length) := by
    rw [hp.inside]
    exact List.mem_map_of_mem hr
  exact (List.mem_filter.mp hmem).1

end Relational.Pattern
