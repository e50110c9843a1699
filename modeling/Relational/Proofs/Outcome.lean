import Relational.Error

/-!
# Outcomes

How work that can end with an error is taken apart: `bind_eq_ok_iff` splits a sequence that went
well, and `guard_eq_ok_iff` a check in front of it. Work over a list goes well if it does for every
item, and then comes to what a list function makes of the items (`filterM_eq_ok_iff`,
`filterMapM_eq_ok_iff`, `flatMapM_eq_ok_iff`).
-/

namespace Relational

variable {ε α β γ : Type}

instance decidableEqExcept [DecidableEq ε] [DecidableEq α] : DecidableEq (Except ε α)
  | .ok a, .ok b => decidable_of_iff (a = b) ⟨congrArg _, Except.ok.inj⟩
  | .error e, .error e' => decidable_of_iff (e = e') ⟨congrArg _, Except.error.inj⟩
  | .ok _, .error _ => isFalse nofun
  | .error _, .ok _ => isFalse nofun

theorem bind_eq_ok_iff {x : Except ε α} {f : α → Except ε β} {b : β} :
    (x >>= f) = .ok b ↔ ∃ a, x = .ok a ∧ f a = .ok b := by
  cases x with
  | error e => exact ⟨nofun, fun ⟨_, h, _⟩ => nomatch h⟩
  | ok a => exact ⟨fun h => ⟨a, rfl, h⟩, fun ⟨_, h, h'⟩ => by cases h; exact h'⟩

theorem bind_eq_error_iff {x : Except ε α} {f : α → Except ε β} {e : ε} :
    (x >>= f) = .error e ↔ x = .error e ∨ ∃ a, x = .ok a ∧ f a = .error e := by
  cases x with
  | error e' =>
    exact ⟨fun h => .inl (by cases h; rfl), fun h => h.elim (fun h => by cases h; rfl) nofun⟩
  | ok a =>
    exact ⟨fun h => .inr ⟨a, rfl, h⟩, fun h => h.elim nofun fun ⟨_, h, h'⟩ => by cases h; exact h'⟩

theorem ok_bind (a : α) (f : α → Except ε β) : (Except.ok a >>= f) = f a := rfl

theorem error_bind (e : ε) (f : α → Except ε β) : (Except.error e >>= f) = .error e := rfl

theorem pure_eq_ok (a : α) : (pure a : Except ε α) = .ok a := rfl

theorem map_eq_ok_iff {x : Except ε α} {f : α → β} {b : β} :
    x.map f = .ok b ↔ ∃ a, x = .ok a ∧ f a = b := by
  cases x with
  | error e => exact ⟨nofun, fun ⟨_, h, _⟩ => nomatch h⟩
  | ok a => exact ⟨fun h => ⟨a, rfl, by cases h; rfl⟩, fun ⟨_, h, h'⟩ => by cases h; cases h'; rfl⟩

theorem map_ok (f : α → β) (a : α) : (Except.ok a : Except ε α).map f = .ok (f a) := rfl

theorem map_error (f : α → β) (e : ε) : (Except.error e : Except ε α).map f = .error e := rfl

theorem map_bind (x : Except ε α) (f : α → Except ε β) (g : β → γ) :
    (x >>= f).map g = x >>= fun a => (f a).map g := by
  cases x <;> rfl

theorem bind_map (x : Except ε α) (f : α → β) (g : β → Except ε γ) :
    (x.map f >>= g) = x >>= fun a => g (f a) := by
  cases x <;> rfl

/-- Work on outcomes that look alike comes to the same, if it looks at them alike. -/
theorem bind_congr_of_map {x y : Except ε α} {f : α → β} {g g' : α → Except ε γ}
    (h : x.map f = y.map f)
    (hg : ∀ a b, x = .ok a → y = .ok b → f a = f b → g a = g' b) : (x >>= g) = y >>= g' := by
  cases x with
  | error e =>
    cases y with
    | error e' =>
      rw [map_error, map_error, Except.error.injEq] at h
      rw [h, error_bind, error_bind]
    | ok b => simp [map_error, map_ok] at h
  | ok a =>
    cases y with
    | error e' => simp [map_error, map_ok] at h
    | ok b =>
      rw [map_ok, map_ok, Except.ok.injEq] at h
      exact hg a b rfl rfl h

/-- A check in front of work lets it through where it does not hold. -/
theorem guard_eq_ok_iff {c : Prop} [Decidable c] {e : ε} {f : α → Except ε β}
    {x : Except ε β} {b : β} :
    (if c then Except.error e >>= f else x) = .ok b ↔ ¬c ∧ x = .ok b := by
  split
  · rename_i h
    exact ⟨nofun, fun h' => absurd h h'.1⟩
  · rename_i h
    exact ⟨fun h' => ⟨h, h'⟩, fun h' => h'.2⟩

theorem lift_eq_ok_iff {x : Except Error α} {a : α} : Failure.lift x = .ok a ↔ x = .ok a := by
  cases x <;> simp [Failure.lift]

theorem toOption_eq_some_iff {x : Except ε α} {a : α} : x.toOption = some a ↔ x = .ok a := by
  cases x <;> simp [Except.toOption]

/-- Work that leaves something behind, by what it came to. -/
theorem eq_mk_of_fst {p : α × β} {a : α} (h : p.1 = a) : p = (a, p.2) := by
  rw [← h]

/-! ## Work over a list -/

/-- What work came to, if it went well. -/
def gain [Inhabited α] : Except ε α → α
  | .ok a => a
  | .error _ => default

@[simp] theorem gain_ok [Inhabited α] (a : α) : gain (.ok a : Except ε α) = a := rfl

theorem filterAuxM_eq_ok_iff {test : α → Except ε Bool} {l kept result : List α} :
    l.filterAuxM test kept = .ok result ↔
      (∀ a ∈ l, ∃ b, test a = .ok b) ∧
        result = (l.filter fun a => gain (test a)).reverse ++ kept := by
  induction l generalizing kept with
  | nil => simp [List.filterAuxM, pure_eq_ok, eq_comm]
  | cons a l ih =>
    rw [List.filterAuxM, bind_eq_ok_iff]
    simp only [ih, List.forall_mem_cons]
    constructor
    · rintro ⟨b, hb, hl, rfl⟩
      refine ⟨⟨⟨b, hb⟩, hl⟩, ?_⟩
      cases b <;> simp [hb]
    · rintro ⟨⟨⟨b, hb⟩, hl⟩, rfl⟩
      refine ⟨b, hb, hl, ?_⟩
      cases b <;> simp [hb]

/-- Tests of a list go well if each of them does, and keep the items that pass. -/
theorem filterM_eq_ok_iff {test : α → Except ε Bool} {l result : List α} :
    l.filterM test = .ok result ↔
      (∀ a ∈ l, ∃ b, test a = .ok b) ∧ result = l.filter fun a => gain (test a) := by
  rw [List.filterM, bind_eq_ok_iff]
  simp only [filterAuxM_eq_ok_iff]
  constructor
  · rintro ⟨_, ⟨hl, rfl⟩, h⟩
    refine ⟨hl, ?_⟩
    rw [← Except.ok.inj h]
    simp
  · rintro ⟨hl, rfl⟩
    exact ⟨_, ⟨hl, rfl⟩, by simp [pure_eq_ok]⟩

theorem filterMapM_loop_eq_ok_iff {f : α → Except ε (Option β)} {l : List α}
    {kept result : List β} :
    List.filterMapM.loop f l kept = .ok result ↔
      (∀ a ∈ l, ∃ o, f a = .ok o) ∧
        result = kept.reverse ++ l.filterMap fun a => gain (f a) := by
  induction l generalizing kept with
  | nil => simp [List.filterMapM.loop, pure_eq_ok, eq_comm]
  | cons a l ih =>
    rw [List.filterMapM.loop, bind_eq_ok_iff]
    simp only [List.forall_mem_cons]
    constructor
    · rintro ⟨o, ho, h⟩
      cases o <;> obtain ⟨hl, rfl⟩ := ih.mp h <;> refine ⟨⟨⟨_, ho⟩, hl⟩, ?_⟩ <;> simp [ho]
    · rintro ⟨⟨⟨o, ho⟩, hl⟩, rfl⟩
      refine ⟨o, ho, ?_⟩
      cases o <;> refine ih.mpr ⟨hl, ?_⟩ <;> simp [ho]

theorem filterMapM_eq_ok_iff {f : α → Except ε (Option β)} {l : List α} {result : List β} :
    l.filterMapM f = .ok result ↔
      (∀ a ∈ l, ∃ o, f a = .ok o) ∧ result = l.filterMap fun a => gain (f a) := by
  rw [List.filterMapM, filterMapM_loop_eq_ok_iff]
  simp

theorem flatMapM_loop_eq_ok_iff {f : α → Except ε (List β)} {l : List α}
    {kept : List (List β)} {result : List β} :
    List.flatMapM.loop f l kept = .ok result ↔
      (∀ a ∈ l, ∃ bs, f a = .ok bs) ∧
        result = kept.reverse.flatten ++ l.flatMap fun a => gain (f a) := by
  induction l generalizing kept with
  | nil => simp [List.flatMapM.loop, pure_eq_ok, eq_comm]
  | cons a l ih =>
    rw [List.flatMapM.loop, bind_eq_ok_iff]
    simp only [ih, List.forall_mem_cons]
    constructor
    · rintro ⟨bs, hbs, hl, rfl⟩
      exact ⟨⟨⟨bs, hbs⟩, hl⟩, by simp [hbs]⟩
    · rintro ⟨⟨⟨bs, hbs⟩, hl⟩, rfl⟩
      exact ⟨bs, hbs, hl, by simp [hbs]⟩

theorem flatMapM_eq_ok_iff {f : α → Except ε (List β)} {l : List α} {result : List β} :
    l.flatMapM f = .ok result ↔
      (∀ a ∈ l, ∃ bs, f a = .ok bs) ∧ result = l.flatMap fun a => gain (f a) := by
  rw [List.flatMapM, flatMapM_loop_eq_ok_iff]
  simp

end Relational
