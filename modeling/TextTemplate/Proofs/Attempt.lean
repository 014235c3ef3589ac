import Mathlib.Data.List.Forall2

/-!
# Attempts

When an attempt that is made of other attempts succeeds, and when it fails: with the first failure
among them.

## Main results

* `bind_eq_ok_iff`, `bind_eq_error_iff`: one attempt after another.
* `mapM_eq_ok_iff`, `mapM_eq_error_iff`, `foldlM_eq_error_iff`: an attempt for each item of a list.
* `foldlM_congr`: attempts that are the same for the items of a list.
-/

namespace TextTemplate.Attempt

variable {ε δ α β : Type}

@[simp] theorem ok_bind (a : α) (f : α → Except ε β) : (Except.ok a >>= f) = f a := rfl

@[simp] theorem mapError_ok (a : α) (f : ε → δ) : (Except.ok a).mapError f = .ok a := rfl

@[simp] theorem mapError_error (e : ε) (f : ε → δ) :
    (Except.error e : Except ε α).mapError f = .error (f e) := rfl

theorem exists_eq_ok {x : Except ε α} (h : x.isOk = true) : ∃ a, x = .ok a := by
  cases x with
  | ok a => exact ⟨a, rfl⟩
  | error e => cases h

/-- The result of an attempt that is carried out, with what is found out about it. -/
theorem exists_eq_ok_and {x : Except ε α} {p : α → Bool} (h : x.toOption.any p = true) :
    ∃ a, x = .ok a ∧ p a = true := by
  cases x with
  | ok a => exact ⟨a, rfl, h⟩
  | error e => cases h

theorem bind_eq_ok_iff {x : Except ε α} {f : α → Except ε β} {b : β} :
    (x >>= f) = .ok b ↔ ∃ a, x = .ok a ∧ f a = .ok b := by
  cases x <;> simp [bind, Except.bind]

theorem bind_eq_error_iff {x : Except ε α} {f : α → Except ε β} {e : ε} :
    (x >>= f) = .error e ↔ x = .error e ∨ ∃ a, x = .ok a ∧ f a = .error e := by
  cases x <;> simp [bind, Except.bind]

theorem map_eq_ok_iff {x : Except ε α} {f : α → β} {b : β} :
    f <$> x = .ok b ↔ ∃ a, x = .ok a ∧ f a = b := by
  cases x <;> simp [Functor.map, Except.map]

theorem map_eq_error_iff {x : Except ε α} {f : α → β} {e : ε} :
    f <$> x = .error e ↔ x = .error e := by
  cases x <;> simp [Functor.map, Except.map]

theorem mapError_eq_ok_iff {x : Except ε α} {f : ε → δ} {a : α} :
    x.mapError f = .ok a ↔ x = .ok a := by
  cases x <;> simp

theorem mapError_eq_error_iff {x : Except ε α} {f : ε → δ} {d : δ} :
    x.mapError f = .error d ↔ ∃ e, x = .error e ∧ f e = d := by
  cases x <;> simp

theorem pure_eq_ok_iff {a b : α} : (pure a : Except ε α) = .ok b ↔ a = b := by
  simp [pure, Except.pure]

theorem mapM_eq_ok_iff {f : α → Except ε β} {as : List α} {bs : List β} :
    as.mapM f = .ok bs ↔ List.Forall₂ (fun a b => f a = .ok b) as bs := by
  induction as generalizing bs with
  | nil => cases bs <;> simp [pure_eq_ok_iff]
  | cons a as ih =>
    simp only [List.mapM_cons, bind_eq_ok_iff, pure_eq_ok_iff, ih]
    constructor
    · rintro ⟨b, hb, bs, hbs, rfl⟩
      exact .cons hb hbs
    · rintro (_ | ⟨hb, hbs⟩)
      exact ⟨_, hb, _, hbs, rfl⟩

/-- The items before the one that fails all succeed. -/
theorem mapM_eq_error_iff {f : α → Except ε β} {as : List α} {e : ε} :
    as.mapM f = .error e ↔
      ∃ before a after, as = before ++ a :: after ∧ (∀ a ∈ before, ∃ b, f a = .ok b) ∧
        f a = .error e := by
  induction as with
  | nil => simp [pure, Except.pure]
  | cons a as ih =>
    simp only [List.mapM_cons, bind_eq_error_iff, ih]
    constructor
    · rintro (h | ⟨b, hb, ⟨before, a', after, rfl, hbefore, h⟩ | ⟨bs, _, h⟩⟩)
      · exact ⟨[], a, as, rfl, by simp, h⟩
      · exact ⟨a :: before, a', after, rfl, by simpa using ⟨⟨b, hb⟩, hbefore⟩, h⟩
      · simp [pure, Except.pure] at h
    · rintro ⟨before, a', after, heq, hbefore, h⟩
      cases before with
      | nil =>
        obtain ⟨rfl, rfl⟩ := List.cons.inj heq
        exact .inl h
      | cons a'' before =>
        obtain ⟨rfl, rfl⟩ := List.cons.inj heq
        obtain ⟨b, hb⟩ := hbefore a (by simp)
        exact .inr ⟨b, hb, .inl ⟨before, a', after, rfl,
          fun c hc => hbefore c (List.mem_cons_of_mem _ hc), h⟩⟩

/-- The items before the one that fails lead to where it fails. -/
theorem foldlM_eq_error_iff {f : β → α → Except ε β} {b : β} {as : List α} {e : ε} :
    as.foldlM f b = .error e ↔
      ∃ before a after b', as = before ++ a :: after ∧ before.foldlM f b = .ok b' ∧
        f b' a = .error e := by
  induction as generalizing b with
  | nil => simp [pure, Except.pure]
  | cons a as ih =>
    simp only [List.foldlM_cons, bind_eq_error_iff, ih]
    constructor
    · rintro (h | ⟨b', hb, before, a', after, b'', rfl, hbefore, h⟩)
      · exact ⟨[], a, as, b, rfl, rfl, h⟩
      · exact ⟨a :: before, a', after, b'', rfl, by rw [List.foldlM_cons, hb, ok_bind, hbefore], h⟩
    · rintro ⟨before, a', after, b', heq, hbefore, h⟩
      cases before with
      | nil =>
        obtain ⟨rfl, rfl⟩ := List.cons.inj heq
        cases hbefore
        exact .inl h
      | cons a'' before =>
        obtain ⟨rfl, rfl⟩ := List.cons.inj heq
        rw [List.foldlM_cons, bind_eq_ok_iff] at hbefore
        obtain ⟨b'', hb, hbefore⟩ := hbefore
        exact .inr ⟨b'', hb, before, a', after, b', rfl, hbefore, h⟩

/-- It is enough that the attempts are the same for the items there are. -/
theorem foldlM_congr {f g : β → α → Except ε β} {as : List α}
    (h : ∀ a ∈ as, ∀ b, f b a = g b a) (b : β) : as.foldlM f b = as.foldlM g b := by
  induction as generalizing b with
  | nil => rfl
  | cons a as ih =>
    obtain ⟨ha, has⟩ := List.forall_mem_cons.1 h
    rw [List.foldlM_cons, List.foldlM_cons, ha b]
    exact congrArg _ (funext fun b' => ih has b')

end TextTemplate.Attempt
