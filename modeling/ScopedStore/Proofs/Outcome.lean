/-!
# Outcomes

A computation that may fail succeeds when each of its steps does, and fails with an error only where a
step does; these lemmas take one apart. Two computations correspond step by step (`Corresponds.bind`).
-/

namespace ScopedStore

variable {ε α β : Type}

theorem bind_eq_ok {x : Except ε α} {f : α → Except ε β} {b : β} :
    (x >>= f) = .ok b ↔ ∃ a, x = .ok a ∧ f a = .ok b := by
  cases x <;> simp [bind, Except.bind]

theorem map_eq_ok {x : Except ε α} {f : α → β} {b : β} :
    x.map f = .ok b ↔ ∃ a, x = .ok a ∧ f a = b := by
  cases x <;> simp [Except.map]

theorem mapError_eq_ok {ε' : Type} {x : Except ε α} {f : ε → ε'} {a : α} :
    x.mapError f = .ok a ↔ x = .ok a := by
  cases x with
  | ok b =>
    have hmapped : (Except.ok b : Except ε α).mapError f = .ok b := rfl
    rw [hmapped, Except.ok.injEq, Except.ok.injEq]
  | error e =>
    have hmapped : (Except.error e : Except ε α).mapError f = .error (f e) := rfl
    rw [hmapped]
    exact ⟨nofun, nofun⟩

@[simp] theorem pure_eq_ok {a b : α} : (pure a : Except ε α) = .ok b ↔ a = b :=
  Except.ok.injEq a b ▸ Iff.rfl

@[simp] theorem ok_bind (a : α) (f : α → Except ε β) : (Except.ok a >>= f) = f a := rfl

theorem bind_eq_error {x : Except ε α} {f : α → Except ε β} {e : ε} :
    (x >>= f) = .error e ↔ x = .error e ∨ ∃ a, x = .ok a ∧ f a = .error e := by
  cases x <;> simp [bind, Except.bind]

theorem bind_ne_error {x : Except ε α} {f : α → Except ε β} {e : ε} (hx : x ≠ .error e)
    (hf : ∀ a, f a ≠ .error e) : (x >>= f) ≠ .error e := by
  intro h
  rcases bind_eq_error.1 h with h | ⟨a, -, h⟩
  · exact hx h
  · exact hf a h

theorem error_ne_error {x : Except ε α} {e e' : ε} (hx : x ≠ .error e') (h : x = .error e) :
    (Except.error e : Except ε β) ≠ .error e' :=
  fun heq => hx (h.trans (congrArg _ (Except.error.inj heq)))

theorem map_eq_error {x : Except ε α} {f : α → β} {e : ε} : x.map f = .error e ↔ x = .error e := by
  cases x <;> simp [Except.map]

/-- Two computations fail with the same error, or both succeed with results that are related. -/
inductive Corresponds (R : α → β → Prop) : Except ε α → Except ε β → Prop
  | failed (e : ε) : Corresponds R (.error e) (.error e)
  | ended {a : α} {b : β} (h : R a b) : Corresponds R (.ok a) (.ok b)

theorem Corresponds.bind {γ δ : Type} {R : α → β → Prop} {S : γ → δ → Prop} {x : Except ε α}
    {y : Except ε β} (h : Corresponds R x y) {f : α → Except ε γ} {g : β → Except ε δ}
    (hfg : ∀ a b, R a b → Corresponds S (f a) (g b)) : Corresponds S (x >>= f) (y >>= g) := by
  cases h with
  | failed e => exact .failed e
  | ended h => exact hfg _ _ h

end ScopedStore
