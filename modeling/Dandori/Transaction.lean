import Mathlib.Order.Basic

/-!
# Transactions as state-and-exception computations

A computation `StateT σ (Except ε) α` runs its statements against a working copy of the state and
either returns with the copy or fails. `atomically` commits the copy on success and keeps the old
state on failure.

`Ensures R` says that a successful run relates its start and end states by `R`, `FailsWith E` that a
failing run fails with an error in `E`. `Mirrored P Q view` says that a run started in `P` behaves the
same when it is run on the view of its state only: it fails with the same error or returns the same
value, and then the two end states agree under the view and satisfy `Q`. The last two are closed under
sequencing, so they are proved statement by statement.
-/

namespace Dandori

universe u

variable {σ ε α β : Type u}

namespace Tx

theorem pure_run (a : α) (s : σ) : (pure a : StateT σ (Except ε) α) s = .ok (a, s) := rfl

theorem bind_run (x : StateT σ (Except ε) α) (f : α → StateT σ (Except ε) β) (s : σ) :
    (x >>= f) s = match x s with
      | .ok (a, t) => f a t
      | .error e => .error e := by
  change Except.bind (x s) _ = _
  cases x s <;> rfl

theorem bind_eq_ok {x : StateT σ (Except ε) α} {f : α → StateT σ (Except ε) β} {s : σ}
    {r : β × σ} : (x >>= f) s = .ok r ↔ ∃ a t, x s = .ok (a, t) ∧ f a t = .ok r := by
  rw [bind_run]
  constructor
  · intro h
    cases hx : x s with
    | error e => simp [hx] at h
    | ok p => exact ⟨p.1, p.2, rfl, by simpa [hx] using h⟩
  · rintro ⟨a, t, hx, h⟩
    simpa only [hx] using h

theorem bind_eq_error {x : StateT σ (Except ε) α} {f : α → StateT σ (Except ε) β} {s : σ} {e : ε} :
    (x >>= f) s = .error e ↔
      x s = .error e ∨ ∃ a t, x s = .ok (a, t) ∧ f a t = .error e := by
  rw [bind_run]
  constructor
  · intro h
    cases hx : x s with
    | error e' => exact Or.inl (by simpa [hx] using h)
    | ok p => exact Or.inr ⟨p.1, p.2, rfl, by simpa [hx] using h⟩
  · rintro (hx | ⟨a, t, hx, h⟩)
    · simp only [hx]
    · simpa only [hx] using h

def Ensures (R : σ → σ → Prop) (x : StateT σ (Except ε) α) : Prop :=
  ∀ s a t, x s = .ok (a, t) → R s t

def FailsWith (E : ε → Prop) (x : StateT σ (Except ε) α) : Prop :=
  ∀ s e, x s = .error e → E e

namespace FailsWith

variable {E : ε → Prop}

theorem pure (a : α) : FailsWith E (Pure.pure a : StateT σ (Except ε) α) := by
  intro s e h
  cases h

theorem throw {e : ε} (he : E e) : FailsWith E (MonadExcept.throw e : StateT σ (Except ε) α) := by
  intro s e' h
  cases h
  exact he

theorem bind {x : StateT σ (Except ε) α} {f : α → StateT σ (Except ε) β} (hx : FailsWith E x)
    (hf : ∀ a, FailsWith E (f a)) : FailsWith E (x >>= f) := by
  intro s e h
  rcases bind_eq_error.mp h with h | ⟨a, t, _, h⟩
  · exact hx s e h
  · exact hf a t e h

end FailsWith

def Mirrored (P Q : σ → Prop) (view : σ → σ) (x : StateT σ (Except ε) α) : Prop :=
  ∀ s, P s → match x s with
    | .ok (a, t) => Q t ∧ x (view s) = .ok (a, view t)
    | .error e => x (view s) = .error e

namespace Mirrored

variable {P Q R : σ → Prop} {view : σ → σ}

theorem pure (h : ∀ s, P s → Q s) (a : α) :
    Mirrored P Q view (Pure.pure a : StateT σ (Except ε) α) :=
  fun s hs => ⟨h s hs, rfl⟩

theorem throw (e : ε) : Mirrored P Q view (MonadExcept.throw e : StateT σ (Except ε) α) :=
  fun _ _ => rfl

theorem bind {x : StateT σ (Except ε) α} {f : α → StateT σ (Except ε) β}
    (hx : Mirrored P Q view x) (hf : ∀ a, Mirrored Q R view (f a)) :
    Mirrored P R view (x >>= f) := by
  intro s hs
  have hxs := hx s hs
  cases h : x s with
  | error e =>
      rw [h] at hxs
      rw [bind_eq_error.mpr (Or.inl h)]
      exact bind_eq_error.mpr (Or.inl hxs)
  | ok p =>
      obtain ⟨a, t⟩ := p
      rw [h] at hxs
      have hft := hf a t hxs.1
      simp only [bind_run, h, hxs.2]
      exact hft

end Mirrored

/-- Commit the working copy of a successful run, discard it on failure. -/
def atomically (x : StateT σ (Except ε) α) (s : σ) : Except ε α × σ :=
  match x s with
  | .ok (a, t) => (.ok a, t)
  | .error e => (.error e, s)

end Tx
end Dandori
