import Mathlib.Logic.Relation

set_option autoImplicit false

/-! # Computations on a state

What a computation gives (`outcome`) and the state that it ends in (`endState`), with or without
success, and how both follow through a sequence. `Along` says that all a computation does to the
part of its state in view is a series of steps: sequences of such computations are such. -/

namespace Contracts

variable {ε σ τ α β : Type}

/-- What a computation gives. -/
def outcome (m : EStateM ε σ α) (s : σ) : Except ε α :=
  match m s with
  | .ok a _ => .ok a
  | .error e _ => .error e

/-- The state that a computation ends in, whether it succeeds or not. -/
def endState (m : EStateM ε σ α) (s : σ) : σ :=
  match m s with
  | .ok _ s' => s'
  | .error _ s' => s'

/-- All that a computation does to the part of the state in view is a series of steps. -/
def Along (view : σ → τ) (step : τ → τ → Prop) (m : EStateM ε σ α) : Prop :=
  ∀ s, Relation.ReflTransGen step (view s) (view (endState m s))

variable {view : σ → τ} {step : τ → τ → Prop}

theorem bind_of_ok {m : EStateM ε σ α} {f : α → EStateM ε σ β} {s s' : σ} {a : α}
    (h : m s = .ok a s') : (m >>= f) s = f a s' := by
  simp only [bind, EStateM.bind, h]

theorem bind_of_error {m : EStateM ε σ α} {f : α → EStateM ε σ β} {s s' : σ} {e : ε}
    (h : m s = .error e s') : (m >>= f) s = .error e s' := by
  simp only [bind, EStateM.bind, h]

theorem throw_ne_ok {e : ε} {s s' : σ} (a : α) :
    (MonadExcept.throw e : EStateM ε σ α) s ≠ .ok a s' := by
  intro h
  cases h

theorem ok_of_bind {m : EStateM ε σ α} {f : α → EStateM ε σ β} {s s' : σ} {b : β}
    (h : (m >>= f) s = .ok b s') : ∃ a s₁, m s = .ok a s₁ ∧ f a s₁ = .ok b s' := by
  cases hm : m s with
  | ok a s₁ => exact ⟨a, s₁, rfl, (bind_of_ok hm).symm.trans h⟩
  | error e s₁ => exact absurd ((bind_of_error hm).symm.trans h) (by simp)

theorem error_of_bind {m : EStateM ε σ α} {f : α → EStateM ε σ β} {s s' : σ} {e : ε}
    (h : (m >>= f) s = .error e s') :
    m s = .error e s' ∨ ∃ a s₁, m s = .ok a s₁ ∧ f a s₁ = .error e s' := by
  cases hm : m s with
  | ok a s₁ => exact Or.inr ⟨a, s₁, rfl, (bind_of_ok hm).symm.trans h⟩
  | error e' s₁ =>
      obtain ⟨rfl, rfl⟩ := EStateM.Result.error.inj ((bind_of_error hm).symm.trans h)
      exact Or.inl rfl

theorem outcome_bind_of_ok {m : EStateM ε σ α} {f : α → EStateM ε σ β} {s s' : σ} {a : α}
    (h : m s = .ok a s') : outcome (m >>= f) s = outcome (f a) s' := by
  simp only [outcome, bind_of_ok h]

theorem outcome_bind_of_error {m : EStateM ε σ α} {f : α → EStateM ε σ β} {s : σ} {e : ε}
    (h : outcome m s = .error e) : outcome (m >>= f) s = .error e := by
  cases hm : m s with
  | ok a s' => simp [outcome, hm] at h
  | error e' s' =>
      simp only [outcome, hm] at h
      obtain rfl := Except.error.inj h
      simp only [outcome, bind_of_error hm]

theorem outcome_map {m : EStateM ε σ α} (f : α → β) (s : σ) :
    outcome (m >>= fun a => pure (f a)) s = (outcome m s).map f := by
  cases h : m s with
  | ok a s' =>
      rw [outcome_bind_of_ok h]
      simp [outcome, h, pure, EStateM.pure, Except.map]
  | error e s' => simp [outcome, bind_of_error h, h, Except.map]

theorem endState_map {m : EStateM ε σ α} (f : α → β) (s : σ) :
    endState (m >>= fun a => pure (f a)) s = endState m s := by
  cases h : m s with
  | ok a s' => simp [endState, bind_of_ok h, h, pure, EStateM.pure]
  | error e s' => simp [endState, bind_of_error h, h]

theorem Along.pure (a : α) : Along view step (Pure.pure a : EStateM ε σ α) := fun _ => .refl

theorem Along.throw (e : ε) : Along view step (MonadExcept.throw e : EStateM ε σ α) :=
  fun _ => .refl

theorem Along.bind {m : EStateM ε σ α} {f : α → EStateM ε σ β} (hm : Along view step m)
    (hf : ∀ a, Along view step (f a)) : Along view step (m >>= f) := by
  intro s
  have hfirst := hm s
  cases h : m s with
  | ok a s' =>
      have hrest := hf a s'
      simp only [endState, h] at hfirst
      simp only [endState, bind_of_ok h] at hrest ⊢
      exact hfirst.trans hrest
  | error e s' =>
      simp only [endState, h] at hfirst
      simp only [endState, bind_of_error h]
      exact hfirst

end Contracts
