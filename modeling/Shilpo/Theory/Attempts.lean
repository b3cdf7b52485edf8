import Mathlib

/-!
# Attempts

An attempt changes a state and may fail; what it has changed before it fails stays changed.
A triple (`Attempt.Meets`) says what holds of the state and the result when an attempt that began
in a state of a kind has succeeded, and what holds of the state and the error when it has failed.
-/

namespace Shilpo.Theory

universe u

/-- An attempt at a result. -/
def Attempt (σ ε α : Type u) : Type u := σ → Except ε α × σ

namespace Attempt

variable {σ ε ε' α β : Type u}

/-- The error. -/
def fail (e : ε) : Attempt σ ε α := fun s => (.error e, s)

instance : Monad (Attempt σ ε) where
  pure a := fun s => (.ok a, s)
  bind m f := fun s =>
    match m s with
    | (.ok a, s) => f a s
    | (.error e, s) => (.error e, s)

/-- What has failed or not already. -/
def ofExcept : Except ε α → Attempt σ ε α
  | .ok a => pure a
  | .error e => fail e

/-- The state is changed. -/
def change (f : σ → σ) : Attempt σ ε PUnit := fun s => (.ok ⟨⟩, f s)

/-- Something else is done when the attempt has failed. -/
def recover (m : Attempt σ ε α) (handler : ε → Attempt σ ε' α) : Attempt σ ε' α := fun s =>
  match m s with
  | (.ok a, s) => (.ok a, s)
  | (.error e, s) => handler e s

/-- The same with another error. -/
def mapError (f : ε → ε') (m : Attempt σ ε α) : Attempt σ ε' α := m.recover fun e => fail (f e)

/-- Whether the attempt has failed is a result. -/
def result (m : Attempt σ ε α) : Attempt σ ε' (Except ε α) := fun s => (.ok (m s).1, (m s).2)

/-! ### Triples -/

/-- From a state as in `P` the attempt comes to a result and a state as in `Q`, or to an error and
a state as in `E`. -/
def Meets (P : σ → Prop) (m : Attempt σ ε α) (Q : α → σ → Prop) (E : ε → σ → Prop) : Prop :=
  ∀ s, P s →
    (∀ a s', m s = (.ok a, s') → Q a s') ∧ ∀ e s', m s = (.error e, s') → E e s'

variable {P P' : σ → Prop} {Q Q' : α → σ → Prop} {E : ε → σ → Prop} {m : Attempt σ ε α}

theorem meets_pure {a : α} (h : ∀ s, P s → Q a s) : Meets P (pure a : Attempt σ ε α) Q E := by
  intro s hs
  refine ⟨fun a' s' heq => ?_, fun e s' heq => ?_⟩
  · cases heq
    exact h s hs
  · cases heq

theorem meets_fail {e : ε} (h : ∀ s, P s → E e s) : Meets P (fail e : Attempt σ ε α) Q E := by
  intro s hs
  refine ⟨fun a s' heq => ?_, fun e' s' heq => ?_⟩
  · cases heq
  · cases heq
    exact h s hs

theorem meets_bind {R : β → σ → Prop} {f : α → Attempt σ ε β} (hm : Meets P m Q E)
    (hf : ∀ a, Meets (Q a) (f a) R E) : Meets P (m >>= f) R E := by
  intro s hs
  have hbind : (m >>= f) s = match m s with
      | (.ok a, s) => f a s
      | (.error e, s) => (.error e, s) := rfl
  rw [hbind]
  cases hms : m s with
  | mk result s' =>
    cases result with
    | ok a => exact hf a s' ((hm s hs).1 a s' hms)
    | error e =>
      refine ⟨fun b s'' heq => ?_, fun e' s'' heq => ?_⟩
      · cases heq
      · cases heq
        exact (hm s hs).2 e s' hms

theorem Meets.mono (h : Meets P m Q E) (hP : ∀ s, P' s → P s) (hQ : ∀ a s, Q a s → Q' a s)
    {E' : ε → σ → Prop} (hE : ∀ e s, E e s → E' e s) : Meets P' m Q' E' := by
  intro s hs
  exact ⟨fun a s' heq => hQ a s' ((h s (hP s hs)).1 a s' heq),
    fun e s' heq => hE e s' ((h s (hP s hs)).2 e s' heq)⟩

/-- What is known whatever the state can be assumed. -/
theorem meets_of_forall {p : Prop} (hp : ∀ s, P s → p) (h : p → Meets P m Q E) :
    Meets P m Q E := by
  intro s hs
  exact h (hp s hs) s hs

theorem meets_ofExcept {x : Except ε α} (hok : ∀ a, x = .ok a → ∀ s, P s → Q a s)
    (herror : ∀ e, x = .error e → ∀ s, P s → E e s) : Meets P (ofExcept x) Q E := by
  cases x with
  | ok a => exact meets_pure (hok a rfl)
  | error e => exact meets_fail (herror e rfl)

theorem meets_change {f : σ → σ} {Q : PUnit → σ → Prop} (h : ∀ s, P s → Q ⟨⟩ (f s)) :
    Meets P (change f : Attempt σ ε PUnit) Q E := by
  intro s hs
  refine ⟨fun a s' heq => ?_, fun e s' heq => ?_⟩
  · cases heq
    exact h s hs
  · cases heq

theorem meets_recover {handler : ε → Attempt σ ε' α} {E' : ε' → σ → Prop} (hm : Meets P m Q E)
    (hhandler : ∀ e, Meets (E e) (handler e) Q E') : Meets P (m.recover handler) Q E' := by
  intro s hs
  rw [recover]
  cases hms : m s with
  | mk result s' =>
    cases result with
    | ok a =>
      refine ⟨fun a' s'' heq => ?_, fun e s'' heq => ?_⟩
      · cases heq
        exact (hm s hs).1 a s' hms
      · cases heq
    | error e => exact hhandler e s' ((hm s hs).2 e s' hms)

theorem meets_result {R : Except ε α → σ → Prop} {E' : ε' → σ → Prop}
    (hm : Meets P m (fun a => R (.ok a)) fun e => R (.error e)) : Meets P m.result R E' := by
  intro s hs
  refine ⟨fun r s' heq => ?_, fun e s' heq => ?_⟩
  · cases heq
    cases hms : m s with
    | mk result s' =>
      cases result with
      | ok a => exact (hm s hs).1 a s' hms
      | error e => exact (hm s hs).2 e s' hms
  · cases heq

theorem meets_mapError {f : ε → ε'} {E' : ε' → σ → Prop}
    (hm : Meets P m Q fun e s => E' (f e) s) : Meets P (m.mapError f) Q E' :=
  meets_recover hm fun _ => meets_fail fun _ => id

theorem meets_ite {c : Prop} [Decidable c] {m' : Attempt σ ε α} (hthen : c → Meets P m Q E)
    (helse : ¬ c → Meets P m' Q E) : Meets P (if c then m else m') Q E := by
  by_cases hc : c
  · rw [if_pos hc]
    exact hthen hc
  · rw [if_neg hc]
    exact helse hc

end Attempt

end Shilpo.Theory
