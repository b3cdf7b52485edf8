import Mathlib

/-!
# Computations that may fail

What a computation in `Except` has given, it has given in each of its steps: its steps are
taken apart one after the other by `bind_eq_ok`.
-/

namespace Shilpo.Theory

universe u v

variable {ε : Type u} {α : Type v} {β : Type v} {x : Except ε α} {f : α → Except ε β}

/-- What a computation that may fail has given, it has given in each of its steps. -/
theorem bind_eq_ok {b : β} : (x >>= f) = .ok b ↔ ∃ a, x = .ok a ∧ f a = .ok b := by
  cases x with
  | error e =>
    constructor
    · intro h
      cases h
    · rintro ⟨a, h, -⟩
      cases h
  | ok a =>
    constructor
    · exact fun h => ⟨a, rfl, h⟩
    · rintro ⟨a', h, hf⟩
      cases h
      exact hf

end Shilpo.Theory
