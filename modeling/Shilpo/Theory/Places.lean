import Mathlib

/-!
# Lists at one place

What a list is around the element at a place, and what it is with another there or with none.
-/

namespace Shilpo.Theory

universe u

variable {α : Type u} {l : List α}

/-- A list around the element at a place. -/
theorem split_at {a : α} {i : ℕ} (h : l[i]? = some a) :
    ∃ l₁ l₂, l = l₁ ++ a :: l₂ ∧ l.eraseIdx i = l₁ ++ l₂ ∧ ∀ b, l.set i b = l₁ ++ b :: l₂ := by
  obtain ⟨hi, rfl⟩ := List.getElem?_eq_some_iff.mp h
  refine ⟨l.take i, l.drop (i + 1), ?_, List.eraseIdx_eq_take_drop_succ .., fun b => ?_⟩
  · rw [List.getElem_cons_drop, List.take_append_drop]
  · rw [List.set_eq_take_append_cons_drop, if_pos hi]

end Shilpo.Theory
