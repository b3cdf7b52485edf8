import Mathlib

/-!
# The greatest of a list

A loop that keeps the greatest score so far, and where it has been found, goes on to another place
only for a greater score. So it ends with the greatest score of all that are greater than the one
it began with, at the first place that has it.
-/

namespace Shilpo.Theory

universe u v

variable {α : Type u} {β : Type v} [LinearOrder β] (score : α → Option β)

/-- One more place. -/
def keepGreater (best : β × α) (x : α) : β × α :=
  match score x with
  | some s => if best.1 < s then (s, x) else best
  | none => best

variable {score}

theorem le_keepGreater (best : β × α) (x : α) : best.1 ≤ (keepGreater score best x).1 := by
  rw [keepGreater]
  split
  · split_ifs with h
    · exact h.le
    · exact le_rfl
  · exact le_rfl

theorem score_le_keepGreater {best : β × α} {x : α} {s : β} (h : score x = some s) :
    s ≤ (keepGreater score best x).1 := by
  rw [keepGreater, h]
  dsimp only
  split_ifs with hlt
  · exact le_rfl
  · exact le_of_not_gt hlt

theorem keepGreater_cases (best : β × α) (x : α) :
    keepGreater score best x = best ∨
      ∃ s, score x = some s ∧ best.1 < s ∧ keepGreater score best x = (s, x) := by
  rw [keepGreater]
  split
  · next s hs =>
    split_ifs with h
    · exact .inr ⟨s, hs, h, rfl⟩
    · exact .inl rfl
  · exact .inl rfl

theorem le_foldl_keepGreater (xs : List α) (best : β × α) :
    best.1 ≤ (xs.foldl (keepGreater score) best).1 := by
  induction xs generalizing best with
  | nil => exact le_rfl
  | cons x xs ih => exact (le_keepGreater best x).trans (ih _)

/-- No score is greater than the one that is kept. -/
theorem score_le_foldl_keepGreater {xs : List α} {best : β × α} {x : α} (hx : x ∈ xs) {s : β}
    (h : score x = some s) : s ≤ (xs.foldl (keepGreater score) best).1 := by
  induction xs generalizing best with
  | nil => exact absurd hx List.not_mem_nil
  | cons y xs ih =>
    rcases List.mem_cons.mp hx with rfl | hx
    · exact (score_le_keepGreater h).trans (le_foldl_keepGreater xs _)
    · exact ih hx

/-- What is kept is what the loop began with, or the score of the place that is kept. -/
theorem foldl_keepGreater_cases (xs : List α) (best : β × α) :
    xs.foldl (keepGreater score) best = best ∨
      best.1 < (xs.foldl (keepGreater score) best).1 ∧
        (xs.foldl (keepGreater score) best).2 ∈ xs ∧
        score (xs.foldl (keepGreater score) best).2 =
          some (xs.foldl (keepGreater score) best).1 := by
  induction xs generalizing best with
  | nil => exact .inl rfl
  | cons x xs ih =>
    rw [List.foldl_cons]
    rcases ih (keepGreater score best x) with h | ⟨hlt, hmem, hscore⟩
    · rw [h]
      rcases keepGreater_cases best x with hx | ⟨s, hs, hlt, hx⟩
      · exact .inl hx
      · rw [hx]
        exact .inr ⟨hlt, List.mem_cons_self, hs⟩
    · exact .inr ⟨(le_keepGreater best x).trans_lt hlt, List.mem_cons_of_mem x hmem, hscore⟩

/-- Of the places with the greatest score the first is kept. -/
theorem foldl_keepGreater_le [LinearOrder α] {xs : List α} (hxs : xs.Pairwise (· < ·))
    {best : β × α} (hbest : best.1 < (xs.foldl (keepGreater score) best).1) {x : α} (hx : x ∈ xs)
    (h : score x = some (xs.foldl (keepGreater score) best).1) :
    (xs.foldl (keepGreater score) best).2 ≤ x := by
  induction xs generalizing best with
  | nil => exact absurd hx List.not_mem_nil
  | cons y xs ih =>
    rw [List.pairwise_cons] at hxs
    rw [List.foldl_cons] at hbest h ⊢
    rcases foldl_keepGreater_cases xs (keepGreater score best y) with heq | ⟨hlt, -, -⟩
    · -- nothing later is greater, so that `y` is kept
      rw [heq] at hbest ⊢
      rcases keepGreater_cases best y with hy | ⟨s, hs, -, hy⟩
      · rw [hy] at hbest
        exact absurd hbest (lt_irrefl _)
      · rw [hy]
        rcases List.mem_cons.mp hx with rfl | hx
        · exact le_rfl
        · exact (hxs.1 x hx).le
    · rcases List.mem_cons.mp hx with rfl | hx
      · exact absurd (score_le_keepGreater h) (not_le_of_gt hlt)
      · exact ih hxs.2 hlt hx h

end Shilpo.Theory
