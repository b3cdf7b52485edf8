import Mathlib

/-!
# Queues that keep the newest

A queue of at most `n` elements that drops the oldest when one too many is put into it. What it
holds is a function of what it held and of what has been put into it since (`queued`), however that
was cut into pieces (`queued_queued`).
-/

namespace Shilpo.Theory

universe u

variable {α : Type u} {n : ℕ} {waiting xs ys : List α}

/-- What is in a queue of at most `n` when, with `waiting` in it, `xs` has been put into it. -/
def queued (n : ℕ) (waiting xs : List α) : List α := (waiting ++ xs).rtake n

theorem rtake_of_length_le (h : xs.length ≤ n) : xs.rtake n = xs := by
  rw [List.rtake, Nat.sub_eq_zero_of_le h, List.drop_zero]

theorem queued_nil (h : waiting.length ≤ n) : queued n waiting [] = waiting := by
  rw [queued, List.append_nil, rtake_of_length_le h]

theorem queued_of_room (h : (waiting ++ xs).length ≤ n) : queued n waiting xs = waiting ++ xs :=
  rtake_of_length_le h

theorem length_queued_le : (queued n waiting xs).length ≤ n := by
  rw [queued, List.rtake]
  simp
  omega

theorem queued_sublist : (queued n waiting xs).Sublist (waiting ++ xs) := List.drop_sublist _ _

/-- Putting in one more drops the oldest from a full queue. -/
theorem queued_singleton (hn : 0 < n) (h : waiting.length ≤ n) (x : α) :
    queued n waiting [x] = (if waiting.length = n then waiting.tail else waiting) ++ [x] := by
  obtain ⟨m, rfl⟩ := Nat.exists_eq_succ_of_ne_zero hn.ne'
  rw [queued, List.rtake_concat_succ, List.rtake]
  split_ifs with hfull
  · rw [hfull, Nat.succ_sub (le_refl m), Nat.sub_self, List.drop_one]
  · have hroom : waiting.length - m = 0 := by omega
    rw [hroom, List.drop_zero]

/-- The newest are not among those that are dropped before. -/
theorem rtake_drop {l : List α} {k : ℕ} (h : k ≤ l.length - n) :
    (l.drop k).rtake n = l.rtake n := by
  rw [List.rtake, List.rtake, List.drop_drop, List.length_drop]
  congr 1
  omega

theorem queued_queued : queued n (queued n waiting xs) ys = queued n waiting (xs ++ ys) := by
  have hle : (waiting ++ xs).length - n ≤ (waiting ++ xs).length := Nat.sub_le _ _
  have hdrop : queued n waiting xs ++ ys =
      (waiting ++ xs ++ ys).drop ((waiting ++ xs).length - n) :=
    (List.drop_append_of_le_length hle).symm
  rw [queued, hdrop, rtake_drop, List.append_assoc]
  · rfl
  · simp only [List.length_append]
    omega

end Shilpo.Theory
