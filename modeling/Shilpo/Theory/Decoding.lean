import Mathlib

/-!
# Decoding a stream

A `Decoder` looks at the start of a stream and finds an item, or sees that there can be none, or
wants more. It never changes its mind when more comes, so that what is in a stream (`results`) does
not depend on when one looks: an item found at the start of a part is the first of the whole
(`results_of_found`), and a failure there is one of the whole (`results_of_failed`).
-/

namespace Shilpo.Theory

universe u v w

/-- What is at the start of a stream. -/
inductive Parsed (β : Type u) (α : Type v) (ε : Type w) where
  /-- Not enough to tell. -/
  | more
  | found (a : α) (rest : List β)
  | failed (e : ε)

/-- What takes items from the start of a stream. -/
structure Decoder (β : Type u) (α : Type v) (ε : Type w) where
  parse : List β → Parsed β α ε
  found_append : ∀ {s a rest}, parse s = .found a rest → ∀ t, parse (s ++ t) = .found a (rest ++ t)
  failed_append : ∀ {s e}, parse s = .failed e → ∀ t, parse (s ++ t) = .failed e
  shorter : ∀ {s a rest}, parse s = .found a rest → rest.length < s.length

namespace Decoder

variable {β : Type u} {α : Type v} {ε : Type w} (D : Decoder β α ε)

/-- The items of a stream that has ended, and the failure after them, if there is one. -/
def results (s : List β) : List α × Option ε :=
  match _hparse : D.parse s with
  | .more => ([], none)
  | .found a rest => (a :: (results rest).1, (results rest).2)
  | .failed e => ([], some e)
termination_by s.length
decreasing_by all_goals exact D.shorter _hparse

variable {D} {s t : List β} {a : α} {e : ε} {rest : List β}

theorem results_of_more (h : D.parse s = .more) : D.results s = ([], none) := by
  rw [results]
  split
  · rfl
  · rename_i h'
    rw [h] at h'
    cases h'
  · rename_i h'
    rw [h] at h'
    cases h'

/-- What is found at the start of a part is the first item of the whole. -/
theorem results_of_found (h : D.parse s = .found a rest) (t : List β) :
    D.results (s ++ t) = (a :: (D.results (rest ++ t)).1, (D.results (rest ++ t)).2) := by
  have happend := D.found_append h t
  rw [results]
  split
  · rename_i h'
    rw [happend] at h'
    cases h'
  · rename_i h'
    rw [happend] at h'
    cases h'
    rfl
  · rename_i h'
    rw [happend] at h'
    cases h'

/-- What fails at the start of a part fails at the start of the whole. -/
theorem results_of_failed (h : D.parse s = .failed e) (t : List β) :
    D.results (s ++ t) = ([], some e) := by
  have happend := D.failed_append h t
  rw [results]
  split
  · rename_i h'
    rw [happend] at h'
    cases h'
  · rename_i h'
    rw [happend] at h'
    cases h'
  · rename_i h'
    rw [happend] at h'
    cases h'
    rfl

end Decoder

end Shilpo.Theory
