import Mathlib

/-!
# What is handed in in order

Things are handed in one after the other, none before an earlier one in a preorder `r`. Some of them
have `settled`; the others wait in a `chain`, which may lose elements, or be pushed to; what has been
`given` last bounds them all. An element at the head of the chain may settle (`Handed.settle`): so what settles
does not go back.
-/

namespace Shilpo.Theory

variable {α : Type*} {r : α → α → Prop}

/-- The chain is in order, after what has settled, and nothing is beyond what has been given. -/
structure Handed (r : α → α → Prop) (settled chain : List α) (given : Option α) : Prop where
  sorted : chain.Pairwise r
  below : ∀ old ∈ settled, ∀ new ∈ chain, r old new
  bounded : ∀ element ∈ settled ++ chain, ∃ last ∈ given, r element last

namespace Handed

variable [IsPreorder α r] {settled chain other : List α} {given : Option α} {element : α}

theorem head_le (h : Handed r settled (element :: chain) given) :
    ∀ new ∈ element :: chain, r element new := by
  intro new hmem
  rcases List.mem_cons.mp hmem with rfl | hmem
  · exact refl_of r new
  · exact (List.pairwise_cons.mp h.sorted).1 new hmem

theorem push (h : Handed r settled chain given) (hnew : ∀ last ∈ given, r last element) :
    Handed r settled (chain ++ [element]) (some element) := by
  have hle : ∀ old ∈ settled ++ chain, r old element := by
    intro old hold
    obtain ⟨last, hlast, hbounded⟩ := h.bounded old hold
    exact trans_of r hbounded (hnew last hlast)
  refine ⟨?_, fun old hold new hmem => ?_, fun other hmem => ⟨element, rfl, ?_⟩⟩
  · refine List.pairwise_append.mpr ⟨h.sorted, List.pairwise_singleton _ _, ?_⟩
    intro old hold new hmem
    obtain rfl := List.mem_singleton.mp hmem
    exact hle old (List.mem_append_right _ hold)
  · rcases List.mem_append.mp hmem with hmem | hmem
    · exact h.below old hold new hmem
    · obtain rfl := List.mem_singleton.mp hmem
      exact hle old (List.mem_append_left _ hold)
  · rw [← List.append_assoc] at hmem
    rcases List.mem_append.mp hmem with hmem | hmem
    · exact hle other hmem
    · obtain rfl := List.mem_singleton.mp hmem
      exact refl_of r other

omit [IsPreorder α r] in
theorem sublist (h : Handed r settled chain given) (hsublist : other.Sublist chain) :
    Handed r settled other given where
  sorted := h.sorted.sublist hsublist
  below old hold new hnew := h.below old hold new (hsublist.subset hnew)
  bounded other hmem := by
    refine h.bounded other ?_
    rcases List.mem_append.mp hmem with hmem | hmem
    · exact List.mem_append_left _ hmem
    · exact List.mem_append_right _ (hsublist.subset hmem)

/-- What is at the head of the chain settles, and may stay there. -/
theorem settle (h : Handed r settled (element :: chain) given) :
    Handed r (settled ++ [element]) (element :: chain) given where
  sorted := h.sorted
  below old hold new hnew := by
    rcases List.mem_append.mp hold with hold | hold
    · exact h.below old hold new hnew
    · obtain rfl := List.mem_singleton.mp hold
      exact h.head_le new hnew
  bounded other hmem := by
    refine h.bounded other ?_
    rcases List.mem_append.mp hmem with hmem | hmem
    · rcases List.mem_append.mp hmem with hmem | hmem
      · exact List.mem_append_left _ hmem
      · exact List.mem_append_right _ (List.mem_singleton.mp hmem ▸ List.mem_cons_self)
    · exact List.mem_append_right _ hmem

omit [IsPreorder α r] in
theorem of_subset (h : Handed r settled chain given) {fewer : List α}
    (hsubset : fewer ⊆ settled) : Handed r fewer chain given where
  sorted := h.sorted
  below old hold := h.below old (hsubset hold)
  bounded other hmem := by
    refine h.bounded other ?_
    rcases List.mem_append.mp hmem with hmem | hmem
    · exact List.mem_append_left _ (hsubset hmem)
    · exact List.mem_append_right _ hmem

end Handed

end Shilpo.Theory
