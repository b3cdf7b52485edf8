import Mathlib

/-!
# Patterns with stars

A pattern is a list in which one element, the star, stands for any list and every other element
for itself (`Globs`). A reader that compares an element of the pattern with the next element
of the value before it asks whether it is the star takes a star of the pattern that meets a
star of the value for that one alone (`Reads`).
-/

namespace Shilpo

variable {α : Type*} (star : α)

/-- The value can be split as the pattern has it. -/
inductive Globs : List α → List α → Prop where
  | nil : Globs [] []
  | element {c : α} {p v : List α} : c ≠ star → Globs p v → Globs (c :: p) (c :: v)
  | star (w : List α) {p v : List α} : Globs p v → Globs (star :: p) (w ++ v)

/-- The value can be split as the pattern has it, where a star that meets a star stands for just
that one. -/
inductive Reads : List α → List α → Prop where
  | nil : Reads [] []
  | same {c : α} {p v : List α} : Reads p v → Reads (c :: p) (c :: v)
  | star {p r v : List α} : v.head? ≠ some star → r <:+ v → Reads p r → Reads (star :: p) v

variable {star}

theorem Reads.globs {p v : List α} (h : Reads star p v) : Globs star p v := by
  induction h with
  | nil => exact .nil
  | @same c p v _ ih =>
    by_cases hc : c = star
    · subst hc
      exact .star [c] ih
    · exact .element hc ih
  | star _ hr _ ih =>
    obtain ⟨w, rfl⟩ := hr
    exact .star w ih

/-- The empty value has room for stars only. -/
theorem reads_nil_right_iff (p : List α) : Reads star p [] ↔ ∀ c ∈ p, c = star := by
  constructor
  · intro h
    generalize hv : ([] : List α) = v at h
    induction h with
    | nil => exact List.forall_mem_nil _
    | same => exact absurd hv.symm (List.cons_ne_nil _ _)
    | star _ hr _ ih =>
      subst hv
      exact List.forall_mem_cons.mpr ⟨rfl, ih (List.suffix_nil.mp hr).symm⟩
  · intro h
    induction p with
    | nil => exact .nil
    | cons c p ih =>
      rw [List.forall_mem_cons] at h
      obtain rfl := h.1
      exact .star (by simp) (List.suffix_refl []) (ih h.2)

/-- An element that is the next one of the value is taken for that. -/
theorem reads_same_iff (c : α) (p v : List α) :
    Reads star (c :: p) (c :: v) ↔ Reads star p v := by
  constructor
  · intro h
    cases h with
    | same h => exact h
    | star hhead => exact absurd rfl hhead
  · exact .same

/-- A star that does not meet one can stand for anything. -/
theorem reads_star_iff {p v : List α} (hhead : v.head? ≠ some star) :
    Reads star (star :: p) v ↔ ∃ r, r <:+ v ∧ Reads star p r := by
  constructor
  · intro h
    cases h with
    | same => exact absurd rfl hhead
    | star _ hr h => exact ⟨_, hr, h⟩
  · rintro ⟨r, hr, h⟩
    exact .star hhead hr h

/-- A pattern that begins neither with the next element nor with the star cannot be read. -/
theorem not_reads {c : α} {p v : List α} (hliteral : p.head? ≠ some c)
    (hstar : p.head? ≠ some star) : ¬ Reads star p (c :: v) := by
  intro h
  cases h with
  | same => exact hliteral rfl
  | star => exact hstar rfl

/-- Where `u` has been read as itself, reading it from a later place does not end earlier. -/
theorem Reads.later {u p r v : List α} (h : Reads star (u ++ p) r) (hr : r <:+ u ++ v) :
    ∃ r', r' <:+ v ∧ Reads star p r' := by
  induction u generalizing r with
  | nil => exact ⟨r, hr, h⟩
  | cons c u ih =>
    cases h with
    | same h =>
      rcases List.suffix_cons_iff.mp hr with heq | hr
      · exact ih h ((List.cons.inj heq).2 ▸ List.suffix_refl _)
      · exact ih h ((List.suffix_cons _ _).trans hr)
    | star hhead hr' h =>
      rcases List.suffix_cons_iff.mp hr with rfl | hr
      · exact absurd rfl hhead
      · exact ih h (hr'.trans hr)

/-- So that when a star is reached, what was tried before it need not be tried again. -/
theorem Reads.drop_earlier {u p r v : List α} (h : Reads star (u ++ star :: p) r)
    (hr : r <:+ u ++ v) (hhead : v.head? ≠ some star) : Reads star (star :: p) v := by
  obtain ⟨r', hr', h⟩ := h.later hr
  refine (reads_star_iff hhead).mpr ?_
  cases h with
  | same h => exact ⟨_, (List.suffix_cons _ _).trans hr', h⟩
  | star _ hr'' h => exact ⟨_, hr''.trans hr', h⟩

end Shilpo
