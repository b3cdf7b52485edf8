import Shilpo.Theory.LockOrder

/-!
# The two mutexes of a conversation

The authentication domain and the PolicyKit agent keep their state under the mutex
`inner` and the conversation under `active_session`. Most operations take
`active_session`, if at all, while they hold `inner`. Those that begin with the
conversation take `inner` while they hold `active_session`.

`Shape` says which of the two an operation does, and `canDeadlock_iff` that two
operations can deadlock exactly when one does the one and the other the other.
-/

namespace Shilpo.Domain

open Shilpo.Theory

universe u

/-- The mutexes of a domain with conversations. -/
inductive Mutex where
  | inner
  | activeSession
  deriving DecidableEq

/-- `n` critical sections of `active_session`, one after the other. -/
def sessionSections (n : ℕ) : List (LockStep Mutex) :=
  (List.replicate n [.acquire .activeSession, .release .activeSession]).flatten

/-- A critical section of `inner`, with `n` of `active_session` inside. -/
def underInner (n : ℕ) : List (LockStep Mutex) :=
  .acquire .inner :: (sessionSections n ++ [LockStep.release .inner])

/-- A critical section of `active_session`, with one of `inner` inside. -/
def innerUnderSession : List (LockStep Mutex) :=
  [.acquire .activeSession, .acquire .inner, .release .inner, .release .activeSession]

theorem sessionSections_succ (n : ℕ) : sessionSections (n + 1) =
    .acquire .activeSession :: .release .activeSession :: sessionSections n := by
  simp [sessionSections, List.replicate_succ]

/-! ### What nests in what -/

@[simp] theorem nestings_sessionSections (n : ℕ) : nestings [] (sessionSections n) = [] := by
  induction n with
  | zero => rfl
  | succ n ih => simpa [sessionSections_succ] using ih

theorem mem_nestings_underInner {n : ℕ} {x : Mutex × Mutex} (hx : x ∈ nestings [] (underInner n)) :
    n ≠ 0 ∧ x = (.inner, .activeSession) := by
  have hinside : ∀ n, x ∈ nestings [.inner] (sessionSections n ++ [LockStep.release .inner]) →
      n ≠ 0 ∧ x = (.inner, .activeSession) := by
    intro n hx
    induction n with
    | zero => simp [sessionSections] at hx
    | succ n ih =>
      simp only [sessionSections_succ, List.cons_append, nestings_acquire, nestings_release,
        List.map_cons, List.map_nil, List.nil_append, List.mem_cons, List.erase_cons_head] at hx
      exact ⟨n.succ_ne_zero, hx.elim id fun hx => (ih hx).2⟩
  simp only [underInner, nestings_acquire, List.map_nil, List.nil_append] at hx
  exact hinside n hx

theorem nestings_innerUnderSession (n : ℕ) :
    nestings [] (innerUnderSession ++ sessionSections n) = [(.activeSession, .inner)] := by
  simp [innerUnderSession]

/-! ### Shapes -/

/-- The steps of an operation: whether it takes `active_session` under `inner`, and whether it takes
`inner` under `active_session`. -/
inductive Shape (nests inverts : Prop) : List (LockStep Mutex) → Prop where
  | nested (n : ℕ) (hn : nests ↔ n ≠ 0) (hi : ¬ inverts) : Shape nests inverts (underInner n)
  | inverted (n : ℕ) (hn : ¬ nests) (hi : inverts) :
      Shape nests inverts (innerUnderSession ++ sessionSections n)
  | apart (n : ℕ) (hn : ¬ nests) (hi : ¬ inverts) : Shape nests inverts (sessionSections n)

variable {nests inverts : Prop} {steps : List (LockStep Mutex)}

/-- What an operation nests is what its shape says. -/
theorem Shape.of_mem_nestings (h : Shape nests inverts steps) {x : Mutex × Mutex}
    (hx : x ∈ nestings [] steps) :
    nests ∧ x = (.inner, .activeSession) ∨ inverts ∧ x = (.activeSession, .inner) := by
  cases h with
  | nested n hn =>
    obtain ⟨hpos, hx⟩ := mem_nestings_underInner hx
    exact .inl ⟨hn.mpr hpos, hx⟩
  | inverted n _ hi =>
    rw [nestings_innerUnderSession, List.mem_singleton] at hx
    exact .inr ⟨hi, hx⟩
  | apart n => simp at hx

theorem Shape.eq_of_nests (h : Shape nests inverts steps) (hn : nests) :
    ∃ rest, steps = .acquire .inner :: .acquire .activeSession :: rest := by
  cases h with
  | nested n hpos =>
    obtain ⟨n, rfl⟩ := Nat.exists_eq_succ_of_ne_zero (hpos.mp hn)
    exact ⟨_, by rw [underInner, sessionSections_succ]; rfl⟩
  | inverted _ hno | apart _ hno => exact absurd hn hno

theorem Shape.eq_of_inverts (h : Shape nests inverts steps) (hi : inverts) :
    ∃ rest, steps = .acquire .activeSession :: .acquire .inner :: rest := by
  cases h with
  | inverted n => exact ⟨_, rfl⟩
  | nested _ _ hno | apart _ _ hno => exact absurd hi hno

/-- A loop takes a lock exactly when one of its rounds does. -/
theorem sum_ne_zero_iff {α : Type u} {Q : α → Prop} {xs : List α} {ns : List ℕ}
    (h : List.Forall₂ (fun x n => n ≠ 0 ↔ Q x) xs ns) : ns.sum ≠ 0 ↔ ∃ x ∈ xs, Q x := by
  induction h with
  | nil => simp
  | @cons x n xs ns hx _ ih =>
    rw [List.exists_mem_cons_iff, ← hx, ← ih, List.sum_cons]
    omega

/-- **Two operations can deadlock exactly when one takes the mutexes in the one order and the other
in the other.** -/
theorem canDeadlock_iff {ι : Type u} [DecidableEq ι] {p : ι → List (LockStep Mutex)}
    {nests inverts : ι → Prop}
    (h : ∀ i, Shape (nests i) (inverts i) (p i)) {i j : ι} (hij : i ≠ j) :
    CanDeadlock p i j ↔ nests i ∧ inverts j ∨ inverts i ∧ nests j := by
  constructor
  · intro hd
    obtain ⟨a, b, hi, hj⟩ := opposite_of_deadlock hd
    rcases (h i).of_mem_nestings hi with ⟨hi, heq⟩ | ⟨hi, heq⟩ <;>
      rcases (h j).of_mem_nestings hj with ⟨hj, heq'⟩ | ⟨hj, heq'⟩
    · cases heq; cases heq'
    · exact .inl ⟨hi, hj⟩
    · exact .inr ⟨hi, hj⟩
    · cases heq; cases heq'
  · rintro (⟨hi, hj⟩ | ⟨hi, hj⟩)
    · obtain ⟨_, hi⟩ := (h i).eq_of_nests hi
      obtain ⟨_, hj⟩ := (h j).eq_of_inverts hj
      exact deadlock_of_opposite hij (by decide) hi hj
    · obtain ⟨_, hi⟩ := (h i).eq_of_inverts hi
      obtain ⟨_, hj⟩ := (h j).eq_of_nests hj
      exact deadlock_of_opposite hij (by decide) hi hj

end Shilpo.Domain
