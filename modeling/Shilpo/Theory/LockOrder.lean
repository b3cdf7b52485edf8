import Mathlib

/-!
# The order of locks

Callers that acquire and release locks, each a list of such steps, run in any order;
a step that acquires waits until nobody holds the lock. Two of them are in a deadlock
when each waits for a lock that the other holds.

What matters of a caller is which locks it acquires while it holds which others, its
`nestings`: a deadlock can be reached only where one caller nests two locks one way
and the other the other way (`opposite_of_deadlock`), and is reached where both start
so (`deadlock_of_opposite`).
-/

namespace Shilpo.Theory

universe u v

variable {ι : Type u} {L : Type v} [DecidableEq ι] [DecidableEq L]

/-! ### Callers -/

/-- What a caller does with a lock. -/
inductive LockStep (L : Type v) where
  | acquire (l : L)
  | release (l : L)
  deriving DecidableEq

/-- A caller on its way: the locks it holds, and the steps it has yet to take. -/
structure Caller (L : Type v) where
  held : List L
  todo : List (LockStep L)

/-- The callers before their first steps. -/
def start (p : ι → List (LockStep L)) (i : ι) : Caller L := ⟨[], p i⟩

/-- One caller takes a step. -/
inductive Proceeds : (ι → Caller L) → (ι → Caller L) → Prop where
  | acquire {c : ι → Caller L} (i : ι) (l : L) (todo : List (LockStep L))
      (hnext : (c i).todo = .acquire l :: todo) (hfree : ∀ j, l ∉ (c j).held) :
    Proceeds c (Function.update c i ⟨l :: (c i).held, todo⟩)
  | release {c : ι → Caller L} (i : ι) (l : L) (todo : List (LockStep L))
      (hnext : (c i).todo = .release l :: todo) :
    Proceeds c (Function.update c i ⟨(c i).held.erase l, todo⟩)

/-- The caller waits for this lock, if anyone else holds it. -/
def Caller.Wants (c : Caller L) (l : L) : Prop := ∃ todo, c.todo = .acquire l :: todo

/-- **A deadlock**: each of the two callers holds the lock that the other waits for. -/
def Deadlocked (c : ι → Caller L) (i j : ι) : Prop :=
  ∃ a b, (c i).Wants a ∧ a ∈ (c j).held ∧ (c j).Wants b ∧ b ∈ (c i).held

/-- Some order of the callers' steps leads to a deadlock of these two. -/
def CanDeadlock (p : ι → List (LockStep L)) (i j : ι) : Prop :=
  ∃ c, Relation.ReflTransGen Proceeds (start p) c ∧ Deadlocked c i j

/-! ### Nesting -/

/-- Which locks a caller that holds `held` acquires while it holds which others. -/
def nestings (held : List L) : List (LockStep L) → List (L × L)
  | [] => []
  | .acquire l :: todo => held.map (·, l) ++ nestings (l :: held) todo
  | .release l :: todo => nestings (held.erase l) todo

@[simp] theorem nestings_nil (held : List L) : nestings held [] = [] := rfl

@[simp] theorem nestings_acquire (held : List L) (l : L) (todo : List (LockStep L)) :
    nestings held (.acquire l :: todo) = held.map (·, l) ++ nestings (l :: held) todo := rfl

@[simp] theorem nestings_release (held : List L) (l : L) (todo : List (LockStep L)) :
    nestings held (.release l :: todo) = nestings (held.erase l) todo := rfl

/-- What a caller has yet to nest was in its steps from the start. -/
theorem nestings_subset {p : ι → List (LockStep L)} {c : ι → Caller L}
    (h : Relation.ReflTransGen Proceeds (start p) c) (i : ι) :
    nestings (c i).held (c i).todo ⊆ nestings [] (p i) := by
  induction h with
  | refl => exact fun _ hx => hx
  | tail _ hstep ih =>
    cases hstep with
    | acquire k l todo hnext =>
      by_cases hi : i = k
      · subst hi
        rw [Function.update_self]
        rw [hnext, nestings_acquire] at ih
        exact fun _ hx => ih (List.mem_append_right _ hx)
      · rwa [Function.update_of_ne hi]
    | release k l todo hnext =>
      by_cases hi : i = k
      · subst hi
        rw [Function.update_self]
        rwa [hnext, nestings_release] at ih
      · rwa [Function.update_of_ne hi]

/-- A caller that holds `b` and wants `a` nests `a` in `b`. -/
theorem Caller.Wants.mem_nestings {c : Caller L} {a b : L} (h : c.Wants a) (hb : b ∈ c.held) :
    (b, a) ∈ nestings c.held c.todo := by
  obtain ⟨todo, h⟩ := h
  rw [h, nestings_acquire]
  exact List.mem_append_left _ (List.mem_map_of_mem hb)

/-- **Callers in a deadlock nest two locks in opposite orders.** -/
theorem opposite_of_deadlock {p : ι → List (LockStep L)} {i j : ι} (h : CanDeadlock p i j) :
    ∃ a b, (b, a) ∈ nestings [] (p i) ∧ (a, b) ∈ nestings [] (p j) := by
  obtain ⟨c, hc, a, b, hi, ha, hj, hb⟩ := h
  exact ⟨a, b, nestings_subset hc i (hi.mem_nestings hb), nestings_subset hc j (hj.mem_nestings ha)⟩

/-- **Callers that start with two locks in opposite orders can deadlock.** -/
theorem deadlock_of_opposite {p : ι → List (LockStep L)} {i j : ι} (hij : i ≠ j) {a b : L}
    (hab : a ≠ b) {restᵢ restⱼ : List (LockStep L)} (hi : p i = .acquire b :: .acquire a :: restᵢ)
    (hj : p j = .acquire a :: .acquire b :: restⱼ) : CanDeadlock p i j := by
  -- `i` takes `b`, and then `j` takes `a`
  have hfirst : Proceeds (start p) (Function.update (start p) i ⟨[b], .acquire a :: restᵢ⟩) :=
    .acquire i b _ hi fun k => by simp [start]
  generalize hc : Function.update (start p) i ⟨[b], .acquire a :: restᵢ⟩ = c at hfirst
  have hci : c i = ⟨[b], .acquire a :: restᵢ⟩ := by rw [← hc, Function.update_self]
  have hother : ∀ k, k ≠ i → c k = start p k := fun k hk => by rw [← hc, Function.update_of_ne hk]
  have hsecond : Proceeds c (Function.update c j ⟨a :: (c j).held, .acquire b :: restⱼ⟩) := by
    refine .acquire j a _ (by rw [hother j hij.symm]; exact hj) ?_
    intro k
    by_cases hk : k = i
    · rw [hk, hci]
      simpa using hab
    · rw [hother k hk]
      simp [start]
  refine ⟨_, (Relation.ReflTransGen.single hfirst).tail hsecond, a, b, ⟨restᵢ, ?_⟩, ?_, ⟨restⱼ, ?_⟩,
    ?_⟩
  · rw [Function.update_of_ne hij, hci]
  · rw [Function.update_self]
    exact List.mem_cons_self
  · rw [Function.update_self]
  · rw [Function.update_of_ne hij, hci]
    exact List.mem_cons_self

end Shilpo.Theory
