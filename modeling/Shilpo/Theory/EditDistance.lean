import Mathlib

/-!
# Edit distance

One list is turned into another by edits: an element is inserted, deleted or replaced. The
least number of edits is the same whether they are made anywhere and in any order (`Edits`) or
in one pass along both lists (`Script`), and a recursion on the two lists computes it
(`editDistance`), in which two equal heads are always kept.
-/

namespace Shilpo

variable {α : Type*}

/-! ### Edits anywhere -/

/-- One edit. -/
inductive Edit : List α → List α → Prop where
  | insert (l r : List α) (x : α) : Edit (l ++ r) (l ++ x :: r)
  | delete (l r : List α) (x : α) : Edit (l ++ x :: r) (l ++ r)
  | replace (l r : List α) (x y : α) : Edit (l ++ x :: r) (l ++ y :: r)

/-- This many edits turn one list into the other. -/
inductive Edits : ℕ → List α → List α → Prop where
  | refl (a : List α) : Edits 0 a a
  | step {n : ℕ} {a b c : List α} : Edit a b → Edits n b c → Edits (n + 1) a c

theorem Edit.symm {a b : List α} (h : Edit a b) : Edit b a := by
  cases h with
  | insert l r x => exact .delete l r x
  | delete l r x => exact .insert l r x
  | replace l r x y => exact .replace l r y x

theorem Edit.reverse {a b : List α} (h : Edit a b) : Edit a.reverse b.reverse := by
  cases h with
  | insert l r x => simpa using Edit.insert r.reverse l.reverse x
  | delete l r x => simpa using Edit.delete r.reverse l.reverse x
  | replace l r x y => simpa using Edit.replace r.reverse l.reverse x y

theorem Edit.cons {a b : List α} (x : α) (h : Edit a b) : Edit (x :: a) (x :: b) := by
  cases h with
  | insert l r y => exact .insert (x :: l) r y
  | delete l r y => exact .delete (x :: l) r y
  | replace l r y z => exact .replace (x :: l) r y z

theorem Edits.trans {m n : ℕ} {a b c : List α} (h : Edits m a b) (h' : Edits n b c) :
    Edits (m + n) a c := by
  induction h with
  | refl a => simpa using h'
  | step hedit _ ih =>
    rw [Nat.succ_add]
    exact .step hedit (ih h')

theorem Edits.symm {n : ℕ} {a b : List α} (h : Edits n a b) : Edits n b a := by
  induction h with
  | refl a => exact .refl a
  | step hedit _ ih => exact ih.trans (.step hedit.symm (.refl _))

theorem Edits.reverse {n : ℕ} {a b : List α} (h : Edits n a b) :
    Edits n a.reverse b.reverse := by
  induction h with
  | refl a => exact .refl _
  | step hedit _ ih => exact .step hedit.reverse ih

theorem Edits.cons {n : ℕ} {a b : List α} (x : α) (h : Edits n a b) :
    Edits n (x :: a) (x :: b) := by
  induction h with
  | refl a => exact .refl _
  | step hedit _ ih => exact .step (hedit.cons x) ih

@[simp] theorem edits_zero_iff {a b : List α} : Edits 0 a b ↔ a = b := by
  constructor
  · intro h
    cases h
    rfl
  · rintro rfl
    exact .refl a

/-! ### Edits in one pass -/

/-- A pass along both lists with this many edits. -/
inductive Script : ℕ → List α → List α → Prop where
  | nil : Script 0 [] []
  | keep {n : ℕ} {a b : List α} (x : α) : Script n a b → Script n (x :: a) (x :: b)
  | insert {n : ℕ} {a b : List α} (y : α) : Script n a b → Script (n + 1) a (y :: b)
  | delete {n : ℕ} {a b : List α} (x : α) : Script n a b → Script (n + 1) (x :: a) b
  | replace {n : ℕ} {a b : List α} (x y : α) : Script n a b → Script (n + 1) (x :: a) (y :: b)

theorem Script.refl : ∀ a : List α, Script 0 a a
  | [] => .nil
  | x :: a => .keep x (Script.refl a)

theorem Script.nil_left : ∀ b : List α, Script b.length [] b
  | [] => .nil
  | y :: b => .insert y (Script.nil_left b)

theorem Script.nil_right : ∀ a : List α, Script a.length a []
  | [] => .nil
  | x :: a => .delete x (Script.nil_right a)

/-- The edits of a pass can be made one after the other. -/
theorem Script.edits {n : ℕ} {a b : List α} (h : Script n a b) : Edits n a b := by
  induction h with
  | nil => exact .refl []
  | keep x _ ih => exact ih.cons x
  | insert y _ ih => exact ih.trans (.step (.insert [] _ y) (.refl _))
  | delete x _ ih => exact .step (.delete [] _ x) ih
  | replace x y _ ih => exact .step (.replace [] _ x y) (ih.cons y)

/-- Two passes are one, with no more edits. -/
theorem Script.trans : ∀ {m n : ℕ} {a b c : List α}, Script m a b → Script n b c →
    ∃ k ≤ m + n, Script k a c
  | _, _, _, _, _, .nil, h' => ⟨_, by omega, h'⟩
  | _, _, _, _, _, .delete x h, h' =>
    let ⟨k, hk, hs⟩ := Script.trans h h'
    ⟨k + 1, by omega, .delete x hs⟩
  | _, _, _, _, _, h, .insert y h' =>
    let ⟨k, hk, hs⟩ := Script.trans h h'
    ⟨k + 1, by omega, .insert y hs⟩
  | _, _, _, _, _, .keep x h, .keep _ h' =>
    let ⟨k, hk, hs⟩ := Script.trans h h'
    ⟨k, by omega, .keep x hs⟩
  | _, _, _, _, _, .keep x h, .delete _ h' =>
    let ⟨k, hk, hs⟩ := Script.trans h h'
    ⟨k + 1, by omega, .delete x hs⟩
  | _, _, _, _, _, .keep x h, .replace _ z h' =>
    let ⟨k, hk, hs⟩ := Script.trans h h'
    ⟨k + 1, by omega, .replace x z hs⟩
  | _, _, _, _, _, .insert y h, .keep _ h' =>
    let ⟨k, hk, hs⟩ := Script.trans h h'
    ⟨k + 1, by omega, .insert y hs⟩
  | _, _, _, _, _, .insert _ h, .delete _ h' =>
    let ⟨k, hk, hs⟩ := Script.trans h h'
    ⟨k, by omega, hs⟩
  | _, _, _, _, _, .insert _ h, .replace _ z h' =>
    let ⟨k, hk, hs⟩ := Script.trans h h'
    ⟨k + 1, by omega, .insert z hs⟩
  | _, _, _, _, _, .replace x y h, .keep _ h' =>
    let ⟨k, hk, hs⟩ := Script.trans h h'
    ⟨k + 1, by omega, .replace x y hs⟩
  | _, _, _, _, _, .replace x _ h, .delete _ h' =>
    let ⟨k, hk, hs⟩ := Script.trans h h'
    ⟨k + 1, by omega, .delete x hs⟩
  | _, _, _, _, _, .replace x _ h, .replace _ z h' =>
    let ⟨k, hk, hs⟩ := Script.trans h h'
    ⟨k + 1, by omega, .replace x z hs⟩
termination_by _ _ a b c => a.length + b.length + c.length

theorem Script.keep_all (l : List α) {n : ℕ} {a b : List α} (h : Script n a b) :
    Script n (l ++ a) (l ++ b) := by
  induction l with
  | nil => exact h
  | cons x l ih => exact .keep x ih

/-- An edit is a pass with one edit. -/
theorem Edit.script {a b : List α} (h : Edit a b) : Script 1 a b := by
  cases h with
  | insert l r x => exact .keep_all l (.insert x (.refl r))
  | delete l r x => exact .keep_all l (.delete x (.refl r))
  | replace l r x y => exact .keep_all l (.replace x y (.refl r))

/-- Edits can be made in one pass, and perhaps fewer will do. -/
theorem Edits.script {n : ℕ} {a b : List α} (h : Edits n a b) : ∃ k ≤ n, Script k a b := by
  induction h with
  | refl a => exact ⟨0, le_rfl, .refl a⟩
  | step hedit _ ih =>
    obtain ⟨k, hk, hs⟩ := ih
    obtain ⟨k', hk', hs'⟩ := hedit.script.trans hs
    exact ⟨k', by omega, hs'⟩

/-! ### The least number of edits -/

variable [DecidableEq α]

/-- The least number of edits, in which equal heads are kept. -/
def editDistance : List α → List α → ℕ
  | [], b => b.length
  | x :: a, [] => (x :: a).length
  | x :: a, y :: b =>
    if x = y then editDistance a b
    else 1 + min (min (editDistance a b) (editDistance (x :: a) b)) (editDistance a (y :: b))
termination_by a b => a.length + b.length

@[simp] theorem editDistance_nil_left (b : List α) : editDistance [] b = b.length := by
  rw [editDistance]

@[simp] theorem editDistance_nil_right (a : List α) : editDistance a [] = a.length := by
  cases a <;> rw [editDistance]

/-- There is a pass with as many edits. -/
theorem script_editDistance (a b : List α) : Script (editDistance a b) a b := by
  induction a, b using editDistance.induct with
  | case1 b =>
    rw [editDistance_nil_left]
    exact .nil_left b
  | case2 x a =>
    rw [editDistance_nil_right]
    exact .nil_right (x :: a)
  | case3 a x b ih =>
    rw [editDistance, if_pos rfl]
    exact .keep x ih
  | case4 x a y b hne replace insert delete =>
    rw [editDistance, if_neg hne, add_comm]
    rcases min_choice (min (editDistance a b) (editDistance (x :: a) b))
      (editDistance a (y :: b)) with h | h
    · rw [h]
      rcases min_choice (editDistance a b) (editDistance (x :: a) b) with h' | h'
      · rw [h']
        exact .replace x y replace
      · rw [h']
        exact .insert y insert
    · rw [h]
      exact .delete x delete

/-- No pass has fewer edits. -/
theorem editDistance_le {n : ℕ} {a b : List α} (h : Script n a b) : editDistance a b ≤ n := by
  induction a, b using editDistance.induct generalizing n with
  | case1 b =>
    rw [editDistance_nil_left]
    induction b generalizing n with
    | nil => exact Nat.zero_le n
    | cons y b ih =>
      cases h with
      | insert _ h => simpa using ih h
  | case2 x a =>
    rw [editDistance_nil_right]
    generalize x :: a = a at h
    induction a generalizing n with
    | nil => exact Nat.zero_le n
    | cons x a ih =>
      cases h with
      | delete _ h => simpa using ih h
  | case3 a x b ih =>
    rw [editDistance, if_pos rfl]
    cases h with
    | keep _ h => exact ih h
    | replace _ _ h => exact (ih h).trans (Nat.le_succ _)
    | insert _ h =>
      -- a head that is inserted now and deleted later may as well be kept
      obtain ⟨k, hk, hs⟩ := (Script.insert x (Script.refl a)).trans h
      exact (ih hs).trans (by omega)
    | delete _ h =>
      obtain ⟨k, hk, hs⟩ := h.trans (Script.delete x (Script.refl b))
      exact (ih hs).trans (by omega)
  | case4 x a y b hne replace insert delete =>
    rw [editDistance, if_neg hne]
    cases h with
    | keep _ h => exact absurd rfl hne
    | replace _ _ h =>
      have := replace h
      omega
    | insert _ h =>
      have := insert h
      omega
    | delete _ h =>
      have := delete h
      omega

/-- It is the least number of edits that turn one list into the other. -/
theorem editDistance_isLeast (a b : List α) : IsLeast {n | Edits n a b} (editDistance a b) := by
  refine ⟨(script_editDistance a b).edits, fun n h => ?_⟩
  obtain ⟨k, hk, hs⟩ := Edits.script h
  exact (editDistance_le hs).trans hk

/-- Edits at the end cost what edits at the beginning do. -/
theorem editDistance_reverse (a b : List α) :
    editDistance a.reverse b.reverse = editDistance a b := by
  refine le_antisymm ?_ ?_
  · exact (editDistance_isLeast _ _).2 (editDistance_isLeast a b).1.reverse
  · have h := (editDistance_isLeast a.reverse b.reverse).1.reverse
    rw [List.reverse_reverse, List.reverse_reverse] at h
    exact (editDistance_isLeast a b).2 h

theorem editDistance_eq_zero_iff (a b : List α) : editDistance a b = 0 ↔ a = b := by
  constructor
  · intro h
    have := (editDistance_isLeast a b).1
    rwa [h, Set.mem_ofPred_eq, edits_zero_iff] at this
  · rintro rfl
    exact Nat.le_zero.mp ((editDistance_isLeast a a).2 (.refl a))

theorem editDistance_comm (a b : List α) : editDistance a b = editDistance b a :=
  le_antisymm ((editDistance_isLeast a b).2 (editDistance_isLeast b a).1.symm)
    ((editDistance_isLeast b a).2 (editDistance_isLeast a b).1.symm)

theorem editDistance_triangle (a b c : List α) :
    editDistance a c ≤ editDistance a b + editDistance b c :=
  (editDistance_isLeast a c).2 ((editDistance_isLeast a b).1.trans (editDistance_isLeast b c).1)

end Shilpo
