import Mathlib

/-!
# Sorting by a key

`sortByKey f` sorts a list by the key `f` of its elements and leaves elements of one key in the
order that they had: the stable sort of the standard library. Two facts say how a sorted list
changes with the list: an element later than all the others goes to the end
(`sortByKey_insert_last`), and taking elements out before or after makes no difference
(`filter_sortByKey`).
-/

namespace Shilpo.Theory

universe u v

variable {α : Type u} {β : Type v} [LinearOrder β] (f : α → β)

/-- `f` orders the elements. -/
def KeyLE (a b : α) : Prop := f a ≤ f b

instance : DecidableRel (KeyLE f) := fun a b => inferInstanceAs (Decidable (f a ≤ f b))

instance : Std.Total (KeyLE f) := ⟨fun a b => le_total (f a) (f b)⟩

instance : IsTrans α (KeyLE f) := ⟨fun _ _ _ hab hbc => le_trans hab hbc⟩

/-- The elements in the order of their keys. -/
def sortByKey (l : List α) : List α := l.insertionSort (KeyLE f)

variable {f}

theorem perm_sortByKey (l : List α) : (sortByKey f l).Perm l := List.perm_insertionSort _ l

@[simp] theorem mem_sortByKey {l : List α} {a : α} : a ∈ sortByKey f l ↔ a ∈ l :=
  (perm_sortByKey l).mem_iff

@[simp] theorem length_sortByKey (l : List α) : (sortByKey f l).length = l.length :=
  (perm_sortByKey l).length_eq

theorem pairwise_sortByKey (l : List α) : (sortByKey f l).Pairwise (KeyLE f) :=
  List.pairwise_insertionSort _ l

/-- The order of what is sorted makes no difference where no two elements have one key. -/
theorem sortByKey_eq_of_perm {l l' : List α} (h : l.Perm l')
    (hkeys : ∀ a ∈ l, ∀ b ∈ l, f a = f b → a = b) : sortByKey f l = sortByKey f l' := by
  have hperm : (sortByKey f l).Perm (sortByKey f l') :=
    ((perm_sortByKey l).trans h).trans (perm_sortByKey l').symm
  refine hperm.eq_of_pairwise (fun a b ha hb hab hba => ?_) (pairwise_sortByKey l)
    (pairwise_sortByKey l')
  exact hkeys a (mem_sortByKey.mp ha) b (h.mem_iff.mpr (mem_sortByKey.mp hb))
    (le_antisymm hab hba)

/-- What is done to the elements leaves their order alone as long as their keys stay. -/
theorem map_sortByKey {g : α → α} (hg : ∀ a, f (g a) = f a) (l : List α) :
    (sortByKey f l).map g = sortByKey f (l.map g) := by
  refine List.map_insertionSort (KeyLE f) (KeyLE f) g l fun a _ b _ => ?_
  rw [KeyLE, KeyLE, hg, hg]

theorem sortByKey_cons (a : α) (l : List α) :
    sortByKey f (a :: l) = (sortByKey f l).orderedInsert (KeyLE f) a := rfl

/-- An element later than all goes to the end. -/
theorem orderedInsert_of_lt {a : α} {l : List α} (h : ∀ b ∈ l, f b < f a) :
    l.orderedInsert (KeyLE f) a = l ++ [a] := by
  induction l with
  | nil => rfl
  | cons b l ih =>
    have hb : ¬ KeyLE f a b := not_le_of_gt (h b List.mem_cons_self)
    rw [List.orderedInsert_of_not_le _ _ hb, ih fun c hc => h c (List.mem_cons_of_mem _ hc)]
    rfl

/-- One that is not later than the last goes before it. -/
theorem orderedInsert_append_last {a last : α} (h : f a ≤ f last) (l : List α) :
    (l ++ [last]).orderedInsert (KeyLE f) a = l.orderedInsert (KeyLE f) a ++ [last] := by
  induction l with
  | nil => exact List.orderedInsert_cons_of_le _ _ h
  | cons b l ih =>
    by_cases hb : KeyLE f a b
    · rw [List.orderedInsert_cons_of_le _ _ hb]
      exact List.orderedInsert_cons_of_le _ _ hb
    · rw [List.orderedInsert_of_not_le _ _ hb, List.cons_append,
        List.orderedInsert_of_not_le _ _ hb, ih]
      rfl

/-- **What is later than everything else is sorted to the end.** -/
theorem sortByKey_insert_last {a : α} {l r : List α} (h : ∀ b ∈ l ++ r, f b < f a) :
    sortByKey f (l ++ a :: r) = sortByKey f (l ++ r) ++ [a] := by
  induction l with
  | nil =>
    rw [List.nil_append, List.nil_append, sortByKey_cons]
    exact orderedInsert_of_lt fun b hb => h b (mem_sortByKey.mp hb)
  | cons b l ih =>
    have hb : f b ≤ f a := (h b List.mem_cons_self).le
    rw [List.cons_append, List.cons_append, sortByKey_cons, sortByKey_cons,
      ih fun c hc => h c (List.mem_cons_of_mem _ hc), orderedInsert_append_last hb]

theorem filter_orderedInsert (p : α → Bool) {a : α} {l : List α} (hl : l.Pairwise (KeyLE f)) :
    (l.orderedInsert (KeyLE f) a).filter p =
      if p a then (l.filter p).orderedInsert (KeyLE f) a else l.filter p := by
  induction l with
  | nil => cases hp : p a <;> simp [hp]
  | cons b l ih =>
    obtain ⟨hb, hl⟩ := List.pairwise_cons.mp hl
    by_cases hab : KeyLE f a b
    · rw [List.orderedInsert_cons_of_le _ _ hab, List.filter_cons]
      by_cases hp : p a = true
      · rw [if_pos hp, if_pos hp]
        -- everything that is left is at least `b`, so that `a` goes first
        have hfirst : ∀ c ∈ (b :: l).filter p, KeyLE f a c := by
          intro c hc
          rcases List.mem_cons.mp (List.mem_of_mem_filter hc) with rfl | hc
          · exact hab
          · exact le_trans hab (hb c hc)
        cases hrest : (b :: l).filter p with
        | nil => rfl
        | cons c rest =>
          have hc : KeyLE f a c := hfirst c (hrest ▸ List.mem_cons_self)
          rw [List.orderedInsert_cons_of_le _ _ hc]
      · rw [if_neg hp, if_neg hp]
    · rw [List.orderedInsert_of_not_le _ _ hab, List.filter_cons, ih hl, List.filter_cons]
      by_cases hp : p a = true
      · rw [if_pos hp, if_pos hp]
        by_cases hpb : p b = true
        · rw [if_pos hpb, if_pos hpb, List.orderedInsert_of_not_le _ _ hab]
        · rw [if_neg hpb, if_neg hpb]
      · rw [if_neg hp, if_neg hp]

/-- **Elements may be taken out before or after sorting.** -/
theorem filter_sortByKey (p : α → Bool) (l : List α) :
    (sortByKey f l).filter p = sortByKey f (l.filter p) := by
  induction l with
  | nil => rfl
  | cons a l ih =>
    rw [sortByKey_cons, filter_orderedInsert p (pairwise_sortByKey l), ih,
      List.filter_cons]
    by_cases hp : p a = true
    · rw [if_pos hp, if_pos hp, sortByKey_cons]
    · rw [if_neg hp, if_neg hp]

end Shilpo.Theory
