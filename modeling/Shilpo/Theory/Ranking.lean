import Shilpo.Theory.Sorting

/-!
# Ranks in a sorted list

A stable sort of a list that is in order by `R` is in order by the key and, where keys are the same,
by `R` (`pairwise_lex_sortByKey`). In a list that is strictly in order, the first `n` elements are
those that fewer than `n` elements come before (`mem_take_iff_rank`).
-/

namespace Shilpo.Theory

universe u v

variable {α : Type u} {β : Type v} [LinearOrder β] {f : α → β} {R : α → α → Prop}

/-- First by the key, and then by `R`. -/
def KeyLex (f : α → β) (R : α → α → Prop) (a b : α) : Prop := f a < f b ∨ f a = f b ∧ R a b

theorem KeyLex.le {a b : α} (h : KeyLex f R a b) : f a ≤ f b :=
  h.elim le_of_lt fun h => h.1.le

theorem pairwise_lex_orderedInsert {a : α} {l : List α} (hl : l.Pairwise (KeyLex f R))
    (ha : ∀ b ∈ l, R a b) : (l.orderedInsert (KeyLE f) a).Pairwise (KeyLex f R) := by
  induction l with
  | nil => exact List.pairwise_singleton _ _
  | cons b l ih =>
    obtain ⟨hb, hl⟩ := List.pairwise_cons.mp hl
    by_cases hab : KeyLE f a b
    · rw [List.orderedInsert_cons_of_le _ _ hab, List.pairwise_cons]
      refine ⟨fun c hc => ?_, List.pairwise_cons.mpr ⟨hb, hl⟩⟩
      have hac : f a ≤ f c := by
        obtain rfl | hc := List.mem_cons.mp hc
        · exact hab
        · exact le_trans hab (hb c hc).le
      exact (lt_or_eq_of_le hac).imp_right fun heq => ⟨heq, ha c hc⟩
    · rw [List.orderedInsert_of_not_le _ _ hab, List.pairwise_cons]
      refine ⟨fun c hc => ?_, ih hl fun c hc => ha c (List.mem_cons_of_mem _ hc)⟩
      obtain rfl | hc := (List.mem_orderedInsert (KeyLE f)).mp hc
      · exact .inl (lt_of_not_ge hab)
      · exact hb c hc

/-- **A stable sort keeps the order of elements of one key.** -/
theorem pairwise_lex_sortByKey {l : List α} (hl : l.Pairwise R) :
    (sortByKey f l).Pairwise (KeyLex f R) := by
  induction l with
  | nil => exact List.Pairwise.nil
  | cons a l ih =>
    obtain ⟨ha, hl⟩ := List.pairwise_cons.mp hl
    rw [sortByKey_cons]
    exact pairwise_lex_orderedInsert (ih hl) fun b hb => ha b (mem_sortByKey.mp hb)

variable [DecidableRel R]

/-- **What is among the first is what little comes before.** -/
theorem mem_take_iff_rank (hasymm : ∀ a b, R a b → ¬ R b a) {l : List α} (hl : l.Pairwise R)
    {a : α} (ha : a ∈ l) (n : ℕ) : a ∈ l.take n ↔ (l.filter (R · a)).length < n := by
  obtain ⟨l₁, l₂, rfl⟩ := List.append_of_mem ha
  obtain ⟨-, hrest, hfront⟩ := List.pairwise_append.mp hl
  have hafter : ∀ b ∈ a :: l₂, ¬ R b a := by
    intro b hb
    obtain rfl | hb := List.mem_cons.mp hb
    · exact fun h => hasymm _ _ h h
    · exact hasymm _ _ ((List.pairwise_cons.mp hrest).1 b hb)
  have hrank : (l₁ ++ a :: l₂).filter (R · a) = l₁ := by
    rw [List.filter_append, List.filter_eq_self.mpr, List.filter_eq_nil_iff.mpr, List.append_nil]
    · exact fun b hb => decide_eq_false (hafter b hb) ▸ Bool.false_ne_true
    · exact fun b hb => decide_eq_true (hfront b hb a List.mem_cons_self)
  rw [hrank, List.take_append, List.mem_append]
  constructor
  · rintro (hmem | hmem)
    · exact absurd (hfront a (List.mem_of_mem_take hmem) a List.mem_cons_self)
        (hafter a List.mem_cons_self)
    · by_contra hle
      rw [Nat.sub_eq_zero_of_le (not_lt.mp hle)] at hmem
      cases hmem
  · intro hlt
    obtain ⟨m, hm⟩ := Nat.exists_eq_succ_of_ne_zero (Nat.sub_ne_zero_of_lt hlt)
    rw [hm, List.take_succ_cons]
    exact .inr List.mem_cons_self

end Shilpo.Theory
