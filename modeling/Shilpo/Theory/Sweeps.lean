import Mathlib

/-!
# Visiting each entry of a map

A loop over the entries of a map in which the visit of a key changes nothing about other keys:
what is said of a key afterwards is what its own visit made of it, wherever in the order it came.
-/

namespace Shilpo.Theory

universe u v w x

variable {κ : Type u} {ν : κ → Type v} {σ : Type w} {ρ : Type x} [DecidableEq κ]

variable (look : σ → κ → ρ) (visit : σ → (k : κ) → ν k → σ) (change : (k : κ) → ν k → ρ → ρ)

/-- **A sweep over entries with distinct keys.** -/
theorem sweep_nodup
    (h : ∀ s k v k', look (visit s k v) k' = if k' = k then change k v (look s k) else look s k')
    {l : List (Sigma ν)} (hl : l.NodupKeys) (s : σ) (k : κ) :
    look (l.foldl (fun s e => visit s e.1 e.2) s) k =
      (l.dlookup k).elim (look s k) fun v => change k v (look s k) := by
  induction l generalizing s with
  | nil => rfl
  | cons e l ih =>
    obtain ⟨k', v⟩ := e
    obtain ⟨hk', hl⟩ := List.nodupKeys_cons.mp hl
    rw [List.foldl_cons, ih hl, h]
    by_cases hk : k = k'
    · subst hk
      rw [if_pos rfl, List.dlookup_cons_eq, List.dlookup_eq_none.mpr hk']
      rfl
    · rw [if_neg hk, List.dlookup_cons_ne _ _ hk]

/-- A sweep over the entries of a map. -/
theorem sweep_entries
    (h : ∀ s k v k', look (visit s k v) k' = if k' = k then change k v (look s k) else look s k')
    (m : AList ν) (s : σ) (k : κ) :
    look (m.entries.foldl (fun s e => visit s e.1 e.2) s) k =
      (m.lookup k).elim (look s k) fun v => change k v (look s k) :=
  sweep_nodup look visit change h m.nodupKeys s k

/-- A sweep over the keys of a map. -/
theorem sweep_keys (visit : σ → κ → σ) (change : κ → ρ → ρ)
    (h : ∀ s k k', look (visit s k) k' = if k' = k then change k (look s k) else look s k')
    (m : AList ν) (s : σ) (k : κ) :
    look (m.keys.foldl visit s) k = if k ∈ m then change k (look s k) else look s k := by
  rw [AList.keys, List.keys, List.foldl_map,
    sweep_entries look (fun s k _ => visit s k) (fun k _ => change k)
      (fun s k _ => h s k) m s k]
  cases hk : m.lookup k with
  | none => rw [if_neg (AList.lookup_eq_none.mp hk)]; rfl
  | some v => rw [if_pos (AList.lookup_isSome.mp (hk ▸ rfl))]; rfl

end Shilpo.Theory
