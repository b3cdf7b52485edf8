import Mathlib

/-!
# Ordered maps

A `BTreeMap` as the list of its entries in the order of their keys, each key once.
Looking a key up in such a list finds an entry exactly when it is there.
-/

namespace Shilpo.Theory

universe u v

variable {κ : Type u} {ν : Type v}

theorem mem_of_lookup [BEq κ] [LawfulBEq κ] {l : List (κ × ν)} {k : κ} {v : ν}
    (h : l.lookup k = some v) : (k, v) ∈ l := by
  obtain ⟨l₁, l₂, rfl, -⟩ := List.lookup_eq_some_iff.mp h
  simp

/-- Where each key occurs once, an entry is what its key looks up. -/
theorem lookup_of_mem [BEq κ] [LawfulBEq κ] {l : List (κ × ν)} {k : κ} {v : ν}
    (hl : (l.map Prod.fst).Nodup) (h : (k, v) ∈ l) : l.lookup k = some v := by
  obtain ⟨l₁, l₂, rfl⟩ := List.append_of_mem h
  refine List.lookup_eq_some_iff.mpr ⟨l₁, l₂, rfl, ?_⟩
  intro e he
  simp only [List.map_append, List.map_cons, List.nodup_append, List.mem_map, List.mem_cons] at hl
  simpa using (hl.2.2 e.1 ⟨e, he, rfl⟩ k (.inl rfl)).symm

/-- An ordered map. -/
structure BTreeMap (κ : Type u) (ν : Type v) [LT κ] where
  /-- The entries. -/
  entries : List (κ × ν)
  /-- Each key occurs once, and in order. -/
  sorted : (entries.map Prod.fst).Pairwise (· < ·)

namespace BTreeMap

/-- No entries. -/
def empty [LT κ] : BTreeMap κ ν := ⟨[], List.Pairwise.nil⟩

/-- Two maps are compared entry by entry. -/
instance [LT κ] [BEq κ] [BEq ν] : BEq (BTreeMap κ ν) := ⟨fun m m' => m.entries == m'.entries⟩

variable [LinearOrder κ]

/-- The value of a key. -/
def get (m : BTreeMap κ ν) (k : κ) : Option ν := m.entries.lookup k

theorem nodup_keys (m : BTreeMap κ ν) : (m.entries.map Prod.fst).Nodup := m.sorted.imp fun h => h.ne

theorem get_eq_some_iff {m : BTreeMap κ ν} {k : κ} {v : ν} :
    m.get k = some v ↔ (k, v) ∈ m.entries :=
  ⟨mem_of_lookup, lookup_of_mem m.nodup_keys⟩

end BTreeMap

end Shilpo.Theory
