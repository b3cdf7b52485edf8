import Shilpo.Theory.BTreeMap
import Shilpo.Theory.Sorting

/-!
# Tables

A table of a transactional store is an ordered map. What `put` and `delete` leave in it is said of
its entries (`mem_put`, `mem_delete`), of its values (`get_put`, `get_delete`) and of their number
(`length_put`, `length_delete`). Of the entries of a table that is not empty, the one that a stable
sort puts first is the least (`oldestBy`).
-/

namespace Shilpo.Theory.BTreeMap

universe u v

variable {κ : Type u} {ν : Type v} [LinearOrder κ] (m : BTreeMap κ ν) (k : κ) (v : ν)

/-- The value is stored in the place of the one with its key. -/
def put : BTreeMap κ ν where
  entries := m.entries.filter (·.1 < k) ++ (k, v) :: m.entries.filter (k < ·.1)
  sorted := by
    have hsorted : m.entries.Pairwise fun a b => a.1 < b.1 := List.pairwise_map.mp m.sorted
    rw [List.pairwise_map, List.pairwise_append, List.pairwise_cons]
    refine ⟨hsorted.filter _, ⟨fun e he => ?_, hsorted.filter _⟩, fun a ha b hb => ?_⟩
    · exact of_decide_eq_true (List.mem_filter.mp he).2
    · have hak : a.1 < k := of_decide_eq_true (List.mem_filter.mp ha).2
      obtain rfl | hb := List.mem_cons.mp hb
      · exact hak
      · exact hak.trans (of_decide_eq_true (List.mem_filter.mp hb).2)

/-- The key is taken out. -/
def delete : BTreeMap κ ν where
  entries := m.entries.filter (·.1 ≠ k)
  sorted := List.Pairwise.sublist (List.filter_sublist.map _) m.sorted

variable {m k v}

theorem mem_put {e : κ × ν} :
    e ∈ (m.put k v).entries ↔ e = (k, v) ∨ e ∈ m.entries ∧ e.1 ≠ k := by
  simp only [put, List.mem_append, List.mem_filter, List.mem_cons, decide_eq_true_eq]
  rw [ne_iff_lt_or_gt]
  tauto

theorem mem_delete {e : κ × ν} : e ∈ (m.delete k).entries ↔ e ∈ m.entries ∧ e.1 ≠ k := by
  rw [delete, List.mem_filter, decide_eq_true_eq]

theorem get_eq_none_iff : m.get k = none ↔ ∀ v, (k, v) ∉ m.entries := by
  simp only [Option.eq_none_iff_forall_ne_some, ne_eq, get_eq_some_iff]

theorem get_put_self : (m.put k v).get k = some v := get_eq_some_iff.mpr (mem_put.mpr (.inl rfl))

theorem get_put_of_ne {k' : κ} (h : k' ≠ k) : (m.put k v).get k' = m.get k' := by
  refine Option.ext fun v' => ?_
  rw [get_eq_some_iff, get_eq_some_iff, mem_put]
  simp [h]

theorem get_delete_self : (m.delete k).get k = none := by
  rw [get_eq_none_iff]
  exact fun v hv => (mem_delete.mp hv).2 rfl

theorem get_delete_of_ne {k' : κ} (h : k' ≠ k) : (m.delete k).get k' = m.get k' := by
  refine Option.ext fun v' => ?_
  rw [get_eq_some_iff, get_eq_some_iff, mem_delete]
  simp [h]

theorem nodup_entries (m : BTreeMap κ ν) : m.entries.Nodup := List.Nodup.of_map _ m.nodup_keys

/-- What is put in stands among what has other keys. -/
theorem perm_put : (m.put k v).entries.Perm ((k, v) :: (m.delete k).entries) := by
  have hcons : ((k, v) :: (m.delete k).entries).Nodup :=
    List.nodup_cons.mpr ⟨fun h => (mem_delete.mp h).2 rfl, nodup_entries _⟩
  refine (List.perm_ext_iff_of_nodup (nodup_entries _) hcons).mpr fun e => ?_
  rw [mem_put, List.mem_cons, mem_delete]

theorem length_put : (m.put k v).entries.length = (m.delete k).entries.length + 1 :=
  perm_put.length_eq

/-- What is put in takes the place of what would have been there. -/
theorem put_delete : (m.delete k).put k v = m.put k v := by
  have hlt : (m.delete k).entries.filter (·.1 < k) = m.entries.filter (·.1 < k) := by
    rw [delete, List.filter_filter]
    refine List.filter_congr fun e _ => ?_
    rw [← Bool.decide_and]
    exact decide_eq_decide.mpr (and_iff_left_of_imp fun h => h.ne)
  have hgt : (m.delete k).entries.filter (k < ·.1) = m.entries.filter (k < ·.1) := by
    rw [delete, List.filter_filter]
    refine List.filter_congr fun e _ => ?_
    rw [← Bool.decide_and]
    exact decide_eq_decide.mpr (and_iff_left_of_imp fun h => h.ne')
  simp only [put, hlt, hgt]

theorem delete_of_get_eq_none (h : m.get k = none) : m.delete k = m := by
  have hentries : (m.delete k).entries = m.entries := by
    refine List.filter_eq_self.mpr fun e he => decide_eq_true ?_
    rintro rfl
    exact get_eq_none_iff.mp h e.2 he
  cases m
  simpa only [delete, mk.injEq] using hentries

theorem delete_comm (k k' : κ) : (m.delete k).delete k' = (m.delete k').delete k := by
  simp only [delete, List.filter_comm]

/-- A key that is in the table counts for one. -/
theorem length_delete (h : m.get k = some v) :
    (m.delete k).entries.length + 1 = m.entries.length := by
  have hput : (m.put k v).entries.Perm m.entries := by
    refine (List.perm_ext_iff_of_nodup (nodup_entries _) m.nodup_entries).mpr fun e => ?_
    rw [mem_put]
    constructor
    · rintro (rfl | he)
      · exact get_eq_some_iff.mp h
      · exact he.1
    · intro he
      by_cases hk : e.1 = k
      · obtain ⟨k', v'⟩ := e
        obtain rfl : k' = k := hk
        have hv := get_eq_some_iff.mpr he
        rw [h] at hv
        exact .inl (by rw [Option.some.inj hv])
      · exact .inr ⟨he, hk⟩
  rw [← hput.length_eq, length_put]

/-! ### The least entry -/

variable {β : Type v} [LinearOrder β] {f : κ × ν → β}

/-- The entry that a stable sort puts first. -/
def oldestBy (f : κ × ν → β) (m : BTreeMap κ ν) : Option (κ × ν) := (sortByKey f m.entries).head?

theorem oldestBy_spec {e : κ × ν} (h : m.oldestBy f = some e) :
    m.get e.1 = some e.2 ∧ ∀ e' ∈ m.entries, f e ≤ f e' := by
  obtain ⟨rest, hsort⟩ := List.head?_eq_some_iff.mp h
  have hmem : ∀ e' ∈ m.entries, e' ∈ e :: rest := fun e' he' =>
    hsort ▸ mem_sortByKey.mpr he'
  have horder := pairwise_sortByKey (f := f) m.entries
  rw [hsort, List.pairwise_cons] at horder
  refine ⟨get_eq_some_iff.mpr (mem_sortByKey.mp (hsort ▸ List.mem_cons_self)), fun e' he' => ?_⟩
  obtain rfl | he' := List.mem_cons.mp (hmem e' he')
  · exact le_rfl
  · exact horder.1 e' he'

theorem oldestBy_isSome (h : m.entries ≠ []) : ∃ e, m.oldestBy f = some e := by
  refine Option.ne_none_iff_exists'.mp fun hnone => h ?_
  exact List.length_eq_zero_iff.mp
    ((length_sortByKey m.entries).symm.trans (by rw [List.head?_eq_none_iff.mp hnone]; rfl))

end Shilpo.Theory.BTreeMap
