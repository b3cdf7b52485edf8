import Shilpo.Theme.Wallpaper
import Shilpo.Theory.Recency

/-!
# The wallpaper cache

`desktop/theme-daemon/src/wallpaper_cache.rs`: a map of what pictures were found to be, and a queue
of its keys, which four branches of `get` and `insert` change apart from each other. It is an exact
cache of least recent use (`wallpaperCache_exact`).
-/

namespace Shilpo.Theme.Stored

open Theory

/-- The map, and the queue of its keys, of which the first was not used for the longest time. -/
structure WallpaperAnalysisCache where
  capacity : ℕ
  entries : AList fun _ : WallpaperCacheKey => WallpaperAnalysis
  order : List WallpaperCacheKey

/-- The first place of a key in the queue becomes its last. -/
def moveToBack (key : WallpaperCacheKey) (order : List WallpaperCacheKey) :
    List WallpaperCacheKey :=
  if key ∈ order then order.erase key ++ [key] else order

/-- Keys leave the queue until one of them was in the map, and leaves it. -/
def evict (entries : AList fun _ : WallpaperCacheKey => WallpaperAnalysis) :
    List WallpaperCacheKey →
      (AList fun _ : WallpaperCacheKey => WallpaperAnalysis) × List WallpaperCacheKey
  | [] => (entries, [])
  | oldKey :: order =>
    if oldKey ∈ entries then (entries.erase oldKey, order) else evict entries order

namespace WallpaperAnalysisCache

variable (cache : WallpaperAnalysisCache)

def new : WallpaperAnalysisCache := ⟨32, ∅, []⟩

def withCapacity (capacity : ℕ) : WallpaperAnalysisCache := ⟨capacity, ∅, []⟩

def get (key : WallpaperCacheKey) : WallpaperAnalysisCache × Option WallpaperAnalysis :=
  match cache.entries.lookup key with
  | some analysis => ({ cache with order := moveToBack key cache.order }, some analysis)
  | none => (cache, none)

def insert (key : WallpaperCacheKey) (analysis : WallpaperAnalysis) : WallpaperAnalysisCache :=
  if cache.capacity = 0 then cache
  else if key ∈ cache.entries then
    { cache with
      entries := cache.entries.insert key analysis
      order := moveToBack key cache.order }
  else
    let (entries, order) :=
      if cache.capacity ≤ cache.entries.keys.length then evict cache.entries cache.order
      else (cache.entries, cache.order)
    { cache with entries := entries.insert key analysis, order := order ++ [key] }

/-- A read or a write. -/
def step : CacheOp WallpaperCacheKey WallpaperAnalysis → WallpaperAnalysisCache
  | .get key => (cache.get key).1
  | .insert key analysis => cache.insert key analysis

/-- The cache after reads and writes. -/
def run (cache : WallpaperAnalysisCache) :
    List (CacheOp WallpaperCacheKey WallpaperAnalysis) → WallpaperAnalysisCache :=
  List.foldl step cache

end WallpaperAnalysisCache

/-! ### The history -/

variable {capacity : ℕ} {history : List (CacheOp WallpaperCacheKey WallpaperAnalysis)}
  {cache : WallpaperAnalysisCache} {key : WallpaperCacheKey} {analysis : WallpaperAnalysis}

/-- The keys of which few others were used since, the latest first. -/
def keptKeys (capacity : ℕ) (history : List (CacheOp WallpaperCacheKey WallpaperAnalysis)) :
    List WallpaperCacheKey :=
  (recent (LeastRecent.uses capacity history)).take capacity

theorem mem_keptKeys :
    key ∈ keptKeys capacity history ↔
      LeastRecent.Kept capacity (LeastRecent.uses capacity history) key :=
  mem_take_recent_iff

theorem nodup_keptKeys : (keptKeys capacity history).Nodup :=
  (nodup_recent _).sublist (List.take_sublist _ _)

theorem length_keptKeys : (keptKeys capacity history).length ≤ capacity :=
  List.length_take_le _ _

theorem lookup_eq : LeastRecent.lookup capacity history key =
    if key ∈ keptKeys capacity history then LeastRecent.lastInserted history key else none := by
  rw [LeastRecent.lookup]
  exact if_congr mem_keptKeys.symm rfl rfl

theorem lookup_isSome_iff :
    (LeastRecent.lookup capacity history key).isSome ↔ key ∈ keptKeys capacity history := by
  rw [lookup_eq]
  split_ifs with h
  · exact iff_of_true (LeastRecent.lastInserted_isSome capacity (mem_keptKeys.mp h).1) h
  · exact iff_of_false Bool.false_ne_true h

theorem keptKeys_get : keptKeys capacity (.get key :: history) =
    if key ∈ keptKeys capacity history then key :: (keptKeys capacity history).filter (· ≠ key)
    else keptKeys capacity history := by
  rw [keptKeys, LeastRecent.uses]
  split_ifs with hkept hmem hmem
  · exact take_recent_cons_of_mem hmem
  · exact absurd (mem_keptKeys.mpr hkept) hmem
  · exact absurd (mem_keptKeys.mp hmem) hkept
  · rfl

theorem keptKeys_insert (h : key ∉ keptKeys capacity history) (hcapacity : capacity ≠ 0) :
    keptKeys capacity (.insert key analysis :: history) =
      key :: if capacity ≤ (keptKeys capacity history).length then
        (keptKeys capacity history).dropLast else keptKeys capacity history :=
  take_recent_cons_of_notMem hcapacity h

/-- The queue of the cache is that of the keys that are kept, and the map has for each what was
written last. The history has the latest first. -/
structure Follows (capacity : ℕ) (history : List (CacheOp WallpaperCacheKey WallpaperAnalysis))
    (cache : WallpaperAnalysisCache) : Prop where
  room : cache.capacity = capacity
  queue : cache.order = (keptKeys capacity history).reverse
  found : ∀ key, cache.entries.lookup key = LeastRecent.lookup capacity history key

namespace Follows

theorem start : Follows capacity [] (.withCapacity capacity) where
  room := rfl
  queue := by rw [keptKeys, LeastRecent.uses, recent, List.take_nil]; rfl
  found key := by rw [lookup_eq, keptKeys, LeastRecent.uses, recent, List.take_nil]; rfl

theorem nodup_order (h : Follows capacity history cache) : cache.order.Nodup := by
  rw [h.queue]
  exact List.nodup_reverse.mpr nodup_keptKeys

theorem mem_order (h : Follows capacity history cache) :
    key ∈ cache.order ↔ key ∈ keptKeys capacity history := by
  rw [h.queue, List.mem_reverse]

theorem mem_entries (h : Follows capacity history cache) :
    key ∈ cache.entries ↔ key ∈ keptKeys capacity history := by
  rw [← AList.lookup_isSome, h.found, lookup_isSome_iff]

theorem length_keys (h : Follows capacity history cache) :
    cache.entries.keys.length = (keptKeys capacity history).length := by
  have hperm : cache.entries.keys.Perm cache.order := by
    refine (List.perm_ext_iff_of_nodup cache.entries.nodupKeys h.nodup_order).mpr fun key => ?_
    exact AList.mem_keys.symm.trans (h.mem_entries.trans h.mem_order.symm)
  rw [hperm.length_eq, h.queue, List.length_reverse]

theorem moveToBack_order (h : Follows capacity history cache)
    (hkey : key ∈ keptKeys capacity history) :
    moveToBack key cache.order = (key :: (keptKeys capacity history).filter (· ≠ key)).reverse := by
  have herase : cache.order.erase key = cache.order.filter (· ≠ key) := by
    rw [h.nodup_order.erase_eq_filter]
    exact List.filter_congr fun k _ => by rw [bne, beq_eq_decide, ← decide_not]
  rw [moveToBack, if_pos (h.mem_order.mpr hkey), herase, h.queue, List.reverse_cons,
    List.filter_reverse]

theorem get (h : Follows capacity history cache) :
    Follows capacity (.get key :: history) (cache.get key).1 := by
  have hlookup := h.found key
  rw [WallpaperAnalysisCache.get]
  by_cases hkept : key ∈ keptKeys capacity history
  · obtain ⟨analysis, hfound⟩ := Option.isSome_iff_exists.mp (lookup_isSome_iff.mpr hkept)
    rw [hlookup, hfound]
    refine ⟨h.room, ?_, fun k => ?_⟩
    · rw [keptKeys_get, if_pos hkept]
      exact h.moveToBack_order hkept
    · refine (h.found k).trans ?_
      rw [lookup_eq, lookup_eq, keptKeys_get, if_pos hkept]
      refine if_congr ?_ rfl rfl
      rw [List.mem_cons, List.mem_filter, decide_eq_true_eq]
      constructor
      · exact fun hk => (eq_or_ne k key).imp_right fun hne => ⟨hk, hne⟩
      · rintro (rfl | hk)
        · exact hkept
        · exact hk.1
  · have hnone : cache.entries.lookup key = none := by
      rw [hlookup, lookup_eq, if_neg hkept]
    rw [hnone]
    refine ⟨h.room, ?_, fun k => ?_⟩
    · rw [keptKeys_get, if_neg hkept]
      exact h.queue
    · refine (h.found k).trans ?_
      rw [lookup_eq, lookup_eq, keptKeys_get, if_neg hkept]
      rfl

/-- A write of a key that is kept. -/
theorem overwrite (h : Follows capacity history cache) (hkept : key ∈ keptKeys capacity history) :
    Follows capacity (.insert key analysis :: history)
      { cache with
        entries := cache.entries.insert key analysis
        order := moveToBack key cache.order } := by
  have hkeys : keptKeys capacity (.insert key analysis :: history) =
      key :: (keptKeys capacity history).filter (· ≠ key) :=
    take_recent_cons_of_mem hkept
  refine ⟨h.room, ?_, fun k => ?_⟩
  · rw [hkeys]
    exact h.moveToBack_order hkept
  · rw [lookup_eq, hkeys, LeastRecent.lastInserted]
    by_cases hk : k = key
    · subst hk
      rw [if_pos List.mem_cons_self, if_pos rfl]
      exact AList.lookup_insert cache.entries
    · rw [AList.lookup_insert_ne hk, h.found, lookup_eq, if_neg hk]
      exact if_congr (by simp [hk]) rfl rfl

/-- A write of a key that is not kept, where there is room. -/
theorem append (h : Follows capacity history cache) (hkept : key ∉ keptKeys capacity history)
    (hroom : (keptKeys capacity history).length < capacity) :
    Follows capacity (.insert key analysis :: history)
      { cache with
        entries := cache.entries.insert key analysis
        order := cache.order ++ [key] } := by
  have hkeys : keptKeys capacity (.insert key analysis :: history) =
      key :: keptKeys capacity history := by
    rw [keptKeys_insert hkept (Nat.ne_zero_of_lt hroom), if_neg (not_le.mpr hroom)]
  refine ⟨h.room, ?_, fun k => ?_⟩
  · rw [hkeys, List.reverse_cons, h.queue]
  · rw [lookup_eq, hkeys, LeastRecent.lastInserted]
    by_cases hk : k = key
    · subst hk
      rw [if_pos List.mem_cons_self, if_pos rfl]
      exact AList.lookup_insert cache.entries
    · rw [AList.lookup_insert_ne hk, h.found, lookup_eq, if_neg hk]
      exact if_congr (by simp [hk]) rfl rfl

/-- A write of a key that is not kept, where there is no room: the first of the queue leaves. -/
theorem replace (h : Follows capacity history cache) (hkept : key ∉ keptKeys capacity history)
    (hcapacity : capacity ≠ 0) (hfull : capacity ≤ (keptKeys capacity history).length) :
    Follows capacity (.insert key analysis :: history)
      { cache with
        entries := (evict cache.entries cache.order).1.insert key analysis
        order := (evict cache.entries cache.order).2 ++ [key] } := by
  have hkeys : keptKeys capacity (.insert key analysis :: history) =
      key :: (keptKeys capacity history).dropLast := by
    rw [keptKeys_insert hkept hcapacity, if_pos hfull]
  have hne : keptKeys capacity history ≠ [] := by
    intro hnil
    rw [hnil] at hfull
    exact hcapacity (Nat.le_zero.mp hfull)
  obtain ⟨rest, oldKey, hsplit⟩ := (keptKeys capacity history).eq_nil_or_concat.resolve_left hne
  have hold : oldKey ∈ cache.entries := h.mem_entries.mpr (by simp [hsplit])
  have hevict : evict cache.entries cache.order = (cache.entries.erase oldKey, rest.reverse) := by
    rw [h.queue, hsplit, List.concat_eq_append, List.reverse_concat, evict, if_pos hold]
  have hnodup : (keptKeys capacity history).Nodup := nodup_keptKeys
  rw [hsplit, List.concat_eq_append] at hnodup
  have hnotMem : oldKey ∉ rest := fun hmem => List.disjoint_of_nodup_append hnodup hmem (by simp)
  rw [hsplit, List.concat_eq_append, List.dropLast_concat] at hkeys
  rw [hevict]
  refine ⟨h.room, ?_, fun k => ?_⟩
  · rw [hkeys, List.reverse_cons]
  · rw [lookup_eq, hkeys, LeastRecent.lastInserted]
    by_cases hk : k = key
    · subst hk
      rw [if_pos List.mem_cons_self, if_pos rfl]
      exact AList.lookup_insert _
    · rw [AList.lookup_insert_ne hk, if_neg hk]
      by_cases hkold : k = oldKey
      · subst hkold
        rw [AList.lookup_erase, if_neg (by simp [hk, hnotMem])]
      · rw [AList.lookup_erase_ne hkold, h.found, lookup_eq, hsplit]
        exact if_congr (by simp [hk, hkold]) rfl rfl

theorem insert (h : Follows capacity history cache) :
    Follows capacity (.insert key analysis :: history) (cache.insert key analysis) := by
  obtain rfl := h.room
  rw [WallpaperAnalysisCache.insert]
  by_cases hcapacity : cache.capacity = 0
  · rw [if_pos hcapacity]
    have hnone : ∀ history : List (CacheOp WallpaperCacheKey WallpaperAnalysis),
        keptKeys cache.capacity history = [] := fun history => by
      rw [keptKeys, hcapacity, List.take_zero]
    refine ⟨rfl, ?_, fun k => ?_⟩
    · rw [h.queue, hnone, hnone]
    · rw [h.found, lookup_eq, lookup_eq, hnone, hnone, if_neg List.not_mem_nil,
        if_neg List.not_mem_nil]
  · rw [if_neg hcapacity]
    by_cases hkept : key ∈ keptKeys cache.capacity history
    · rw [if_pos (h.mem_entries.mpr hkept)]
      exact h.overwrite hkept
    · rw [if_neg fun hmem => hkept (h.mem_entries.mp hmem), h.length_keys]
      by_cases hfull : cache.capacity ≤ (keptKeys cache.capacity history).length
      · simp only [if_pos hfull]
        exact h.replace hkept hcapacity hfull
      · simp only [if_neg hfull]
        exact h.append hkept (not_le.mp hfull)

theorem step (h : Follows capacity history cache)
    (op : CacheOp WallpaperCacheKey WallpaperAnalysis) :
    Follows capacity (op :: history) (cache.step op) := by
  cases op with
  | get key => exact h.get
  | insert key analysis => exact h.insert

theorem run (h : Follows capacity history cache)
    (ops : List (CacheOp WallpaperCacheKey WallpaperAnalysis)) :
    Follows capacity (ops.reverse ++ history) (cache.run ops) := by
  induction ops generalizing history cache with
  | nil => exact h
  | cons op ops ih =>
    rw [List.reverse_cons, List.append_assoc]
    exact ih (h.step op)

/-- What is read is what is found. -/
theorem get_snd (h : Follows capacity history cache) :
    (cache.get key).2 = LeastRecent.lookup capacity history key := by
  rw [WallpaperAnalysisCache.get, h.found]
  cases LeastRecent.lookup capacity history key <;> rfl

end Follows

/-! ### Main result -/

/-- **The cache is an exact one of least recent use.** After all reads and writes the queue has the
keys of the map, each once and no more than there is room for, and a read finds what was written
last under its key if fewer others were used since the last use of it. -/
theorem wallpaperCache_exact (capacity : ℕ)
    (ops : List (CacheOp WallpaperCacheKey WallpaperAnalysis)) :
    let cache := (WallpaperAnalysisCache.withCapacity capacity).run ops
    cache.order.Nodup ∧ (∀ key, key ∈ cache.order ↔ key ∈ cache.entries) ∧
      cache.entries.keys.length ≤ capacity ∧
      ∀ key, (cache.get key).2 = LeastRecent.lookup capacity ops.reverse key := by
  have h : Follows capacity (ops.reverse ++ []) _ := Follows.start.run ops
  rw [List.append_nil] at h
  exact ⟨h.nodup_order, fun key => h.mem_order.trans h.mem_entries.symm,
    h.length_keys.trans_le length_keptKeys, fun key => h.get_snd⟩

end Shilpo.Theme.Stored
