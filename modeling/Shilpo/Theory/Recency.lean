import Mathlib

/-!
# Recency

Keys in the order in which they were used last, the latest first (`recent`). A key is among the
first of them if few others were used since (`mem_take_recent_iff`). A key that is used becomes the
first, and of the first ones the last makes room if it was not among them
(`take_recent_cons_of_mem`, `take_recent_cons_of_notMem`).

A cache of least recent use is what this order makes of a history of reads and writes: it has the
keys of which few others were used since (`LeastRecent.lookup`).
-/

namespace Shilpo.Theory

universe u v

variable {κ : Type u} [DecidableEq κ]

/-- The keys that were used, each once; uses and keys have the latest first. -/
def recent : List κ → List κ
  | [] => []
  | k :: uses => k :: (recent uses).filter (· ≠ k)

/-- The other keys that were used since the last use of a key. -/
def usedSince (uses : List κ) (k : κ) : Finset κ := (uses.takeWhile (· ≠ k)).toFinset

theorem mem_recent {uses : List κ} {k : κ} : k ∈ recent uses ↔ k ∈ uses := by
  induction uses with
  | nil => rfl
  | cons u uses ih =>
    rw [recent, List.mem_cons, List.mem_cons, List.mem_filter, ih, decide_eq_true_eq]
    tauto

theorem nodup_recent (uses : List κ) : (recent uses).Nodup := by
  induction uses with
  | nil => exact List.nodup_nil
  | cons u uses ih =>
    rw [recent, List.nodup_cons, List.mem_filter, decide_eq_true_eq]
    exact ⟨fun h => h.2 rfl, ih.filter _⟩

theorem takeWhile_filter_ne {u k : κ} (h : u ≠ k) (l : List κ) :
    (l.filter (· ≠ u)).takeWhile (· ≠ k) = (l.takeWhile (· ≠ k)).filter (· ≠ u) := by
  induction l with
  | nil => rfl
  | cons x l ih =>
    by_cases hk : x = k
    · subst hk
      simp [h.symm]
    · by_cases hu : x = u
      · subst hu
        simpa [hk] using ih
      · simpa [hk, hu] using ih

/-- As many keys stand before a key as were used since. -/
theorem length_takeWhile_recent (uses : List κ) (k : κ) :
    ((recent uses).takeWhile (· ≠ k)).length = (usedSince uses k).card := by
  have hset : ((recent uses).takeWhile (· ≠ k)).toFinset = usedSince uses k := by
    induction uses with
    | nil => rfl
    | cons u uses ih =>
      rw [recent, usedSince]
      by_cases hu : u = k
      · simp [hu]
      · rw [usedSince] at ih
        simp only [ne_eq, hu, not_false_eq_true, decide_true, List.takeWhile_cons_of_pos,
          List.toFinset_cons]
        have hfilter := takeWhile_filter_ne hu (recent uses)
        simp only [ne_eq] at hfilter ih
        rw [hfilter, ← ih]
        ext x
        simp only [Finset.mem_insert, List.mem_toFinset, List.mem_filter]
        by_cases hx : x = u <;> simp [hx]
  rw [← hset, List.toFinset_card_of_nodup ((nodup_recent uses).sublist (List.takeWhile_sublist _))]

theorem mem_take_iff {l : List κ} {k : κ} {n : ℕ} :
    k ∈ l.take n ↔ k ∈ l ∧ (l.takeWhile (· ≠ k)).length < n := by
  induction l generalizing n with
  | nil => simp
  | cons x l ih =>
    cases n with
    | zero => simp
    | succ n =>
      by_cases hx : x = k
      · simp [hx]
      · have hne : k ≠ x := Ne.symm hx
        simp [hx, hne, ih]

/-- The first keys are those of which few others were used since. -/
theorem mem_take_recent_iff {uses : List κ} {k : κ} {n : ℕ} :
    k ∈ (recent uses).take n ↔ k ∈ uses ∧ (usedSince uses k).card < n := by
  rw [mem_take_iff, mem_recent, length_takeWhile_recent]

theorem take_filter_of_mem {l : List κ} (hl : l.Nodup) {k : κ} {n : ℕ} (h : k ∈ l.take (n + 1)) :
    (l.filter (· ≠ k)).take n = (l.take (n + 1)).filter (· ≠ k) := by
  induction l generalizing n with
  | nil => simp
  | cons x l ih =>
    obtain ⟨hx, hl⟩ := List.nodup_cons.mp hl
    by_cases hk : x = k
    · subst hk
      have hfilter : l.filter (· ≠ x) = l := List.filter_eq_self.mpr fun y hy =>
        decide_eq_true (ne_of_mem_of_not_mem hy hx)
      have htake : (l.take n).filter (· ≠ x) = l.take n := List.filter_eq_self.mpr fun y hy =>
        decide_eq_true (ne_of_mem_of_not_mem (List.mem_of_mem_take hy) hx)
      simp only [ne_eq, decide_not] at hfilter htake
      simp [hfilter, htake]
    · have hmem : k ∈ l.take n := by
        rw [List.take_succ_cons, List.mem_cons] at h
        exact h.resolve_left (Ne.symm hk)
      cases n with
      | zero => cases hmem
      | succ n =>
        have hrest := ih hl hmem
        simp only [ne_eq, decide_not] at hrest
        simp [hk, hrest]

theorem take_filter_of_notMem {l : List κ} {k : κ} {n : ℕ} (h : k ∉ l.take n) :
    (l.filter (· ≠ k)).take n = l.take n := by
  have hfilter : (l.take n).filter (· ≠ k) = l.take n := List.filter_eq_self.mpr fun y hy =>
    decide_eq_true (ne_of_mem_of_not_mem hy h)
  conv_lhs => rw [← List.take_append_drop n l, List.filter_append, hfilter]
  rcases le_or_gt n l.length with hn | hn
  · rw [List.take_append_of_le_length (by rw [List.length_take, min_eq_left hn]),
      List.take_take, min_self]
  · rw [List.drop_eq_nil_of_le hn.le, List.filter_nil, List.append_nil, List.take_take, min_self]

/-- A key that is among the first and is used becomes the first. -/
theorem take_recent_cons_of_mem {uses : List κ} {k : κ} {n : ℕ}
    (h : k ∈ (recent uses).take n) :
    (recent (k :: uses)).take n = k :: ((recent uses).take n).filter (· ≠ k) := by
  cases n with
  | zero => cases h
  | succ n => rw [recent, List.take_succ_cons, take_filter_of_mem (nodup_recent uses) h]

/-- A key that is not among the first and is used becomes the first, and if there is no room the
last of them goes. -/
theorem take_recent_cons_of_notMem {uses : List κ} {k : κ} {n : ℕ} (hn : n ≠ 0)
    (h : k ∉ (recent uses).take n) :
    (recent (k :: uses)).take n =
      k :: if n ≤ ((recent uses).take n).length then ((recent uses).take n).dropLast
        else (recent uses).take n := by
  obtain ⟨n, rfl⟩ := Nat.exists_eq_succ_of_ne_zero hn
  have hlast : k ∉ (recent uses).take n := fun hmem =>
    h (List.take_subset_take_left _ n.le_succ hmem)
  rw [recent, Nat.succ_eq_add_one, List.take_succ_cons, take_filter_of_notMem hlast,
    List.length_take]
  split_ifs with hfull
  · have hn : min (min (n + 1) (recent uses).length - 1) (n + 1) = n := by omega
    rw [List.dropLast_eq_take, List.length_take, List.take_take, hn]
  · rw [List.take_of_length_le (by omega), List.take_of_length_le (by omega)]

/-! ### A cache of least recent use -/

/-- A read or a write. -/
inductive CacheOp (κ : Type u) (ν : Type v) where
  | get (key : κ)
  | insert (key : κ) (value : ν)

namespace LeastRecent

variable {ν : Type v} (capacity : ℕ)

/-- Fewer other keys were used since the last use of the key than the cache has room for. -/
def Kept (uses : List κ) (k : κ) : Prop := k ∈ uses ∧ (usedSince uses k).card < capacity

instance (uses : List κ) (k : κ) : Decidable (Kept capacity uses k) :=
  inferInstanceAs (Decidable (_ ∧ _))

/-- The keys that were written, or read and found; the history and the uses have the latest
first. -/
def uses : List (CacheOp κ ν) → List κ
  | [] => []
  | .insert k _ :: history => k :: uses history
  | .get k :: history => if Kept capacity (uses history) k then k :: uses history else uses history

/-- What was written last. -/
def lastInserted : List (CacheOp κ ν) → κ → Option ν
  | [], _ => none
  | .insert k v :: history, key => if key = k then some v else lastInserted history key
  | .get _ :: history, key => lastInserted history key

/-- What is found. -/
def lookup (history : List (CacheOp κ ν)) (key : κ) : Option ν :=
  if Kept capacity (uses capacity history) key then lastInserted history key else none

theorem lastInserted_isSome {history : List (CacheOp κ ν)} {key : κ}
    (h : key ∈ uses capacity history) : (lastInserted history key).isSome := by
  induction history with
  | nil => cases h
  | cons op history ih =>
    cases op with
    | insert k v =>
      rw [lastInserted]
      split_ifs with hk
      · rfl
      · exact ih ((List.mem_cons.mp h).resolve_left hk)
    | get k =>
      rw [uses] at h
      split_ifs at h with hkept
      · rcases List.mem_cons.mp h with rfl | h
        · exact ih hkept.1
        · exact ih h
      · exact ih h

end LeastRecent

end Shilpo.Theory
