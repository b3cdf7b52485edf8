import Mathlib

/-!
# Maps under flattened keys

Two maps hold the same entries, one under its own keys and one under keys that are made
from these (`Flattens`). Where the making of keys tells apart those that are in use, all
operations on the two maps correspond: looking up, inserting, erasing one key, and
erasing, key by key, all that meet a condition.

Keys that are put together as sequences are told apart by a stop, which their parts do not
have (`append_inj_of_stop`).

A map is an association list with distinct keys.
-/

namespace Shilpo.Theory

universe u v w x

variable {κ : Type u} {ν : Type v} [DecidableEq κ]

/-! ### Sequences that stop -/

/-- Where two sequences go on after a part that has no stop in it, they have that part in
common. -/
theorem append_inj_of_stop {α : Type u} {p : α → Bool} {a b u v : List α} (ha : ∀ c ∈ a, p c)
    (hb : ∀ c ∈ b, p c) (hu : u.head?.all (!p ·)) (hv : v.head?.all (!p ·))
    (h : a ++ u = b ++ v) : a = b := by
  have htake : ∀ w : List α, w.head?.all (!p ·) → w.takeWhile p = [] := by
    intro w hw
    cases w with
    | nil => rfl
    | cons c w => simpa using hw
  have := congrArg (List.takeWhile p) h
  rwa [List.takeWhile_append_of_pos ha, List.takeWhile_append_of_pos hb, htake u hu, htake v hv,
    List.append_nil, List.append_nil] at this

/-! ### One map -/

section

variable (s : AList fun _ : κ => ν) (a : κ)

theorem mem_entries_of_mem_erase {s : AList fun _ : κ => ν} {a : κ} {e : Σ _ : κ, ν}
    (h : e ∈ (s.erase a).entries) : e ∈ s.entries :=
  (List.kerase_sublist a s.entries).subset h

theorem kerase_eq_filter {l : List (Σ _ : κ, ν)} (h : l.NodupKeys) :
    l.kerase a = l.filter fun e => e.1 ≠ a := by
  induction l with
  | nil => rfl
  | cons e l ih =>
    rw [List.nodupKeys_cons] at h
    by_cases he : a = e.1
    · have hrest : ∀ e' ∈ l, e'.1 ≠ a := by
        rintro e' he' rfl
        exact h.1 (he ▸ List.mem_keys_of_mem he')
      rw [List.kerase_cons_eq he, List.filter_cons_of_neg (by simp [he]),
        List.filter_eq_self.mpr (by simpa using hrest)]
    · rw [List.kerase_cons_ne he, List.filter_cons_of_pos (by simpa using Ne.symm he), ih h.2]

/-- Without a key, what is left is what has another. -/
theorem entries_erase : (s.erase a).entries = s.entries.filter fun e => e.1 ≠ a :=
  kerase_eq_filter a s.nodupKeys

/-- Keys are erased one by one. -/
def eraseAll (keys : List κ) : AList fun _ : κ => ν := keys.foldl (fun s k => s.erase k) s

theorem entries_eraseAll (keys : List κ) :
    (eraseAll s keys).entries = s.entries.filter fun e => e.1 ∉ keys := by
  induction keys generalizing s with
  | nil => simp [eraseAll]
  | cons k keys ih =>
    rw [eraseAll, List.foldl_cons, ← eraseAll, ih, entries_erase, List.filter_filter]
    congr 1
    funext e
    simp [not_or, Bool.and_comm]

/-- The entries that meet a condition. -/
def retain (p : (Σ _ : κ, ν) → Bool) : AList fun _ : κ => ν :=
  ⟨s.entries.filter p, s.nodupKeys.sublist List.filter_sublist⟩

end

/-! ### Two maps -/

section

variable {κ' : Type w} {ν' : Type x} [DecidableEq κ'] {f : κ → κ'} {g : ν → ν'}

/-- The same entries, under flattened keys and with other values for the values. -/
def Flattens (f : κ → κ') (g : ν → ν') (s : AList fun _ : κ => ν)
    (t : AList fun _ : κ' => ν') : Prop :=
  t.entries = s.entries.map fun e => ⟨f e.1, g e.2⟩

namespace Flattens

variable {s : AList fun _ : κ => ν} {t : AList fun _ : κ' => ν'}

omit [DecidableEq κ] [DecidableEq κ'] in
theorem empty : Flattens f g (∅ : AList fun _ : κ => ν) (∅ : AList fun _ : κ' => ν') := rfl

theorem dlookup_map {l : List (Σ _ : κ, ν)} {a : κ} (ha : ∀ e ∈ l, f e.1 = f a → e.1 = a) :
    (l.map fun e => (⟨f e.1, g e.2⟩ : Σ _ : κ', ν')).dlookup (f a) = (l.dlookup a).map g := by
  induction l with
  | nil => rfl
  | cons e l ih =>
    rw [List.forall_mem_cons] at ha
    obtain ⟨k, v⟩ := e
    by_cases hk : k = a
    · subst hk
      rw [List.map_cons, List.dlookup_cons_eq, List.dlookup_cons_eq]
      rfl
    · rw [List.map_cons, List.dlookup_cons_ne _ _ fun h => hk (ha.1 h.symm),
        List.dlookup_cons_ne _ _ (Ne.symm hk), ih ha.2]

theorem kerase_map {l : List (Σ _ : κ, ν)} {a : κ} (ha : ∀ e ∈ l, f e.1 = f a → e.1 = a) :
    (l.map fun e => (⟨f e.1, g e.2⟩ : Σ _ : κ', ν')).kerase (f a) =
      (l.kerase a).map fun e => ⟨f e.1, g e.2⟩ := by
  induction l with
  | nil => rfl
  | cons e l ih =>
    rw [List.forall_mem_cons] at ha
    by_cases hk : a = e.1
    · rw [List.map_cons, List.kerase_cons_eq (congrArg f hk), List.kerase_cons_eq hk]
    · rw [List.map_cons, List.kerase_cons_ne fun h => hk (ha.1 h.symm).symm,
        List.kerase_cons_ne hk, List.map_cons, ih ha.2]

/-- Looking up. -/
theorem lookup (h : Flattens f g s t) {a : κ} (ha : ∀ e ∈ s.entries, f e.1 = f a → e.1 = a) :
    t.lookup (f a) = (s.lookup a).map g := by
  have hlookup := @dlookup_map _ _ _ _ _ _ f g _ _ ha
  rw [← h] at hlookup
  exact hlookup

/-- Erasing a key. -/
theorem erase (h : Flattens f g s t) {a : κ} (ha : ∀ e ∈ s.entries, f e.1 = f a → e.1 = a) :
    Flattens f g (s.erase a) (t.erase (f a)) := by
  have herase := @kerase_map _ _ _ _ _ _ f g _ _ ha
  rw [← h] at herase
  exact herase

/-- Inserting. -/
theorem insert (h : Flattens f g s t) {a : κ} (ha : ∀ e ∈ s.entries, f e.1 = f a → e.1 = a)
    (b : ν) : Flattens f g (s.insert a b) (t.insert (f a) (g b)) :=
  congrArg (List.cons _) (h.erase ha)

omit [DecidableEq κ] in
/-- Erasing all keys that meet a condition, one by one. -/
theorem retain (h : Flattens f g s t) {p : (Σ _ : κ, ν) → Bool} {q : κ' → Bool}
    (hpq : ∀ e ∈ s.entries, p e = !q (f e.1)) :
    Flattens f g (retain s p) (eraseAll t ((t.entries.map Sigma.fst).filter q)) := by
  rw [Flattens, entries_eraseAll]
  have hq : ∀ e ∈ t.entries,
      decide (e.1 ∉ (t.entries.map Sigma.fst).filter q) = !q e.1 := by
    intro e he
    have hmem : e.1 ∈ t.entries.map Sigma.fst := List.mem_map_of_mem he
    cases hqe : q e.1 <;> simp only [List.mem_filter, hmem, hqe] <;> rfl
  rw [List.filter_congr hq, h, List.filter_map]
  exact congrArg (List.map _) (List.filter_congr fun e he => (hpq e he).symm)

end Flattens

end

end Shilpo.Theory
