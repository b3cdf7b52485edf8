import Mathlib

/-!
# What hangs together

A set that grows by passes over a list of links: a link with one end in the set brings in the
other. When a pass adds nothing, the set holds what the links join to what it held at first, and
so it does after as many passes as there are ends.

* `Linked` — a link joins two things, whichever way round it stands;
* `joinAll` — the passes, until one adds nothing;
* `mem_joinAll` — what is in the set then.
-/

namespace Shilpo.Theory

universe u

variable {α : Type u}

/-- A link joins two things. -/
def Linked (links : List (α × α)) (a b : α) : Prop := (a, b) ∈ links ∨ (b, a) ∈ links

theorem Linked.symm {links : List (α × α)} {a b : α} (h : Linked links a b) : Linked links b a :=
  Or.symm h

/-- What hangs together does so either way. -/
theorem reached_symm {links : List (α × α)} {a b : α}
    (h : Relation.ReflTransGen (Linked links) a b) : Relation.ReflTransGen (Linked links) b a := by
  induction h with
  | refl => exact .refl
  | tail _ hlinked ih => exact .head hlinked.symm ih

variable [DecidableEq α]

/-- Both ends of a link are brought in if one of them is there. -/
def joinLink (connected : List α) (link : α × α) : List α :=
  if connected.contains link.1 || connected.contains link.2 then
    (connected.insert link.1).insert link.2
  else connected

/-- The passes, until one adds nothing. -/
def joinAll (links : List (α × α)) : ℕ → List α → List α
  | 0, connected => connected
  | fuel + 1, connected =>
    let next := links.foldl joinLink connected
    if next.length = connected.length then next else joinAll links fuel next

variable {links : List (α × α)} {connected : List α} {link : α × α} {x : α}

/-! ### A link -/

theorem mem_joinLink : x ∈ joinLink connected link ↔
    x ∈ connected ∨ (link.1 ∈ connected ∨ link.2 ∈ connected) ∧ (x = link.1 ∨ x = link.2) := by
  unfold joinLink
  split
  · next h =>
    simp only [Bool.or_eq_true, List.contains_iff_mem] at h
    simp only [List.mem_insert_iff]
    constructor
    · rintro (hx | hx | hx)
      · exact .inr ⟨h, .inr hx⟩
      · exact .inr ⟨h, .inl hx⟩
      · exact .inl hx
    · rintro (hx | ⟨-, hx | hx⟩)
      · exact .inr (.inr hx)
      · exact .inr (.inl hx)
      · exact .inl hx
  · next h =>
    simp only [Bool.or_eq_true, List.contains_iff_mem] at h
    constructor
    · exact .inl
    · rintro (hx | ⟨hjoins, -⟩)
      · exact hx
      · exact absurd hjoins h

theorem suffix_joinLink : connected <:+ joinLink connected link := by
  unfold joinLink
  split
  · exact (List.suffix_insert _ _).trans (List.suffix_insert _ _)
  · exact List.suffix_rfl

theorem nodup_joinLink (h : connected.Nodup) : (joinLink connected link).Nodup := by
  unfold joinLink
  split
  · exact h.insert.insert
  · exact h

/-! ### A pass -/

theorem suffix_foldl_joinLink : connected <:+ links.foldl joinLink connected := by
  induction links generalizing connected with
  | nil => exact List.suffix_rfl
  | cons link links ih => exact suffix_joinLink.trans ih

theorem nodup_foldl_joinLink (h : connected.Nodup) : (links.foldl joinLink connected).Nodup := by
  induction links generalizing connected with
  | nil => exact h
  | cons link links ih => exact ih (nodup_joinLink h)

/-- What a pass brings in is an end of a link. -/
theorem mem_or_end_of_mem_foldl (h : x ∈ links.foldl joinLink connected) :
    x ∈ connected ∨ ∃ link ∈ links, x = link.1 ∨ x = link.2 := by
  induction links generalizing connected with
  | nil => exact .inl h
  | cons link links ih =>
    obtain hx | ⟨other, hother, hx⟩ := ih h
    · obtain hx | ⟨-, hx⟩ := mem_joinLink.mp hx
      · exact .inl hx
      · exact .inr ⟨link, List.mem_cons_self, hx⟩
    · exact .inr ⟨other, List.mem_cons_of_mem _ hother, hx⟩

/-- What a pass brings in is joined to what was there. -/
theorem reached_of_mem_foldl {all : List (α × α)} (hall : links ⊆ all)
    (h : x ∈ links.foldl joinLink connected) :
    ∃ y ∈ connected, Relation.ReflTransGen (Linked all) y x := by
  induction links generalizing connected with
  | nil => exact ⟨x, h, .refl⟩
  | cons link links ih =>
    obtain ⟨y, hy, hreach⟩ := ih (fun _ hl => hall (List.mem_cons_of_mem _ hl)) h
    obtain hy | ⟨hjoins, hy⟩ := mem_joinLink.mp hy
    · exact ⟨y, hy, hreach⟩
    · have hlink : Linked all link.1 link.2 := .inl (hall List.mem_cons_self)
      -- from the end that was there, over the link if need be
      obtain ⟨z, hz, hzy⟩ : ∃ z ∈ connected, Relation.ReflTransGen (Linked all) z y := by
        obtain hz | hz := hjoins <;> obtain rfl | rfl := hy
        · exact ⟨_, hz, .refl⟩
        · exact ⟨_, hz, .single hlink⟩
        · exact ⟨_, hz, .single hlink.symm⟩
        · exact ⟨_, hz, .refl⟩
      exact ⟨z, hz, hzy.trans hreach⟩

/-- Where a pass adds nothing, no link of it does. -/
theorem joinLink_eq_of_foldl_eq (h : links.foldl joinLink connected = connected)
    (hlink : link ∈ links) : joinLink connected link = connected := by
  induction links with
  | nil => cases hlink
  | cons first links ih =>
    have hfirst : joinLink connected first = connected := by
      have hle : (links.foldl joinLink (joinLink connected first)).length ≤ connected.length := by
        rw [← List.foldl_cons, h]
      exact (suffix_joinLink.eq_of_length_le
        (suffix_foldl_joinLink.length_le.trans hle)).symm
    obtain rfl | hlink := List.mem_cons.mp hlink
    · exact hfirst
    · rw [List.foldl_cons, hfirst] at h
      exact ih h hlink

/-- A set to which a pass adds nothing holds what is joined to it. -/
theorem mem_of_reached (h : links.foldl joinLink connected = connected) {y : α}
    (hy : y ∈ connected) (hreach : Relation.ReflTransGen (Linked links) y x) : x ∈ connected := by
  induction hreach with
  | refl => exact hy
  | tail _ hlinked ih =>
    obtain hlink | hlink := hlinked
    · rw [← joinLink_eq_of_foldl_eq h hlink]
      exact mem_joinLink.mpr (.inr ⟨.inl ih, .inr rfl⟩)
    · rw [← joinLink_eq_of_foldl_eq h hlink]
      exact mem_joinLink.mpr (.inr ⟨.inr ih, .inl rfl⟩)

/-! ### All passes -/

/-- **What hangs together** with the set at first is in it in the end, and nothing else, if there
are more passes than there is left to bring in. -/
theorem mem_joinAll (bound : Finset α) (fuel : ℕ) (hnodup : connected.Nodup)
    (hbound : ∀ a ∈ connected, a ∈ bound)
    (hends : ∀ link ∈ links, link.1 ∈ bound ∧ link.2 ∈ bound)
    (hfuel : bound.card < connected.length + fuel) :
    x ∈ joinAll links fuel connected ↔
      ∃ y ∈ connected, Relation.ReflTransGen (Linked links) y x := by
  induction fuel generalizing connected with
  | zero =>
    have hcard : connected.length ≤ bound.card := by
      rw [← List.toFinset_card_of_nodup hnodup]
      exact Finset.card_le_card fun a ha => hbound a (List.mem_toFinset.mp ha)
    omega
  | succ fuel ih =>
    have hsuffix : connected <:+ links.foldl joinLink connected := suffix_foldl_joinLink
    have hlength := hsuffix.length_le
    simp only [joinAll]
    split
    · next hsame =>
      have hfixed : links.foldl joinLink connected = connected :=
        (hsuffix.eq_of_length hsame.symm).symm
      rw [hfixed]
      constructor
      · exact fun hx => ⟨x, hx, .refl⟩
      · rintro ⟨y, hy, hreach⟩
        exact mem_of_reached hfixed hy hreach
    · next hgrown =>
      rw [ih (nodup_foldl_joinLink hnodup) ?_ (by omega)]
      · constructor
        · rintro ⟨y, hy, hreach⟩
          obtain ⟨z, hz, hzy⟩ := reached_of_mem_foldl (List.Subset.refl links) hy
          exact ⟨z, hz, hzy.trans hreach⟩
        · rintro ⟨y, hy, hreach⟩
          exact ⟨y, hsuffix.subset hy, hreach⟩
      · intro a ha
        obtain ha | ⟨link, hlink, rfl | rfl⟩ := mem_or_end_of_mem_foldl ha
        · exact hbound a ha
        · exact (hends link hlink).1
        · exact (hends link hlink).2

end Shilpo.Theory
