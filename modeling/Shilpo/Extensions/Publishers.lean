import Shilpo.Extensions.Trust
import Shilpo.Theory.Connected

/-!
# Conflicts between publishers

`catalog_releases` marks all the releases of an extension if they come from more than one source, or
if `has_publisher_conflict` finds that their publishers do not follow from each other.

* `CatalogExtension.link` — the two keys that a release says follow each other;
* `CatalogExtension.HasKeys` — what a release names as keys are keys;
* `hasPublisherConflict_eq_false_iff` — there is no conflict exactly if every release has keys and
  all of them hang together, in whatever order the releases stand.
-/

namespace Shilpo.Extensions

open Theory

section

variable (crypto : Crypto)

/-- The fingerprint of the key that a release is signed with. -/
def CatalogExtension.currentKey (candidate : CatalogExtension) : Option String :=
  (crypto.fingerprint candidate.release.publisherPublicKey).toOption

/-- The keys that a release says follow each other: its own, and the one before. -/
def CatalogExtension.link (candidate : CatalogExtension) : Option (String × String) := do
  let rotation ← candidate.release.keyRotation
  let current ← candidate.currentKey crypto
  let previous ← (crypto.fingerprint rotation.previousPublicKey).toOption
  some (current, previous)

/-- What a release names as keys are keys. -/
def CatalogExtension.HasKeys (candidate : CatalogExtension) : Prop :=
  (candidate.currentKey crypto).isSome = true ∧ ∀ rotation ∈ candidate.release.keyRotation,
    ((crypto.fingerprint rotation.previousPublicKey).toOption).isSome = true

variable {crypto} {candidates : List CatalogExtension}

/-! ### The passes -/

/-- What a pass makes of one candidate. -/
def connectKey (crypto : Crypto) (connected : List String) (candidate : CatalogExtension) :
    Option (List String) := do
  let current ← (crypto.fingerprint candidate.release.publisherPublicKey).toOption
  match candidate.release.keyRotation with
  | none => some connected
  | some rotation => do
    let previous ← (crypto.fingerprint rotation.previousPublicKey).toOption
    if connected.contains current || connected.contains previous then
      some ((connected.insert current).insert previous)
    else some connected

theorem connectKeys_cons (candidate : CatalogExtension) (connected : List String) :
    connectKeys crypto (candidate :: candidates) connected =
      (connectKey crypto connected candidate).bind (connectKeys crypto candidates) := by
  unfold connectKeys
  rw [List.foldlM_cons]
  rfl

theorem connectKeys_of_hasKeys (h : ∀ candidate ∈ candidates, candidate.HasKeys crypto)
    (connected : List String) :
    connectKeys crypto candidates connected =
      some ((candidates.filterMap (·.link crypto)).foldl joinLink connected) := by
  induction candidates generalizing connected with
  | nil => rfl
  | cons candidate candidates ih =>
    obtain ⟨hcurrent, hprevious⟩ := h candidate List.mem_cons_self
    obtain ⟨current, hcurrent⟩ := Option.isSome_iff_exists.mp hcurrent
    have ih := ih fun other hother => h other (List.mem_cons_of_mem _ hother)
    rw [connectKeys_cons, List.filterMap_cons]
    have hread : (crypto.fingerprint candidate.release.publisherPublicKey).toOption =
        some current := hcurrent
    cases hrotation : candidate.release.keyRotation with
    | none =>
      have hlink : candidate.link crypto = none := by simp [CatalogExtension.link, hrotation]
      have hstep : connectKey crypto connected candidate = some connected := by
        simp [connectKey, hread, hrotation]
      rw [hlink, hstep]
      exact ih connected
    | some rotation =>
      obtain ⟨previous, hprevious⟩ := Option.isSome_iff_exists.mp (hprevious rotation hrotation)
      have hlink : candidate.link crypto = some (current, previous) := by
        simp [CatalogExtension.link, hrotation, hcurrent, hprevious]
      have hstep : connectKey crypto connected candidate =
          some (joinLink connected (current, previous)) := by
        simp only [connectKey, hread, hrotation, hprevious, Option.bind_eq_bind, Option.bind_some,
          joinLink]
        split <;> rfl
      rw [hlink, hstep]
      exact ih _

theorem connectKeys_of_not_hasKeys {candidate : CatalogExtension} (hmem : candidate ∈ candidates)
    (h : ¬ candidate.HasKeys crypto) (connected : List String) :
    connectKeys crypto candidates connected = none := by
  induction candidates generalizing connected with
  | nil => cases hmem
  | cons first candidates ih =>
    rw [connectKeys_cons]
    obtain rfl | hmem := List.mem_cons.mp hmem
    · have hnone : connectKey crypto connected candidate = none := by
        by_contra hsome
        obtain ⟨next, hnext⟩ := Option.ne_none_iff_exists'.mp hsome
        unfold connectKey at hnext
        obtain ⟨current, hcurrent, hnext⟩ := Option.bind_eq_some_iff.mp hnext
        refine h ⟨Option.isSome_iff_exists.mpr ⟨current, hcurrent⟩, fun rotation hrotation => ?_⟩
        rw [Option.mem_def] at hrotation
        rw [hrotation] at hnext
        obtain ⟨previous, hprevious, -⟩ := Option.bind_eq_some_iff.mp hnext
        exact Option.isSome_iff_exists.mpr ⟨previous, hprevious⟩
      rw [hnone, Option.bind_none]
    · cases connectKey crypto connected first with
      | none => rfl
      | some next => exact ih hmem next

theorem connectAll_of_hasKeys (h : ∀ candidate ∈ candidates, candidate.HasKeys crypto) (fuel : ℕ)
    (connected : List String) :
    connectAll crypto candidates fuel connected =
      some (joinAll (candidates.filterMap (·.link crypto)) fuel connected) := by
  induction fuel generalizing connected with
  | zero => rfl
  | succ fuel ih =>
    simp only [connectAll, joinAll, connectKeys_of_hasKeys h, Option.bind_eq_bind,
      Option.bind_some]
    split
    · rfl
    · exact ih _

theorem connectAll_of_not_hasKeys {candidate : CatalogExtension} (hmem : candidate ∈ candidates)
    (h : ¬ candidate.HasKeys crypto) (fuel : ℕ) (connected : List String) :
    connectAll crypto candidates (fuel + 1) connected = none := by
  rw [connectAll, connectKeys_of_not_hasKeys hmem h]
  rfl

/-! ### The publishers' keys -/

/-- A list is mapped if each of its elements is. -/
theorem mapM_eq_some {α β : Type} {f : α → Option β} {l : List α} {k : List β} :
    l.mapM f = some k ↔ l.map f = k.map some := by
  induction l generalizing k with
  | nil => cases k <;> simp
  | cons a l ih =>
    rw [List.mapM_cons]
    cases ha : f a with
    | none => cases k <;> simp [ha]
    | some b =>
      cases hl : l.mapM f with
      | none =>
        cases k with
        | nil => simp
        | cons c k =>
          have hne : ¬ l.map f = k.map some := fun heq => by
            rw [ih.mpr heq] at hl
            cases hl
          simp [ha, hne]
      | some m =>
        cases k with
        | nil => simp
        | cons c k =>
          have hm : m = k ↔ l.map f = k.map some := by
            rw [← ih, hl, Option.some.injEq]
          simp [ha, hm]

theorem exists_keys (h : ∀ candidate ∈ candidates, candidate.HasKeys crypto) :
    ∃ keys : List String, candidates.map (·.currentKey crypto) = keys.map some := by
  induction candidates with
  | nil => exact ⟨[], rfl⟩
  | cons candidate candidates ih =>
    obtain ⟨current, hcurrent⟩ :=
      Option.isSome_iff_exists.mp (h candidate List.mem_cons_self).1
    obtain ⟨keys, hkeys⟩ := ih fun other hother => h other (List.mem_cons_of_mem _ hother)
    exact ⟨current :: keys, by simp [hcurrent, hkeys]⟩

/-- The passes come to an end with what the first key hangs together with. -/
theorem mem_joinAll_links (first key : String) :
    key ∈ joinAll (candidates.filterMap (·.link crypto)) (2 * candidates.length + 1) [first] ↔
      Relation.ReflTransGen (Linked (candidates.filterMap (·.link crypto))) first key := by
  let links := candidates.filterMap (·.link crypto)
  let ends := links.flatMap fun link => [link.1, link.2]
  have hends : ends.length ≤ 2 * candidates.length := by
    have hlinks : links.length ≤ candidates.length := List.length_filterMap_le _ _
    have hflat : ends.length = 2 * links.length := by
      simp [ends, List.length_flatMap, Nat.mul_comm]
    omega
  have hcard : (first :: ends).toFinset.card ≤ 1 + 2 * candidates.length := by
    have := List.toFinset_card_le (first :: ends)
    rw [List.length_cons] at this
    omega
  rw [mem_joinAll (first :: ends).toFinset _ (List.nodup_singleton _)]
  · simp
  · intro a ha
    rw [List.mem_singleton.mp ha]
    exact List.mem_toFinset.mpr List.mem_cons_self
  · intro link hlink
    have hmem : ∀ a ∈ [link.1, link.2], a ∈ (first :: ends).toFinset := fun a ha =>
      List.mem_toFinset.mpr (List.mem_cons_of_mem _ (List.mem_flatMap.mpr ⟨link, hlink, ha⟩))
    exact ⟨hmem _ (by simp), hmem _ (by simp)⟩
  · rw [List.length_singleton]
    omega

variable (crypto candidates)

/-- **No conflict between publishers**: what the releases name as keys are keys, and each release's
own key hangs together with every other's, over the keys that the releases say follow each other. -/
theorem hasPublisherConflict_eq_false_iff :
    hasPublisherConflict crypto candidates = false ↔
      (∀ candidate ∈ candidates, candidate.HasKeys crypto) ∧
      ∀ a ∈ candidates, ∀ b ∈ candidates, ∀ x ∈ a.currentKey crypto, ∀ y ∈ b.currentKey crypto,
        Relation.ReflTransGen (Linked (candidates.filterMap (·.link crypto))) x y := by
  by_cases hall : ∀ candidate ∈ candidates, candidate.HasKeys crypto
  · obtain ⟨keys, hkeys⟩ := exists_keys hall
    have hread : candidates.mapM (fun entry : CatalogExtension =>
        (crypto.fingerprint entry.release.publisherPublicKey).toOption) = some keys :=
      mapM_eq_some.mpr hkeys
    have hmem : ∀ key, key ∈ keys ↔ ∃ candidate ∈ candidates, key ∈ candidate.currentKey crypto := by
      intro key
      have hsome : some key ∈ candidates.map (·.currentKey crypto) ↔ some key ∈ keys.map some := by
        rw [hkeys]
      simpa using hsome.symm
    simp only [hasPublisherConflict, hread]
    cases hfirst : keys.min? with
    | none =>
      have hnil : keys = [] := List.min?_eq_none_iff.mp hfirst
      refine iff_of_true rfl ⟨hall, fun a ha _ _ x hx => ?_⟩
      have hx := (hmem x).mpr ⟨a, ha, hx⟩
      rw [hnil] at hx
      cases hx
    | some first =>
      have hfirst : first ∈ keys := List.min?_mem hfirst
      obtain ⟨c, hc, hcfirst⟩ := (hmem first).mp hfirst
      simp only [connectAll_of_hasKeys hall, List.any_eq_false, Bool.not_eq_true',
        Bool.not_eq_false, List.contains_iff_mem, mem_joinAll_links]
      constructor
      · refine fun h => ⟨hall, fun a ha b hb x hx y hy => ?_⟩
        have hxfirst := reached_symm (h x ((hmem x).mpr ⟨a, ha, hx⟩))
        exact hxfirst.trans (h y ((hmem y).mpr ⟨b, hb, hy⟩))
      · rintro ⟨-, h⟩ key hkey
        obtain ⟨b, hb, hy⟩ := (hmem key).mp hkey
        exact h c hc b hb first hcfirst key hy
  · refine iff_of_false ?_ fun h => hall h.1
    push Not at hall
    obtain ⟨candidate, hcandidate, hnot⟩ := hall
    simp only [hasPublisherConflict]
    cases hread : candidates.mapM fun entry : CatalogExtension =>
        (crypto.fingerprint entry.release.publisherPublicKey).toOption with
    | none => simp
    | some keys =>
      have hkeys := mapM_eq_some.mp hread
      cases hfirst : keys.min? with
      | none =>
        rw [List.min?_eq_none_iff.mp hfirst] at hkeys
        rw [List.map_eq_nil_iff.mp hkeys] at hcandidate
        cases hcandidate
      | some first =>
        simp [hfirst, connectAll_of_not_hasKeys hcandidate hnot]

end

end Shilpo.Extensions
