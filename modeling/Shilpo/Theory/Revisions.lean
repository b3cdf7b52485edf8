import Shilpo.Theory.Runs

/-!
# Revisioned publications

A machine publishes snapshots, each with a version. `Revisioned` is what a subscriber
relies on to tell a new snapshot from an old one: versions do not go back, and a
snapshot that says something new has a greater one. `Publishes` says of a machine that
a step publishes nothing, or one snapshot not older than the last, and when the step
keeps to the rule; then a run keeps to it exactly when all its steps do
(`Publishes.revisioned_iff`), and its versions never go back (`Publishes.versions_sorted`).

`Follows` is the rule for two snapshots. It goes from one to the next, so that it holds of any two
that have been published (`revisioned_iff_pairwise`).
-/

namespace Shilpo.Theory

universe u v w x y

variable {σ : Type u} {α : Type v} {Snap : Type w} {V : Type x} {Content : Type y} [LinearOrder V]

/-- Versions do not go back, and of two successive snapshots that differ in content the later has
the greater version. -/
def Revisioned (version : Snap → V) (content : Snap → Content) (published : List Snap) : Prop :=
  published.IsChain fun a b => version a ≤ version b ∧
    (content a ≠ content b → version a < version b)

/-- The rule for two snapshots, of which the second is the later. -/
def Follows (version : Snap → V) (content : Snap → Content) (a b : Snap) : Prop :=
  version a ≤ version b ∧ (content a ≠ content b → version a < version b)

theorem follows_iff {version : Snap → V} {content : Snap → Content} {a b : Snap} :
    Follows version content a b ↔
      version a < version b ∨ version a = version b ∧ content a = content b := by
  constructor
  · rintro ⟨hle, hlt⟩
    by_cases hcontent : content a = content b
    · exact hle.lt_or_eq.imp_right fun heq => ⟨heq, hcontent⟩
    · exact .inl (hlt hcontent)
  · rintro (hlt | ⟨heq, hcontent⟩)
    · exact ⟨hlt.le, fun _ => hlt⟩
    · exact ⟨heq.le, fun hne => absurd hcontent hne⟩

theorem Follows.trans {version : Snap → V} {content : Snap → Content} {a b c : Snap}
    (h : Follows version content a b) (hc : Follows version content b c) :
    Follows version content a c := by
  refine ⟨h.1.trans hc.1, fun hne => ?_⟩
  by_cases hab : content a = content b
  · exact h.1.trans_lt (hc.2 (hab ▸ hne))
  · exact (h.2 hab).trans_le hc.1

/-- Any two snapshots that have been published keep to the rule. -/
theorem revisioned_iff_pairwise {version : Snap → V} {content : Snap → Content}
    {published : List Snap} : Revisioned version content published ↔
      published.Pairwise (Follows version content) := by
  have : Trans (Follows version content) (Follows version content) (Follows version content) :=
    ⟨fun h hc => h.trans hc⟩
  change published.IsChain (Follows version content) ↔ _
  exact List.isChain_iff_pairwise

/-- A machine whose steps publish at most one snapshot each, not older than the last, and keep to
the rule exactly where they meet `C`. -/
structure Publishes (step : σ → α → σ) (I : σ → Prop) (published : σ → List Snap)
    (version : Snap → V) (content : Snap → Content) (C : σ → α → Prop) : Prop where
  /-- The invariant is kept. -/
  inv : Preserved step I
  /-- What a step publishes. -/
  publishes : ∀ s a, I s → published (step s a) = published s ∧ C s a ∨
    ∃ last next, (published s).getLast? = some last ∧ published (step s a) = published s ++ [next] ∧
      version last ≤ version next ∧ ((content last ≠ content next → version last < version next) ↔
        C s a)

variable {step : σ → α → σ} {I : σ → Prop} {published : σ → List Snap} {version : Snap → V}
  {content : Snap → Content} {C : σ → α → Prop}

theorem isChain_append_singleton {R : Snap → Snap → Prop} {snaps : List Snap} {last next : Snap}
    (h : snaps.getLast? = some last) :
    (snaps ++ [next]).IsChain R ↔ snaps.IsChain R ∧ R last next := by
  simp [List.isChain_append, h]

/-- One more snapshot. -/
theorem revisioned_append_iff {snaps : List Snap} {last next : Snap}
    (h : snaps.getLast? = some last) : Revisioned version content (snaps ++ [next]) ↔
      Revisioned version content snaps ∧ Follows version content last next :=
  isChain_append_singleton h

/-- **Versions never go back.** -/
theorem Publishes.versions_sorted (h : Publishes step I published version content C) {s : σ}
    (hs : I s) (hsorted : (published s).IsChain fun a b => version a ≤ version b) (as : List α) :
    (published (run step s as)).IsChain fun a b => version a ≤ version b := by
  have hstep : Preserved step fun s =>
      I s ∧ (published s).IsChain fun a b => version a ≤ version b := by
    rintro s a ⟨hs, hsorted⟩
    refine ⟨h.inv s a hs, ?_⟩
    rcases h.publishes s a hs with ⟨hp, -⟩ | ⟨last, next, hlast, hp, hle, -⟩
    · rwa [hp]
    · rw [hp, isChain_append_singleton hlast]
      exact ⟨hsorted, hle⟩
  exact (hstep.holds ⟨hs, hsorted⟩ as).2

/-- **A run keeps to the rule exactly when all its steps do.** -/
theorem Publishes.revisioned_iff (h : Publishes step I published version content C) {s : σ}
    (hs : I s) (as : List α) :
    Revisioned version content (published (run step s as)) ↔
      Revisioned version content (published s) ∧ Along step C s as := by
  refine run_iff_along (P := fun s => Revisioned version content (published s)) h.inv
    ?_ hs as
  intro s a hs
  rcases h.publishes s a hs with ⟨hp, hC⟩ | ⟨last, next, hlast, hp, hle, hC⟩
  · simp [hp, hC]
  · rw [hp, revisioned_append_iff hlast, Follows, hC]
    tauto

end Shilpo.Theory
