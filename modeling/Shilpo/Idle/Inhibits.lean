import Shilpo.Idle.Invariants

/-!
# Inhibitors and actions

`handle_backend_event` checks the inhibitors before it fires a behaviour or starts
a grace overlay, and nothing checks them when the overlay ends. So an inhibitor that
arrives while an overlay fades does not stop the overlay's behaviours:
`caffeine_during_grace` locks the screen under one.

`executed_uninhibited_iff` says when a run makes no call under an inhibitor: exactly
when each overlay that ends by itself, by its report or by the fallback timer, ends
while none is held.
-/

namespace Shilpo.Idle

open Shilpo.Domain Shilpo.Theory IdleDomainState

variable {s : IdleDomainState}

/-! ### A behaviour fires under an inhibitor -/

/-- The screen is about to be locked, caffeine is switched on, and the overlay's time runs out. -/
def caffeineDuringGrace : List Op := [
  .call .beginStart, .call (.markReady 10),
  .call (.handleBackendEvent (.idled 1) 20),
  .call (.submitCommand (.addInhibit .caffeine)), .processPendingCommands,
  .call (.tick 5000)]

set_option maxRecDepth 4000 in
/-- **An inhibitor does not stop a grace overlay**: the screen is locked while caffeine is held. -/
theorem caffeine_during_grace :
    (run step (new 8 .connected fun _ => true) caffeineDuringGrace).executed =
      [⟨"lock", .lock, false, some 1, [.caffeine]⟩] ∧
    ¬ ∀ call ∈ (run step (new 8 .connected fun _ => true) caffeineDuringGrace).executed,
      call.inhibitSources = [] := by decide

/-! ### When no behaviour does -/

/-- A grace overlay ends in this step, by its report or by the fallback timer, only while no
inhibitor is held. -/
def GraceEndsUninhibited (s : IdleDomainState) : Micro → Prop
  | .call (.tick nowMs) =>
    s.inner.supervisor.restarts nowMs = false → (timedOutGrace s.inner nowMs).isSome →
      s.inner.inhibitSources = []
  | .item ⟨_, .reportGraceCompleted graceGeneration, generation⟩ =>
    generation = s.inner.version.ownerGeneration → (completedGrace s.inner graceGeneration).isSome →
      s.inner.inhibitSources = []
  | _ => True

/-- Behaviours that are configured are called for, each under the inhibitors held. -/
theorem callsFor_uninhibited_iff {g : InnerState} {names : List String} (hne : names ≠ [])
    (hconf : ∀ name ∈ names, (g.behaviors.get name).isSome) (grace : Option ℕ) :
    (∀ call ∈ callsFor g names grace, call.inhibitSources = []) ↔ g.inhibitSources = [] := by
  constructor
  · intro h
    obtain ⟨name, hname⟩ := List.exists_mem_of_ne_nil names hne
    obtain ⟨cfg, hcfg⟩ := Option.isSome_iff_exists.mp (hconf name hname)
    exact h ⟨name, cfg.action, cfg.lockBeforeSuspend, grace, g.inhibitSources⟩
      (List.mem_filterMap.mpr ⟨name, hname, by rw [hcfg]; rfl⟩)
  · intro h call hcall
    obtain ⟨name, -, hc⟩ := List.mem_filterMap.mp hcall
    obtain ⟨cfg, -, rfl⟩ := Option.map_eq_some_iff.mp hc
    exact h

/-- The same for what an active overlay fires. -/
theorem WF.grace_uninhibited_iff {g : InnerState} (hwf : WF g) {grace : ActiveGraceInfo}
    (hg : g.activeGrace = some grace) (tag : Option ℕ) :
    (∀ call ∈ callsFor g grace.behaviors tag, call.inhibitSources = []) ↔ g.inhibitSources = [] :=
  have ⟨_, hne, hconf⟩ := hwf.grace grace hg
  callsFor_uninhibited_iff hne hconf tag

/-- **What one step calls is called under no inhibitor exactly when `GraceEndsUninhibited`
holds.** -/
theorem calls_uninhibited_iff (hwf : WF s.inner) (u : Micro) :
    (∀ call ∈ calls s u, call.inhibitSources = []) ↔ GraceEndsUninhibited s u := by
  match u with
  | .call (.tick nowMs) =>
    simp only [calls, firing, GraceEndsUninhibited]
    by_cases hr : s.inner.supervisor.restarts nowMs
    · simp [hr, callsOf]
    cases ht : timedOutGrace s.inner nowMs with
    | none => simp [callsOf]
    | some grace =>
      simpa [hr, callsOf] using hwf.grace_uninhibited_iff (activeGrace_of_timedOutGrace ht) _
  | .call (.handleBackendEvent (.idled id) nowMs) =>
    simp only [calls, firing, GraceEndsUninhibited, iff_true]
    split_ifs with h
    · simp [callsOf]
    · -- the only path that checks: it gets here under no inhibitor
      have hi : s.inner.inhibitSources = [] := by by_contra hi; exact h (.inr (.inl hi))
      cases s.inner.behaviorIdMap.lookup id <;> simp +contextual [callsOf, callsFor, hi]
  | .item ⟨ticket, command, generation⟩ =>
    simp only [calls, firing]
    by_cases hg : generation = s.inner.version.ownerGeneration
    · cases command with
      | reportGraceCompleted graceGeneration =>
        simp only [hg, ne_eq, not_true_eq_false, if_false, commandFiring, GraceEndsUninhibited]
        cases hc : completedGrace s.inner graceGeneration with
        | none => simp [callsOf]
        | some grace =>
          simpa [callsOf] using hwf.grace_uninhibited_iff (activeGrace_of_completedGrace hc).1 _
      | _ => simp [hg, commandFiring, callsOf, GraceEndsUninhibited]
    · cases command <;> simp [hg, callsOf, GraceEndsUninhibited]
  | .call (.handleBackendEvent (.resumed _) _) | .call (.submitCommand _) | .call .resetQuarantine
  | .call .beginStart | .call (.markReady _) | .call (.reportOwnerFailure _ _)
  | .call (.setAvailable _)
  | .call (.setHandlers _) | .take => simp [calls, firing, callsOf, GraceEndsUninhibited]

/-- **A run makes no call under an inhibitor exactly when each of its grace overlays that ends
by its report or by the fallback timer ends while none is held.** -/
theorem executed_uninhibited_iff (capacity : ℕ) (backend : Backend)
    (hasHandlerFor : IdleAction → Bool) (ops : List Op) :
    (∀ call ∈ (run step (new capacity backend hasHandlerFor) ops).executed,
      call.inhibitSources = []) ↔
      Along micro GraceEndsUninhibited (new capacity backend hasHandlerFor)
        (expand step unfold (new capacity backend hasHandlerFor) ops) := by
  have hstep : ∀ s u, WF s.inner → ((∀ call ∈ (micro s u).executed, call.inhibitSources = []) ↔
      (∀ call ∈ s.executed, call.inhibitSources = []) ∧ GraceEndsUninhibited s u) := by
    intro s u hwf
    rw [executed_micro, List.forall_mem_append, calls_uninhibited_iff hwf u]
  rw [← run_expand step_eq_run_unfold,
    run_iff_along (P := fun s => ∀ call ∈ s.executed, call.inhibitSources = []) wf_micro hstep
      (wf_new capacity backend hasHandlerFor)]
  simp [new, recomputeUnsupportedActionsLocked, publishSnapshotLocked]

end Shilpo.Idle
