import Shilpo.Auth.Versions
import Shilpo.Idle.Versions

/-!
# Revisioned snapshots

What subscribers of the idle and of the authentication domain can rely on: versions
never go back, and two successive snapshots that differ have different versions
exactly as long as the operations that publish without a new revision have nothing
new to say. The first start of either domain already has: `ready_under_same_version`.
-/

namespace Shilpo

open Domain Theory

universe u v

/-- **Both domains' versions never go back, and their runs publish revisioned snapshots exactly when
no operation that publishes without a new revision has anything new to say.** -/
theorem snapshots_revisioned_iff (idleCapacity : ℕ) (backend : Idle.Backend)
    (hasHandlerFor : Idle.IdleAction → Bool) (idleOps : List Idle.IdleDomainState.Op)
    {W : Type u} {S : Type v} (helper : Auth.AuthHelper W S) (authCapacity : ℕ) (world : W)
    (authOps : List (Auth.AuthDomainState.Op W)) :
    let idle := Idle.IdleDomainState.new idleCapacity backend hasHandlerFor
    let auth : Auth.AuthDomainState W S := .new authCapacity world
    let idleRun := run Idle.IdleDomainState.step idle idleOps
    let authRun := run (Auth.AuthDomainState.step helper) auth authOps
    (idleRun.published.IsChain fun a b => a.version ≤ b.version) ∧
    (Revisioned (·.version) (·.content) idleRun.published ↔
      Along Idle.IdleDomainState.micro Idle.NothingNew idle
        (expand Idle.IdleDomainState.step Idle.IdleDomainState.unfold idle idleOps)) ∧
    (authRun.published.IsChain fun a b => a.version ≤ b.version) ∧
    (Revisioned (·.version) (·.content) authRun.published ↔
      Along (Auth.AuthDomainState.micro helper) Auth.NothingNew auth
        (expand (Auth.AuthDomainState.step helper) Auth.AuthDomainState.unfold auth authOps)) := by
  intro idle auth idleRun authRun
  have hidle : Idle.Synced idle := ⟨_, _, rfl⟩
  have hauth : Auth.Synced auth := rfl
  have hidleRun : idleRun = run _ idle _ :=
    (run_expand Idle.IdleDomainState.step_eq_run_unfold idle idleOps).symm
  have hauthRun : authRun = run _ auth _ :=
    (run_expand (Auth.AuthDomainState.step_eq_run_unfold helper) auth authOps).symm
  rw [hidleRun, hauthRun]
  refine ⟨Idle.publishes.versions_sorted hidle ?_ _, ?_,
    (Auth.publishes helper).versions_sorted hauth ?_ _, ?_⟩
  · exact List.isChain_singleton _
  · rw [Idle.publishes.revisioned_iff hidle]
    exact and_iff_right (List.isChain_singleton _)
  · exact List.isChain_singleton _
  · rw [(Auth.publishes helper).revisioned_iff hauth]
    exact and_iff_right (List.isChain_singleton _)

/-- **A domain becomes ready under the version that said it was connecting.** -/
theorem ready_under_same_version :
    let idle := run Idle.IdleDomainState.step (.new 8 .connected fun _ => true)
      [.call .beginStart, .call (.markReady 10)]
    let auth := run (Auth.AuthDomainState.step Auth.scriptedHelper) (.new 8 [])
      [.call .beginStart, .call (.markReady 10)]
    idle.published.map (fun snap => (snap.version, snap.lifecycle)) =
        [(⟨0, 0⟩, .unavailable), (⟨1, 0⟩, .connecting), (⟨1, 0⟩, .ready)] ∧
      ¬ Revisioned (·.version) (·.content) idle.published ∧
      auth.published.map (fun snap => (snap.version, snap.lifecycle)) =
        [(⟨0, 0⟩, .unavailable), (⟨1, 0⟩, .connecting), (⟨1, 0⟩, .ready)] ∧
      ¬ Revisioned (·.version) (·.content) auth.published := by
  unfold Revisioned
  decide

end Shilpo
