import Shilpo.Auth.Prompt
import Shilpo.Theory.Revisions

/-!
# The versions of the authentication domain's snapshots

Most of the domain's operations publish under the next revision. `mark_ready`,
`report_owner_failure` and `reset_quarantine` publish under the one they find: what
they say differently carries the version of what was said before.
-/

namespace Shilpo.Auth

open Shilpo.Domain Shilpo.Theory AuthDomainState

universe u v

variable {W : Type u} {S : Type v} {helper : AuthHelper W S} {s : AuthDomainState W S}

/-- A snapshot without its version. -/
def AuthSnapshot.content (snap : AuthSnapshot) : AuthSnapshot := { snap with version := .zero }

/-- An operation that publishes without a new revision has nothing new to say. -/
def NothingNew (s : AuthDomainState W S) : Micro W → Prop
  | .call (.markReady _) => s.inner.lifecycle = .ready ∧ s.inner.lastError = none
  | .call (.reportOwnerFailure error nowMs) =>
    s.inner.lastError = some error ∧
      s.inner.lifecycle =
        failedLifecycle (s.inner.supervisor.recordFailure nowMs).state s.inner.hadPriorReadiness
  | .call .resetQuarantine =>
    s.inner.supervisor.state = .quarantined →
    s.inner.lifecycle = startingLifecycle s.inner.hadPriorReadiness
  | _ => True

/-- What is published last is what the mutex guards. -/
def Synced (s : AuthDomainState W S) : Prop := s.published.getLast? = some (snapshotFrom s.inner)

/-- What a step to `s'` publishes: nothing, with nothing to say; a snapshot under a new version; or
one under the version there was, which says nothing new exactly when `ok`. -/
inductive Publication (s s' : AuthDomainState W S) (ok : Prop) : Prop where
  | silent (hok : ok) (hp : s'.published = s.published)
      (hs : snapshotFrom s'.inner = snapshotFrom s.inner)
  | bumped (hok : ok) (hp : s'.published = s.published ++ [snapshotFrom s'.inner])
    (hv : s.inner.version < s'.inner.version)
  | repeated (hp : s'.published = s.published ++ [snapshotFrom s'.inner])
    (hv : s'.inner.version = s.inner.version)
    (hok : (snapshotFrom s.inner).content = (snapshotFrom s'.inner).content ↔ ok)

theorem publication_applied {s' : AuthDomainState W S} (hp : s'.published = s.published)
    (hv : s'.inner.version = s.inner.version) (ticket : ℕ) :
    Publication s (s'.applied ticket) True :=
  .bumped trivial (by simp [applied, resolve, publishSnapshotLocked, bumpRevision, hp])
    (by simp [applied, resolve, bumpRevision, hv])

@[simp] theorem version_applyHelperEvent (g : InnerState) (session : ActiveSession S)
    (event : AuthHelperEvent)
    (nowMs : ℕ) : (applyHelperEvent g session event nowMs).1.version = g.version := by
  cases event <;> rfl

theorem beginAuthentication_frame (helper : AuthHelper W S) (s : AuthDomainState W S)
    (service : String) (nowMs : ℕ) :
    (s.beginAuthentication helper service nowMs).published = s.published ∧
      (s.beginAuthentication helper service nowMs).inner.version = s.inner.version := by
  simp only [beginAuthentication]
  split
  · next helperSession world _ =>
    cases (helper.tryRecvEvent world helperSession).1 <;> simp
  · simp

theorem publication_applyCommand (s : AuthDomainState W S) (ticket nowMs : ℕ)
    (command : AuthCommand) :
    Publication s (s.applyCommand helper ticket nowMs command) True := by
  cases command with
  | beginAuthentication service =>
    have h := beginAuthentication_frame helper s service nowMs
    exact publication_applied h.1 h.2 ticket
  | provideResponse response =>
    simp only [applyCommand, provideResponse]
    split
    · exact .silent trivial rfl rfl
    · apply publication_applied <;> rfl
  | cancelAuthentication => exact publication_applied (by simp) (by simp) ticket
  | resetQuarantine => apply publication_applied <;> rfl

theorem publication_tick (s : AuthDomainState W S) (nowMs : ℕ) :
    Publication s (s.tick helper nowMs) True := by
  simp only [tick]
  split
  · exact .bumped trivial rfl (by simp [bumpRevision])
  · exact .bumped trivial (by simp [publishSnapshotLocked, bumpRevision]) (by simp [bumpRevision])
  · exact .silent trivial rfl rfl

theorem publication_pollActiveHelperEvent (s : AuthDomainState W S) (nowMs : ℕ) :
    Publication s (s.pollActiveHelperEvent helper nowMs).2 True := by
  simp only [pollActiveHelperEvent]
  split
  · exact .silent trivial rfl rfl
  · split
    · exact .silent trivial rfl rfl
    · simp only
      split_ifs <;> exact .bumped trivial rfl (by simp [bumpRevision])

/-- **What each step publishes.** -/
theorem publication_micro (helper : AuthHelper W S) (s : AuthDomainState W S) (u : Micro W) :
    Publication s (s.micro helper u) (NothingNew s u) := by
  match u with
  | .call .beginStart =>
    exact .bumped trivial (by simp [micro, call, beginStart, publishSnapshotLocked, cancelQueue])
      (by simpa [micro, call, beginStart, cancelQueue] using DomainVersion.lt_next_owner _)
  | .call (.markReady nowMs) =>
    refine .repeated rfl rfl ?_
    simp [micro, call, markReady, snapshotFrom, AuthSnapshot.content, NothingNew]
  | .call (.reportOwnerFailure error nowMs) =>
    refine .repeated (by simp [micro, call, reportOwnerFailure, publishSnapshotLocked])
      (by simp [micro, call, reportOwnerFailure]) ?_
    simp [micro, call, reportOwnerFailure, snapshotFrom, AuthSnapshot.content, NothingNew, and_comm]
  | .call .resetQuarantine =>
    simp only [micro, call, resetQuarantine, DomainSupervisor.resetQuarantine]
    by_cases hq : s.inner.supervisor.state = .quarantined
    · simp only [hq, if_true]
      refine .repeated rfl rfl ?_
      simp [snapshotFrom, AuthSnapshot.content, NothingNew, hq]
    · simp only [hq, if_false]
      exact .silent (fun h => absurd h hq) rfl rfl
  | .call (.tick nowMs) => exact publication_tick s nowMs
  | .call (.pollActiveHelperEvent nowMs) => exact publication_pollActiveHelperEvent s nowMs
  | .call (.submitCommand command) =>
    obtain ⟨_, _, _, _, _, hs⟩ := submitCommand_frame s command
    simp only [micro, call, hs]
    exact .silent trivial rfl rfl
  | .item nowMs item =>
    simp only [micro, applyItem]
    split_ifs
    · exact .silent trivial rfl rfl
    · exact publication_applyCommand s item.ticket nowMs item.command
  | .call (.setWorld _) | .take => exact .silent trivial rfl rfl

/-- The domain publishes revisioned snapshots where it has nothing new to say without a revision. -/
theorem publishes (helper : AuthHelper W S) :
    Publishes (micro helper) Synced (·.published) (·.version) (·.content) NothingNew where
  inv s u hs := by
    cases publication_micro helper s u with
    | silent _ hp hsame => rw [Synced, hp, hsame]; exact hs
    | bumped _ hp | repeated hp => rw [Synced, hp]; simp
  publishes s u hs := by
    cases publication_micro helper s u with
    | silent hok hp => exact .inl ⟨hp, hok⟩
    | bumped hok hp hv =>
      exact .inr ⟨_, _, hs, hp, le_of_lt hv, iff_of_true (fun _ => hv) hok⟩
    | repeated hp hv hok =>
      refine .inr ⟨_, _, hs, hp, le_of_eq hv.symm, ?_⟩
      have hlt : ¬ (snapshotFrom s.inner).version <
          (snapshotFrom (s.micro helper u).inner).version := by
        simp [snapshotFrom, hv]
      rw [← hok]
      tauto

end Shilpo.Auth
