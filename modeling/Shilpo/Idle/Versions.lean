import Shilpo.Idle.Invariants
import Shilpo.Theory.Revisions

/-!
# The versions of the idle domain's snapshots

Commands, backend events and the end of a grace overlay publish under the next
revision; a new owner starts a new generation. `mark_ready`, `report_owner_failure`,
`reset_quarantine` and a `tick` that does neither publish under the version they find:
while the user idles, each second's tick says a new number of seconds under the same
version.
-/

namespace Shilpo.Idle

open Shilpo.Domain Shilpo.Theory IdleDomainState

variable {s : IdleDomainState}

/-- A snapshot without its version. -/
def IdleSnapshot.content (snap : IdleSnapshot) : IdleSnapshot := { snap with version := .zero }

/-! ### When there is nothing new to say -/

/-- What the last snapshot said of the backend and of the unsupported actions is still so. These two
change without a snapshot. -/
def SeenAsIs (s : IdleDomainState) : Prop :=
  ∀ last ∈ s.published.getLast?,
    last.notifierAvailable = s.backend.available ∧
      last.unsupportedActions = s.inner.unsupportedActions

/-- The tick counts no second of idling: none has passed, or no more can be counted. -/
def NoSecondPasses (g : InnerState) (nowMs : ℕ) : Prop :=
  if g.inhibitSources ≠ [] then g.liveIdleSeconds = 0
  else g.heartbeatIdled → g.lastSecondTickMs ≠ 0 → 1000 ≤ nowMs - g.lastSecondTickMs →
    g.liveIdleSeconds = 2 ^ 64 - 1

/-- An operation that publishes without a new revision has nothing new to say. -/
def NothingNew (s : IdleDomainState) : Micro → Prop
  | .call (.markReady _) =>
    SeenAsIs s ∧ s.inner.lifecycle = .ready ∧ s.inner.lastError = none ∧
      s.inner.behaviorIdMap.length % 2 ^ 32 =
        (s.inner.behaviors.entries.filter (·.2.registrable)).length % 2 ^ 32
  | .call (.reportOwnerFailure error nowMs) =>
    SeenAsIs s ∧ s.inner.lastError = some error ∧
      s.inner.lifecycle =
        failedLifecycle (s.inner.supervisor.recordFailure nowMs).state s.inner.hadPriorReadiness ∧
      s.inner.behaviorIdMap.length % 2 ^ 32 = 0 ∧ s.inner.activeGrace = none
  | .call .resetQuarantine =>
    s.inner.supervisor.state = .quarantined →
      SeenAsIs s ∧ s.inner.lifecycle = startingLifecycle s.inner.hadPriorReadiness
  | .call (.tick nowMs) =>
    s.inner.supervisor.restarts nowMs = false → timedOutGrace s.inner nowMs = none →
      SeenAsIs s ∧ NoSecondPasses s.inner nowMs
  | _ => True

/-! ### What a step publishes -/

/-- What is published last is what the mutex guards, but for what changes without a snapshot. -/
def Synced (s : IdleDomainState) : Prop :=
  ∃ available unsupported, s.published.getLast? =
    some { s.snapshotFrom with notifierAvailable := available, unsupportedActions := unsupported }

/-- What a step to `s'` publishes: nothing, with nothing to say; a snapshot under a new version; or
one under the version there was, which says nothing new exactly when `ok`. -/
inductive Publication (s s' : IdleDomainState) (ok : Prop) : Prop where
  | silent (hok : ok) (hp : s'.published = s.published)
    (hs : { s'.snapshotFrom with notifierAvailable := true, unsupportedActions := [] } =
      { s.snapshotFrom with notifierAvailable := true, unsupportedActions := [] })
  | bumped (hok : ok) (hp : s'.published = s.published ++ [s'.snapshotFrom])
    (hv : s.inner.version < s'.inner.version)
  | repeated (hp : s'.published = s.published ++ [s'.snapshotFrom])
    (hv : s'.inner.version = s.inner.version)
    (hok : ∀ last ∈ s.published.getLast?, (last.content = s'.snapshotFrom.content ↔ ok))

theorem publication_applied {s' : IdleDomainState} (hp : s'.published = s.published)
    (hv : s'.inner.version = s.inner.version) (ticket : ℕ) :
    Publication s (s'.applied ticket) True :=
  .bumped trivial (by simp [applied, resolve, publishSnapshotLocked, bumpRevision, hp,
    snapshotFrom])
    (by simp [applied, resolve, bumpRevision, hv])

theorem publication_applyCommand (s : IdleDomainState) (ticket : ℕ) (command : IdleCommand) :
    Publication s (s.applyCommand ticket command) True := by
  cases command with
  | reportGraceCompleted graceGeneration =>
    simp only [applyCommand]
    split
    · exact .bumped trivial rfl (by simp [bumpRevision, clearGrace])
    · exact publication_applied rfl rfl ticket
  | removeInhibit source =>
    obtain ⟨_, _, _, h⟩ := releaseInhibits_frame s fun candidate => candidate.sameIdentity source
    exact publication_applied (by rw [h]) (by rw [h]) ticket
  | clearInhibitsForSender sender =>
    obtain ⟨_, _, _, h⟩ := releaseInhibits_frame s (·.isFrom sender)
    exact publication_applied (by rw [h]) (by rw [h]) ticket
  | configureBehaviors _ _ | addInhibit _ | cancelGrace | resetQuarantine =>
    apply publication_applied <;> rfl

theorem liveIdleSeconds_advance_eq_iff (g : InnerState) (nowMs : ℕ) :
    g.liveIdleSeconds = (advanceIdleSeconds g nowMs).liveIdleSeconds ↔ NoSecondPasses g nowMs := by
  unfold advanceIdleSeconds NoSecondPasses
  split_ifs with hi hh h0 h1
  · simp
  · simp [h0]
  · simp only [hh, h0, h1, ne_eq, not_false_eq_true, true_implies, saturatingAdd]
    omega
  · simp [h1]
  · simp [hh]

@[simp] theorem version_advance (g : InnerState) (nowMs : ℕ) :
    (advanceIdleSeconds g nowMs).version = g.version := by
  unfold advanceIdleSeconds
  split_ifs <;> rfl

/-- What the last snapshot and the next, under one version, have to agree on. -/
theorem content_eq_iff (hs : Synced s) {snap : IdleSnapshot}
    (havailable : snap.notifierAvailable = s.backend.available)
    (hunsupported : snap.unsupportedActions = s.inner.unsupportedActions) :
    ∀ last ∈ s.published.getLast?, (last.content = snap.content ↔ SeenAsIs s ∧
      s.snapshotFrom.lifecycle = snap.lifecycle ∧
      s.snapshotFrom.registeredBehaviors = snap.registeredBehaviors ∧
      s.snapshotFrom.activeGrace = snap.activeGrace ∧
      s.snapshotFrom.liveIdleSeconds = snap.liveIdleSeconds ∧
      s.snapshotFrom.inhibitCount = snap.inhibitCount ∧
      s.snapshotFrom.lastError = snap.lastError) := by
  obtain ⟨available, unsupported, hlast⟩ := hs
  rintro last hmem
  obtain rfl := Option.some.inj (hmem.symm.trans hlast)
  simp only [IdleSnapshot.content, SeenAsIs, hlast, IdleSnapshot.mk.injEq, Option.mem_some_iff,
    forall_eq', havailable, hunsupported]
  tauto

/-- A tick that starts no owner and ends no overlay repeats the version. -/
theorem publication_tick (hs : Synced s) (nowMs : ℕ) :
    Publication s (s.tick nowMs) (NothingNew s (.call (.tick nowMs))) := by
  simp only [tick, timedOutGrace_tick]
  by_cases hr : s.inner.supervisor.restarts nowMs
  · simp only [hr, if_true]
    refine .bumped (by simp [NothingNew, hr]) ?_ ?_
    · simp [publishSnapshotLocked, snapshotFrom, tickSupervisor, hr, clearGrace, cancelQueue]
    · simpa [tickSupervisor, hr, clearGrace, cancelQueue] using DomainVersion.lt_next_owner _
  simp only [hr, Bool.false_eq_true, if_false]
  cases ht : timedOutGrace s.inner nowMs with
  | some grace =>
    refine .bumped (by simp [NothingNew, ht]) ?_ ?_
    · simp [publishSnapshotLocked, snapshotFrom, tickSupervisor, hr, executeActionsForBehaviors,
        bumpRevision, clearGrace]
    · simp [tickSupervisor, hr, bumpRevision, clearGrace]
  | none =>
    refine .repeated ?_ ?_ fun last hlast => ?_
    · simp [publishSnapshotLocked, snapshotFrom, tickSupervisor, hr]
    · simp [tickSupervisor, hr]
    · have hsnap : (publishSnapshotLocked { s.tickSupervisor nowMs with
          inner := advanceIdleSeconds (s.tickSupervisor nowMs).inner nowMs }).snapshotFrom =
          { s.snapshotFrom with
            liveIdleSeconds := (advanceIdleSeconds s.inner nowMs).liveIdleSeconds } := by
        simp only [tickSupervisor, hr, Bool.false_eq_true, if_false, advanceIdleSeconds]
        split_ifs <;> rfl
      have hlive : s.snapshotFrom.liveIdleSeconds =
          (advanceIdleSeconds s.inner nowMs).liveIdleSeconds ↔
          NoSecondPasses s.inner nowMs := liveIdleSeconds_advance_eq_iff s.inner nowMs
      rw [hsnap, content_eq_iff hs rfl rfl last hlast]
      simp [NothingNew, hr, ht, hlive]

theorem publication_handleBackendEvent (s : IdleDomainState) (event : IdleBackendEvent)
    (nowMs : ℕ) : Publication s (s.handleBackendEvent event nowMs) True := by
  have hj (name : String) : (joinGrace s.inner name nowMs).version = s.inner.version := by
    simp only [joinGrace]
    split
    · split_ifs <;> rfl
    · rfl
  cases event with
  | idled id =>
    simp only [handleBackendEvent]
    by_cases hid : id = heartbeatNotificationId
    · simp only [hid, if_true]
      exact .bumped trivial rfl (by simp [bumpRevision])
    simp only [hid, if_false]
    cases s.inner.behaviorIdMap.lookup id with
    | none => exact .silent trivial rfl rfl
    | some name =>
      split_ifs
      · exact .silent trivial rfl rfl
      · exact .bumped trivial rfl (by simp [bumpRevision])
      · exact .bumped trivial rfl (by simp [bumpRevision, hj])
  | resumed id =>
    simp only [handleBackendEvent]
    split_ifs <;> exact .bumped trivial rfl (by simp [bumpRevision, clearGrace])

theorem available_registerNotification (b : Backend) (id timeoutMs : ℕ)
    (madeFor : Option (String × IdleBehaviorConfig)) :
    (b.registerNotification id timeoutMs madeFor).available = b.available := by
  unfold Backend.registerNotification; split_ifs <;> rfl

theorem available_foldl (entries : List (String × IdleBehaviorConfig)) (r : Registry) :
    (entries.foldl Registry.registerBehavior r).backend.available = r.backend.available := by
  induction entries generalizing r with
  | nil => rfl
  | cons e entries ih =>
    rw [List.foldl_cons, ih, Registry.registerBehavior]
    split_ifs
    · exact available_registerNotification _ _ _ _
    · rfl

/-- Registering does not connect the backend, nor disconnect it. -/
theorem available_registerAll (s : IdleDomainState) :
    s.registerAllNotificationsLocked.backend.available = s.backend.available := by
  simp only [registerAllNotificationsLocked]
  split_ifs
  · rfl
  · rw [registry, available_foldl, available_registerNotification]
    rfl

/-- **What each step publishes.** -/
theorem publication_micro (hs : Synced s) (u : Micro) :
    Publication s (s.micro u) (NothingNew s u) := by
  match u with
  | .call .beginStart =>
    exact .bumped trivial rfl (by
      simpa [micro, call, beginStart, cancelQueue, clearGrace] using DomainVersion.lt_next_owner _)
  | .call (.markReady nowMs) =>
    refine .repeated rfl rfl ?_
    intro last hlast
    have hids : (s.markReady nowMs).inner.behaviorIdMap.length =
        (s.inner.behaviors.entries.filter (·.2.registrable)).length := by
      simp [markReady, behaviorIdMap_registerAll, assignIds]
    rw [content_eq_iff hs ?_ rfl last hlast]
    · simp only [micro, call, snapshotFrom, hids, NothingNew]
      constructor
      · rintro ⟨hseen, hlifecycle, hregistered, -, -, -, herror⟩
        exact ⟨hseen, hlifecycle, herror, hregistered⟩
      · rintro ⟨hseen, hlifecycle, herror, hregistered⟩
        exact ⟨hseen, hlifecycle, hregistered, rfl, rfl, rfl, herror⟩
    · exact available_registerAll _
  | .call (.reportOwnerFailure error nowMs) =>
    refine .repeated rfl rfl ?_
    intro last hlast
    rw [content_eq_iff hs rfl rfl last hlast]
    constructor
    · rintro ⟨hseen, hlifecycle, hregistered, hgrace, -, -, herror⟩
      exact ⟨hseen, herror, hlifecycle, hregistered, hgrace⟩
    · rintro ⟨hseen, herror, hlifecycle, hregistered, hgrace⟩
      exact ⟨hseen, hlifecycle, hregistered, hgrace, rfl, rfl, herror⟩
  | .call .resetQuarantine =>
    simp only [micro, call, resetQuarantine, DomainSupervisor.resetQuarantine]
    by_cases hq : s.inner.supervisor.state = .quarantined
    · simp only [hq, if_true]
      refine .repeated rfl rfl ?_
      intro last hlast
      rw [content_eq_iff hs rfl rfl last hlast]
      simp [snapshotFrom, NothingNew, hq]
    · simp only [hq, if_false]
      exact .silent (fun h => absurd h hq) rfl rfl
  | .call (.tick nowMs) => exact publication_tick hs nowMs
  | .call (.handleBackendEvent event nowMs) => exact publication_handleBackendEvent s event nowMs
  | .call (.submitCommand command) =>
    obtain ⟨_, _, _, _, _, h⟩ := submitCommand_frame s command
    simp only [micro, call, h]
    exact .silent trivial rfl rfl
  | .item item =>
    simp only [micro, applyItem]
    split_ifs
    · exact .silent trivial rfl rfl
    · exact publication_applyCommand s item.ticket item.command
  | .call (.setAvailable _) | .call (.setHandlers _) | .take => exact .silent trivial rfl rfl

/-- The domain publishes revisioned snapshots where it has nothing new to say without a revision. -/
theorem publishes : Publishes micro Synced (·.published) (·.version) (·.content) NothingNew where
  inv s u hs := by
    cases publication_micro hs u with
    | silent _ hp hsame =>
      obtain ⟨available, unsupported, hlast⟩ := hs
      refine ⟨available, unsupported, ?_⟩
      rw [hp, hlast]
      simp only [IdleSnapshot.mk.injEq, true_and, Option.some.injEq] at hsame ⊢
      tauto
    | bumped _ hp | repeated hp => exact ⟨_, _, by rw [hp, List.getLast?_append]; rfl⟩
  publishes s u hs := by
    have hs' := hs
    obtain ⟨available, unsupported, hlast⟩ := hs
    cases publication_micro hs' u with
    | silent hok hp => exact .inl ⟨hp, hok⟩
    | bumped hok hp hv => exact .inr ⟨_, _, hlast, hp, le_of_lt hv, iff_of_true (fun _ => hv) hok⟩
    | repeated hp hv hok =>
      refine .inr ⟨_, _, hlast, hp, le_of_eq hv.symm, ?_⟩
      have hlt : ¬ s.inner.version < (s.micro u).inner.version := by simp [hv]
      rw [← hok _ hlast]
      simp only [snapshotFrom] at hlt ⊢
      tauto

end Shilpo.Idle
