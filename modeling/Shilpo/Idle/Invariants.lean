import Shilpo.Idle.State

/-!
# What holds of every reachable idle domain

Two facts the rest is built on. `firing` says which behaviours a step fires and for
which grace overlay, and `executed_micro` that these are the calls it makes of the
action sink. `WF` says what ties the registered ids, the active grace overlay, its
generation and its fallback timer to the configured behaviours; every step keeps it
(`wf_micro`).
-/

namespace Shilpo.Idle

open Shilpo.Domain Shilpo.Theory IdleDomainState

variable {s : IdleDomainState}

/-! ### Registration -/

/-- The ids given to the registrable entries, counting from `n`. -/
def assignIds (entries : List (String × IdleBehaviorConfig)) (n : ℕ) : List (ℕ × String) :=
  ((entries.filter (·.2.registrable)).zipIdx n).map fun e => (e.2, e.1.1)

theorem behaviorIdMap_foldl (entries : List (String × IdleBehaviorConfig)) (r : Registry) :
    (entries.foldl Registry.registerBehavior r).behaviorIdMap =
      r.behaviorIdMap ++ assignIds entries r.nextBehaviorId := by
  induction entries generalizing r with
  | nil => simp [assignIds]
  | cons e entries ih =>
    rw [List.foldl_cons, ih]
    by_cases he : e.2.registrable <;>
      simp [Registry.registerBehavior, assignIds, he, List.zipIdx_cons]

/-- A ready domain's ids go to its registrable behaviours. -/
theorem behaviorIdMap_registry (behaviors : Behaviors) (backend : Backend) :
    (registry behaviors backend).behaviorIdMap = assignIds behaviors.entries 1 := by
  rw [registry, behaviorIdMap_foldl, List.nil_append]

/-- The id map that `register_all_notifications_locked` leaves. -/
theorem behaviorIdMap_registerAll (s : IdleDomainState) :
    s.registerAllNotificationsLocked.inner.behaviorIdMap =
      if s.inner.lifecycle = .ready then assignIds s.inner.behaviors.entries 1 else [] := by
  unfold registerAllNotificationsLocked
  by_cases h : s.inner.lifecycle = .ready <;> simp [h, behaviorIdMap_registry]

theorem mem_assignIds {entries : List (String × IdleBehaviorConfig)} {n id : ℕ} {name : String}
    (h : (id, name) ∈ assignIds entries n) :
    n ≤ id ∧ ∃ cfg, (name, cfg) ∈ entries ∧ cfg.registrable := by
  simp only [assignIds, List.mem_map, Prod.mk.injEq, Prod.exists] at h
  obtain ⟨name', cfg, k, hk, rfl, rfl⟩ := h
  have hmem := List.mem_filter.mp (List.fst_mem_of_mem_zipIdx hk)
  exact ⟨List.le_snd_of_mem_zipIdx hk, cfg, hmem.1, hmem.2⟩

/-! ### Which calls a step makes -/

/-- The calls that fire `names`, each for the grace overlay `grace`. -/
def callsFor (g : InnerState) (names : List String) (grace : Option ℕ) : List ActionCall :=
  names.filterMap fun name =>
    (g.behaviors.get name).map fun cfg =>
      ⟨name, cfg.action, cfg.lockBeforeSuspend, grace, g.inhibitSources⟩

/-- The behaviours a command fires when it is applied, and the grace overlay they waited for. -/
def commandFiring (s : IdleDomainState) : IdleCommand → Option (List String × Option ℕ)
  | .reportGraceCompleted graceGeneration =>
    (completedGrace s.inner graceGeneration).map fun grace =>
      (grace.behaviors, some graceGeneration)
  | _ => none

/-- The behaviours a step fires, and the grace overlay they waited for. -/
def firing (s : IdleDomainState) : Micro → Option (List String × Option ℕ)
  | .call (.tick nowMs) =>
    if s.inner.supervisor.restarts nowMs then none
    else
      (timedOutGrace s.inner nowMs).map fun grace => (grace.behaviors, some grace.graceGeneration)
  | .call (.handleBackendEvent (.idled id) _) =>
    if id = heartbeatNotificationId ∨ s.inner.inhibitSources ≠ [] ∨
        ¬ s.inner.graceSeconds ≤ 0.0 then none
    else (s.inner.behaviorIdMap.lookup id).map fun name => ([name], none)
  | .item item =>
    if item.generation ≠ s.inner.version.ownerGeneration then none else commandFiring s item.command
  | _ => none

/-- Submitting a command touches only the mailbox. -/
theorem submitCommand_frame (s : IdleDomainState) (command : IdleCommand) :
    ∃ queue overloads supersessions resolved tickets, (s.submitCommand command).2 =
      { s with
        inner := { s.inner with
          queue := queue
          overloads := overloads
          supersessions := supersessions }
        resolved := resolved
        tickets := tickets } := by
  simp only [submitCommand]
  split_ifs
  · exact ⟨_, _, _, _, _, rfl⟩
  · split <;> exact ⟨_, _, _, _, _, rfl⟩

/-- Releasing inhibitors touches only the inhibitors and the registrations. -/
theorem releaseInhibits_frame (s : IdleDomainState) (p : InhibitSource → Bool) :
    ∃ idMap nextId backend, s.releaseInhibits p =
      { s with
        inner := { s.inner with
          inhibitSources := s.inner.inhibitSources.filter (fun source => !p source)
          behaviorIdMap := idMap
          nextBehaviorId := nextId }
        backend := backend } := by
  simp only [releaseInhibits]
  split_ifs <;> exact ⟨_, _, _, rfl⟩

theorem timedOutGrace_advance (g : InnerState) (nowMs now : ℕ) :
    timedOutGrace (advanceIdleSeconds g nowMs) now = timedOutGrace g now := by
  unfold advanceIdleSeconds; split_ifs <;> rfl

theorem activeGrace_of_timedOutGrace {g : InnerState} {nowMs : ℕ} {grace : ActiveGraceInfo}
    (h : timedOutGrace g nowMs = some grace) : g.activeGrace = some grace := by
  unfold timedOutGrace at h
  split at h
  · split_ifs at h; simp_all
  · cases h

theorem activeGrace_of_completedGrace {g : InnerState} {graceGeneration : ℕ}
    {grace : ActiveGraceInfo} (h : completedGrace g graceGeneration = some grace) :
    g.activeGrace = some grace ∧ grace.graceGeneration = graceGeneration := by
  simpa [completedGrace, Option.filter_eq_some_iff] using h

/-- A tick that starts a new owner times no overlay out. -/
theorem timedOutGrace_tick (s : IdleDomainState) (nowMs : ℕ) :
    timedOutGrace (advanceIdleSeconds (s.tickSupervisor nowMs).inner nowMs) nowMs =
      if s.inner.supervisor.restarts nowMs then none else timedOutGrace s.inner nowMs := by
  rw [timedOutGrace_advance]
  unfold tickSupervisor
  split <;> rfl

/-- The calls that fire what is to be fired. -/
def callsOf (g : InnerState) : Option (List String × Option ℕ) → List ActionCall
  | some (names, grace) => callsFor g names grace
  | none => []

/-- The calls that a step makes. -/
def calls (s : IdleDomainState) (u : Micro) : List ActionCall := callsOf s.inner (firing s u)

theorem executed_applyCommand (s : IdleDomainState) (ticket : ℕ) (command : IdleCommand) :
    (s.applyCommand ticket command).executed = s.executed ++
      callsOf s.inner (commandFiring s command) := by
  cases command with
  | reportGraceCompleted graceGeneration =>
    simp only [applyCommand, commandFiring]
    cases completedGrace s.inner graceGeneration <;>
      simp [applied, resolve, publishSnapshotLocked, bumpRevision, clearGrace,
        executeActionsForBehaviors, callsOf, callsFor]
  | removeInhibit source =>
    obtain ⟨_, _, _, h⟩ := releaseInhibits_frame s fun candidate => candidate.sameIdentity source
    simp [applyCommand, commandFiring, callsOf, h, applied, resolve, publishSnapshotLocked,
      bumpRevision]
  | clearInhibitsForSender sender =>
    obtain ⟨_, _, _, h⟩ := releaseInhibits_frame s (·.isFrom sender)
    simp [applyCommand, commandFiring, callsOf, h, applied, resolve, publishSnapshotLocked,
      bumpRevision]
  | _ =>
    simp [applyCommand, commandFiring, callsOf, applied, resolve, publishSnapshotLocked,
      bumpRevision, clearGrace, registerAllNotificationsLocked, recomputeUnsupportedActionsLocked]

/-- **What a step fires is what it calls the action sink with.** -/
theorem executed_micro (s : IdleDomainState) (u : Micro) :
    (s.micro u).executed = s.executed ++ calls s u := by
  match u with
  | .call (.tick nowMs) =>
    simp only [micro, call, tick, timedOutGrace_tick, calls, callsOf, firing]
    by_cases hr : s.inner.supervisor.restarts nowMs
    · simp [hr, tickSupervisor, publishSnapshotLocked, cancelQueue, clearGrace]
    · simp only [hr, if_false, Bool.false_eq_true]
      cases timedOutGrace s.inner nowMs with
      | none => simp [publishSnapshotLocked, tickSupervisor, hr]
      | some grace =>
        simp only [Option.map_some, callsFor, executeActionsForBehaviors, publishSnapshotLocked,
          bumpRevision,
          clearGrace, tickSupervisor, hr, if_false, Bool.false_eq_true, advanceIdleSeconds]
        split_ifs <;> rfl
  | .call (.handleBackendEvent (.idled id) nowMs) =>
    simp only [micro, call, handleBackendEvent, calls, callsOf, firing]
    by_cases hid : id = heartbeatNotificationId
    · simp [hid, publishSnapshotLocked, bumpRevision]
    simp only [hid, if_false, false_or]
    cases s.inner.behaviorIdMap.lookup id with
    | none => split_ifs <;> simp
    | some name =>
      by_cases hi : s.inner.inhibitSources = []
      · by_cases hg : s.inner.graceSeconds ≤ 0.0 <;>
          simp [hi, hg, executeActionsForBehaviors, publishSnapshotLocked, bumpRevision, callsFor]
      · simp [hi]
  | .call (.handleBackendEvent (.resumed id) nowMs) =>
    simp only [micro, call, handleBackendEvent, calls, callsOf, firing, publishSnapshotLocked,
      bumpRevision]
    split_ifs <;> simp [clearGrace]
  | .call (.submitCommand command) =>
    obtain ⟨_, _, _, _, _, h⟩ := submitCommand_frame s command
    simp [micro, call, h, calls, callsOf, firing]
  | .call .resetQuarantine =>
    simp only [micro, call, resetQuarantine, calls, callsOf, firing]
    split_ifs <;> simp [publishSnapshotLocked]
  | .call .beginStart =>
    simp [micro, call, beginStart, calls, callsOf, firing, publishSnapshotLocked, clearGrace,
      cancelQueue]
  | .call (.markReady _) =>
    simp [micro, call, markReady, calls, callsOf, firing, publishSnapshotLocked,
      registerAllNotificationsLocked]
  | .call (.reportOwnerFailure _ _) =>
    simp [micro, call, reportOwnerFailure, calls, callsOf, firing, publishSnapshotLocked,
      clearGrace]
  | .call (.setAvailable _) | .call (.setHandlers _) | .take =>
    simp [micro, call, calls, callsOf, firing, takeQueue]
  | .item item =>
    simp only [micro, applyItem, calls, firing]
    split_ifs
    · simp [resolve, callsOf]
    · exact executed_applyCommand s item.ticket item.command

/-! ### The invariant -/

/-- What ties the registered ids and the active grace overlay to the rest of the state. -/
structure WF (g : InnerState) : Prop where
  /-- A registered id is that of a configured behaviour. -/
  ids : ∀ id name, (id, name) ∈ g.behaviorIdMap → (g.behaviors.get name).isSome
  /-- The overlay is that of the last generation, and waits for configured behaviours. -/
  grace : ∀ grace, g.activeGrace = some grace → grace.graceGeneration = g.graceGeneration ∧
    grace.behaviors ≠ [] ∧ ∀ name ∈ grace.behaviors, (g.behaviors.get name).isSome
  /-- The fallback timer runs while an overlay is active. -/
  deadline : g.fallbackDeadlineMs.isSome = g.activeGrace.isSome

theorem WF.clearGrace (h : WF s.inner) : WF s.clearGrace.inner :=
  ⟨h.ids, by simp [IdleDomainState.clearGrace], rfl⟩

/-- Registering everything again needs nothing of the old ids. -/
theorem WF.registerAll (h : WF { s.inner with behaviorIdMap := [] }) :
    WF s.registerAllNotificationsLocked.inner := by
  refine ⟨?_, h.grace, h.deadline⟩
  intro id name hid
  rw [behaviorIdMap_registerAll] at hid
  split_ifs at hid with hready
  · obtain ⟨-, cfg, hcfg, -⟩ := mem_assignIds hid
    exact Option.isSome_of_eq_some (BTreeMap.get_eq_some_iff.mpr hcfg)
  · cases hid

theorem WF.releaseInhibits (h : WF s.inner) (p : InhibitSource → Bool) :
    WF (s.releaseInhibits p).inner := by
  simp only [IdleDomainState.releaseInhibits]
  split_ifs
  · exact WF.registerAll ⟨by simp, h.grace, h.deadline⟩
  · exact ⟨h.ids, h.grace, h.deadline⟩

theorem WF.advanceIdleSeconds {g : InnerState} (h : WF g) (nowMs : ℕ) :
    WF (IdleDomainState.advanceIdleSeconds g nowMs) := by
  unfold IdleDomainState.advanceIdleSeconds
  split_ifs <;> exact ⟨h.ids, h.grace, h.deadline⟩

theorem WF.tickSupervisor (h : WF s.inner) (nowMs : ℕ) : WF (s.tickSupervisor nowMs).inner := by
  simp only [IdleDomainState.tickSupervisor]
  split
  · exact ⟨h.ids, by simp [IdleDomainState.clearGrace], rfl⟩
  · exact ⟨h.ids, h.grace, h.deadline⟩

theorem WF.joinGrace {g : InnerState} (h : WF g) {name : String}
    (hname : (g.behaviors.get name).isSome)
    (nowMs : ℕ) : WF (IdleDomainState.joinGrace g name nowMs) := by
  simp only [IdleDomainState.joinGrace]
  cases ha : g.activeGrace with
  | none => exact ⟨h.ids, by simp [hname], rfl⟩
  | some active =>
    obtain ⟨hgen, hne, hconf⟩ := h.grace active ha
    by_cases hmem : name ∈ active.behaviors
    · simpa [hmem] using h
    · simp only [hmem, if_false]
      refine ⟨h.ids, ?_, by simp [h.deadline, ha]⟩
      intro grace hg
      obtain rfl := Option.some.inj hg
      refine ⟨hgen, by simp, ?_⟩
      intro n hn
      rcases List.mem_append.mp hn with hn | hn
      · exact hconf n hn
      · rwa [List.mem_singleton.mp hn]

theorem WF.handleBackendEvent (h : WF s.inner) (event : IdleBackendEvent) (nowMs : ℕ) :
    WF (s.handleBackendEvent event nowMs).inner := by
  cases event with
  | idled id =>
    simp only [IdleDomainState.handleBackendEvent]
    by_cases hid : id = heartbeatNotificationId
    · simpa [hid, bumpRevision] using ⟨h.ids, h.grace, h.deadline⟩
    simp only [hid, if_false]
    cases hl : s.inner.behaviorIdMap.lookup id with
    | none => exact h
    | some name =>
      have hj := h.joinGrace (h.ids id name (mem_of_lookup hl)) nowMs
      split_ifs
      · exact ⟨h.ids, h.grace, h.deadline⟩
      · exact ⟨h.ids, h.grace, h.deadline⟩
      · exact ⟨hj.ids, hj.grace, hj.deadline⟩
  | resumed id =>
    have hc := h.clearGrace
    simp only [IdleDomainState.handleBackendEvent]
    split_ifs <;> first
      | exact ⟨h.ids, h.grace, h.deadline⟩
      | exact ⟨hc.ids, hc.grace, hc.deadline⟩

theorem WF.applyCommand (h : WF s.inner) (ticket : ℕ) (command : IdleCommand) :
    WF (s.applyCommand ticket command).inner := by
  have hc := h.clearGrace
  cases command with
  | configureBehaviors behaviors graceSeconds =>
    have hr : WF _ := WF.registerAll (s := IdleDomainState.clearGrace { s with
      inner := { s.inner with graceSeconds := graceSeconds, behaviors := behaviors } })
      ⟨by simp, by simp [IdleDomainState.clearGrace], rfl⟩
    exact ⟨hr.ids, hr.grace, hr.deadline⟩
  | reportGraceCompleted graceGeneration =>
    simp only [IdleDomainState.applyCommand]
    cases completedGrace s.inner graceGeneration with
    | none => exact ⟨h.ids, h.grace, h.deadline⟩
    | some grace => exact ⟨hc.ids, hc.grace, hc.deadline⟩
  | removeInhibit source =>
    have hr := h.releaseInhibits fun candidate => candidate.sameIdentity source
    exact ⟨hr.ids, hr.grace, hr.deadline⟩
  | clearInhibitsForSender sender =>
    have hr := h.releaseInhibits (·.isFrom sender)
    exact ⟨hr.ids, hr.grace, hr.deadline⟩
  | cancelGrace => exact ⟨hc.ids, hc.grace, hc.deadline⟩
  | addInhibit _ | resetQuarantine => exact ⟨h.ids, h.grace, h.deadline⟩

theorem WF.applyItem (h : WF s.inner) (item : MailboxItem IdleCommand) :
    WF (s.applyItem item).inner := by
  unfold IdleDomainState.applyItem
  split_ifs
  · exact h
  · exact h.applyCommand item.ticket item.command

theorem WF.tick (h : WF s.inner) (nowMs : ℕ) : WF (s.tick nowMs).inner := by
  have ha := (h.tickSupervisor nowMs).advanceIdleSeconds nowMs
  simp only [IdleDomainState.tick]
  split
  · exact ⟨ha.ids, by simp [IdleDomainState.clearGrace, bumpRevision], rfl⟩
  · exact ha

/-- **Every part of an operation keeps the invariant.** -/
theorem wf_micro : Preserved micro fun s => WF s.inner := by
  intro s u h
  have hc := h.clearGrace
  match u with
  | .call .beginStart => exact ⟨hc.ids, hc.grace, hc.deadline⟩
  | .call (.markReady nowMs) => exact WF.registerAll ⟨by simp, h.grace, h.deadline⟩
  | .call (.reportOwnerFailure _ _) =>
    exact ⟨by simp [micro, call, reportOwnerFailure, IdleDomainState.clearGrace], hc.grace,
      hc.deadline⟩
  | .call .resetQuarantine =>
    simp only [micro, call, resetQuarantine]
    split_ifs
    · exact ⟨h.ids, h.grace, h.deadline⟩
    · exact h
  | .call (.tick nowMs) => exact h.tick nowMs
  | .call (.handleBackendEvent event nowMs) => exact h.handleBackendEvent event nowMs
  | .call (.submitCommand command) =>
    obtain ⟨_, _, _, _, _, hs⟩ := submitCommand_frame s command
    simp only [micro, call, hs]
    exact ⟨h.ids, h.grace, h.deadline⟩
  | .call (.setAvailable _) | .call (.setHandlers _) => exact h
  | .take => exact ⟨h.ids, h.grace, h.deadline⟩
  | .item item => exact h.applyItem item

theorem wf_new (capacity : ℕ) (backend : Backend) (hasHandlerFor : IdleAction → Bool) :
    WF (new capacity backend hasHandlerFor).inner :=
  ⟨by simp [new, recomputeUnsupportedActionsLocked, publishSnapshotLocked],
    by simp [new, recomputeUnsupportedActionsLocked, publishSnapshotLocked], rfl⟩

end Shilpo.Idle
