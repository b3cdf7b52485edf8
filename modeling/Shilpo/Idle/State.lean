import Shilpo.Idle.Types
import Shilpo.Theory.Runs

/-!
# The idle domain

The state machine of `idle/state.rs`: `IdleDomainState` with its operations under
the source's names, one Lean function for each. Every operation of the source runs
under the mutex `inner` from its first line to its last, so each is one function of
the state; `process_pending_commands` is a loop, and its body is `applyItem`.

The state holds the domain's own fields (`InnerState`) and its sides of the
interfaces it talks to: the backend's registrations, the calls made on the action
sink, the snapshots sent on the watch channel and the tickets resolved, each in the
order they were made. A call on the action sink also records two things the program
does not pass: the grace generation on whose behalf it is made, and the inhibitors
held at that moment. What the source reads from outside is an argument (`nowMs` for
the clock) or part of the state that the environment may change (whether the backend
is available, which actions the sink has handlers for).
-/

namespace Shilpo.Idle

open Shilpo.Domain Shilpo.Theory

/-! ### The state -/

/-- The seconds of grace before a configuration arrives. -/
def defaultGraceSeconds : Float := 2.0

/-- How much longer than its fade the domain waits for a grace overlay to report. -/
def fallbackGraceBufferMs : ℕ := 250

/-- The id of the heartbeat notification. -/
def heartbeatNotificationId : ℕ := 0

/-- The heartbeat's timeout. -/
def heartbeatTimeoutMs : ℕ := 1000

/-- What the mutex `inner` guards. -/
structure InnerState where
  version : DomainVersion
  lifecycle : DomainLifecycle
  supervisor : DomainSupervisor
  queue : List (MailboxItem IdleCommand)
  capacity : ℕ
  lastError : Option String
  graceSeconds : Float
  behaviors : Behaviors
  behaviorIdMap : List (ℕ × String)
  nextBehaviorId : ℕ
  graceGeneration : ℕ
  activeGrace : Option ActiveGraceInfo
  fallbackDeadlineMs : Option ℕ
  heartbeatIdled : Bool
  liveIdleSeconds : ℕ
  lastSecondTickMs : ℕ
  inhibitSources : List InhibitSource
  idledWhileInhibited : List String
  warnedUnsupported : List String
  unsupportedActions : List String
  hadPriorReadiness : Bool
  restarts : ℕ
  overloads : ℕ
  supersessions : ℕ

/-- A call of `IdleActionSink::execute_action`. -/
structure ActionCall where
  /-- The behaviour that fires. -/
  behaviorName : String
  /-- Its action. -/
  action : IdleAction
  /-- Whether to lock before suspending. -/
  lockBeforeSuspend : Bool
  /-- The grace overlay that ended, if the behaviour waited for one. -/
  grace : Option ℕ
  /-- The inhibitors held when the call is made. -/
  inhibitSources : List InhibitSource
  deriving DecidableEq

/-- The idle domain. -/
structure IdleDomainState where
  /-- What the mutex guards. -/
  inner : InnerState
  /-- The notifier backend. -/
  backend : Backend
  /-- `IdleActionSink::has_handler_for`. -/
  hasHandlerFor : IdleAction → Bool
  /-- The calls made of `IdleActionSink::execute_action`. -/
  executed : List ActionCall
  /-- The snapshots published, the current one last. -/
  published : List IdleSnapshot
  /-- The tickets resolved, each with its outcome. -/
  resolved : List (ℕ × IdleCommandOutcome)
  /-- How many tickets have been handed out. -/
  tickets : ℕ

namespace IdleDomainState

/-! ### Publishing and resolving -/

/-- The snapshot of a state. Lengths are cast to `u32`. -/
def snapshotFrom (s : IdleDomainState) : IdleSnapshot where
  version := s.inner.version
  lifecycle := s.inner.lifecycle
  notifierAvailable := s.backend.available
  registeredBehaviors := s.inner.behaviorIdMap.length % 2 ^ 32
  activeGrace := s.inner.activeGrace
  liveIdleSeconds := s.inner.liveIdleSeconds
  inhibitCount := s.inner.inhibitSources.length % 2 ^ 32
  unsupportedActions := s.inner.unsupportedActions
  lastError := s.inner.lastError

/-- `publish_snapshot_locked`. -/
def publishSnapshotLocked (s : IdleDomainState) : IdleDomainState :=
  { s with published := s.published ++ [s.snapshotFrom] }

/-- The next revision of the same owner. -/
def bumpRevision (s : IdleDomainState) : IdleDomainState :=
  { s with inner := { s.inner with version := s.inner.version.bump } }

/-- `resolver.resolve(outcome)` for the ticket. -/
def resolve (s : IdleDomainState) (ticket : ℕ) (outcome : IdleCommandOutcome) : IdleDomainState :=
  { s with resolved := s.resolved ++ [(ticket, outcome)] }

/-- Take the queue and cancel all that was pending, for a new owner. -/
def cancelQueue (s : IdleDomainState) : IdleDomainState :=
  { s with
    inner := { s.inner with queue := [] }
    resolved := s.resolved ++ s.inner.queue.map fun item =>
      (item.ticket, .cancelled .ownerReplaced) }

@[simp] theorem inner_publishSnapshotLocked (s : IdleDomainState) :
    s.publishSnapshotLocked.inner = s.inner := rfl

@[simp] theorem inner_resolve (s : IdleDomainState) (ticket : ℕ) (outcome : IdleCommandOutcome) :
    (s.resolve ticket outcome).inner = s.inner := rfl

/-- No grace overlay is active. -/
def clearGrace (s : IdleDomainState) : IdleDomainState :=
  { s with inner := { s.inner with activeGrace := none, fallbackDeadlineMs := none } }

/-! ### Helper functions -/

/-- What registering a behaviour with the backend writes. -/
structure Registry where
  nextBehaviorId : ℕ
  behaviorIdMap : List (ℕ × String)
  backend : Backend

/-- One turn of the loop of `register_all_notifications_locked`: a behaviour that is not
registrable is skipped, another gets the next id, whether or not the backend takes it. -/
def Registry.registerBehavior (r : Registry) (entry : String × IdleBehaviorConfig) : Registry :=
  if entry.2.registrable then
    { nextBehaviorId := r.nextBehaviorId + 1
      behaviorIdMap := r.behaviorIdMap ++ [(r.nextBehaviorId, entry.1)]
      backend := r.backend.registerNotification r.nextBehaviorId (timeoutMs entry.2.timeoutSeconds)
        (some entry) }
  else r

/-- The registrations of a ready domain: the heartbeat, then each behaviour. -/
def registry (behaviors : Behaviors) (backend : Backend) : Registry :=
  behaviors.entries.foldl Registry.registerBehavior
    ⟨1, [], backend.registerNotification heartbeatNotificationId heartbeatTimeoutMs none⟩

/-- `register_all_notifications_locked`: clear the backend, and register everything again
from id `1` if the domain is ready. -/
def registerAllNotificationsLocked (s : IdleDomainState) : IdleDomainState :=
  let r : Registry :=
    if s.inner.lifecycle ≠ .ready then ⟨1, [], s.backend.unregisterAll⟩
    else registry s.inner.behaviors s.backend.unregisterAll
  { s with
    inner := { s.inner with behaviorIdMap := r.behaviorIdMap, nextBehaviorId := r.nextBehaviorId }
    backend := r.backend }

/-- `recompute_unsupported_actions_locked`. -/
def recomputeUnsupportedActionsLocked (s : IdleDomainState) : IdleDomainState :=
  let unsupported := (s.inner.behaviors.entries.filter
    fun e => e.2.enabled && !s.hasHandlerFor e.2.action).map Prod.fst
  { s with
    inner := { s.inner with
      unsupportedActions := unsupported
      warnedUnsupported :=
        unsupported.foldl (fun w n => if n ∈ w then w else w ++ [n]) s.inner.warnedUnsupported } }

/-- `execute_actions_for_behaviors`: each behaviour still configured, in order. -/
def executeActionsForBehaviors (s : IdleDomainState) (behaviors : List String) (grace : Option ℕ) :
    IdleDomainState :=
  { s with
    executed := s.executed ++ behaviors.filterMap fun name =>
      (s.inner.behaviors.get name).map fun cfg =>
        ⟨name, cfg.action, cfg.lockBeforeSuspend, grace, s.inner.inhibitSources⟩ }

@[simp] theorem inner_executeActionsForBehaviors (s : IdleDomainState) (behaviors : List String)
    (grace : Option ℕ) : (s.executeActionsForBehaviors behaviors grace).inner = s.inner := rfl

/-! ### Supervision and lifecycle -/

/-- `begin_start`. -/
def beginStart (s : IdleDomainState) : IdleDomainState :=
  let s := { s with
    inner := { s.inner with
      supervisor := s.inner.supervisor.markStarting
      version := ⟨s.inner.version.ownerGeneration + 1, 0⟩
      lifecycle := startingLifecycle s.inner.hadPriorReadiness } }
  s.cancelQueue.clearGrace.publishSnapshotLocked

/-- `mark_ready`. -/
def markReady (s : IdleDomainState) (nowMs : ℕ) : IdleDomainState :=
  let s := { s with
    inner := { s.inner with
      supervisor := s.inner.supervisor.markRunning nowMs
      hadPriorReadiness := true
      lifecycle := .ready
      lastError := none } }
  s.registerAllNotificationsLocked.publishSnapshotLocked

/-- `report_owner_failure`. -/
def reportOwnerFailure (s : IdleDomainState) (error : String) (nowMs : ℕ) : IdleDomainState :=
  let supervisor := s.inner.supervisor.recordFailure nowMs
  let s := { s with
    inner := { s.inner with
      supervisor := supervisor
      lastError := some error
      lifecycle := failedLifecycle supervisor.state s.inner.hadPriorReadiness
      behaviorIdMap := [] }
    backend := s.backend.unregisterAll }
  s.clearGrace.publishSnapshotLocked

/-- `reset_quarantine`. -/
def resetQuarantine (s : IdleDomainState) : IdleDomainState :=
  let (supervisor, wasQuarantined) := s.inner.supervisor.resetQuarantine
  if wasQuarantined then
    { s with
      inner := { s.inner with
        supervisor := supervisor
        lifecycle := startingLifecycle s.inner.hadPriorReadiness } }.publishSnapshotLocked
  else s

/-- The first part of `tick`: the supervisor's own, and the new owner where its backoff ends. -/
def tickSupervisor (s : IdleDomainState) (nowMs : ℕ) : IdleDomainState :=
  let supervisor := s.inner.supervisor.tick nowMs
  if s.inner.supervisor.restarts nowMs then
    let s := { s with
      inner := { s.inner with
        supervisor := supervisor
        version := ⟨s.inner.version.ownerGeneration + 1, 0⟩
        restarts := s.inner.restarts + 1
        lifecycle := startingLifecycle s.inner.hadPriorReadiness } }
    s.cancelQueue.clearGrace
  else { s with inner := { s.inner with supervisor := supervisor } }

/-- The second part of `tick`: the count of live idle seconds. -/
def advanceIdleSeconds (g : InnerState) (nowMs : ℕ) : InnerState :=
  if g.inhibitSources ≠ [] then { g with liveIdleSeconds := 0 }
  else if g.heartbeatIdled then
    if g.lastSecondTickMs = 0 then { g with lastSecondTickMs := nowMs }
    else if 1000 ≤ nowMs - g.lastSecondTickMs then
      let elapsedSecs := (nowMs - g.lastSecondTickMs) / 1000
      { g with
        liveIdleSeconds := saturatingAdd g.liveIdleSeconds elapsedSecs
        lastSecondTickMs := g.lastSecondTickMs + elapsedSecs * 1000 }
    else g
  else g

/-- The grace overlay whose fallback timer has run out. -/
def timedOutGrace (g : InnerState) (nowMs : ℕ) : Option ActiveGraceInfo :=
  match g.activeGrace, g.fallbackDeadlineMs with
  | some grace, some deadline => if deadline ≤ nowMs then some grace else none
  | _, _ => none

/-- `tick`: the snapshot without the overlay is published before the actions run. -/
def tick (s : IdleDomainState) (nowMs : ℕ) : IdleDomainState :=
  let s := s.tickSupervisor nowMs
  let s := { s with inner := advanceIdleSeconds s.inner nowMs }
  match timedOutGrace s.inner nowMs with
  | some grace =>
    s.clearGrace.bumpRevision.publishSnapshotLocked.executeActionsForBehaviors grace.behaviors
      (some grace.graceGeneration)
  | none => s.publishSnapshotLocked

/-! ### Backend events -/

/-- Start the grace overlay with this behaviour, or join the one that is active. -/
def joinGrace (g : InnerState) (name : String) (nowMs : ℕ) : InnerState :=
  let fadeMs := fadeMs g.graceSeconds
  match g.activeGrace with
  | some active =>
    if name ∈ active.behaviors then g
    else { g with activeGrace := some { active with behaviors := active.behaviors ++ [name] } }
  | none =>
    { g with
      graceGeneration := g.graceGeneration + 1
      activeGrace := some ⟨g.graceGeneration + 1, fadeMs, [name]⟩
      fallbackDeadlineMs := some (nowMs + fadeMs + fallbackGraceBufferMs) }

/-- `handle_backend_event`. -/
def handleBackendEvent (s : IdleDomainState) (event : IdleBackendEvent) (nowMs : ℕ) :
    IdleDomainState :=
  match event with
  | .idled id =>
    if id = heartbeatNotificationId then
      let s := { s with
        inner := { s.inner with
          heartbeatIdled := true
          lastSecondTickMs := nowMs
          liveIdleSeconds :=
            if s.inner.inhibitSources = [] ∧ s.inner.liveIdleSeconds = 0 then 1
            else s.inner.liveIdleSeconds } }
      s.bumpRevision.publishSnapshotLocked
    else
      match s.inner.behaviorIdMap.lookup id with
      | none => s
      | some name =>
        if s.inner.inhibitSources ≠ [] then
          { s with
            inner := { s.inner with
              idledWhileInhibited :=
                if name ∈ s.inner.idledWhileInhibited then s.inner.idledWhileInhibited
                else s.inner.idledWhileInhibited ++ [name] } }
        else if s.inner.graceSeconds ≤ 0.0 then
          s.bumpRevision.publishSnapshotLocked.executeActionsForBehaviors [name] none
        else
          { s with inner := joinGrace s.inner name nowMs }.bumpRevision.publishSnapshotLocked
  | .resumed id =>
    let s := if id = heartbeatNotificationId then
        { s with inner := { s.inner with heartbeatIdled := false, lastSecondTickMs := 0 } }
      else s
    let s := if s.inner.activeGrace.isSome then s.clearGrace else s
    { s with inner := { s.inner with liveIdleSeconds := 0 } }.bumpRevision.publishSnapshotLocked

/-! ### Commands -/

/-- `submit_command`: the ticket of an accepted command, or why it was rejected. -/
def submitCommand (s : IdleDomainState) (command : IdleCommand) :
    Except IdleCommandOutcome ℕ × IdleDomainState :=
  if s.inner.lifecycle = .unavailable then (.error (.rejected .unavailable), s)
  else
    let item : MailboxItem IdleCommand := ⟨s.tickets, command, s.inner.version.ownerGeneration⟩
    match admission IdleCommand.policy s.inner.capacity s.inner.queue item with
    | .overloaded =>
      (.error (.rejected .overloaded),
        { s with inner := { s.inner with overloads := s.inner.overloads + 1 } })
    | .queued none queue =>
      (.ok s.tickets, { s with inner := { s.inner with queue := queue }, tickets := s.tickets + 1 })
    | .queued (some old) queue =>
      let s' := { s with
        inner := { s.inner with queue := queue, supersessions := s.inner.supersessions + 1 }
        tickets := s.tickets + 1 }
      (.ok s.tickets, s'.resolve old.ticket (.cancelled .superseded))

/-- How an applied command ends: a new revision, published, and the ticket resolved with it. -/
def applied (s : IdleDomainState) (ticket : ℕ) : IdleDomainState :=
  s.bumpRevision.publishSnapshotLocked.resolve ticket (.applied s.inner.version.bump)

/-- Drop the inhibitors that `p` matches, and register everything again if none is left of some. -/
def releaseInhibits (s : IdleDomainState) (p : InhibitSource → Bool) : IdleDomainState :=
  let left := s.inner.inhibitSources.filter (fun source => !p source)
  let s' := { s with inner := { s.inner with inhibitSources := left } }
  if s.inner.inhibitSources ≠ [] ∧ left = [] then s'.registerAllNotificationsLocked else s'

/-- The grace overlay that the command's report completes. -/
def completedGrace (g : InnerState) (graceGeneration : ℕ) : Option ActiveGraceInfo :=
  g.activeGrace.filter fun grace => grace.graceGeneration = graceGeneration

/-- Apply a command of this owner, in the loop of `process_pending_commands`. -/
def applyCommand (s : IdleDomainState) (ticket : ℕ) : IdleCommand → IdleDomainState
  | .configureBehaviors behaviors graceSeconds =>
    let s := { s with
      inner := { s.inner with
        graceSeconds := graceSeconds
        behaviors := behaviors } }
    s.clearGrace.registerAllNotificationsLocked.recomputeUnsupportedActionsLocked.applied ticket
  | .addInhibit source =>
    let s := { s with
      inner := { s.inner with
        inhibitSources :=
          if source ∈ s.inner.inhibitSources then s.inner.inhibitSources
          else s.inner.inhibitSources ++ [source]
        liveIdleSeconds := 0 } }
    s.applied ticket
  | .removeInhibit source =>
    (s.releaseInhibits fun candidate => candidate.sameIdentity source).applied ticket
  | .clearInhibitsForSender sender => (s.releaseInhibits (·.isFrom sender)).applied ticket
  | .reportGraceCompleted graceGeneration =>
    match completedGrace s.inner graceGeneration with
    | some grace =>
      -- the overlay's teardown is published before its behaviours fire
      let version := s.inner.version.bump
      let s := s.clearGrace.bumpRevision.publishSnapshotLocked
      (s.executeActionsForBehaviors grace.behaviors (some graceGeneration)).resolve ticket
        (.applied version)
    | none => s.applied ticket
  | .cancelGrace => s.clearGrace.applied ticket
  | .resetQuarantine =>
    { s with
      inner := { s.inner with supervisor := s.inner.supervisor.resetQuarantine.1 } }.applied ticket

/-- The body of the loop of `process_pending_commands`: a command of an older owner is cancelled. -/
def applyItem (s : IdleDomainState) (item : MailboxItem IdleCommand) : IdleDomainState :=
  if item.generation ≠ s.inner.version.ownerGeneration then
    s.resolve item.ticket (.cancelled .ownerReplaced)
  else s.applyCommand item.ticket item.command

/-- `std::mem::take(&mut guard.queue)`. -/
def takeQueue (s : IdleDomainState) : IdleDomainState :=
  { s with inner := { s.inner with queue := [] } }

/-- `process_pending_commands`. -/
def processPendingCommands (s : IdleDomainState) : IdleDomainState :=
  s.inner.queue.foldl applyItem s.takeQueue

/-! ### A new domain -/

theorem defaultBehaviors_sorted :
    (["lock", "screen-off", "suspend"] : List String).Pairwise (· < ·) := by
  decide

/-- The behaviours of a domain that has not been configured. -/
def defaultBehaviors : Behaviors where
  entries := [
    ("lock", ⟨true, 600.0, .lock, false⟩),
    ("screen-off", ⟨false, 660.0, .screenOff, false⟩),
    ("suspend", ⟨false, 1800.0, .suspend, true⟩)]
  sorted := defaultBehaviors_sorted

/-- `IdleDomainState::new`, for a mailbox, a backend and an action sink. The first snapshot
is made before the unsupported actions are computed. -/
def new (capacity : ℕ) (backend : Backend) (hasHandlerFor : IdleAction → Bool) : IdleDomainState :=
  let s : IdleDomainState := {
    inner := {
      version := .zero
      lifecycle := .unavailable
      supervisor := .new
      queue := []
      capacity := capacity
      lastError := none
      graceSeconds := defaultGraceSeconds
      behaviors := defaultBehaviors
      behaviorIdMap := []
      nextBehaviorId := 1
      graceGeneration := 0
      activeGrace := none
      fallbackDeadlineMs := none
      heartbeatIdled := false
      liveIdleSeconds := 0
      lastSecondTickMs := 0
      inhibitSources := []
      idledWhileInhibited := []
      warnedUnsupported := []
      unsupportedActions := []
      hadPriorReadiness := false
      restarts := 0
      overloads := 0
      supersessions := 0 }
    backend := backend
    hasHandlerFor := hasHandlerFor
    executed := []
    published := []
    resolved := []
    tickets := 0 }
  s.publishSnapshotLocked.recomputeUnsupportedActionsLocked

/-! ### Runs -/

/-- The operations that do not loop, and changes of the world that the domain reads. -/
inductive Call where
  | beginStart
  | markReady (nowMs : ℕ)
  | reportOwnerFailure (error : String) (nowMs : ℕ)
  | resetQuarantine
  | tick (nowMs : ℕ)
  | handleBackendEvent (event : IdleBackendEvent) (nowMs : ℕ)
  | submitCommand (command : IdleCommand)
  /-- The backend connects or loses its connection. -/
  | setAvailable (available : Bool)
  /-- The action sink gains or loses handlers. -/
  | setHandlers (hasHandlerFor : IdleAction → Bool)

/-- What can happen to the domain. -/
inductive Op where
  | call (c : Call)
  | processPendingCommands

/-- A part of an operation: one that does not loop is a part of its own, and
`process_pending_commands` takes the queue and then applies its items. -/
inductive Micro where
  | call (c : Call)
  | take
  | item (item : MailboxItem IdleCommand)

/-- One operation that does not loop. -/
def call (s : IdleDomainState) : Call → IdleDomainState
  | .beginStart => s.beginStart
  | .markReady nowMs => s.markReady nowMs
  | .reportOwnerFailure error nowMs => s.reportOwnerFailure error nowMs
  | .resetQuarantine => s.resetQuarantine
  | .tick nowMs => s.tick nowMs
  | .handleBackendEvent event nowMs => s.handleBackendEvent event nowMs
  | .submitCommand command => (s.submitCommand command).2
  | .setAvailable available => { s with backend := { s.backend with available := available } }
  | .setHandlers hasHandlerFor => { s with hasHandlerFor := hasHandlerFor }

/-- One operation. -/
def step (s : IdleDomainState) : Op → IdleDomainState
  | .call c => s.call c
  | .processPendingCommands => s.processPendingCommands

/-- One part of an operation. -/
def micro (s : IdleDomainState) : Micro → IdleDomainState
  | .call c => s.call c
  | .take => s.takeQueue
  | .item item => s.applyItem item

/-- The parts of an operation. -/
def unfold (s : IdleDomainState) : Op → List Micro
  | .call c => [.call c]
  | .processPendingCommands => .take :: s.inner.queue.map .item

theorem step_eq_run_unfold (s : IdleDomainState) (o : Op) :
    s.step o = run micro s (s.unfold o) := by
  cases o with
  | call c => rfl
  | processPendingCommands =>
    rw [unfold, run_cons, run_map]
    rfl

end IdleDomainState

end Shilpo.Idle
