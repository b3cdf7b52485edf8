import Shilpo.Auth.Types
import Shilpo.Theory.Runs

/-!
# The authentication domain

The state machine of `auth/state.rs`: `AuthDomainState` with its operations under the
source's names. The source keeps the session in a mutex of its own, `active_session`,
beside the mutex `inner`; here each operation is one step, which the modules about
the two mutexes take apart.

As in the idle domain, the state also holds the snapshots published and the tickets
resolved. The helper's answers come from the world, `world`.
-/

namespace Shilpo.Auth

open Shilpo.Domain Shilpo.Theory

universe u v

/-! ### The state -/

/-- What the mutex `active_session` guards, where there is a session. -/
structure ActiveSession (S : Type v) where
  helperSession : S
  lastInteractionMs : ℕ
  completedAtMs : Option ℕ

/-- What the mutex `inner` guards. -/
structure InnerState where
  version : DomainVersion
  lifecycle : DomainLifecycle
  supervisor : DomainSupervisor
  queue : List (MailboxItem AuthCommand)
  capacity : ℕ
  lastError : Option String
  promptState : Option AuthPromptState
  lastOutcome : Option AuthOutcome
  hadPriorReadiness : Bool
  overloads : ℕ
  supersessions : ℕ

/-- The authentication domain. -/
structure AuthDomainState (W : Type u) (S : Type v) where
  /-- What the mutex `inner` guards. -/
  inner : InnerState
  /-- What the mutex `active_session` guards. -/
  activeSession : Option (ActiveSession S)
  /-- The world that the helper lives in. -/
  world : W
  /-- The snapshots published, the current one last. -/
  published : List AuthSnapshot
  /-- The tickets resolved, each with its outcome. -/
  resolved : List (ℕ × AuthCommandOutcome)
  /-- How many tickets have been handed out. -/
  tickets : ℕ

namespace AuthDomainState

variable {W : Type u} {S : Type v} (helper : AuthHelper W S)

/-! ### Publishing and resolving -/

/-- `snapshot_from`. -/
def snapshotFrom (g : InnerState) : AuthSnapshot where
  version := g.version
  lifecycle := g.lifecycle
  authenticating := g.promptState.isSome && g.lastOutcome.isNone
  promptState := g.promptState
  lastOutcome := g.lastOutcome
  lastError := g.lastError

/-- `publish_snapshot_locked`. -/
def publishSnapshotLocked (s : AuthDomainState W S) : AuthDomainState W S :=
  { s with published := s.published ++ [snapshotFrom s.inner] }

/-- `snapshot()`: the current value of the watch channel. -/
def snapshot (s : AuthDomainState W S) : AuthSnapshot := s.published.getLastD .default

variable (s : AuthDomainState W S)

@[simp] theorem inner_publishSnapshotLocked :
    s.publishSnapshotLocked.inner = s.inner := rfl

@[simp] theorem snapshot_publishSnapshotLocked :
    s.publishSnapshotLocked.snapshot = snapshotFrom s.inner := by
  simp [publishSnapshotLocked, snapshot]

/-- The next revision of the same owner. -/
def bumpRevision (s : AuthDomainState W S) : AuthDomainState W S :=
  { s with inner := { s.inner with version := s.inner.version.bump } }

/-- `resolver.resolve(outcome)` for the ticket. -/
def resolve (s : AuthDomainState W S) (ticket : ℕ) (outcome : AuthCommandOutcome) :
    AuthDomainState W S :=
  { s with resolved := s.resolved ++ [(ticket, outcome)] }

/-- Take the queue and cancel all that was pending, for a new owner. -/
def cancelQueue (s : AuthDomainState W S) : AuthDomainState W S :=
  { s with
    inner := { s.inner with queue := [] }
    resolved := s.resolved ++ s.inner.queue.map fun item =>
      (item.ticket, .cancelled .ownerReplaced) }

/-- `clear_active_session_locked`: the session is gone, its helper killed. -/
def clearActiveSessionLocked (s : AuthDomainState W S) : AuthDomainState W S :=
  match s.activeSession with
  | some session =>
    { s with
      activeSession := none
      world := helper.kill s.world session.helperSession }
  | none => s

@[simp] theorem inner_clearActiveSessionLocked :
    (s.clearActiveSessionLocked helper).inner = s.inner := by
  unfold clearActiveSessionLocked; split <;> rfl

@[simp] theorem activeSession_clearActiveSessionLocked :
    (s.clearActiveSessionLocked helper).activeSession = none := by
  unfold clearActiveSessionLocked; split <;> simp_all

@[simp] theorem published_clearActiveSessionLocked :
    (s.clearActiveSessionLocked helper).published = s.published := by
  unfold clearActiveSessionLocked; split <;> rfl

/-! ### Supervision and lifecycle -/

/-- `begin_start`. -/
def beginStart (s : AuthDomainState W S) : AuthDomainState W S :=
  let s := { s with
    inner := { s.inner with
      supervisor := s.inner.supervisor.markStarting
      version := ⟨s.inner.version.ownerGeneration + 1, 0⟩
      lifecycle := startingLifecycle s.inner.hadPriorReadiness } }
  (s.cancelQueue.clearActiveSessionLocked helper).publishSnapshotLocked

/-- `mark_ready`. -/
def markReady (s : AuthDomainState W S) (nowMs : ℕ) : AuthDomainState W S :=
  { s with
    inner := { s.inner with
      supervisor := s.inner.supervisor.markRunning nowMs
      hadPriorReadiness := true
      lifecycle := .ready
      lastError := none } }.publishSnapshotLocked

/-- `report_owner_failure`. -/
def reportOwnerFailure (s : AuthDomainState W S) (error : String) (nowMs : ℕ) :
    AuthDomainState W S :=
  let supervisor := s.inner.supervisor.recordFailure nowMs
  let s := { s with
    inner := { s.inner with
      supervisor := supervisor
      lastError := some error
      lifecycle := failedLifecycle supervisor.state s.inner.hadPriorReadiness } }
  (s.clearActiveSessionLocked helper).publishSnapshotLocked

/-- `reset_quarantine`. -/
def resetQuarantine (s : AuthDomainState W S) : AuthDomainState W S :=
  let (supervisor, wasQuarantined) := s.inner.supervisor.resetQuarantine
  if wasQuarantined then
    { s with
      inner := { s.inner with
        supervisor := supervisor
        lifecycle := startingLifecycle s.inner.hadPriorReadiness } }.publishSnapshotLocked
  else s

/-- `tick`. A dismissed session's helper has ended, so it is dropped and not killed. -/
def tick (s : AuthDomainState W S) (nowMs : ℕ) : AuthDomainState W S :=
  let s := { s with inner := { s.inner with supervisor := s.inner.supervisor.tick nowMs } }
  match s.activeSession.bind fun session =>
    due defaultInactivityTimeoutMs session.completedAtMs session.lastInteractionMs nowMs with
  | some .successDismiss =>
    { s with
      activeSession := none
      inner := { s.inner with promptState := none } }.bumpRevision.publishSnapshotLocked
  | some .inactivity =>
    let s := s.clearActiveSessionLocked helper
    { s with
      inner := { s.inner with
        promptState := none
        lastOutcome := some (.failed "inactivity timeout") } }.bumpRevision.publishSnapshotLocked
  | none => s

/-! ### Helper events -/

/-- `apply_helper_event_to_prompt`. -/
def applyHelperEventToPrompt (p : AuthPromptState) : AuthHelperEvent → AuthPromptState
  | .promptEchoOff prompt => p.ask false prompt
  | .promptEchoOn prompt => p.ask true prompt
  | .errorMessage text => p.say true text
  | .textInfo text => p.say false text
  | .success | .failure _ => p.ended

/-- `apply_helper_event`. -/
def applyHelperEvent (g : InnerState) (session : ActiveSession S) (event : AuthHelperEvent)
    (nowMs : ℕ) : InnerState × ActiveSession S × EventOutcome :=
  let prompt := applyHelperEventToPrompt (g.promptState.getD .default) event
  match event with
  | .success =>
    ({ g with
        promptState := some (prompt.say false "Authentication successful.")
        lastOutcome := some .succeeded },
      { session with completedAtMs := some nowMs }, .succeeded)
  | .failure message =>
    ({ g with promptState := none, lastOutcome := some (.failed message) }, session, .failed)
  | _ => ({ g with promptState := some prompt }, session, .prompt)

/-- `poll_active_helper_event`: the event, if the session's helper has one. The source's clock is
`nowMs`, and a session that failed is dropped. -/
def pollActiveHelperEvent (s : AuthDomainState W S) (nowMs : ℕ) :
    Option AuthHelperEvent × AuthDomainState W S :=
  match s.activeSession with
  | none => (none, s)
  | some session =>
    match helper.tryRecvEvent s.world session.helperSession with
    | (none, world) => (none, { s with world := world })
    | (some event, world) =>
      let (inner, session, outcome) :=
        applyHelperEvent s.inner { session with lastInteractionMs := nowMs } event nowMs
      let s := { s with inner := inner, activeSession := some session, world := world }
      let s := s.bumpRevision.publishSnapshotLocked
      (some event, if outcome = .failed then { s with activeSession := none } else s)

/-! ### Commands -/

/-- `submit_command`: the ticket of an accepted command, or why it was rejected. -/
def submitCommand (s : AuthDomainState W S) (command : AuthCommand) :
    Except AuthCommandOutcome ℕ × AuthDomainState W S :=
  if s.inner.lifecycle = .unavailable then (.error (.rejected .unavailable), s)
  else
    let item : MailboxItem AuthCommand := ⟨s.tickets, command, s.inner.version.ownerGeneration⟩
    match admission AuthCommand.policy s.inner.capacity s.inner.queue item with
    | .overloaded =>
      (.error (.rejected .overloaded),
        { s with inner := { s.inner with overloads := s.inner.overloads + 1 } })
    | .queued none queue =>
      (.ok s.tickets, { s with inner := { s.inner with queue := queue }, tickets := s.tickets + 1 })
    | .queued (some old) queue =>
      let s' := { s with
        inner := { s.inner with queue := queue, supersessions := s.inner.supersessions + 1 }
        tickets := s.tickets + 1 }
      (.ok s.tickets, s'.resolve old.ticket (.cancelled .superseded))

/-- How an applied command ends: a new revision, published, and the ticket resolved with it. -/
def applied (s : AuthDomainState W S) (ticket : ℕ) : AuthDomainState W S :=
  s.bumpRevision.publishSnapshotLocked.resolve ticket (.applied s.inner.version.bump)

/-- The attempt failed before it had a session. -/
def attemptFailed (g : InnerState) : Bool :=
  (match g.lastOutcome with | some (.failed _) => true | _ => false) && g.promptState.isNone

/-- `BeginAuthentication`: a running attempt gives way, and the new helper's first event is taken
with it. -/
def beginAuthentication (s : AuthDomainState W S) (service : String) (nowMs : ℕ) :
    AuthDomainState W S :=
  let s := s.clearActiveSessionLocked helper
  let s := { s with inner := { s.inner with promptState := some .default, lastOutcome := none } }
  match helper.spawnSession s.world service with
  | (.ok helperSession, world) =>
    let session : ActiveSession S := ⟨helperSession, nowMs, none⟩
    let (event, world) := helper.tryRecvEvent world helperSession
    let (inner, session) := match event with
      | some event =>
        let (inner, session, _) := applyHelperEvent s.inner session event nowMs
        (inner, session)
      | none => (s.inner, session)
    { s with
      inner := inner
      world := world
      activeSession := if attemptFailed inner then s.activeSession else some session }
  | (.error err, world) =>
    let message := "failed to spawn PAM helper: " ++ err
    { s with
      inner := { s.inner with
        lastError := some message
        promptState := none
        lastOutcome := some (.failed message) }
      world := world }

/-- `ProvideResponse`: the response goes to the session's helper, if there is one. -/
def provideResponse (s : AuthDomainState W S) (ticket : ℕ) (response : String) (nowMs : ℕ) :
    AuthDomainState W S :=
  match s.activeSession with
  | none => s.resolve ticket (.rejected .notAuthenticating)
  | some session =>
    let session := { session with lastInteractionMs := nowMs }
    let (result, world) := helper.writeResponse s.world session.helperSession response
    let lastError := match result with
      | .ok _ => s.inner.lastError
      | .error err => some ("failed to write PAM response: " ++ err)
    { s with
      activeSession := some session
      world := world
      inner := { s.inner with lastError := lastError } }.applied ticket

/-- Apply a command of this owner, in the loop of `process_pending_commands`. -/
def applyCommand (s : AuthDomainState W S) (ticket : ℕ) (nowMs : ℕ) :
    AuthCommand → AuthDomainState W S
  | .beginAuthentication service => (s.beginAuthentication helper service nowMs).applied ticket
  | .provideResponse response => s.provideResponse helper ticket response nowMs
  | .cancelAuthentication =>
    let s := s.clearActiveSessionLocked helper
    { s with
      inner := { s.inner with
        promptState := none
        lastOutcome := some (.failed "cancelled") } }.applied ticket
  | .resetQuarantine =>
    { s with
      inner := { s.inner with supervisor := s.inner.supervisor.resetQuarantine.1 } }.applied ticket

/-- The body of the loop of `process_pending_commands`: a command of an older owner is cancelled. -/
def applyItem (s : AuthDomainState W S) (nowMs : ℕ) (item : MailboxItem AuthCommand) :
    AuthDomainState W S :=
  if item.generation ≠ s.inner.version.ownerGeneration then
    s.resolve item.ticket (.cancelled .ownerReplaced)
  else s.applyCommand helper item.ticket nowMs item.command

/-- `std::mem::take(&mut guard.queue)`. -/
def takeQueue (s : AuthDomainState W S) : AuthDomainState W S :=
  { s with inner := { s.inner with queue := [] } }

/-- `process_pending_commands`. -/
def processPendingCommands (s : AuthDomainState W S) (nowMs : ℕ) : AuthDomainState W S :=
  s.inner.queue.foldl (fun s item => s.applyItem helper nowMs item) s.takeQueue

/-! ### A new domain -/

/-- `AuthDomainState::with_time_source`, for a mailbox, in a world. -/
def new (capacity : ℕ) (world : W) : AuthDomainState W S where
  inner := {
    version := .zero
    lifecycle := .unavailable
    supervisor := .new
    queue := []
    capacity := capacity
    lastError := none
    promptState := none
    lastOutcome := none
    hadPriorReadiness := false
    overloads := 0
    supersessions := 0 }
  activeSession := none
  world := world
  published := [.default]
  resolved := []
  tickets := 0

/-! ### Runs -/

/-- The operations that do not loop, and changes of the world. -/
inductive Call (W : Type u) where
  | beginStart
  | markReady (nowMs : ℕ)
  | reportOwnerFailure (error : String) (nowMs : ℕ)
  | resetQuarantine
  | tick (nowMs : ℕ)
  | pollActiveHelperEvent (nowMs : ℕ)
  | submitCommand (command : AuthCommand)
  /-- The world changes by itself: a helper writes, or ends. -/
  | setWorld (world : W)

/-- What can happen to the domain. -/
inductive Op (W : Type u) where
  | call (c : Call W)
  | processPendingCommands (nowMs : ℕ)

/-- A part of an operation: one that does not loop is a part of its own, and
`process_pending_commands` takes the queue and then applies its items. -/
inductive Micro (W : Type u) where
  | call (c : Call W)
  | take
  | item (nowMs : ℕ) (item : MailboxItem AuthCommand)

/-- One operation that does not loop. -/
def call (s : AuthDomainState W S) : Call W → AuthDomainState W S
  | .beginStart => s.beginStart helper
  | .markReady nowMs => s.markReady nowMs
  | .reportOwnerFailure error nowMs => s.reportOwnerFailure helper error nowMs
  | .resetQuarantine => s.resetQuarantine
  | .tick nowMs => s.tick helper nowMs
  | .pollActiveHelperEvent nowMs => (s.pollActiveHelperEvent helper nowMs).2
  | .submitCommand command => (s.submitCommand command).2
  | .setWorld world => { s with world := world }

/-- One operation. -/
def step (s : AuthDomainState W S) : Op W → AuthDomainState W S
  | .call c => s.call helper c
  | .processPendingCommands nowMs => s.processPendingCommands helper nowMs

/-- One part of an operation. -/
def micro (s : AuthDomainState W S) : Micro W → AuthDomainState W S
  | .call c => s.call helper c
  | .take => s.takeQueue
  | .item nowMs item => s.applyItem helper nowMs item

/-- The parts of an operation. -/
def unfold (s : AuthDomainState W S) : Op W → List (Micro W)
  | .call c => [.call c]
  | .processPendingCommands nowMs => .take :: s.inner.queue.map (.item nowMs)

theorem step_eq_run_unfold (o : Op W) :
    s.step helper o = run (micro helper) s (s.unfold o) := by
  cases o with
  | call c => rfl
  | processPendingCommands nowMs =>
    rw [unfold, run_cons, run_map]
    rfl

end AuthDomainState

end Shilpo.Auth
