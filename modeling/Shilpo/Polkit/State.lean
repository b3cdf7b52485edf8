import Shilpo.Polkit.Types
import Shilpo.Theory.Runs

/-!
# The PolicyKit agent

The state machine of `polkit/state.rs`: `PolkitDomainState` with its operations under
the source's names. Every operation but `poll_active_helper_event` and
`cancel_authentication` holds the mutex `inner` from start to end, and
`cancel_authentication` holds `active_session`; each is one step here.
`poll_active_helper_event` gives both mutexes up before it drops a session that
failed, so it is `pollApply` and then `dropSession`.

Beside the domain's fields the state holds its sides of the interfaces it talks to:
the completion senders handed over and what was sent on them, the events the helpers
reported, the responses written to them, the snapshots sent and the tickets resolved.
A completion sender is the number of requests handed over before it.
-/

namespace Shilpo.Polkit

open Shilpo.Domain Shilpo.Theory

universe u v

/-! ### The state -/

/-- What the mutex `active_session` guards, where there is a session. -/
structure ActiveSession (S : Type v) where
  request : PolkitRequest
  helperSession : Option (Spawned S)
  /-- The completion sender, until it is used. -/
  completionTx : Option ℕ
  lastInteractionMs : ℕ
  completedAtMs : Option ℕ
  /-- Which request of the authority it is for. Not in the program. -/
  origin : ℕ

/-- What using the session's completion sender sends, if it has not been used. -/
def ActiveSession.complete {S : Type v} (session : ActiveSession S) (result : Completion) :
    List (ℕ × Completion) :=
  (session.completionTx.map fun tx => (tx, result)).toList

/-- What the mutex `inner` guards. -/
structure InnerState where
  supervisor : DomainSupervisor
  lifecycle : DomainLifecycle
  ownerGeneration : ℕ
  revision : ℕ
  request : Option PolkitRequest
  promptState : Option PolkitPromptState
  lastError : Option String
  helperPath : Option String
  markNextInternal : Bool
  hadPriorReadiness : Bool
  queue : List (MailboxItem PolkitCommand)
  overloads : ℕ
  supersessions : ℕ
  restarts : ℕ

/-- The PolicyKit agent. -/
structure PolkitDomainState (W : Type u) (S : Type v) where
  /-- How many commands the mailbox is meant to hold. -/
  capacity : ℕ
  /-- How long a conversation may go without interaction. -/
  inactivityTimeoutMs : ℕ
  /-- What the mutex `inner` guards. -/
  inner : InnerState
  /-- What the mutex `active_session` guards. -/
  activeSession : Option (ActiveSession S)
  /-- The world that the helpers live in. -/
  world : W
  /-- How many completion senders have been handed over. -/
  handed : ℕ
  /-- What was sent on completion senders. -/
  sent : List (ℕ × Completion)
  /-- What the helpers reported, each event with the request its helper was spawned for. -/
  reports : List (ℕ × HelperEvent)
  /-- The responses written to helpers. -/
  written : List Written
  /-- The snapshots sent to subscribers. -/
  published : List PolkitSnapshot
  /-- The tickets resolved, each with its outcome. -/
  resolved : List (ℕ × PolkitCommandOutcome)
  /-- How many tickets have been handed out. -/
  tickets : ℕ

namespace PolkitDomainState

variable {W : Type u} {S : Type v} (helper : PolkitHelper W S)

/-! ### Publishing and resolving -/

/-- `DomainVersion::new(guard.owner_generation, guard.revision)`. -/
def version (g : InnerState) : DomainVersion := ⟨g.ownerGeneration, g.revision⟩

/-- `snapshot_from`. -/
def snapshotFrom (g : InnerState) : PolkitSnapshot where
  version := version g
  lifecycle := g.lifecycle
  request := g.request
  promptState := g.promptState
  lastError := g.lastError
  helperPath := g.helperPath

/-- `snapshot()`: made from what the mutex guards, and not from the last one sent. -/
def snapshot (s : PolkitDomainState W S) : PolkitSnapshot := snapshotFrom s.inner

/-- `publish_snapshot`. -/
def publishSnapshot (s : PolkitDomainState W S) : PolkitDomainState W S :=
  { s with published := s.published ++ [s.snapshot] }

/-- `guard.revision += 1`. -/
def bumpRevision (s : PolkitDomainState W S) : PolkitDomainState W S :=
  { s with inner := { s.inner with revision := s.inner.revision + 1 } }

/-- `resolver.resolve(outcome)` for the ticket. -/
def resolve (s : PolkitDomainState W S) (ticket : ℕ) (outcome : PolkitCommandOutcome) :
    PolkitDomainState W S :=
  { s with resolved := s.resolved ++ [(ticket, outcome)] }

/-- Empty the queue and cancel all that was pending. -/
def cancelQueue (s : PolkitDomainState W S) : PolkitDomainState W S :=
  { s with
    inner := { s.inner with queue := [] }
    resolved := s.resolved ++ s.inner.queue.map fun item => (item.ticket, .cancelled .shutdown) }

/-- The dialog is taken down. -/
def clearDialog (s : PolkitDomainState W S) : PolkitDomainState W S :=
  { s with inner := { s.inner with request := none, promptState := none } }

/-! ### Sessions -/

/-- The session is taken, its helper killed, and its sender used. -/
def closeSession (s : PolkitDomainState W S) (reason : String) : PolkitDomainState W S :=
  match s.activeSession with
  | some session =>
    { s with
      activeSession := none
      world := match session.helperSession with
        | some spawned => helper.kill s.world spawned.handle
        | none => s.world
      sent := s.sent ++ session.complete (.error reason) }
  | none => s

/-- `*self.active_session.lock().unwrap() = None`. -/
def dropSession (s : PolkitDomainState W S) : PolkitDomainState W S :=
  { s with activeSession := none }

/-- `try_recv_event` of a helper session. -/
def recvEvent (s : PolkitDomainState W S) (spawned : Spawned S) :
    Option HelperEvent × PolkitDomainState W S :=
  let (event, world) := helper.tryRecvEvent s.world spawned.handle
  (event, { s with
    world := world
    reports := s.reports ++ (event.map fun e => (spawned.origin, e)).toList })

/-! ### Helper events -/

/-- `apply_helper_event_to_prompt`. -/
def applyHelperEventToPrompt (p : PolkitPromptState) : HelperEvent → PolkitPromptState
  | .promptEchoOff prompt => p.ask false prompt
  | .promptEchoOn prompt => p.ask true prompt
  | .errorMessage text => p.say true text
  | .textInfo text => p.say false text
  | .success | .failure => p.ended

/-- What applying an event leaves. -/
structure Applied (S : Type v) where
  inner : InnerState
  session : ActiveSession S
  outcome : EventOutcome
  /-- What is sent on the session's completion sender. -/
  sends : List (ℕ × Completion)

/-- `apply_helper_event`. -/
def applyHelperEvent (g : InnerState) (session : ActiveSession S) (event : HelperEvent)
    (nowMs : ℕ) : Applied S :=
  let prompt := applyHelperEventToPrompt (g.promptState.getD .default) event
  match event with
  | .success =>
    { inner := { g with promptState := some (prompt.say false "Authentication successful.") }
      session := { session with
        completionTx := none
        helperSession := none
        completedAtMs := some nowMs }
      outcome := .succeeded
      sends := session.complete (.ok ()) }
  | .failure =>
    { inner := { g with request := none, promptState := none }
      session := { session with completionTx := none }
      outcome := .failed
      sends := session.complete (.error "Authentication failed") }
  | _ => ⟨{ g with promptState := some prompt }, session, .prompt, []⟩

/-- The session goes on as an event has left it; it is kept here even where it failed. -/
def afterEvent (s : PolkitDomainState W S) (a : Applied S) : PolkitDomainState W S :=
  { s with inner := a.inner, activeSession := some a.session, sent := s.sent ++ a.sends }

/-- `try_recv_event` and, if there is an event, `apply_helper_event`: the event and what it comes
to. An event counts as an interaction; where the source does not say so, there has just been one. -/
def pumpEvent (s : PolkitDomainState W S) (session : ActiveSession S) (spawned : Spawned S)
    (nowMs : ℕ) : Option (HelperEvent × EventOutcome) × PolkitDomainState W S :=
  match s.recvEvent helper spawned with
  | (none, s) => (none, { s with activeSession := some session })
  | (some event, s) =>
    let a := applyHelperEvent s.inner { session with lastInteractionMs := nowMs } event nowMs
    (some (event, a.outcome), s.afterEvent a)

/-- What `pumpEvent` can leave. -/
inductive Pumped (s : PolkitDomainState W S) (session : ActiveSession S) (spawned : Spawned S)
    (nowMs : ℕ) : Option (HelperEvent × EventOutcome) × PolkitDomainState W S → Prop where
  | quiet (world : W) :
    Pumped s session spawned nowMs (none, { s with world := world, activeSession := some session })
  | prompt (world : W) (event : HelperEvent) (hgoes : event ≠ .success ∧ event ≠ .failure)
      (prompt : PolkitPromptState) :
    Pumped s session spawned nowMs (some (event, .prompt), { s with
      world := world
      inner := { s.inner with promptState := some prompt }
      activeSession := some { session with lastInteractionMs := nowMs }
      reports := s.reports ++ [(spawned.origin, event)] })
  | succeeded (world : W) (prompt : PolkitPromptState) :
    Pumped s session spawned nowMs (some (.success, .succeeded), { s with
      world := world
      inner := { s.inner with promptState := some prompt }
      activeSession := some { session with
        lastInteractionMs := nowMs
        completionTx := none
        helperSession := none
        completedAtMs := some nowMs }
      sent := s.sent ++ session.complete (.ok ())
      reports := s.reports ++ [(spawned.origin, .success)] })
  | failed (world : W) :
    Pumped s session spawned nowMs (some (.failure, .failed), { s with
      world := world
      inner := { s.inner with request := none, promptState := none }
      activeSession := some { session with lastInteractionMs := nowMs, completionTx := none }
      sent := s.sent ++ session.complete (.error "Authentication failed")
      reports := s.reports ++ [(spawned.origin, .failure)] })

theorem pumped (s : PolkitDomainState W S) (session : ActiveSession S) (spawned : Spawned S)
    (nowMs : ℕ) : Pumped s session spawned nowMs (s.pumpEvent helper session spawned nowMs) := by
  unfold pumpEvent recvEvent
  obtain ⟨event, world⟩ := helper.tryRecvEvent s.world spawned.handle
  cases event with
  | none => simpa using .quiet world
  | some event =>
    cases event with
    | success => exact .succeeded world _
    | failure => exact .failed world
    | promptEchoOff text =>
      simpa [applyHelperEvent, afterEvent] using .prompt world (.promptEchoOff text) (by simp) _
    | promptEchoOn text =>
      simpa [applyHelperEvent, afterEvent] using .prompt world (.promptEchoOn text) (by simp) _
    | errorMessage text =>
      simpa [applyHelperEvent, afterEvent] using .prompt world (.errorMessage text) (by simp) _
    | textInfo text =>
      simpa [applyHelperEvent, afterEvent] using .prompt world (.textInfo text) (by simp) _

/-! ### Lifecycle -/

/-- `begin_start`. The source returns the new owner generation as well. -/
def beginStart (s : PolkitDomainState W S) : PolkitDomainState W S :=
  { s with
    inner := { s.inner with
      ownerGeneration := s.inner.ownerGeneration + 1
      restarts := s.inner.restarts + 1
      revision := 0
      lifecycle := startingLifecycle s.inner.hadPriorReadiness
      supervisor := s.inner.supervisor.markStarting
      lastError := none
      helperPath := helper.probePath s.world } }.publishSnapshot

/-- `mark_ready`. -/
def markReady (s : PolkitDomainState W S) (nowMs : ℕ) : PolkitDomainState W S :=
  { s with
    inner := { s.inner with
      lifecycle := .ready
      hadPriorReadiness := true
      lastError := none
      supervisor := s.inner.supervisor.markRunning nowMs } }.bumpRevision.publishSnapshot

/-- `report_owner_failure`. -/
def reportOwnerFailure (s : PolkitDomainState W S) (error : String) (nowMs : ℕ) :
    PolkitDomainState W S :=
  { s with
    inner := { s.inner with
      lastError := some error
      lifecycle := .degraded
      supervisor := s.inner.supervisor.recordFailure nowMs } }.bumpRevision.publishSnapshot

/-- `reset_quarantine`. -/
def resetQuarantine (s : PolkitDomainState W S) : PolkitDomainState W S :=
  { s with inner := { s.inner with supervisor := s.inner.supervisor.resetQuarantine.1 } }

/-- `shutdown`. -/
def shutdown (s : PolkitDomainState W S) : PolkitDomainState W S :=
  let s := { s with
    inner := { s.inner with
      lifecycle := .unavailable
      supervisor := s.inner.supervisor.enterStopped } }
  (s.clearDialog.bumpRevision.closeSession helper "Service shutdown").cancelQueue.publishSnapshot

/-- `tick`. A dismissed session has completed, so it is dropped. -/
def tick (s : PolkitDomainState W S) (nowMs : ℕ) : PolkitDomainState W S :=
  let s := { s with inner := { s.inner with supervisor := s.inner.supervisor.tick nowMs } }
  match s.activeSession.bind fun session =>
    due s.inactivityTimeoutMs session.completedAtMs session.lastInteractionMs nowMs with
  | some .successDismiss => s.dropSession.clearDialog.bumpRevision.publishSnapshot
  | some .inactivity =>
    (s.closeSession helper "Inactivity timeout").clearDialog.bumpRevision.publishSnapshot
  | none => s

/-! ### Requests of the authority -/

/-- The last part of `begin_authentication`: the request is shown, and its session starts, unless
the helper's first event ends it. -/
def openSession (s : PolkitDomainState W S) (request : PolkitRequest) (spawned : Option (Spawned S))
    (origin nowMs : ℕ) : PolkitDomainState W S :=
  let s := { s with
    inner := { s.inner with request := some request, promptState := some .default } }.bumpRevision
  let session : ActiveSession S := ⟨request, spawned, some origin, nowMs, none, origin⟩
  match spawned with
  | none => { s with activeSession := some session }.publishSnapshot
  | some spawned =>
    match s.pumpEvent helper session spawned nowMs with
    | (none, s) => s.publishSnapshot
    | (some (_, outcome), s) =>
      (if outcome = .failed then s.bumpRevision.dropSession else s.bumpRevision).publishSnapshot

/-- An early return of `begin_authentication`: the sender is used, and nothing is published. -/
def refuse (s : PolkitDomainState W S) (origin : ℕ) (message : String) :
    Except String Unit × PolkitDomainState W S :=
  (.error message,
    { s with
      inner := { s.inner with lastError := some message }
      sent := s.sent ++ [(origin, .error message)] })

/-- `begin_authentication`: the completion sender it is handed is the next one. -/
def beginAuthentication (s : PolkitDomainState W S) (request : PolkitRequest) (nowMs : ℕ) :
    Except String Unit × PolkitDomainState W S :=
  let origin := s.handed
  let request := if s.inner.markNextInternal then { request with isInternal := true } else request
  let s := { s with
    handed := s.handed + 1
    inner := { s.inner with markNextInternal := false } }
  let s := s.closeSession helper "Superseded by new authentication request"
  match request.identities with
  | [identity] =>
    let username := identity.userName
    let request := { request with selectedIdentity := some username }
    match helper.spawnSession s.world username request.cookie with
    | (.ok handle, world) =>
      (.ok (), { s with world := world }.openSession helper request
        (some ⟨handle, username, request.cookie, origin⟩) origin nowMs)
    | (.error err, world) =>
      { s with world := world }.refuse origin ("Failed to spawn polkit-agent-helper-1: " ++ err)
  | [] => s.refuse origin "No identities provided by PolicyKit authority"
  | _ => (.ok (), s.openSession helper request none origin nowMs)

/-- The active session, if its request has this cookie. -/
def sessionFor (s : PolkitDomainState W S) (cookie : String) : Option (ActiveSession S) :=
  s.activeSession.filter fun session => session.request.cookie = cookie

/-- `cancel_authentication`. -/
def cancelAuthentication (s : PolkitDomainState W S) (cookie : String) : PolkitDomainState W S :=
  if (s.sessionFor cookie).isSome then
    let s := s.closeSession helper "Cancelled by PolicyKit authority"
    s.clearDialog.bumpRevision.publishSnapshot
  else s

/-! ### Commands -/

/-- `enqueue_command`: the ticket of an accepted command, or why it was rejected. -/
def enqueueCommand (s : PolkitDomainState W S) (command : PolkitCommand) :
    Except PolkitCommandOutcome ℕ × PolkitDomainState W S :=
  if s.inner.lifecycle = .unavailable then (.error (.rejected .unavailable), s)
  else
    let item : MailboxItem PolkitCommand := ⟨s.tickets, command, s.inner.ownerGeneration⟩
    match admission PolkitCommand.policy s.capacity s.inner.queue item with
    | .overloaded =>
      (.error (.rejected .overloaded),
        { s with inner := { s.inner with overloads := s.inner.overloads + 1 } })
    | .queued none queue =>
      (.ok s.tickets, { s with inner := { s.inner with queue := queue }, tickets := s.tickets + 1 })
    | .queued (some old) queue =>
      let s' := { s with
        inner := { s.inner with queue := queue, supersessions := s.inner.supersessions + 1 }
        tickets := s.tickets + 1 }
      (.ok s.tickets, s'.resolve old.ticket (.cancelled .superseded))

/-- How an applied command ends: a new revision, and the ticket resolved with it. -/
def applied (s : PolkitDomainState W S) (ticket : ℕ) : PolkitDomainState W S :=
  s.bumpRevision.resolve ticket (.applied (version s.bumpRevision.inner))

/-- The end of `SelectIdentity`: the session's request is shown. -/
def showRequest (s : PolkitDomainState W S) (request : PolkitRequest) (ticket : ℕ) :
    PolkitDomainState W S :=
  { s with inner := { s.inner with request := some request } }.applied ticket

/-- `SelectIdentity`: a session that has no helper gets one for the chosen user. -/
def selectIdentity (s : PolkitDomainState W S) (ticket : ℕ) (cookie username : String) (nowMs : ℕ) :
    PolkitDomainState W S :=
  match s.sessionFor cookie with
  | none => s.resolve ticket (.rejected .notFound)
  | some session =>
    let session := { session with
      lastInteractionMs := nowMs
      request := { session.request with selectedIdentity := some username } }
    match session.helperSession with
    | some _ => { s with activeSession := some session }.showRequest session.request ticket
    | none =>
      match helper.spawnSession s.world username cookie with
      | (.error err, world) =>
        let message := "Failed to spawn helper: " ++ err
        { s with
          world := world
          inner := { s.inner with lastError := some message }
          activeSession := some { session with completionTx := none }
          sent := s.sent ++ session.complete (.error message) }.resolve ticket
            (.rejected .invalidState)
      | (.ok handle, world) =>
        let spawned : Spawned S := ⟨handle, username, cookie, session.origin⟩
        let session := { session with helperSession := some spawned }
        match { s with world := world }.pumpEvent helper session spawned nowMs with
        | (none, s) => s.showRequest session.request ticket
        | (some (_, outcome), s) =>
          let s := s.bumpRevision
          if outcome = .failed then
            (s.dropSession.resolve ticket (.applied (version s.inner))).publishSnapshot
          else s.showRequest session.request ticket

/-- `ProvideResponse`: the response goes to the session's helper, if it has one. -/
def provideResponse (s : PolkitDomainState W S) (ticket : ℕ) (cookie response : String)
    (nowMs : ℕ) : PolkitDomainState W S :=
  match s.sessionFor cookie with
  | none => s.resolve ticket (.rejected .notFound)
  | some session =>
    let session := { session with lastInteractionMs := nowMs }
    match session.helperSession with
    | none => { s with activeSession := some session }.resolve ticket (.rejected .invalidState)
    | some spawned =>
      let (result, world) := helper.writeResponse s.world spawned.handle response
      let s := { s with
        world := world
        activeSession := some session
        written := s.written ++
          [(⟨response, spawned.username, s.inner.request.bind (·.selectedIdentity)⟩ : Written)] }
      match result with
      | .error err =>
        { s with
          inner := { s.inner with
            lastError := some ("Failed writing response to helper: " ++ err) } }.resolve ticket
          (.rejected .invalidState)
      | .ok _ =>
        let (event, s) := s.pumpEvent helper session spawned nowMs
        let s := s.applied ticket
        if event.map Prod.snd = some .failed then s.dropSession else s

/-- Apply a command of this owner, in the loop of `process_pending_commands`. -/
def applyCommand (s : PolkitDomainState W S) (ticket nowMs : ℕ) :
    PolkitCommand → PolkitDomainState W S
  | .markNextRequestInternal =>
    { s with inner := { s.inner with markNextInternal := true } }.applied ticket
  | .selectIdentity cookie username => s.selectIdentity helper ticket cookie username nowMs
  | .provideResponse cookie response => s.provideResponse helper ticket cookie response nowMs
  | .cancel cookie =>
    if (s.sessionFor cookie).isSome then
      (s.closeSession helper "Cancelled by user").clearDialog.applied ticket
    else s.resolve ticket (.rejected .notFound)
  | .dismiss => (s.closeSession helper "Dismissed by user").clearDialog.applied ticket

/-- The body of the loop of `process_pending_commands`: a command of an older owner is cancelled. -/
def applyItem (s : PolkitDomainState W S) (nowMs : ℕ) (item : MailboxItem PolkitCommand) :
    PolkitDomainState W S :=
  if item.generation ≠ s.inner.ownerGeneration then
    s.resolve item.ticket (.cancelled .ownerReplaced)
  else s.applyCommand helper item.ticket nowMs item.command

/-- The queue is popped until it is empty; nobody else sees it meanwhile. -/
def takeQueue (s : PolkitDomainState W S) : PolkitDomainState W S :=
  { s with inner := { s.inner with queue := [] } }

/-- `process_pending_commands`. -/
def processPendingCommands (s : PolkitDomainState W S) (nowMs : ℕ) : PolkitDomainState W S :=
  (s.inner.queue.foldl (fun s item => s.applyItem helper nowMs item) s.takeQueue).publishSnapshot

/-! ### Polling -/

/-- `poll_active_helper_event` until it gives its mutexes up: the event, if the session's helper has
one, and whether the session failed. -/
def pollApply (s : PolkitDomainState W S) (nowMs : ℕ) :
    Option HelperEvent × Bool × PolkitDomainState W S :=
  match s.activeSession with
  | none => (none, false, s)
  | some session =>
    match session.helperSession with
    | none => (none, false, s)
    | some spawned =>
      match s.pumpEvent helper session spawned nowMs with
      | (none, s) => (none, false, s)
      | (some (event, outcome), s) =>
        (some event, outcome = .failed, s.bumpRevision.publishSnapshot)

/-- `poll_active_helper_event`, where nothing comes between its two parts. -/
def pollActiveHelperEvent (s : PolkitDomainState W S) (nowMs : ℕ) :
    Option HelperEvent × PolkitDomainState W S :=
  let (event, failed, s) := s.pollApply helper nowMs
  (event, if failed then s.dropSession else s)

/-! ### A new domain -/

/-- `PolkitDomainState::with_time_source`, for a mailbox, in a world. -/
def new (capacity : ℕ) (world : W) (inactivityTimeoutMs : ℕ) : PolkitDomainState W S where
  capacity := capacity
  inactivityTimeoutMs := inactivityTimeoutMs
  inner := {
    supervisor := .new
    lifecycle := .unavailable
    ownerGeneration := 0
    revision := 0
    request := none
    promptState := none
    lastError := none
    helperPath := helper.probePath world
    markNextInternal := false
    hadPriorReadiness := false
    queue := []
    overloads := 0
    supersessions := 0
    restarts := 0 }
  activeSession := none
  world := world
  handed := 0
  sent := []
  reports := []
  written := []
  published := [⟨.zero, .unavailable, none, none, none, none⟩]
  resolved := []
  tickets := 0

/-! ### Runs -/

/-- The operations that neither loop nor poll, and changes of the world. -/
inductive Call (W : Type u) where
  | beginStart
  | markReady (nowMs : ℕ)
  | reportOwnerFailure (error : String) (nowMs : ℕ)
  | resetQuarantine
  | shutdown
  | tick (nowMs : ℕ)
  | beginAuthentication (request : PolkitRequest) (nowMs : ℕ)
  | cancelAuthentication (cookie : String)
  | enqueueCommand (command : PolkitCommand)
  /-- The world changes by itself: a helper writes, or ends. -/
  | setWorld (world : W)

/-- What can happen to the domain. -/
inductive Op (W : Type u) where
  | call (c : Call W)
  | processPendingCommands (nowMs : ℕ)
  | pollActiveHelperEvent (nowMs : ℕ)

/-- A part of an operation: one that neither loops nor polls is a part of its own,
`process_pending_commands` takes the queue, applies its items and publishes, and
`poll_active_helper_event` is one part. -/
inductive Micro (W : Type u) where
  | call (c : Call W)
  | take
  | item (nowMs : ℕ) (item : MailboxItem PolkitCommand)
  | publish
  | poll (nowMs : ℕ)

/-- One operation that neither loops nor polls. -/
def call (s : PolkitDomainState W S) : Call W → PolkitDomainState W S
  | .beginStart => s.beginStart helper
  | .markReady nowMs => s.markReady nowMs
  | .reportOwnerFailure error nowMs => s.reportOwnerFailure error nowMs
  | .resetQuarantine => s.resetQuarantine
  | .shutdown => s.shutdown helper
  | .tick nowMs => s.tick helper nowMs
  | .beginAuthentication request nowMs => (s.beginAuthentication helper request nowMs).2
  | .cancelAuthentication cookie => s.cancelAuthentication helper cookie
  | .enqueueCommand command => (s.enqueueCommand command).2
  | .setWorld world => { s with world := world }

/-- One operation. -/
def step (s : PolkitDomainState W S) : Op W → PolkitDomainState W S
  | .call c => s.call helper c
  | .processPendingCommands nowMs => s.processPendingCommands helper nowMs
  | .pollActiveHelperEvent nowMs => (s.pollActiveHelperEvent helper nowMs).2

/-- One part of an operation. -/
def micro (s : PolkitDomainState W S) : Micro W → PolkitDomainState W S
  | .call c => s.call helper c
  | .take => s.takeQueue
  | .item nowMs item => s.applyItem helper nowMs item
  | .publish => s.publishSnapshot
  | .poll nowMs => (s.pollActiveHelperEvent helper nowMs).2

/-- The parts of an operation. -/
def unfold (s : PolkitDomainState W S) : Op W → List (Micro W)
  | .call c => [.call c]
  | .processPendingCommands nowMs =>
    Micro.take :: s.inner.queue.map (.item nowMs) ++ [Micro.publish]
  | .pollActiveHelperEvent nowMs => [.poll nowMs]

theorem step_eq_run_unfold (s : PolkitDomainState W S) (o : Op W) :
    s.step helper o = run (micro helper) s (s.unfold o) := by
  cases o with
  | call c => rfl
  | processPendingCommands nowMs =>
    rw [unfold, run_append, run_cons, run_cons, run_nil, run_map]
    rfl
  | pollActiveHelperEvent nowMs => rfl

end PolkitDomainState

end Shilpo.Polkit
