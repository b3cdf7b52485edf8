import Shilpo.ExtensionHost.Protocol
import Shilpo.Theory.Runs

/-!
# The supervisor of the extension host

`supervisor_loop` of `shell/extensions/supervisor.rs` with what it shares with the shell: the
published snapshot, the update channel that `drain_updates` empties, and the reloads reported as
timed out. The loop spawns a child, writes a handshake, waits for the child's first message and
then takes a command and a message in turn, until the child is lost; where a failure is recorded
it backs off, or gives up for good.

* `Phase` — where the loop is; `LoopEvent` — what it sees there, or what another thread does
  meanwhile;
* `recordFailure` — the crash accounting, the same after each failure;
* `spawn`, `handshake`, `readInitial`, `dequeue`, `readMessage` — what the loop does in a phase;
* `act`, `next` — one step; `act_induction` for what every step keeps.

The spawner, the children and the clock are the inputs: any child may fail to start, exit, fall
silent or say anything at any moment, and a step may take any time. A sleep takes at least as long
as it was asked for. The queues of commands and searches are inputs too (what is taken from them),
and so is the number of development artifacts replayed to a new child. Diagnostics are left out.

What the loop does not have is kept for the proofs: how each child has ended as far as the loop
knows (`children`), the last spawn, how the last child was left, the failures since the
last reset, what was accepted from the current child and at all, and the place of each update among
those that passed the generation checks.
-/

namespace Shilpo.ExtensionHost

open Shilpo.Theory

/-! ### The loop's phases -/

/-- Where the loop is. -/
inductive Phase where
  /-- At its top. -/
  | starting
  | spawning
  | handshaking
  /-- Waiting for the first message. -/
  | awaiting
  /-- At the top of the pump. -/
  | dequeuing
  | reading
  | backingOff (delay : ℕ)
  | ended
  deriving DecidableEq

/-- What the loop knows of a child. -/
inductive ChildFate where
  | running
  | killed
  | shutDown
  /-- Observed to have exited. -/
  | exited
  deriving DecidableEq

/-- How the loop has left a child, or a spawn that has failed. -/
inductive Exit where
  | spawnFailed
  | handshakeFailed
  /-- The child has exited before its first message. -/
  | exitedEarly
  | unreadableEarly
  /-- The first message has not passed the generation checks. -/
  | stale
  /-- `Shutdown` was dequeued. -/
  | shutdownRequested
  | writeFailed
  | exited
  | unreadable
  | fatal
  deriving DecidableEq

/-- A call of `spawn`, and whether a failure has been recorded since. -/
structure Spawn where
  calledAt : ℕ
  failed : Bool
  deriving DecidableEq

/-- An update in the channel, with its place among those that passed the generation checks. -/
structure Queued where
  update : ExtensionUpdate
  place : ℕ
  deriving DecidableEq

/-- What `try_read_worker_message` has given; where there was nothing, `try_wait` was asked. -/
inductive ReadResult where
  | message (m : WorkerMessage)
  | nothing (exited : Bool)
  | error
  deriving DecidableEq

/-- Who waits for the reply to a command. -/
inductive ReplyTo where
  | nobody
  | reload
  | search
  deriving DecidableEq

/-- What was taken from the queues. -/
inductive Dequeued where
  | nothing
  | shutdown
  | command (replyTo : ReplyTo) (written : Bool)
  deriving DecidableEq

/-- What the loop sees, or another thread does. -/
inductive LoopEvent where
  /-- The loop goes on: from its top, or when it has slept. -/
  | proceed
  | spawn (ok : Bool)
  | handshake (written : Bool)
  | readInitial (result : ReadResult) (replays : ℕ)
  | dequeue (taken : Dequeued)
  | read (result : ReadResult)
  /-- `shutdown` sets the stop signal. -/
  | stop
  /-- `reload_dev` has waited in vain. -/
  | cancel (sessionId : String) (buildSequence : ℕ)
  /-- `drain_updates` takes an update from the channel. -/
  | takeUpdate
  /-- `drain_updates` looks at the snapshot of the update it has taken. -/
  | storeUpdate
  deriving DecidableEq

/-- An event and the time since the one before. -/
structure LoopInput where
  elapsed : ℕ
  event : LoopEvent
  deriving DecidableEq

/-! ### State -/

/-- The loop and what it shares. -/
structure Supervisor where
  state : SupervisorState
  snapshot : ExtensionSnapshot
  hostGeneration : ℕ
  stopSignal : Bool
  /-- The update channel. -/
  updates : List Queued
  cancelledReloads : List (String × ℕ)
  clock : ℕ
  phase : Phase
  requestCounter : ℕ
  crashTimestamps : List ℕ
  consecutiveCrashes : ℕ
  lastAcceptedEngineGen : ℕ
  readySince : ℕ
  pendingReplies : List ℕ
  pendingSearchReplies : List ℕ
  /-- What was sent to callers, with the request it answers. -/
  replies : List (ℕ × WorkerPayload)
  /-- The update `drain_updates` has in hand. -/
  draining : Option Queued
  /-- What `drain_updates` has returned. -/
  drained : List ExtensionUpdate
  /-- The children, the newest first. -/
  children : List ChildFate
  lastSpawn : Option Spawn
  left : Option Exit
  /-- The times of the failures since the last reset, the newest first. -/
  failures : List ℕ
  /-- The engine generations accepted from the current child, the newest first. -/
  acceptedHere : List ℕ
  /-- The messages accepted. -/
  accepted : List WorkerMessage
  /-- The updates of the messages that have passed the generation checks. -/
  carried : List ExtensionUpdate
  /-- The place of the update whose snapshot is published. -/
  shown : Option ℕ
  deriving DecidableEq

namespace Supervisor

/-- Before the loop has run. -/
def new : Supervisor where
  state := .starting
  snapshot := .default
  hostGeneration := 1
  stopSignal := false
  updates := []
  cancelledReloads := []
  clock := 0
  phase := .starting
  requestCounter := 1
  crashTimestamps := []
  consecutiveCrashes := 0
  lastAcceptedEngineGen := 0
  readySince := 0
  pendingReplies := []
  pendingSearchReplies := []
  replies := []
  draining := none
  drained := []
  children := []
  lastSpawn := none
  left := none
  failures := []
  acceptedHere := []
  accepted := []
  carried := []
  shown := none

/-! ### Children and failures -/

/-- What becomes of the current child. -/
def endChild (s : Supervisor) (fate : ChildFate) : Supervisor :=
  { s with children := fate :: s.children.tail }

/-- The crash accounting: the failure is recorded, and the loop gives up or backs off. -/
def recordFailure (s : Supervisor) (exit : Exit) : Supervisor :=
  let consecutiveCrashes := s.consecutiveCrashes + 1
  let crashTimestamps :=
    (s.crashTimestamps ++ [s.clock]).filter (s.clock - · ≤ rollingWindow)
  let s :=
    { s with
      consecutiveCrashes := consecutiveCrashes
      crashTimestamps := crashTimestamps
      failures := s.clock :: s.failures
      lastSpawn := s.lastSpawn.map fun last : Spawn => { last with failed := true }
      left := some exit }
  if maxCrashesInWindow ≤ crashTimestamps.length then
    { s with state := .quarantined, phase := .ended }
  else
    { s with
      state := .backoff consecutiveCrashes
      phase := .backingOff (retryDelay consecutiveCrashes) }

/-- What follows the pump: those who wait for a reload are told that the host has crashed. -/
def rejectPending (s : Supervisor) : Supervisor :=
  { s with
    replies := s.replies ++ s.pendingReplies.map fun id =>
      (id, .devReload (.rejected "" 0 s.lastAcceptedEngineGen "HOST_CRASHED"
        "extension host worker process terminated unexpectedly"))
    pendingReplies := [] }

/-- The pump is left because of the child. -/
def crash (s : Supervisor) (exit : Exit) : Supervisor :=
  s.rejectPending.recordFailure exit

/-! ### From the top of the loop to the first message -/

/-- The top of the loop. -/
def checkStop (s : Supervisor) : Supervisor :=
  if s.stopSignal then { s with state := .stopped, phase := .ended }
  else { s with phase := .spawning }

/-- The loop has slept. -/
def wake (s : Supervisor) (delay : ℕ) : Supervisor :=
  { s with
    clock := s.clock + delay
    hostGeneration := s.hostGeneration + 1
    phase := .starting }

/-- A call of `spawn`. -/
def spawn (s : Supervisor) (ok : Bool) : Supervisor :=
  let s := { s with lastSpawn := some ⟨s.clock, false⟩ }
  if ok then
    { s with children := .running :: s.children, acceptedHere := [], phase := .handshaking }
  else s.recordFailure .spawnFailed

/-- The handshake is written to the child. -/
def handshake (s : Supervisor) (written : Bool) : Supervisor :=
  let s := { s with requestCounter := s.requestCounter + 1 }
  if written then { s with phase := .awaiting }
  else (s.endChild .killed).recordFailure .handshakeFailed

/-- The checks every message must pass. -/
def current (s : Supervisor) (m : WorkerMessage) : Bool :=
  m.hostGeneration = s.hostGeneration ∧ s.lastAcceptedEngineGen ≤ m.engineGeneration

/-- An update's snapshot is published, and the update goes to the channel if there is room. -/
def publish (s : Supervisor) (u : ExtensionUpdate) (place : ℕ) : Supervisor :=
  { s with
    snapshot := u.snapshot.getD s.snapshot
    shown := if u.snapshot.isSome then some place else s.shown
    updates :=
      if s.updates.length < maxQueueSize then
        s.updates ++ [⟨{ u with hostGeneration := s.hostGeneration }, place⟩]
      else s.updates }

/-- The update of a message is put down as carried. -/
def carry (s : Supervisor) (m : WorkerMessage) : Supervisor :=
  { s with
    carried := s.carried ++
      m.payload.carried.toList.map fun u : ExtensionUpdate =>
        { u with hostGeneration := s.hostGeneration } }

/-- A message is put down as accepted. -/
def accept (s : Supervisor) (m : WorkerMessage) : Supervisor :=
  { s with
    lastAcceptedEngineGen := m.engineGeneration
    acceptedHere := m.engineGeneration :: s.acceptedHere
    accepted := s.accepted ++ [m] }

/-- The first message has passed the checks. -/
def becomeReady (s : Supervisor) (m : WorkerMessage) (replays : ℕ) : Supervisor :=
  let place := s.carried.length
  let s := (s.carry m).accept m
  let s :=
    match m.payload with
    | .update u => s.publish u place
    | _ => s
  { s with
    state := .ready
    readySince := s.clock
    requestCounter := s.requestCounter + replays
    pendingReplies := []
    pendingSearchReplies := []
    phase := .dequeuing }

/-- The loop looks for the first message. -/
def readInitial (s : Supervisor) (result : ReadResult) (replays : ℕ) : Supervisor :=
  if s.stopSignal then { s.endChild .killed with state := .stopped, phase := .ended }
  else
    match result with
    | .message m =>
      if s.current m then s.becomeReady m replays
      else
        { s.endChild .killed with
          hostGeneration := s.hostGeneration + 1
          left := some .stale
          phase := .starting }
    | .nothing false => { s with clock := s.clock + 10 }
    | .nothing true => (s.endChild .exited).recordFailure .exitedEarly
    | .error => (s.endChild .killed).recordFailure .unreadableEarly

/-! ### The pump -/

/-- Five minutes in `Ready` clear the crash window. -/
def resetWindow (s : Supervisor) : Supervisor :=
  if readyResetDuration ≤ s.clock - s.readySince then
    { s with consecutiveCrashes := 0, crashTimestamps := [], failures := [], readySince := s.clock }
  else s

/-- A command is numbered, and who waits for its reply is put down. -/
def number (s : Supervisor) (replyTo : ReplyTo) : Supervisor :=
  let id := s.requestCounter + 1
  let s := { s with requestCounter := id }
  match replyTo with
  | .nobody => s
  | .reload => { s with pendingReplies := id :: s.pendingReplies }
  | .search => { s with pendingSearchReplies := id :: s.pendingSearchReplies }

/-- The top of the pump: what is asked of the child is written. -/
def dequeue (s : Supervisor) (taken : Dequeued) : Supervisor :=
  if s.stopSignal then
    { (s.endChild .shutDown).rejectPending with
      requestCounter := s.requestCounter + 1
      state := .stopped
      phase := .ended }
  else
    let s := s.resetWindow
    match taken with
    | .nothing => { s with phase := .reading }
    | .shutdown =>
      { s.endChild .shutDown with
        requestCounter := s.requestCounter + 1
        state := .stopped
        left := some .shutdownRequested
        phase := .starting }
    | .command replyTo written =>
      let s := s.number replyTo
      if written then { s with phase := .reading } else s.crash .writeFailed

/-- Whether a message is the outcome of a reload reported as timed out. -/
def cancelled (s : Supervisor) (m : WorkerMessage) : Bool :=
  match m.payload with
  | .devReload outcome => (outcome.sessionId, outcome.buildSequence) ∈ s.cancelledReloads
  | _ => false

/-- Such an outcome is passed over. -/
def skip (s : Supervisor) (m : WorkerMessage) : Supervisor :=
  match m.payload with
  | .devReload outcome =>
    { s with
      cancelledReloads :=
        s.cancelledReloads.filter (· ≠ (outcome.sessionId, outcome.buildSequence))
      pendingReplies := s.pendingReplies.filter (· ≠ m.requestId)
      phase := .dequeuing }
  | _ => s

/-- A reply goes to the one who waits for it, if there is one. -/
def reply (s : Supervisor) (m : WorkerMessage) (waiting : List ℕ) : List (ℕ × WorkerPayload) :=
  if m.requestId ∈ waiting then s.replies ++ [(m.requestId, m.payload)] else s.replies

/-- What an accepted message does. -/
def handle (s : Supervisor) (m : WorkerMessage) (place : ℕ) : Supervisor :=
  match m.payload with
  | .update u => { s.publish u place with phase := .dequeuing }
  | .devReload outcome =>
    let s := outcome.update.elim s (s.publish · place)
    { s with
      replies := s.reply m s.pendingReplies
      pendingReplies := s.pendingReplies.filter (· ≠ m.requestId)
      phase := .dequeuing }
  | .search _ =>
    { s with
      replies := s.reply m s.pendingSearchReplies
      pendingSearchReplies := s.pendingSearchReplies.filter (· ≠ m.requestId)
      phase := .dequeuing }
  | .shutdownAck => { (s.endChild .shutDown).rejectPending with phase := .ended }
  | .fatalError _ => s.crash .fatal

/-- The bottom of the pump: a message of the child is read. -/
def readMessage (s : Supervisor) : ReadResult → Supervisor
  | .message m =>
    if s.current m then
      if s.cancelled m then (s.carry m).skip m
      else ((s.carry m).accept m).handle m s.carried.length
    else { s with phase := .dequeuing }
  | .nothing false => { s with clock := s.clock + 10, phase := .dequeuing }
  | .nothing true => (s.endChild .exited).crash .exited
  | .error => s.crash .unreadable

/-! ### The other threads -/

/-- `reload_dev` has waited in vain. -/
def cancel (s : Supervisor) (sessionId : String) (buildSequence : ℕ) : Supervisor :=
  { s with cancelledReloads := s.cancelledReloads.insert (sessionId, buildSequence) }

/-- `drain_updates` takes an update from the channel. -/
def takeUpdate (s : Supervisor) : Supervisor :=
  match s.draining, s.updates with
  | none, q :: updates => { s with draining := some q, updates := updates }
  | _, _ => s

/-- `drain_updates` publishes the snapshot of the update it has taken, unless it is older by
its generation, and puts the update to those it returns. -/
def storeUpdate (s : Supervisor) : Supervisor :=
  match s.draining with
  | none => s
  | some q =>
    let s := { s with draining := none, drained := s.drained ++ [q.update] }
    match q.update.snapshot with
    | none => s
    | some snapshot =>
      if s.snapshot.generation ≤ snapshot.generation then
        { s with snapshot := snapshot, shown := some q.place }
      else s

/-! ### Steps -/

/-- Time passes. -/
def wait (s : Supervisor) (elapsed : ℕ) : Supervisor := { s with clock := s.clock + elapsed }

/-- What happens at an event; the loop sees only what its phase looks at. -/
def act (s : Supervisor) (e : LoopEvent) : Supervisor :=
  match e, s.phase with
  | .proceed, .starting => s.checkStop
  | .proceed, .backingOff delay => s.wake delay
  | .spawn ok, .spawning => s.spawn ok
  | .handshake written, .handshaking => s.handshake written
  | .readInitial result replays, .awaiting => s.readInitial result replays
  | .dequeue taken, .dequeuing => s.dequeue taken
  | .read result, .reading => s.readMessage result
  | .stop, _ => { s with stopSignal := true }
  | .cancel sessionId buildSequence, _ => s.cancel sessionId buildSequence
  | .takeUpdate, _ => s.takeUpdate
  | .storeUpdate, _ => s.storeUpdate
  | _, _ => s

/-- One step. -/
def next (s : Supervisor) (i : LoopInput) : Supervisor := (s.wait i.elapsed).act i.event

/-- **What a step can do**: the loop does what belongs to its phase, or another thread does
something, or nothing happens. -/
theorem act_induction {P : Supervisor → Prop} (s : Supervisor) (e : LoopEvent) (same : P s)
    (checkStop : e = .proceed → s.phase = .starting → P s.checkStop)
    (wake : ∀ delay, e = .proceed → s.phase = .backingOff delay → P (s.wake delay))
    (spawn : ∀ ok, e = .spawn ok → s.phase = .spawning → P (s.spawn ok))
    (handshake : ∀ written, e = .handshake written → s.phase = .handshaking →
      P (s.handshake written))
    (readInitial : ∀ result replays, e = .readInitial result replays → s.phase = .awaiting →
      P (s.readInitial result replays))
    (dequeue : ∀ taken, e = .dequeue taken → s.phase = .dequeuing → P (s.dequeue taken))
    (read : ∀ result, e = .read result → s.phase = .reading → P (s.readMessage result))
    (stop : e = .stop → P { s with stopSignal := true })
    (cancel : ∀ sessionId buildSequence, e = .cancel sessionId buildSequence →
      P (s.cancel sessionId buildSequence))
    (takeUpdate : e = .takeUpdate → P s.takeUpdate)
    (storeUpdate : e = .storeUpdate → P s.storeUpdate) : P (s.act e) := by
  unfold act
  split
  case h_1 h => exact checkStop rfl h
  case h_2 delay h => exact wake delay rfl h
  case h_3 ok h => exact spawn ok rfl h
  case h_4 written h => exact handshake written rfl h
  case h_5 result replays h => exact readInitial result replays rfl h
  case h_6 taken h => exact dequeue taken rfl h
  case h_7 result h => exact read result rfl h
  case h_8 => exact stop rfl
  case h_9 sessionId buildSequence => exact cancel sessionId buildSequence rfl
  case h_10 => exact takeUpdate rfl
  case h_11 => exact storeUpdate rfl
  case h_12 => exact same

/-! ### What does not touch the updates -/

/-- What messages carry is where it was, and nothing more was accepted. -/
structure Untouched (s t : Supervisor) : Prop where
  snapshot : t.snapshot = s.snapshot
  updates : t.updates = s.updates
  draining : t.draining = s.draining
  drained : t.drained = s.drained
  carried : t.carried = s.carried
  shown : t.shown = s.shown
  accepted : t.accepted = s.accepted

theorem untouched_recordFailure (s : Supervisor) (exit : Exit) :
    s.Untouched (s.recordFailure exit) := by
  unfold recordFailure
  dsimp only
  split <;> exact ⟨rfl, rfl, rfl, rfl, rfl, rfl, rfl⟩

theorem untouched_crash (s : Supervisor) (exit : Exit) : s.Untouched (s.crash exit) :=
  { untouched_recordFailure s.rejectPending exit with }

theorem untouched_checkStop (s : Supervisor) : s.Untouched s.checkStop := by
  unfold checkStop
  split <;> exact ⟨rfl, rfl, rfl, rfl, rfl, rfl, rfl⟩

theorem untouched_spawn (s : Supervisor) (ok : Bool) : s.Untouched (s.spawn ok) := by
  cases ok with
  | true => exact ⟨rfl, rfl, rfl, rfl, rfl, rfl, rfl⟩
  | false =>
    exact { untouched_recordFailure { s with lastSpawn := some ⟨s.clock, false⟩ } .spawnFailed with }

theorem untouched_handshake (s : Supervisor) (written : Bool) :
    s.Untouched (s.handshake written) := by
  cases written with
  | true => exact ⟨rfl, rfl, rfl, rfl, rfl, rfl, rfl⟩
  | false =>
    let t := { s with requestCounter := s.requestCounter + 1 }.endChild .killed
    exact { untouched_recordFailure t .handshakeFailed with }

/-- Only a message that passes the checks touches anything. -/
theorem untouched_readInitial (s : Supervisor) (result : ReadResult) (replays : ℕ)
    (h : ∀ m, result = .message m → s.stopSignal = false → s.current m = false) :
    s.Untouched (s.readInitial result replays) := by
  unfold readInitial
  split
  · exact ⟨rfl, rfl, rfl, rfl, rfl, rfl, rfl⟩
  · rename_i hstop
    split
    · rename_i m
      rw [if_neg (by rw [h m rfl (Bool.not_eq_true _ ▸ hstop)]; exact Bool.false_ne_true)]
      exact ⟨rfl, rfl, rfl, rfl, rfl, rfl, rfl⟩
    · exact ⟨rfl, rfl, rfl, rfl, rfl, rfl, rfl⟩
    · exact { untouched_recordFailure (s.endChild .exited) .exitedEarly with }
    · exact { untouched_recordFailure (s.endChild .killed) .unreadableEarly with }

theorem untouched_dequeue (s : Supervisor) (taken : Dequeued) : s.Untouched (s.dequeue taken) := by
  unfold dequeue
  split
  · exact ⟨rfl, rfl, rfl, rfl, rfl, rfl, rfl⟩
  · have hreset : s.Untouched s.resetWindow := by
      unfold resetWindow
      split <;> exact ⟨rfl, rfl, rfl, rfl, rfl, rfl, rfl⟩
    cases taken with
    | nothing => exact { hreset with }
    | shutdown => exact { hreset with }
    | command replyTo written =>
      have hnumber : s.Untouched (s.resetWindow.number replyTo) := by
        cases replyTo <;> exact { hreset with }
      cases written with
      | true => exact { hnumber with }
      | false =>
        have hcrash := untouched_crash (s.resetWindow.number replyTo) .writeFailed
        exact
          { snapshot := hcrash.snapshot.trans hnumber.snapshot
            updates := hcrash.updates.trans hnumber.updates
            draining := hcrash.draining.trans hnumber.draining
            drained := hcrash.drained.trans hnumber.drained
            carried := hcrash.carried.trans hnumber.carried
            shown := hcrash.shown.trans hnumber.shown
            accepted := hcrash.accepted.trans hnumber.accepted }

/-- Only a message that passes the checks touches anything. -/
theorem untouched_readMessage (s : Supervisor) (result : ReadResult)
    (h : ∀ m, result = .message m → s.current m = false) :
    s.Untouched (s.readMessage result) := by
  unfold readMessage
  split
  · rename_i m
    rw [if_neg (by rw [h m rfl]; exact Bool.false_ne_true)]
    exact ⟨rfl, rfl, rfl, rfl, rfl, rfl, rfl⟩
  · exact ⟨rfl, rfl, rfl, rfl, rfl, rfl, rfl⟩
  · exact { untouched_crash (s.endChild .exited) .exited with }
  · exact untouched_crash s .unreadable

end Supervisor

end Shilpo.ExtensionHost
