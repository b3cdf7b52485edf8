import Shilpo.Compositor.Convergence

/-!
# The compositor's command broker

`CompositorCommandBroker` (`desktop/services/src/compositor/broker.rs`): commands are
accepted into a bounded queue, one worker takes them up one at a time and calls the
backend, and snapshots of the backend's state decide what became of them. Five kinds
of party act at once: submitters, observers of snapshots, whoever installs a new owner
generation, ticket holders, and the worker.

A step of the model is what one party does under the state lock, or between two of its
acts on what it shares with the others; `step` takes the steps in any order. A step
that its party cannot take in a state leaves the state alone, as waiting does.

* An observer reads the installed generation before it takes the lock: the value it
  compares with may be any that was ever installed.
* Installing a generation is three steps, of which only the last is under the lock.
* Commands drained under the lock get their outcome just after it is released, from
  the party that drained them; the outcome is counted as given at the drain.
* The clock is an oracle: where the source compares it with a deadline, the step says
  how that came out. So is the backend.
* A command is named by its number, as are its ticket, its cancellation and its
  convergence cell.

`fences`, `acceptedAt` and `activatedAt`, and the list `executed`, are history: no
branch reads them.
-/

namespace Shilpo.Compositor

open Domain Theory

/-! ### The state -/

/-- A queued command. -/
structure PendingCommand where
  id : ℕ
  /-- The installed generation when it was accepted. -/
  generation : ℕ
  /-- The epoch when it was accepted. -/
  epoch : ℕ
  command : CompositorCommand
  policy : MailboxPolicy
  /-- History: the fences before it was accepted. -/
  acceptedAt : ℕ

/-- Where the worker is. -/
inductive Worker where
  /-- Waiting for a command. -/
  | idle
  /-- Has taken one off the queue, with the snapshot it saw then. -/
  | popped (item : PendingCommand) (baseline : CompositorSnapshot)
  /-- Has found its generation and epoch to be current. -/
  | checked (item : PendingCommand) (baseline : CompositorSnapshot)
  /-- Has found that it can be tried. -/
  | prepared (item : PendingCommand) (active : ActiveCommand)
  /-- Has been under the lock to make it the active one; the flag says whether it could. -/
  | activated (item : PendingCommand) (active : ActiveCommand) (ok : Bool) (activatedAt : ℕ)
  /-- Has called the backend. -/
  | executing (item : PendingCommand) (active : ActiveCommand)
  /-- Has its answer, and waits for the snapshots to show the effect. -/
  | waiting (item : PendingCommand) (active : ActiveCommand)
  /-- Has an outcome for it. -/
  | completing (item : PendingCommand) (outcome : CommandOutcome)
  /-- Has left its loop. -/
  | exited

/-- A call of the backend. -/
structure Execution where
  /-- For this command. -/
  id : ℕ
  /-- The fences before it was accepted. -/
  acceptedAt : ℕ
  /-- The fences before it was activated. -/
  activatedAt : ℕ
  deriving DecidableEq

/-- The broker. -/
structure Broker where
  maxQueueLen : ℕ
  installedGeneration : ℕ
  /-- The generations installed before. -/
  formerGenerations : List ℕ
  epoch : ℕ
  snapshot : CompositorSnapshot
  queue : List PendingCommand
  /-- The command that a fence cancels. -/
  active : Option ℕ
  /-- The command that snapshots are shown to. -/
  convergence : Option ℕ
  shutdown : Bool
  nextCmdId : ℕ
  /-- The commands cancelled, each for the first reason given. -/
  cancelled : ℕ → Option CancellationReason
  worker : Worker
  /-- How many have stored a generation, and not yet begun its epoch. -/
  stored : ℕ
  /-- How many have begun an epoch, and not yet drained the queue. -/
  bumped : ℕ
  /-- The snapshots accepted and not yet shown to the command that was active then. -/
  deliveries : List (ℕ × CompositorSnapshot)
  /-- The outcomes given. -/
  outcomes : List (ℕ × CommandOutcome)
  /-- History: the non-ready snapshots and the replacements whose locked section has run. -/
  fences : ℕ
  /-- History: the calls of the backend. -/
  executed : List Execution

/-- The item is a `ReplaceLatest` command with this key. -/
def PendingCommand.hasKey (key : String) (item : PendingCommand) : Bool :=
  item.policy = .replaceLatest key

/-- The worker's command is shown a snapshot, if it is the one with this number. -/
def Worker.observe (id : ℕ) (snapshot : CompositorSnapshot) : Worker → Worker
  | .activated item active ok activatedAt =>
    .activated item (if active.cancellation = id then active.observe snapshot else active) ok
      activatedAt
  | .executing item active =>
    .executing item (if active.cancellation = id then active.observe snapshot else active)
  | .waiting item active =>
    .waiting item (if active.cancellation = id then active.observe snapshot else active)
  | worker => worker

namespace Broker

/-- A broker that has seen nothing. -/
def new (maxQueueLen : ℕ) : Broker where
  maxQueueLen
  installedGeneration := 0
  formerGenerations := []
  epoch := 1
  snapshot := {}
  queue := []
  active := none
  convergence := none
  shutdown := false
  nextCmdId := 1
  cancelled := fun _ => none
  worker := .idle
  stored := 0
  bumped := 0
  deliveries := []
  outcomes := []
  fences := 0
  executed := []

/-! ### Parts shared by the operations -/

/-- `CommandCancellation::cancel`. -/
def cancel (s : Broker) (id : ℕ) (reason : CancellationReason) : Broker :=
  { s with
    cancelled := fun i => if i = id then (s.cancelled i).or (some reason) else s.cancelled i }

/-- Cancel the active command. -/
def cancelActive (s : Broker) (reason : CancellationReason) : Broker :=
  match s.active with
  | some id => { s.cancel id reason with active := none }
  | none => s

/-- Take everything off the queue. -/
def drain (s : Broker) (reason : CancellationReason) : Broker :=
  { s with
    queue := []
    outcomes := s.outcomes ++ s.queue.map fun item => (item.id, .cancelled reason) }

/-- Give the worker's command its outcome; the worker goes on to the next. -/
def finish (s : Broker) (item : PendingCommand) (outcome : CommandOutcome) : Broker :=
  { s with outcomes := s.outcomes ++ [(item.id, outcome)], worker := .idle }

/-- `clear_active`. -/
def clearActive (s : Broker) (item : PendingCommand) : Broker :=
  { s with
    active := if s.active = some item.id then none else s.active
    convergence := if s.convergence = some item.id then none else s.convergence }

/-- The outcome of a cancelled command. -/
def cancelledOutcome (s : Broker) (item : PendingCommand) (baselineVersion : DomainVersion) :
    CommandOutcome :=
  match (s.cancelled item.id).getD .user with
  | .timeout => .timedOut baselineVersion
  | reason => .cancelled reason

/-! ### Submission -/

/-- A command with a `ReplaceLatest` key takes the place of the first queued one with that key,
which is cancelled. -/
def supersede (s : Broker) : MailboxPolicy → Broker
  | .lossless => s
  | .replaceLatest key =>
    match s.queue.find? (·.hasKey key) with
    | some removed =>
      { s with
        queue := s.queue.eraseP (·.hasKey key)
        outcomes := s.outcomes ++ [(removed.id, .cancelled .superseded)] }
    | none => s

/-- Queue a command. -/
def accept (s : Broker) (command : CompositorCommand) (policy : MailboxPolicy) : Broker :=
  { s with
    queue := s.queue ++
      [⟨s.nextCmdId, s.installedGeneration, s.epoch, command, policy, s.fences⟩]
    nextCmdId := s.nextCmdId + 1 }

/-- Submit a command. The result is the number of its ticket, or why there is none. -/
def submitWithPolicy (s : Broker) (command : CompositorCommand) (policy : MailboxPolicy) :
    Broker × Except CommandOutcome ℕ :=
  if s.snapshot.connection ≠ .ready then (s, .error (.rejected .unavailable))
  else if !s.snapshot.capabilities.allows command then (s, .error (.rejected .unsupported))
  else if (s.supersede policy).maxQueueLen ≤ (s.supersede policy).queue.length then
    (s.supersede policy, .error (.rejected .overloaded))
  else ((s.supersede policy).accept command policy, .ok s.nextCmdId)

/-! ### Snapshots and generations -/

/-- No snapshot has been stored, unless to say that there is still nothing. -/
def isInitial (s : Broker) : Bool :=
  s.snapshot.version = .zero &&
    (s.snapshot.connection = .unavailable || s.snapshot.connection = .connecting)

/-- Store a snapshot. One that is not ready is a fence: it ends the epoch, and with it the
commands queued and the command active. -/
def store (s : Broker) (snapshot : CompositorSnapshot) : Broker :=
  if snapshot.connection = .ready then { s with snapshot }
  else
    { (({ s with snapshot, epoch := s.epoch + 1 }).drain .reconnect).cancelActive .reconnect with
      fences := s.fences + 1 }

/-- Note that the snapshot is to be shown to the command that is active. -/
def toDeliver (s : Broker) (snapshot : CompositorSnapshot) : Broker :=
  match s.convergence with
  | some id => { s with deliveries := s.deliveries ++ [(id, snapshot)] }
  | none => s

/-- A snapshot comes, to an observer that has read `installed` as the installed generation. -/
def observeSnapshot (s : Broker) (installed : ℕ) (snapshot : CompositorSnapshot) :
    Broker × Except StaleUpdateError Unit :=
  if installed < snapshot.version.ownerGeneration then
    (s, .error (.uninstalledGeneration installed snapshot.version.ownerGeneration))
  else if s.isInitial then ((s.store snapshot).toDeliver snapshot, .ok ())
  else if snapshot.version < s.snapshot.version then
    (s, .error (.staleVersion s.snapshot.version snapshot.version))
  else if snapshot.version = s.snapshot.version then
    if s.snapshot == snapshot then (s, .ok ())
    else (s, .error (.conflictingSnapshot s.snapshot.version))
  else ((s.store snapshot).toDeliver snapshot, .ok ())

/-- Show an accepted snapshot to the command it is for, unless that has been cancelled. -/
def deliver (s : Broker) (i : ℕ) : Broker :=
  match s.deliveries[i]? with
  | some (id, snapshot) =>
    { s with
      deliveries := s.deliveries.eraseIdx i
      worker := if (s.cancelled id).isSome then s.worker else s.worker.observe id snapshot }
  | none => s

/-- `set_installed_generation` stores the generation. -/
def storeGeneration (s : Broker) (generation : ℕ) : Broker :=
  { s with
    installedGeneration := generation
    formerGenerations := s.installedGeneration :: s.formerGenerations
    stored := s.stored + 1 }

/-- It begins a new epoch. -/
def bumpEpoch (s : Broker) : Broker :=
  { s with epoch := s.epoch + 1, stored := s.stored - 1, bumped := s.bumped + 1 }

/-- Its locked section ends the commands queued and the command active. -/
def drainReplaced (s : Broker) : Broker :=
  { (s.drain .ownerReplaced).cancelActive .ownerReplaced with
    bumped := s.bumped - 1
    fences := s.fences + 1 }

/-! ### The worker -/

/-- Take the next command, if the backend is ready and there is one. -/
def pop (s : Broker) : Broker :=
  if s.shutdown then { s with worker := .exited }
  else if s.snapshot.connection ≠ .ready then s
  else
    match s.queue with
    | item :: queue => { s with queue, worker := .popped item s.snapshot }
    | [] => s

/-- Is the command of the current generation and epoch? -/
def checkStaleness (s : Broker) (item : PendingCommand) (baseline : CompositorSnapshot) : Broker :=
  if 0 < s.installedGeneration ∧ item.generation ≠ s.installedGeneration ∨ item.epoch ≠ s.epoch then
    s.finish item (.cancelled .ownerReplaced)
  else { s with worker := .checked item baseline }

/-- Can it be tried? -/
def prepare (s : Broker) (item : PendingCommand) (baseline : CompositorSnapshot) (late : Bool) :
    Broker :=
  if (s.cancelled item.id).isSome then s.finish item (s.cancelledOutcome item baseline.version)
  else if late then s.finish item (.timedOut baseline.version)
  else
    match targetInvalid item.command baseline with
    | some reason => s.finish item (.rejected reason)
    | none =>
      { s with
        worker := .prepared item
          (.new item.command baseline (alreadySatisfied item.command baseline) item.id) }

/-- Make it the active command, unless its epoch has ended or the backend is not ready. -/
def activate (s : Broker) (item : PendingCommand) (active : ActiveCommand) : Broker :=
  if item.epoch ≠ s.epoch ∨ s.snapshot.connection ≠ .ready then
    { s with worker := .activated item active false s.fences }
  else
    { s with
      active := some item.id
      convergence := some item.id
      worker := .activated item active true s.fences }

/-- Call the backend, unless the command could not be made active or has been cancelled since. -/
def execute (s : Broker) (item : PendingCommand) (active : ActiveCommand) (ok : Bool)
    (activatedAt : ℕ) : Broker :=
  if (s.cancelled item.id).isSome then
    (s.clearActive item).finish item
      (s.cancelledOutcome item active.convergence.baseline.version)
  else if !ok then (s.clearActive item).finish item (.cancelled .reconnect)
  else
    { s with
      worker := .executing item active
      executed := s.executed ++ [⟨item.id, item.acceptedAt, activatedAt⟩] }

/-- The backend answers. -/
def answer (s : Broker) (item : PendingCommand) (active : ActiveCommand)
    (execution : Except RejectionReason ExecutorAck) (late : Bool) : Worker :=
  if (s.cancelled item.id).isSome then
    .completing item (s.cancelledOutcome item active.convergence.baseline.version)
  else
    match execution with
    | .error .timedOut => .completing item (.timedOut active.convergence.lastVersion)
    | .error (.cancelled reason) => .completing item (.cancelled reason)
    | .error reason => .completing item (.rejected reason)
    | .ok ack =>
      if late then .completing item (.timedOut active.convergence.lastVersion)
      else
        match active.acknowledge ack with
        | .error reason => .completing item (.rejected reason)
        | .ok active => .waiting item active

/-- Look whether there is an outcome. -/
def poll (s : Broker) (item : PendingCommand) (active : ActiveCommand) (late : Bool) : Worker :=
  if (s.cancelled item.id).isSome then
    .completing item (s.cancelledOutcome item active.convergence.baseline.version)
  else if item.epoch ≠ s.epoch then .completing item (.cancelled .reconnect)
  else
    match active.terminal with
    | some outcome => .completing item outcome
    | none =>
      if late then .completing item (.timedOut active.convergence.lastVersion)
      else .waiting item active

/-- The oracle's answers to a step of the worker. -/
structure Oracle where
  /-- The deadline has passed. -/
  late : Bool
  /-- What the backend answers. -/
  execution : Except RejectionReason ExecutorAck

/-- The worker's next step. -/
def work (s : Broker) (oracle : Oracle) : Broker :=
  match s.worker with
  | .idle => s.pop
  | .popped item baseline => s.checkStaleness item baseline
  | .checked item baseline => s.prepare item baseline oracle.late
  | .prepared item active => s.activate item active
  | .activated item active ok activatedAt => s.execute item active ok activatedAt
  | .executing item active =>
    { s with worker := s.answer item active oracle.execution oracle.late }
  | .waiting item active => { s with worker := s.poll item active oracle.late }
  | .completing item outcome => (s.clearActive item).finish item outcome
  | .exited => s

/-! ### Steps -/

/-- A step of one of the parties. -/
inductive Action where
  | submit (command : CompositorCommand) (policy : MailboxPolicy)
  | observe (installed : ℕ) (snapshot : CompositorSnapshot)
  | deliver (i : ℕ)
  | storeGeneration (generation : ℕ)
  | bumpEpoch
  | drainReplaced
  /-- A ticket is cancelled or dropped, or, if `timedOut`, waited for too long. -/
  | cancelTicket (id : ℕ) (timedOut : Bool)
  /-- The broker is dropped: the locked section. -/
  | shutdown
  /-- The broker is dropped: the active command is cancelled. -/
  | cancelForShutdown
  | work (oracle : Oracle)

/-- No call of the broker's API is under way. -/
def quiet (s : Broker) : Bool := s.stored = 0 && s.bumped = 0 && s.deliveries.isEmpty

/-- One step. A broker that is being dropped is not called any more. -/
def step (s : Broker) : Action → Broker
  | .submit command policy => if s.shutdown then s else (s.submitWithPolicy command policy).1
  | .observe installed snapshot =>
    if s.shutdown ∨ installed ∉ s.installedGeneration :: s.formerGenerations then s
    else (s.observeSnapshot installed snapshot).1
  | .deliver i => s.deliver i
  | .storeGeneration generation => if s.shutdown then s else s.storeGeneration generation
  | .bumpEpoch => if s.stored = 0 then s else s.bumpEpoch
  | .drainReplaced => if s.bumped = 0 then s else s.drainReplaced
  | .cancelTicket id timedOut =>
    if id < s.nextCmdId then s.cancel id (if timedOut then .timeout else .user) else s
  | .shutdown => if s.shutdown ∨ !s.quiet then s else { s.drain .shutdown with shutdown := true }
  | .cancelForShutdown => if s.shutdown then s.cancelActive .shutdown else s
  | .work oracle => s.work oracle

end Broker

end Shilpo.Compositor
