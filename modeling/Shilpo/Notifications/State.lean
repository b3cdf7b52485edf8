import Shilpo.Domain.Mailbox
import Shilpo.Theory.Runs

/-!
# The notification daemon

The domain of `notifications/mod.rs`: the live notifications and the history, changed by
commands from the shell and by the calls `Notify` and `CloseNotification` of
`org.freedesktop.Notifications`, and told to its clients by the signals
`NotificationClosed` and `ActionInvoked`.

* `NotificationState` — what the mutex of `NotificationDomainState` guards, with the
  queue that `submit_command` fills and `process_queue_locked` empties;
* `NotificationService` — that state, the counter of the current `NotificationServer`,
  whether a signal sink is installed, and the signals sent so far;
* `NotificationStep`, `next` — what can happen, one atomic step each.

Every operation on the state takes the mutex once, so it is one step. `notify` holds the
server's counter from taking an id until its notification is pushed; only `notify`
reads that counter, so what other threads do in between happens before the call. The
owner supervisor's steps may come in any order.

Counters of `u32` wrap. The sink's signals are sent in the order in which they are
handed to it. `auto_converge`, which only tests turn off, is on.
-/

namespace Shilpo.Notifications

open Shilpo.Domain Shilpo.Theory

/-! ### Notifications and commands -/

/-- The reasons that `NotificationClosed` reports. -/
inductive NotificationCloseReason where
  | expired
  | dismissedByUser
  | closedByRequest
  | undefined
  deriving DecidableEq

inductive NotificationUrgency where
  | low
  | normal
  | critical
  deriving DecidableEq

/-- A notification. -/
structure Notification where
  id : UInt32
  appName : String
  summary : String
  body : String
  appIcon : Option String
  desktopEntry : Option String
  imagePath : Option String
  urgency : NotificationUrgency
  actions : List (String × String)
  expireTimeoutMs : Int32
  timestamp : ℕ
  deriving DecidableEq

/-- The commands of the domain. -/
inductive NotificationCommand where
  | push (notif : Notification)
  | dismiss (id : UInt32)
  | expire (id : UInt32)
  | dismissAll
  | invokeAction (id : UInt32) (actionKey : String)
  | setDnd (enabled : Bool)
  | clearHistory
  deriving DecidableEq

/-- `NotificationCommand::policy`. -/
def NotificationCommand.policy : NotificationCommand → MailboxPolicy
  | .setDnd _ => .replaceLatest "set_dnd"
  | _ => .lossless

/-- Why a command is rejected. -/
inductive RejectionReason where
  | unavailable
  | overloaded
  | notFound
  deriving DecidableEq

/-! ### The domain state -/

/-- What the mutex of the domain guards; `tickets` and `resolved` stand for the cells that
submitters and resolvers share. -/
structure NotificationState where
  supervisor : DomainSupervisor
  lifecycle : DomainLifecycle
  ownerGeneration : ℕ
  revision : ℕ
  notifications : List Notification
  history : List Notification
  dndEnabled : Bool
  lastError : Option String
  hadPriorReadiness : Bool
  queue : List (MailboxItem NotificationCommand)
  nextNotificationId : UInt32
  tickets : ℕ
  resolved : List (ℕ × CommandOutcome RejectionReason)

/-- The capacity of the queue, in every service that is constructed. -/
def mailboxCapacity : ℕ := 32

/-- How many notifications the history keeps. -/
def historyLimit : ℕ := 100

namespace NotificationState

/-- `NotificationDomainState::new`. -/
def new : NotificationState where
  supervisor := .new
  lifecycle := .unavailable
  ownerGeneration := 0
  revision := 0
  notifications := []
  history := []
  dndEnabled := false
  lastError := none
  hadPriorReadiness := false
  queue := []
  nextNotificationId := 0
  tickets := 0
  resolved := []

/-- `resolver.resolve(outcome)` for the ticket. -/
def resolve (s : NotificationState) (ticket : ℕ) (outcome : CommandOutcome RejectionReason) :
    NotificationState :=
  { s with resolved := s.resolved ++ [(ticket, outcome)] }

/-- `cancel_queue`. -/
def cancelQueue (s : NotificationState) (reason : CancellationReason) : NotificationState :=
  { s with
    queue := []
    resolved := s.resolved ++ s.queue.map fun item => (item.ticket, .cancelled reason) }

/-- `check_clock_state`. -/
def tick (s : NotificationState) (nowMs : ℕ) : NotificationState :=
  let s' := { s with supervisor := s.supervisor.tick nowMs }
  if s.supervisor.restarts nowMs then
    { s'.cancelQueue .ownerReplaced with
      ownerGeneration := s.ownerGeneration + 1
      revision := 0
      lifecycle := startingLifecycle s.hadPriorReadiness }
  else s'

/-- `begin_start`. -/
def beginStart (s : NotificationState) : NotificationState :=
  { s.cancelQueue .ownerReplaced with
    ownerGeneration := s.ownerGeneration + 1
    revision := 0
    supervisor := s.supervisor.markStarting
    lifecycle := startingLifecycle s.hadPriorReadiness }

/-- `mark_ready`. -/
def markReady (s : NotificationState) (nowMs : ℕ) : NotificationState :=
  { s with
    supervisor := s.supervisor.markRunning nowMs
    lifecycle := .ready
    hadPriorReadiness := true }

/-- `report_owner_failure`. -/
def reportOwnerFailure (s : NotificationState) (error : String) (nowMs : ℕ) : NotificationState :=
  let supervisor := s.supervisor.recordFailure nowMs
  { s with
    lastError := some error
    supervisor := supervisor
    lifecycle := failedLifecycle supervisor.state s.hadPriorReadiness }

/-- `reset_quarantine`. -/
def resetQuarantine (s : NotificationState) : NotificationState :=
  let (supervisor, wasQuarantined) := s.supervisor.resetQuarantine
  if wasQuarantined then
    { s with supervisor := supervisor, lifecycle := startingLifecycle s.hadPriorReadiness }
  else s

/-- The first part of `shutdown`. -/
def enterStopping (s : NotificationState) : NotificationState :=
  { s with supervisor := s.supervisor.enterStopping }

/-- The second part of `shutdown`. -/
def enterStopped (s : NotificationState) : NotificationState :=
  { s.cancelQueue .shutdown with
    supervisor := s.supervisor.enterStopped
    lifecycle := .unavailable }

/-! ### Commands -/

/-- `history.push`, and `history.remove(0)` when there are too many. -/
def record (history : List Notification) (notif : Notification) : List Notification :=
  let history := history ++ [notif]
  if historyLimit < history.length then history.drop 1 else history

/-- The id that a pushed notification goes by: the domain's next if it has none. -/
def pushedId (s : NotificationState) (notif : Notification) : UInt32 :=
  if notif.id = 0 then s.nextNotificationId + 1 else notif.id

/-- A pushed notification is shown, and not only recorded. -/
def shows (s : NotificationState) (notif : Notification) : Bool :=
  !(s.dndEnabled && notif.urgency ≠ .critical)

/-- The `match` on the command in `process_queue_locked`; the flag says `changed`. -/
def apply (s : NotificationState) : NotificationCommand → NotificationState × Bool
  | .push notif =>
    let named := { notif with id := s.pushedId notif }
    ({ s with
        nextNotificationId := s.nextNotificationId + 1
        notifications := if s.shows notif then s.notifications ++ [named] else s.notifications
        history := record s.history named }, true)
  | .dismiss id | .expire id | .invokeAction id _ =>
    let kept := s.notifications.filter (·.id ≠ id)
    ({ s with notifications := kept }, kept.length ≠ s.notifications.length)
  | .dismissAll => ({ s with notifications := [] }, !s.notifications.isEmpty)
  | .setDnd enabled => ({ s with dndEnabled := enabled }, s.dndEnabled ≠ enabled)
  | .clearHistory => ({ s with history := [] }, !s.history.isEmpty)

/-- One turn of the loop of `process_queue_locked`. -/
def processItem (s : NotificationState) (item : MailboxItem NotificationCommand) :
    NotificationState :=
  if item.generation ≠ s.ownerGeneration then
    s.resolve item.ticket (.cancelled .ownerReplaced)
  else
    let (s, changed) := s.apply item.command
    let s := if changed then { s with revision := s.revision + 1 } else s
    let version := ⟨s.ownerGeneration, s.revision⟩
    s.resolve item.ticket (if changed then .applied version else .reconciledApplied version)

/-- `process_queue_locked`. -/
def processQueueLocked (s : NotificationState) : NotificationState :=
  s.queue.foldl processItem { s with queue := [] }

/-- The queue after an older command with the same key gave way to `command`. -/
def superseding (s : NotificationState) (command : NotificationCommand) : NotificationState :=
  match command.policy with
  | .lossless => s
  | .replaceLatest key =>
    let older := s.queue.find? (·.hasKey NotificationCommand.policy key)
    { s with
      queue := s.queue.eraseP (·.hasKey NotificationCommand.policy key)
      resolved := s.resolved ++ older.toList.map fun item => (item.ticket, .cancelled .superseded) }

/-- The domain takes no commands. -/
def rejects (s : NotificationState) : Bool :=
  s.lifecycle = .unavailable || s.supervisor.state = .quarantined ||
    s.supervisor.state = .stopped

/-- `submit_command`: the state after it, and the ticket or the reason it is rejected for. -/
def submitCommand (s : NotificationState) (command : NotificationCommand) :
    NotificationState × Except RejectionReason ℕ :=
  if s.rejects then (s, .error .unavailable)
  else
    let s := s.superseding command
    if mailboxCapacity ≤ s.queue.length then (s, .error .overloaded)
    else
      let item := ⟨s.tickets, command, s.ownerGeneration⟩
      ({ s with queue := s.queue ++ [item], tickets := s.tickets + 1 }.processQueueLocked,
        .ok s.tickets)

end NotificationState

/-! ### The D-Bus interface -/

/-- What a hint holds, as far as `notify` reads it. -/
inductive HintValue where
  | u8 (value : UInt8)
  | i32 (value : Int32)
  | str (value : String)
  | other

/-- The arguments of `Notify`, and the time of the call. -/
structure NotifyCall where
  appName : String
  replacesId : UInt32
  appIcon : String
  summary : String
  body : String
  rawActions : List String
  hints : String → Option HintValue
  expireTimeout : Int32
  timestamp : ℕ

/-- The urgency that a hint gives. -/
def HintValue.urgency : HintValue → Option NotificationUrgency
  | .u8 value =>
    if value = 0 then some .low
    else if value = 1 then some .normal
    else if value = 2 then some .critical
    else none
  | .i32 value =>
    if value = 0 then some .low
    else if value = 1 then some .normal
    else if value = 2 then some .critical
    else none
  | _ => none

/-- The text of a hint. -/
def HintValue.text : HintValue → Option String
  | .str value => some value
  | _ => none

/-- The actions in pairs of a key and a label; a key left without a label is dropped. -/
def actionPairs : List String → List (String × String)
  | key :: label :: rest => (key, label) :: actionPairs rest
  | _ => []

/-- How long a notification stays, where the call leaves it to the daemon. -/
def NotificationUrgency.defaultTimeoutMs : NotificationUrgency → Int32
  | .low => 3000
  | .normal => 5000
  | .critical => 0

namespace NotifyCall

def urgency (c : NotifyCall) : NotificationUrgency :=
  ((c.hints "urgency").bind HintValue.urgency).getD .normal

def expireTimeoutMs (c : NotifyCall) : Int32 :=
  if c.expireTimeout = 0 then 0
  else if 0 < c.expireTimeout then c.expireTimeout
  else c.urgency.defaultTimeoutMs

/-- The notification of the call, under `id`. -/
def notification (c : NotifyCall) (id : UInt32) : Notification where
  id := id
  appName := c.appName
  summary := c.summary
  body := c.body
  appIcon := if c.appIcon.isEmpty then none else some c.appIcon
  desktopEntry :=
    ((c.hints "desktop-entry").or (c.hints "desktop_entry")).bind HintValue.text
  imagePath :=
    (((c.hints "image-path").or (c.hints "image_path")).or (c.hints "image-path-url")).bind
      HintValue.text
  urgency := c.urgency
  actions := actionPairs c.rawActions
  expireTimeoutMs := c.expireTimeoutMs
  timestamp := c.timestamp

end NotifyCall

/-- A signal to the clients. -/
inductive NotificationSignal where
  | actionInvoked (id : UInt32) (actionKey : String)
  | notificationClosed (id : UInt32) (reason : NotificationCloseReason)
  deriving DecidableEq

/-- The service and the current server of its D-Bus interface. -/
structure NotificationService where
  /-- The domain that servers and service share. -/
  adapter : NotificationState
  /-- `next_id` of the current `NotificationServer`. -/
  nextId : UInt32
  /-- A sink is installed in `signal_sink`: an owner is connected. -/
  connected : Bool
  /-- The signals sent, oldest first. -/
  signals : List NotificationSignal

/-- What can happen. -/
inductive NotificationStep where
  /-- A client calls `Notify`. -/
  | notify (call : NotifyCall)
  /-- A client calls `CloseNotification`. -/
  | closeNotification (id : UInt32)
  /-- The shell calls `submit_command` of the service. -/
  | submit (command : NotificationCommand)
  | tick (nowMs : ℕ)
  | reportOwnerFailure (error : String) (nowMs : ℕ)
  | beginStart
  | markReady (nowMs : ℕ)
  | resetQuarantine
  /-- A new `NotificationServer` is put on a connection. -/
  | registerServer
  /-- A sink for a connection is installed. -/
  | connect
  /-- The sink is taken out. -/
  | disconnect
  /-- The two parts of `shutdown` of the domain. -/
  | enterStopping
  | enterStopped

namespace NotificationService

/-- The daemon before its first owner. -/
def new : NotificationService := ⟨.new, 0, false, []⟩

/-- The notifications that are live. -/
def live (s : NotificationService) : List Notification := s.adapter.notifications

/-- The ids of the notifications that are live. -/
def liveIds (s : NotificationService) : List UInt32 := s.live.map (·.id)

/-- The id that `notify` gives the call, and returns. -/
def notifyId (s : NotificationService) (call : NotifyCall) : UInt32 :=
  if call.replacesId = 0 then s.nextId + 1 else call.replacesId

/-- `NotificationServer::notify`. -/
def notify (s : NotificationService) (call : NotifyCall) : NotificationService × UInt32 :=
  ({ s with
      nextId := if call.replacesId = 0 then s.nextId + 1 else s.nextId
      adapter := (s.adapter.submitCommand (.push (call.notification (s.notifyId call)))).1 },
    s.notifyId call)

/-- `NotificationServer::close_notification`: the signal goes to the caller's connection. -/
def closeNotification (s : NotificationService) (id : UInt32) : NotificationService :=
  { s with
    adapter := (s.adapter.submitCommand (.dismiss id)).1
    signals := s.signals ++ [NotificationSignal.notificationClosed id .closedByRequest] }

/-- What `submit_command` of the service tells of an accepted command. -/
def announced : NotificationCommand → List NotificationSignal
  | .dismiss id => [.notificationClosed id .dismissedByUser]
  | .expire id => [.notificationClosed id .expired]
  | .invokeAction id actionKey =>
    [.actionInvoked id actionKey, .notificationClosed id .dismissedByUser]
  | _ => []

/-- `NotificationService::submit_command`. -/
def submitCommand (s : NotificationService) (command : NotificationCommand) :
    NotificationService :=
  let (adapter, result) := s.adapter.submitCommand command
  { s with
    adapter := adapter
    signals :=
      if result.isOk && s.connected then s.signals ++ announced command else s.signals }

/-- One step. -/
def next (s : NotificationService) : NotificationStep → NotificationService
  | .notify call => (s.notify call).1
  | .closeNotification id => s.closeNotification id
  | .submit command => s.submitCommand command
  | .tick nowMs => { s with adapter := s.adapter.tick nowMs }
  | .reportOwnerFailure error nowMs =>
    { s with adapter := s.adapter.reportOwnerFailure error nowMs }
  | .beginStart => { s with adapter := s.adapter.beginStart }
  | .markReady nowMs => { s with adapter := s.adapter.markReady nowMs }
  | .resetQuarantine => { s with adapter := s.adapter.resetQuarantine }
  | .registerServer => { s with nextId := 0 }
  | .connect => { s with connected := true }
  | .disconnect => { s with connected := false }
  | .enterStopping => { s with adapter := s.adapter.enterStopping }
  | .enterStopped => { s with adapter := s.adapter.enterStopped }

end NotificationService

/-! ### The queue is empty between steps -/

namespace NotificationState

/-- The domain takes commands. -/
def accepts (s : NotificationState) : Bool := !s.rejects

/-- A command of one that takes commands, with nothing else waiting. -/
def applied (s : NotificationState) (command : NotificationCommand) : NotificationState :=
  processItem { s with queue := [], tickets := s.tickets + 1 } ⟨s.tickets, command, s.ownerGeneration⟩

theorem superseding_of_queue {s : NotificationState} (h : s.queue = [])
    (command : NotificationCommand) : s.superseding command = s := by
  obtain ⟨supervisor, lifecycle, _, _, _, _, _, _, _, queue, _, _, resolved⟩ := s
  obtain rfl : queue = [] := h
  rw [superseding]
  cases command.policy with
  | lossless => rfl
  | replaceLatest key => simp

/-- **A command is applied at once**, or is rejected and changes nothing. -/
theorem submitCommand_of_queue {s : NotificationState} (h : s.queue = [])
    (command : NotificationCommand) :
    s.submitCommand command =
      if s.accepts then (s.applied command, .ok s.tickets) else (s, .error .unavailable) := by
  rw [submitCommand, accepts]
  cases s.rejects with
  | true => rfl
  | false =>
    simp [superseding_of_queue h, h, mailboxCapacity, processQueueLocked, applied]

theorem queue_apply (s : NotificationState) (command : NotificationCommand) :
    (s.apply command).1.queue = s.queue := by
  cases command <;> rfl

theorem queue_applied (s : NotificationState) (command : NotificationCommand) :
    (s.applied command).queue = [] := by
  simp only [applied, processItem, ne_eq, not_true_eq_false, if_false, resolve]
  split <;> exact queue_apply _ _

/-- What an applied command leaves live. -/
theorem notifications_applied (s : NotificationState) (command : NotificationCommand) :
    (s.applied command).notifications = (s.apply command).1.notifications := by
  simp only [applied, processItem, ne_eq, not_true_eq_false, if_false, resolve]
  split <;> cases command <;> rfl

theorem queue_submitCommand {s : NotificationState} (h : s.queue = [])
    (command : NotificationCommand) : (s.submitCommand command).1.queue = [] := by
  rw [submitCommand_of_queue h]
  split
  · exact queue_applied s command
  · exact h

end NotificationState

namespace NotificationService

/-- Nothing waits to be applied. -/
def Settled (s : NotificationService) : Prop := s.adapter.queue = []

theorem settled_new : new.Settled := rfl

theorem Settled.next {s : NotificationService} (h : s.Settled) (a : NotificationStep) :
    (s.next a).Settled := by
  cases a with
  | notify call => exact NotificationState.queue_submitCommand h _
  | closeNotification id => exact NotificationState.queue_submitCommand h _
  | submit command => exact NotificationState.queue_submitCommand h _
  | tick nowMs =>
    simp only [Settled, NotificationService.next, NotificationState.tick]
    split
    · rfl
    · exact h
  | resetQuarantine =>
    simp only [Settled, NotificationService.next, NotificationState.resetQuarantine]
    split
    · exact h
    · exact h
  | beginStart | enterStopped => rfl
  | _ => exact h

end NotificationService

end Shilpo.Notifications
