import Shilpo.Device.Client
import Shilpo.Theory.Runs

/-!
# The device daemon

Three kinds of parties write the states of the device daemon
(`desktop/services/src/device_daemon/mod.rs`): the workers of the domains, each of which executes
one command at a time; the refreshes; and the replacements of the owner. Each takes the lock of the
states for a moment only, and reads the adapter and the owner generation outside of it. What
has been stored is then sent to the client (`dbus.rs`).

A worker is in a phase of `execute_single`; a refresh and the rest are tasks.
-/

namespace Shilpo.Device

open Domain Theory

universe u

variable {ρ : Type u}

inductive CancellationReason where
  | superseded
  | ownerReplaced
  deriving DecidableEq

/-- What becomes of a command. -/
inductive CommandOutcome where
  | applied (version : DomainVersion)
  | reconciledApplied (version : DomainVersion)
  | rejected (reason : RejectionReason)
  | cancelled (reason : CancellationReason)
  | timedOut (lastObservedVersion : DomainVersion)
  deriving DecidableEq

/-- How a call of the adapter ends. -/
inductive Ending where
  | succeeded
  | failed
  | timedOut
  deriving DecidableEq

/-- Where `execute_single` is. While it waits, it may be notified that the owner is replaced. -/
inductive ExecutionPhase (ρ : Type u) where
  | started
  | executing (before : DomainState ρ) (notified : Bool)
  | executed (before : DomainState ρ) (ending : Ending)
  | polling (before : DomainState ρ)
  | observed (before observed : DomainState ρ)
  | storing (before state : DomainState ρ)
  | expiring (before observed : DomainState ρ)
  | sleeping (before : DomainState ρ) (notified : Bool)
  | failing
  | overdue (before : DomainState ρ)
  | overdueObserved (before observed : DomainState ρ)
  | finished (outcome : CommandOutcome)
  deriving DecidableEq

structure Execution (ρ : Type u) where
  generation : ℕ
  command : DeviceCommand
  phase : ExecutionPhase ρ
  deriving DecidableEq

def Execution.notify (execution : Execution ρ) : Execution ρ :=
  match execution.phase with
  | .executing before _ => { execution with phase := .executing before true }
  | .sleeping before _ => { execution with phase := .sleeping before true }
  | _ => execution

/-- A refresh that has read the owner generation; states that are to be sent; a command that has
been applied; an owner that is replaced. -/
inductive DaemonTask (ρ : Type u) where
  | refreshing (generation : ℕ)
  | emitting (states : List (DeviceDomain × DomainState ρ))
  | applied (domain : DeviceDomain) (version : DomainVersion)
  | replacing (generation : ℕ)
  | notifying
  deriving DecidableEq

structure TimedOutCommand (ρ : Type u) where
  command : DeviceCommand
  before : DomainState ρ

/-- The daemon, with the adapter and the client; `stored` keeps what `states` has held. -/
structure DeviceDaemon (ρ : Type u) where
  adapter : DeviceDomain → DomainState ρ
  ownerGeneration : ℕ
  states : DeviceDomain → DomainState ρ
  timedOut : DeviceDomain → List (TimedOutCommand ρ)
  executions : DeviceDomain → Option (Execution ρ)
  tasks : List (DaemonTask ρ)
  broadcast : List (DeviceDomain × CommandOutcome)
  stored : DeviceDomain → List (DomainState ρ)
  emitted : List (DeviceDomain × DomainState ρ)
  client : ClientDomains ρ

/-- What a worker finds when it goes on: how the call of the adapter has ended, if it has, and
whether the time is over that it waits for. -/
structure Found where
  ending : Option Ending
  elapsed : Bool
  deriving DecidableEq

/-- A worker that does not wait, and whose call has succeeded. -/
def Found.prompt : Found := ⟨some .succeeded, true⟩

inductive DaemonStep (ρ : Type u) where
  /-- The adapter reports another state from now on. -/
  | change (domain : DeviceDomain) (state : DomainState ρ)
  /-- A worker takes a command. -/
  | begin (command : DeviceCommand)
  | work (domain : DeviceDomain) (found : Found)
  | refresh
  | replace
  | task (index : ℕ)

namespace DeviceDaemon

variable (daemon : DeviceDaemon ρ)

/-- The daemon when it has started, with a client that knows of no state yet. -/
def start [Inhabited ρ] (adapter : DeviceDomain → DomainState ρ) : DeviceDaemon ρ where
  adapter
  ownerGeneration := 1
  states := adapter
  timedOut _ := []
  executions _ := none
  tasks := []
  broadcast := []
  stored domain := [adapter domain]
  emitted := []
  client := ⟨1, unavailableState, 0⟩

/-- The lock of the states is held, and these are stored. -/
def write (written : DeviceDomain → Option (DomainState ρ)) : DeviceDaemon ρ :=
  { daemon with
    states := fun domain => (written domain).getD (daemon.states domain),
    stored := fun domain => daemon.stored domain ++ (written domain).toList }

def store (domain : DeviceDomain) (state : DomainState ρ) : DeviceDaemon ρ :=
  daemon.write (Function.update (fun _ => none) domain (some state))

def setPhase (domain : DeviceDomain) (execution : Execution ρ) (phase : ExecutionPhase ρ) :
    DeviceDaemon ρ :=
  { daemon with
    executions := Function.update daemon.executions domain (some { execution with phase }) }

/-- The command is answered. -/
def finish (domain : DeviceDomain) (execution : Execution ρ) (outcome : CommandOutcome) :
    DeviceDaemon ρ :=
  let daemon := daemon.setPhase domain execution (.finished outcome)
  match outcome with
  | .applied version => { daemon with tasks := daemon.tasks ++ [DaemonTask.applied domain version] }
  | _ => daemon

def pushTimedOut (domain : DeviceDomain) (command : DeviceCommand) (before : DomainState ρ) :
    DeviceDaemon ρ :=
  { daemon with
    timedOut := Function.update daemon.timedOut domain
      (daemon.timedOut domain ++ [⟨command, before⟩]) }

/-- `execute_single` goes on. -/
def executeSingle (domain : DeviceDomain) (execution : Execution ρ) (found : Found) :
    DeviceDaemon ρ :=
  match execution.phase with
  | .started => daemon.setPhase domain execution (.executing (daemon.states domain) false)
  | .executing before notified =>
    match found.ending with
    | some ending => daemon.setPhase domain execution (.executed before ending)
    | none =>
      if notified then daemon.finish domain execution (.cancelled .ownerReplaced) else daemon
  | .executed before ending =>
    if daemon.ownerGeneration ≠ execution.generation then
      daemon.finish domain execution (.cancelled .ownerReplaced)
    else
      match ending with
      | .succeeded => daemon.setPhase domain execution (.polling before)
      | .failed => daemon.setPhase domain execution .failing
      | .timedOut => daemon.setPhase domain execution (.overdue before)
  | .polling before => daemon.setPhase domain execution (.observed before (daemon.adapter domain))
  | .observed before observed =>
    if daemon.ownerGeneration ≠ execution.generation then
      daemon.finish domain execution (.cancelled .ownerReplaced)
    else if commandConfirmed execution.command before.payload observed.payload then
      daemon.setPhase domain execution (.storing before (observed.confirmed execution.generation))
    else if found.elapsed then daemon.setPhase domain execution (.expiring before observed)
    else daemon.setPhase domain execution (.sleeping before false)
  | .storing _ state =>
    (daemon.store domain state).finish domain execution (.applied state.version)
  | .expiring before observed =>
    let outcome := .timedOut ⟨execution.generation, observed.version.revision⟩
    { (daemon.pushTimedOut domain execution.command before).finish domain execution outcome with
      broadcast := daemon.broadcast ++ [(domain, outcome)] }
  | .sleeping before notified =>
    if found.elapsed then daemon.setPhase domain execution (.polling before)
    else if notified then daemon.finish domain execution (.cancelled .ownerReplaced)
    else daemon
  | .failing =>
    (daemon.store domain ((daemon.states domain).degraded "Device command rejected")).finish domain
      execution (.rejected .unavailable)
  | .overdue before =>
    daemon.setPhase domain execution (.overdueObserved before (daemon.adapter domain))
  | .overdueObserved before observed =>
    ((daemon.store domain ((daemon.states domain).degraded "Command timed out")).pushTimedOut domain
      execution.command before).finish domain execution
        (.timedOut ⟨execution.generation, observed.version.revision⟩)
  | .finished _ => daemon

/-- A worker takes a command when it has answered the one before. -/
def beginCommand (command : DeviceCommand) : DeviceDaemon ρ :=
  let idle := match daemon.executions command.domain with
    | none => true
    | some execution => match execution.phase with
      | .finished _ => true
      | _ => false
  if idle then
    { daemon with
      executions := Function.update daemon.executions command.domain
        (some ⟨daemon.ownerGeneration, command, .started⟩) }
  else daemon

end DeviceDaemon

/-! ### Tasks -/

namespace DeviceDaemon

section

variable [DecidableEq ρ] (daemon : DeviceDaemon ρ)

/-- What a refresh stores. -/
def refreshed (generation : ℕ) (domain : DeviceDomain) : Option (DomainState ρ) :=
  (daemon.states domain).refreshed (daemon.adapter domain) generation

/-- A command that has timed out is applied after all. -/
def reconciled (generation : ℕ) (domain : DeviceDomain) : List (DeviceDomain × CommandOutcome) :=
  match daemon.refreshed generation domain with
  | none => []
  | some state =>
    (daemon.timedOut domain).filterMap fun timedOut =>
      if commandConfirmed timedOut.command timedOut.before.payload state.payload then
        some (domain, .reconciledApplied state.version)
      else none

/-- Those that are still not applied. -/
def unreconciled (generation : ℕ) (domain : DeviceDomain) : List (TimedOutCommand ρ) :=
  match daemon.refreshed generation domain with
  | none => daemon.timedOut domain
  | some state =>
    (daemon.timedOut domain).filter fun timedOut =>
      !commandConfirmed timedOut.command timedOut.before.payload state.payload

def refreshDomainStates (generation : ℕ) : DeviceDaemon ρ :=
  { daemon.write (daemon.refreshed generation) with
    timedOut := daemon.unreconciled generation,
    broadcast := daemon.broadcast ++ DeviceDomain.all.flatMap (daemon.reconciled generation) }

/-- The states that a refresh has changed, which are sent then. -/
def changed (generation : ℕ) : List (DeviceDomain × DomainState ρ) :=
  DeviceDomain.all.filterMap fun domain => (daemon.refreshed generation domain).map (domain, ·)

def emit (domain : DeviceDomain) (state : DomainState ρ) : DeviceDaemon ρ :=
  { daemon with
    emitted := daemon.emitted ++ [(domain, state)],
    client := daemon.client.updateLocalDomainState domain
      (stateFromWire daemon.client.installedOwnerGeneration state) }

def replaceOwner (generation : ℕ) : DeviceDaemon ρ :=
  daemon.write fun domain => some ((daemon.states domain).reconnecting generation)

def setTask (index : ℕ) (task : DaemonTask ρ) : DeviceDaemon ρ :=
  { daemon with tasks := daemon.tasks.set index task }

/-- A task goes on. -/
def runTask (index : ℕ) : DaemonTask ρ → DeviceDaemon ρ
  | .refreshing generation =>
    (daemon.refreshDomainStates generation).setTask index (.emitting (daemon.changed generation))
  | .emitting [] => daemon
  | .emitting ((domain, state) :: rest) =>
    (daemon.emit domain state).setTask index (.emitting rest)
  | .applied domain version =>
    daemon.setTask index (.emitting
      (if (daemon.states domain).version = version then [(domain, daemon.states domain)] else []))
  | .replacing generation => (daemon.replaceOwner generation).setTask index .notifying
  | .notifying =>
    { daemon.setTask index (.emitting []) with
      executions := fun domain => (daemon.executions domain).map Execution.notify }

def next : DaemonStep ρ → DeviceDaemon ρ
  | .change domain state =>
    { daemon with adapter := Function.update daemon.adapter domain state }
  | .begin command => daemon.beginCommand command
  | .work domain found =>
    match daemon.executions domain with
    | none => daemon
    | some execution => daemon.executeSingle domain execution found
  | .refresh =>
    { daemon with tasks := daemon.tasks ++ [DaemonTask.refreshing daemon.ownerGeneration] }
  | .replace =>
    { daemon with
      ownerGeneration := daemon.ownerGeneration + 1,
      tasks := daemon.tasks ++ [DaemonTask.replacing (daemon.ownerGeneration + 1)] }
  | .task index =>
    match daemon.tasks[index]? with
    | none => daemon
    | some task => daemon.runTask index task

end

/-! ### What a step leaves alone -/

variable {daemon : DeviceDaemon ρ}

/-- A worker goes on: the adapter and the other workers stay, and a command that is applied is
reported. -/
structure WorkFrame (daemon after : DeviceDaemon ρ) (domain : DeviceDomain) : Prop where
  adapter : after.adapter = daemon.adapter
  ownerGeneration : after.ownerGeneration = daemon.ownerGeneration
  executions : ∀ other, other ≠ domain → after.executions other = daemon.executions other
  tasks : after.tasks = daemon.tasks ∨
    ∃ version, after.tasks = daemon.tasks ++ [DaemonTask.applied domain version]
  emitted : after.emitted = daemon.emitted
  client : after.client = daemon.client

theorem WorkFrame.rfl {domain : DeviceDomain} : daemon.WorkFrame daemon domain :=
  ⟨Eq.refl _, Eq.refl _, fun _ _ => Eq.refl _, .inl (Eq.refl _), Eq.refl _, Eq.refl _⟩

theorem workFrame_setPhase (domain : DeviceDomain) (execution : Execution ρ)
    (phase : ExecutionPhase ρ) : daemon.WorkFrame (daemon.setPhase domain execution phase) domain :=
  ⟨rfl, rfl, fun _ hne => Function.update_of_ne hne _ _, .inl rfl, rfl, rfl⟩

/-- Something may have been stored before. -/
theorem workFrame_finish {middle : DeviceDaemon ρ} (hadapter : middle.adapter = daemon.adapter)
    (hgeneration : middle.ownerGeneration = daemon.ownerGeneration)
    (hexecutions : middle.executions = daemon.executions) (htasks : middle.tasks = daemon.tasks)
    (hemitted : middle.emitted = daemon.emitted) (hclient : middle.client = daemon.client)
    (domain : DeviceDomain) (execution : Execution ρ) (outcome : CommandOutcome) :
    daemon.WorkFrame (middle.finish domain execution outcome) domain := by
  have hother : ∀ other, other ≠ domain →
      (middle.setPhase domain execution (.finished outcome)).executions other =
        daemon.executions other := by
    intro other hne
    rw [← hexecutions]
    exact Function.update_of_ne hne _ _
  unfold finish
  cases outcome with
  | applied version =>
    refine ⟨hadapter, hgeneration, hother, .inr ⟨version, ?_⟩, hemitted, hclient⟩
    rw [← htasks]
    rfl
  | _ => exact ⟨hadapter, hgeneration, hother, .inl htasks, hemitted, hclient⟩

theorem workFrame_executeSingle (domain : DeviceDomain) (execution : Execution ρ) (found : Found) :
    daemon.WorkFrame (daemon.executeSingle domain execution found) domain := by
  unfold executeSingle
  split
  · exact workFrame_setPhase domain execution _
  · split
    · exact workFrame_setPhase domain execution _
    · split_ifs
      · refine workFrame_finish ?_ ?_ ?_ ?_ ?_ ?_ domain execution _ <;> rfl
      · exact .rfl
  · split_ifs
    · refine workFrame_finish ?_ ?_ ?_ ?_ ?_ ?_ domain execution _ <;> rfl
    · split <;> exact workFrame_setPhase domain execution _
  · exact workFrame_setPhase domain execution _
  · split_ifs
    · refine workFrame_finish ?_ ?_ ?_ ?_ ?_ ?_ domain execution _ <;> rfl
    · exact workFrame_setPhase domain execution _
    · exact workFrame_setPhase domain execution _
    · exact workFrame_setPhase domain execution _
  · refine workFrame_finish ?_ ?_ ?_ ?_ ?_ ?_ domain execution _ <;> rfl
  · rename_i before observed hphase
    have h : daemon.WorkFrame ((daemon.pushTimedOut domain execution.command before).finish domain
        execution (.timedOut ⟨execution.generation, observed.version.revision⟩)) domain := by
      refine workFrame_finish ?_ ?_ ?_ ?_ ?_ ?_ domain execution _ <;> rfl
    obtain ⟨hadapter, hgeneration, hexecutions, htasks, hemitted, hclient⟩ := h
    exact ⟨hadapter, hgeneration, hexecutions, htasks, hemitted, hclient⟩
  · split_ifs
    · exact workFrame_setPhase domain execution _
    · refine workFrame_finish ?_ ?_ ?_ ?_ ?_ ?_ domain execution _ <;> rfl
    · exact .rfl
  · refine workFrame_finish ?_ ?_ ?_ ?_ ?_ ?_ domain execution _ <;> rfl
  · exact workFrame_setPhase domain execution _
  · refine workFrame_finish ?_ ?_ ?_ ?_ ?_ ?_ domain execution _ <;> rfl
  · exact .rfl

/-- A worker comes to store a state when the adapter has shown what was commanded. -/
theorem storing_executeSingle {domain : DeviceDomain} {execution later : Execution ρ}
    {found : Found} (hexecution : daemon.executions domain = some execution)
    (hlater : (daemon.executeSingle domain execution found).executions domain = some later) :
    later.generation = execution.generation ∧ later.command = execution.command ∧
      ∀ before state, later.phase = .storing before state → later = execution ∨
        ∃ observed : DomainState ρ,
          commandConfirmed execution.command before.payload observed.payload ∧
          state = observed.confirmed execution.generation := by
  have hsame : daemon.executions domain = some later →
      later.generation = execution.generation ∧ later.command = execution.command ∧
        ∀ before state, later.phase = .storing before state → later = execution ∨
          ∃ observed : DomainState ρ,
          commandConfirmed execution.command before.payload observed.payload ∧
            state = observed.confirmed execution.generation := by
    intro heq
    obtain rfl := Option.some.inj (hexecution.symm.trans heq)
    exact ⟨rfl, rfl, fun _ _ _ => .inl rfl⟩
  unfold executeSingle at hlater
  split at hlater
  case h_5 old observed hold =>
    split_ifs at hlater with hgeneration hconfirmed helapsed
    all_goals simp only [finish, setPhase, Function.update_self, Option.some.injEq] at hlater
    all_goals subst hlater
    all_goals refine ⟨rfl, rfl, fun before state hphase => ?_⟩
    all_goals cases hphase
    exact .inr ⟨observed, hconfirmed, rfl⟩
  all_goals try split at hlater
  all_goals try split at hlater
  all_goals first
    | exact hsame hlater
    | (simp only [finish, setPhase, Function.update_self, Option.some.injEq] at hlater
       subst hlater
       exact ⟨rfl, rfl, fun _ _ hphase => by cases hphase⟩)

/-- What is reported is what has been stored. -/
theorem tasks_executeSingle (domain : DeviceDomain) (execution : Execution ρ) (found : Found) :
    (daemon.executeSingle domain execution found).tasks = daemon.tasks ∨
      ∃ before state, execution.phase = .storing before state ∧
        (daemon.executeSingle domain execution found).tasks =
          daemon.tasks ++ [DaemonTask.applied domain state.version] := by
  unfold executeSingle
  split
  case h_6 before state hphase => exact .inr ⟨before, state, hphase, rfl⟩
  all_goals try split
  all_goals try split
  all_goals try split
  all_goals exact .inl rfl

end DeviceDaemon

end Shilpo.Device
