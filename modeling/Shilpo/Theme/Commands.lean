import Shilpo.Theme.State
import Shilpo.Theory.Runs

/-!
# Commands are all or nothing

A command that fails is to leave nothing behind, a mode that the desktop has to follow is to be
projected, and two states of one revision are to be the same one. The daemon commits and emits a
state before it is sure that the state can be written and will be; and it takes the directory of
the wallpapers from the configuration, when it is asked for the state, without raising the revision
(`commands_torn`). Where neither happens, the commands keep what is promised (`commands_kept`).
-/

namespace Shilpo.Theme

open Theory

variable {Palettes : Type}

/-! ### What the daemon is told -/

/-- What a client asks of the daemon. -/
inductive ActorMessage where
  | getState
  | getDiagnostics
  | setMode (mode : ThemeMode)
  | toggleMode
  | setColorSource (source : ColorSource)
  | setSchemeVariant (variant : SchemeVariant)
  | setCustomSeed (seed : UInt32)
  | setWallpaper (path : Path)
  | setWallpaperDirectory (dir : Path)
  | setRandomWallpaper

/-- What the daemon finds when it handles a message: the time, the directory that the configuration
names, whether a path is a directory, whether the configuration can be written, and whether a
wallpaper can be looked at. -/
structure Surroundings where
  now : String
  configured : Option Path
  isDir : Bool
  configWritten : Except String Unit
  key : Except String Unit

/-- What the daemon is told, and what the executors do meanwhile. -/
inductive DaemonInput where
  | message (message : ActorMessage) (surroundings : Surroundings)
  | portal (mode : Option ThemeMode) (now : String)
  | wallpaperResult (result : WallpaperTaskResult) (now : String)
  | persistenceTaken (count : ℕ)
  | persistenceWritten (result : Except String Unit)
  | persistenceClosed
  | adapterTaken (count : ℕ) (status : ProjectionStatus)
  | adapterClosed

/-- What the daemon has done: the states that it has emitted or given out are `seen`. -/
structure Handled (Palettes : Type) where
  daemon : ThemeDaemon Palettes
  seen : List (DaemonState Palettes)

/-- The states that can be seen when a command has been processed. -/
def Processed.seen (processed : Processed Palettes) : List (DaemonState Palettes) :=
  (processed.emitted.map (·.state)).toList ++ processed.result.toOption.toList

def Processed.handled (processed : Processed Palettes) : Handled Palettes :=
  ⟨processed.daemon, processed.seen⟩

/-- The command that a message carries. -/
def ActorMessage.command (surroundings : Surroundings) : ActorMessage → Option DaemonCommand
  | .setMode mode => some (.theme (.setMode mode))
  | .toggleMode => some (.theme .toggleMode)
  | .setColorSource source => some (.theme (.setColorSource source))
  | .setSchemeVariant variant => some (.theme (.setSchemeVariant variant))
  | .setCustomSeed seed => some (.theme (.setCustomSeed seed))
  | .setWallpaperDirectory dir =>
    if surroundings.isDir then some (.setWallpaperDirectory dir) else none
  | _ => none

namespace ThemeDaemon

variable (m3e : M3e Palettes) (daemon : ThemeDaemon Palettes)

/-- A message that carries a command is answered with the state, unless the command fails or the
directory cannot be written to the configuration. -/
def handleActorMessage (surroundings : Surroundings) (message : ActorMessage) : Handled Palettes :=
  match message, message.command surroundings with
  | .getState, _ =>
    let daemon := daemon.syncWallpaperDir surroundings.configured
    ⟨daemon, [daemon.state]⟩
  | .getDiagnostics, _ => ⟨daemon.syncWallpaperDir surroundings.configured, []⟩
  | .setWallpaper _, _ =>
    match surroundings.key with
    | .ok () => ⟨{ daemon with currentWallpaperOp := daemon.currentWallpaperOp + 1 }, []⟩
    | .error _ => ⟨daemon, []⟩
  | .setWallpaperDirectory _, some command =>
    let processed := daemon.processCommand m3e command surroundings.now
    match surroundings.configWritten with
    | .ok () => processed.handled
    | .error _ => ⟨processed.daemon, (processed.emitted.map (·.state)).toList⟩
  | _, some command => (daemon.processCommand m3e command surroundings.now).handled
  | _, none => ⟨daemon, []⟩

def handle : DaemonInput → Handled Palettes
  | .message message surroundings => daemon.handleActorMessage m3e surroundings message
  | .portal mode now => (daemon.processCommand m3e (.portalAppearanceChanged mode) now).handled
  | .wallpaperResult result now => (daemon.handleWallpaperCompletion m3e result now).handled
  | .persistenceTaken count => ⟨{ daemon with persistence := daemon.persistence.take count }, []⟩
  | .persistenceWritten result =>
    ⟨{ daemon with persistence := daemon.persistence.written result }, []⟩
  | .persistenceClosed =>
    ⟨{ daemon with persistence := { daemon.persistence with isClosed := true } }, []⟩
  | .adapterTaken count status =>
    ⟨{ daemon with adapter := daemon.adapter.take count status }, []⟩
  | .adapterClosed => ⟨{ daemon with adapter := { daemon.adapter with isClosed := true } }, []⟩

def next (input : DaemonInput) : ThemeDaemon Palettes := (daemon.handle m3e input).daemon

def seen (input : DaemonInput) : List (DaemonState Palettes) := (daemon.handle m3e input).seen

/-- The command that is processed when the daemon is told something, and the time. -/
def command : DaemonInput → Option (DaemonCommand × String)
  | .message message surroundings =>
    (message.command surroundings).map (·, surroundings.now)
  | .portal mode now => some (.portalAppearanceChanged mode, now)
  | .wallpaperResult result now =>
    if result.opId < daemon.currentWallpaperOp || result.error.isSome then none
    else some (.setWallpaper result.path result.seed result.detectedVariant, now)
  | _ => none

end ThemeDaemon

/-! ### What is promised -/

/-- The desktop has to follow a mode that the command leads to. -/
def DaemonCommand.requiresAdapter : DaemonCommand → Bool
  | .theme (.setMode mode) => mode ≠ .system
  | .theme .toggleMode | .portalAppearanceChanged _ => true
  | _ => false

/-- A command that fails has changed nothing, and emitted nothing; and a mode that it has led to is
projected at the revision that has been committed. -/
structure Processed.AllOrNothing (processed : Processed Palettes) (daemon : ThemeDaemon Palettes)
    (command : DaemonCommand) : Prop where
  nothing : ∀ error, processed.result = .error error →
    processed.daemon.state = daemon.state ∧ processed.emitted = none
  projected : command.requiresAdapter = true →
    daemon.state.theme.revision < processed.daemon.state.theme.revision →
    processed.daemon.state.theme.resolvedMode ≠ daemon.state.theme.resolvedMode →
      processed.projected = some (processed.daemon.state.theme.revision,
        processed.daemon.state.theme.resolvedMode)

/-- A revision is that of one state. -/
def Identified (states : List (DaemonState Palettes)) : Prop :=
  ∀ state ∈ states, ∀ other ∈ states,
    state.theme.revision = other.theme.revision → state = other

namespace ThemeDaemon

variable (m3e : M3e Palettes) (daemon : ThemeDaemon Palettes)

/-- Every command that is processed is all or nothing. -/
def KeepsCommands (input : DaemonInput) : Prop :=
  ∀ command ∈ daemon.command input,
    (daemon.processCommand m3e command.1 command.2).AllOrNothing daemon command.1

/-! ### What keeps it -/

/-- What a command would commit can be written as JSON, and there is room for it in the mailbox. -/
def Accepts (command : DaemonCommand) (now : String) : Prop :=
  ∀ next outcome, m3e.applyCommand daemon.state command now = .ok (next, outcome) →
    daemon.state.theme.revision < next.theme.revision →
      next.isSerializable = true ∧ daemon.persistence.accepts = true

def AcceptsCommands (input : DaemonInput) : Prop :=
  ∀ command ∈ daemon.command input, daemon.Accepts m3e command.1 command.2

/-- The directory of the wallpapers is the one that the configuration names, when the daemon looks
there. -/
def Configured : DaemonInput → Prop
  | .message .getState surroundings | .message .getDiagnostics surroundings =>
    ∀ dir ∈ surroundings.configured, dir = daemon.state.wallpaperDir
  | _ => True

/-! ### One command -/

variable {m3e daemon}

end ThemeDaemon

namespace M3e

variable {m3e : M3e Palettes} {state next : DaemonState Palettes}

/-- A mode that is new is the one that the desktop is told, if it has to be told one. -/
theorem mode_of_requiresAdapter {command : DaemonCommand} {now : String} {mode : Option ThemeMode}
    (h : m3e.transition state now command = .ok (next, mode))
    (hrequires : command.requiresAdapter = true)
    (hnew : next.theme.resolvedMode ≠ state.theme.resolvedMode) :
    mode = some next.theme.resolvedMode := by
  cases command with
  | theme command =>
    cases command with
    | setMode selected =>
      simp only [transition, Except.ok.injEq, Prod.mk.injEq] at h
      obtain ⟨rfl, rfl⟩ := h
      have hselected : selected ≠ .system := by
        simpa [DaemonCommand.requiresAdapter] using hrequires
      rw [modeToDispatch, if_neg hselected, if_pos hnew]
    | toggleMode =>
      simp only [transition, Except.ok.injEq, Prod.mk.injEq] at h
      obtain ⟨rfl, rfl⟩ := h
      rfl
    | _ => cases hrequires
  | portalAppearanceChanged portalMode =>
    cases portalMode with
    | none =>
      simp only [transition, Except.ok.injEq, Prod.mk.injEq] at h
      obtain ⟨rfl, -⟩ := h
      exact absurd rfl hnew
    | some portalMode =>
      simp only [transition] at h
      split_ifs at h
      · simp only [Except.ok.injEq, Prod.mk.injEq] at h
        obtain ⟨rfl, rfl⟩ := h
        rfl
      · simp only [Except.ok.injEq, Prod.mk.injEq] at h
        obtain ⟨rfl, -⟩ := h
        exact absurd rfl hnew
  | _ => cases hrequires

/-- What a command asks for is what its transition does. -/
theorem applyCommand_eq_ok {command : DaemonCommand} {now : String} {outcome : ApplyOutcome} :
    m3e.applyCommand state command now = .ok (next, outcome) ↔
      m3e.transition state now command = .ok (next, outcome.dispatchAdapterMode) ∧
        outcome.changeKind = .between state next := by
  unfold applyCommand
  cases h : m3e.transition state now command with
  | error error => simp [Except.map]
  | ok result =>
    obtain ⟨after, mode⟩ := result
    obtain ⟨dispatched, kind⟩ := outcome
    simp only [Except.map, Except.ok.injEq, Prod.mk.injEq, ApplyOutcome.mk.injEq]
    constructor
    · rintro ⟨rfl, rfl, rfl⟩
      exact ⟨⟨rfl, rfl⟩, rfl⟩
    · rintro ⟨⟨rfl, rfl⟩, rfl⟩
      exact ⟨rfl, rfl, rfl⟩

end M3e

/-- A state is taken exactly if there is room for it. -/
theorem PersistenceExecutor.enqueue_ok_iff (executor : PersistenceExecutor Palettes)
    (state : DaemonState Palettes) :
    (executor.enqueue state).2 = .ok () ↔ executor.accepts = true := by
  unfold enqueue accepts
  cases executor.isClosed with
  | true => simp
  | false =>
    by_cases hfull : persistenceMailboxCapacity ≤ executor.requests.length
    · simp [hfull]
    · simp [hfull, Nat.lt_of_not_le hfull]

namespace ThemeDaemon

variable {m3e : M3e Palettes} {daemon : ThemeDaemon Palettes}

variable (emitted : Option (ThemeUpdate Palettes))

@[simp] theorem dispatch_state (mode : Option ThemeMode) :
    (daemon.dispatch emitted mode).daemon.state = daemon.state := by
  cases mode <;> rfl

@[simp] theorem dispatch_result (mode : Option ThemeMode) :
    (daemon.dispatch emitted mode).result = .ok daemon.state := by
  cases mode <;> rfl

@[simp] theorem dispatch_emitted (mode : Option ThemeMode) :
    (daemon.dispatch emitted mode).emitted = emitted := by
  cases mode <;> rfl

@[simp] theorem commit_state (next : DaemonState Palettes) (outcome : ApplyOutcome) :
    (daemon.commit next outcome).daemon.state = next := by
  unfold commit
  dsimp only
  split_ifs
  · rfl
  · split
    · rfl
    · exact dispatch_state _ _

/-- A state that has been committed is answered with exactly if it can be written and is taken. -/
theorem commit_ok {next : DaemonState Palettes} {outcome : ApplyOutcome}
    (hserializable : next.isSerializable = true) (haccepts : daemon.persistence.accepts = true) :
    daemon.commit next outcome = ({ daemon with
      state := next, persistence := (daemon.persistence.enqueue next).1 } :
        ThemeDaemon Palettes).dispatch (some ⟨next, outcome.changeKind⟩)
          outcome.dispatchAdapterMode := by
  have hok := (daemon.persistence.enqueue_ok_iff next).mpr haccepts
  unfold commit
  rw [hserializable]
  simp only [Bool.not_true, Bool.false_eq_true, if_false, hok]

theorem commit_error {next : DaemonState Palettes} (outcome : ApplyOutcome)
    (h : ¬ (next.isSerializable = true ∧ daemon.persistence.accepts = true)) :
    ∃ error, (daemon.commit next outcome).result = .error error := by
  cases hserializable : next.isSerializable with
  | false =>
    refine ⟨"path contains invalid UTF-8 characters", ?_⟩
    simp only [commit, hserializable, Bool.not_false, if_true]
  | true =>
    have hiff := daemon.persistence.enqueue_ok_iff next
    cases haccepted : (daemon.persistence.enqueue next).2 with
    | ok => exact absurd ⟨hserializable, hiff.mp haccepted⟩ h
    | error error =>
      refine ⟨error, ?_⟩
      simp only [commit, hserializable, Bool.not_true, Bool.false_eq_true, if_false, haccepted]

/-- **A command is all or nothing** exactly if what it would commit is accepted. -/
theorem allOrNothing_iff (command : DaemonCommand) (now : String) :
    (daemon.processCommand m3e command now).AllOrNothing daemon command ↔
      daemon.Accepts m3e command now := by
  unfold processCommand Accepts
  cases happly : m3e.applyCommand daemon.state command now with
  | error error =>
    refine iff_of_true ⟨fun _ _ => ⟨rfl, rfl⟩, fun _ hraised => ?_⟩
      fun _ _ heq => by cases heq
    exact absurd hraised (lt_irrefl _)
  | ok applied =>
    obtain ⟨next, outcome⟩ := applied
    dsimp only
    split_ifs with hraised
    · constructor
      · rintro hkeeps _ _ heq -
        cases heq
        by_contra hrejected
        obtain ⟨error, herror⟩ := commit_error outcome hrejected
        have hsame := (hkeeps.nothing error herror).1
        rw [commit_state] at hsame
        exact absurd hraised (hsame ▸ lt_irrefl _)
      · intro haccepts
        obtain ⟨hserializable, haccepted⟩ := haccepts next outcome rfl hraised
        rw [commit_ok hserializable haccepted]
        refine ⟨fun error herror => ?_, fun hrequires _ hnew => ?_⟩
        · rw [dispatch_result] at herror
          cases herror
        · rw [dispatch_state] at hnew ⊢
          rw [M3e.mode_of_requiresAdapter (M3e.applyCommand_eq_ok.mp happly).1 hrequires hnew]
          rfl
    · refine iff_of_true ⟨fun error herror => ?_, fun _ hraised' => ?_⟩ ?_
      · rw [dispatch_result] at herror
        cases herror
      · rw [dispatch_state] at hraised'
        exact absurd hraised' (lt_irrefl _)
      · rintro _ _ heq hraised'
        cases heq
        exact absurd hraised' hraised

/-! ### What can be seen -/

/-- A part of what the daemon does gives out the state that it leaves, and leaves another one only
with a greater revision. -/
structure Steady (daemon : ThemeDaemon Palettes) (handled : Handled Palettes) : Prop where
  seen : ∀ state ∈ handled.seen, state = handled.daemon.state
  state : handled.daemon.state = daemon.state ∨
    daemon.state.theme.revision < handled.daemon.state.theme.revision

theorem Steady.of_same {handled : Handled Palettes} (hstate : handled.daemon.state = daemon.state)
    (hseen : ∀ state ∈ handled.seen, state = daemon.state) : daemon.Steady handled :=
  ⟨fun state hmem => (hseen state hmem).trans hstate.symm, .inl hstate⟩

theorem steady_dispatch (mode : Option ThemeMode)
    (hemitted : ∀ update ∈ emitted, update.state = daemon.state) :
    ∀ state ∈ (daemon.dispatch emitted mode).seen, state = daemon.state := by
  intro state hmem
  simp only [Processed.seen, dispatch_emitted, dispatch_result, List.mem_append,
    Option.mem_toList, Except.toOption] at hmem
  rcases hmem with hmem | hmem
  · obtain ⟨update, hupdate, rfl⟩ := Option.map_eq_some_iff.mp hmem
    exact hemitted update hupdate
  · exact (Option.some.inj hmem).symm

theorem commit_emitted {next : DaemonState Palettes} {outcome : ApplyOutcome}
    {update : ThemeUpdate Palettes} (h : update ∈ (daemon.commit next outcome).emitted) :
    update.state = next := by
  cases hserializable : next.isSerializable with
  | false =>
    simp only [commit, hserializable, Bool.not_false, if_true] at h
    cases h
  | true =>
    have hupdate : update ∈ some (⟨next, outcome.changeKind⟩ : ThemeUpdate Palettes) := by
      cases haccepted : (daemon.persistence.enqueue next).2 <;>
        simpa only [commit, hserializable, Bool.not_true, Bool.false_eq_true, if_false, haccepted,
          dispatch_emitted] using h
    obtain rfl := Option.some.inj hupdate
    rfl

theorem commit_seen (next : DaemonState Palettes) (outcome : ApplyOutcome) :
    ∀ state ∈ (daemon.commit next outcome).seen, state = next := by
  by_cases h : next.isSerializable = true ∧ daemon.persistence.accepts = true
  · rw [commit_ok h.1 h.2]
    refine steady_dispatch _ _ fun update hupdate => ?_
    obtain rfl : _ = update := Option.some.inj hupdate
    rfl
  · obtain ⟨error, herror⟩ := commit_error outcome h
    intro state hmem
    rw [Processed.seen, herror] at hmem
    simp only [Except.toOption, Option.toList_none, List.append_nil, Option.mem_toList] at hmem
    obtain ⟨update, hupdate, rfl⟩ := Option.map_eq_some_iff.mp hmem
    exact commit_emitted hupdate

theorem steady_processCommand (command : DaemonCommand) (now : String) :
    daemon.Steady (daemon.processCommand m3e command now).handled := by
  unfold processCommand
  cases m3e.applyCommand daemon.state command now with
  | error error => exact .of_same rfl fun _ hmem => by cases hmem
  | ok applied =>
    obtain ⟨next, outcome⟩ := applied
    dsimp only
    split_ifs with hraised
    · refine ⟨fun state hmem => ?_, .inr ?_⟩
      · exact (commit_seen next outcome state hmem).trans (commit_state next outcome).symm
      · rw [Processed.handled, commit_state]
        exact hraised
    · exact .of_same (dispatch_state _ _) (steady_dispatch _ _ fun _ h => by cases h)

theorem steady_handleWallpaperCompletion (result : WallpaperTaskResult) (now : String) :
    daemon.Steady (daemon.handleWallpaperCompletion m3e result now).handled := by
  unfold handleWallpaperCompletion
  split_ifs
  · exact .of_same rfl fun _ hmem => by cases hmem
  · split
    · exact .of_same rfl fun _ hmem => by cases hmem
    · exact steady_processCommand _ now

theorem syncWallpaperDir_of_configured {configured : Option Path}
    (h : ∀ dir ∈ configured, dir = daemon.state.wallpaperDir) :
    daemon.syncWallpaperDir configured = daemon := by
  unfold syncWallpaperDir
  cases configured with
  | none => rfl
  | some dir => exact if_neg (not_not.mpr (h dir rfl))

/-- **What the daemon does is steady**, unless the configuration moves the wallpapers. -/
theorem steady_handle {input : DaemonInput} (hconfigured : daemon.Configured input) :
    daemon.Steady (daemon.handle m3e input) := by
  cases input with
  | message message surroundings =>
    cases message with
    | getState =>
      have hsame : daemon.syncWallpaperDir surroundings.configured = daemon :=
        syncWallpaperDir_of_configured hconfigured
      refine .of_same (congrArg _ hsame) fun state hmem => ?_
      rw [List.mem_singleton.mp hmem]
      exact congrArg _ hsame
    | getDiagnostics =>
      refine .of_same (congrArg _ (syncWallpaperDir_of_configured hconfigured)) ?_
      exact fun _ hmem => by cases hmem
    | setWallpaper path =>
      simp only [handle, handleActorMessage]
      split <;> exact .of_same rfl fun _ hmem => by cases hmem
    | setWallpaperDirectory dir =>
      simp only [handle, handleActorMessage, ActorMessage.command]
      cases surroundings.isDir with
      | false => exact .of_same rfl fun _ hmem => by cases hmem
      | true =>
        have hsteady : daemon.Steady (daemon.processCommand m3e (.setWallpaperDirectory dir)
            surroundings.now).handled :=
          steady_processCommand _ _
        simp only [if_true]
        cases surroundings.configWritten with
        | ok => exact hsteady
        | error => exact ⟨fun state hmem => hsteady.seen state (List.mem_append_left _ hmem),
            hsteady.state⟩
    | setRandomWallpaper => exact .of_same rfl fun _ hmem => by cases hmem
    | _ => exact steady_processCommand _ _
  | portal mode now => exact steady_processCommand _ now
  | wallpaperResult result now => exact steady_handleWallpaperCompletion result now
  | _ => exact .of_same rfl fun _ hmem => by cases hmem

end ThemeDaemon

/-! ### Runs -/

/-- The state of the daemon is the one of its revision among those that have been seen, and none of
these is newer. -/
def Current (states : List (DaemonState Palettes)) (daemon : ThemeDaemon Palettes) : Prop :=
  ∀ state ∈ states, state.theme.revision < daemon.state.theme.revision ∨ state = daemon.state

theorem Current.next {states : List (DaemonState Palettes)} {daemon : ThemeDaemon Palettes}
    {handled : Handled Palettes} (h : Current states daemon) (hsteady : daemon.Steady handled) :
    Current (states ++ handled.seen) handled.daemon := by
  intro state hmem
  rcases List.mem_append.mp hmem with hmem | hmem
  · rcases h state hmem, hsteady.state with ⟨hless | rfl, hsame | hraised⟩
    · exact .inl (hsame ▸ hless)
    · exact .inl (hless.trans hraised)
    · exact .inr hsame.symm
    · exact .inl hraised
  · exact .inr (hsteady.seen state hmem)

/-- What is seen next is new, or is what has been seen. -/
theorem Identified.next {states : List (DaemonState Palettes)} {daemon : ThemeDaemon Palettes}
    {handled : Handled Palettes} (h : Identified states) (hcurrent : Current states daemon)
    (hsteady : daemon.Steady handled) : Identified (states ++ handled.seen) := by
  have hnew : ∀ state ∈ states, ∀ other ∈ handled.seen,
      state.theme.revision = other.theme.revision → state = other := by
    intro state hmem other hother hrevision
    obtain rfl := hsteady.seen other hother
    rcases hcurrent.next hsteady state (List.mem_append_left _ hmem) with hless | hsame
    · exact absurd hrevision hless.ne
    · exact hsame
  intro state hmem other hother hrevision
  rcases List.mem_append.mp hmem, List.mem_append.mp hother with ⟨hmem | hmem, hother | hother⟩
  · exact h state hmem other hother hrevision
  · exact hnew state hmem other hother hrevision
  · exact (hnew other hother state hmem hrevision.symm).symm
  · rw [hsteady.seen state hmem, hsteady.seen other hother]

/-- **Commands are all or nothing** in every run exactly if what they commit is accepted; and a
revision is that of one state if the configuration does not move the wallpapers. -/
theorem commands_kept (m3e : M3e Palettes) (daemon : ThemeDaemon Palettes)
    (inputs : List DaemonInput) :
    (Along (ThemeDaemon.next m3e) (ThemeDaemon.KeepsCommands m3e) daemon inputs ↔
      Along (ThemeDaemon.next m3e) (ThemeDaemon.AcceptsCommands m3e) daemon inputs) ∧
    (Along (ThemeDaemon.next m3e) ThemeDaemon.Configured daemon inputs →
      Identified (daemon.state ::
        expand (ThemeDaemon.next m3e) (ThemeDaemon.seen m3e) daemon inputs)) := by
  refine ⟨?_, fun hconfigured => ?_⟩
  · refine along_congr (I := fun _ => True) (fun _ _ _ => trivial) (fun daemon input _ => ?_)
      trivial inputs
    exact forall₂_congr fun command _ => ThemeDaemon.allOrNothing_iff command.1 command.2
  · suffices h : ∀ {states : List (DaemonState Palettes)} {daemon : ThemeDaemon Palettes},
        Identified states → Current states daemon →
        Along (ThemeDaemon.next m3e) ThemeDaemon.Configured daemon inputs →
          Identified (states ++
            expand (ThemeDaemon.next m3e) (ThemeDaemon.seen m3e) daemon inputs) by
      refine @h [daemon.state] _ ?_ ?_ hconfigured
      · intro state hmem other hother _
        rw [List.mem_singleton.mp hmem, List.mem_singleton.mp hother]
      · exact fun state hmem => .inr (List.mem_singleton.mp hmem)
    clear hconfigured
    intro states daemon hidentified hcurrent hconfigured
    induction inputs generalizing states daemon with
    | nil => simpa [expand] using hidentified
    | cons input inputs ih =>
      have hsteady : daemon.Steady (daemon.handle m3e input) :=
        ThemeDaemon.steady_handle hconfigured.1
      rw [expand, ← List.append_assoc]
      exact ih (hidentified.next hcurrent hsteady) (hcurrent.next hsteady) hconfigured.2

namespace Sample

/-- A theme without palettes; what is set is taken, and the revision raised. -/
def m3e : M3e Unit where
  reduce theme command now :=
    match command with
    | .setMode mode =>
      if theme.selectedMode = mode then theme
      else
        { theme with
          selectedMode := mode,
          resolvedMode := if mode = .system then theme.resolvedMode else mode,
          revision := theme.revision + 1, updatedAt := now }
    | _ => theme
  materializeSeedWithVariant theme seed _ now :=
    if theme.colorSource = .wallpaper ∧ theme.sourceArgb ≠ seed then
      ({ theme with sourceArgb := seed, revision := theme.revision + 1, updatedAt := now }, true)
    else (theme, false)

def state : DaemonState Unit :=
  ⟨⟨1, .system, .light, .wallpaper, .auto, 0, none, "", ()⟩, none, none, .auto,
    .text "~/Pictures/Wallpapers"⟩

/-- A daemon whose executors have nothing to do. -/
def daemon : ThemeDaemon Unit :=
  ⟨state, ⟨[], false, none, 1, none, 0⟩, ⟨[], false, none, .applied, 0⟩, 0, [], 0⟩

/-- The writer of the state lags behind. -/
def lagging : ThemeDaemon Unit :=
  { daemon with
    persistence := { daemon.persistence with requests := List.replicate 8 (.persist state) } }

def surroundings : Surroundings := ⟨"now", none, true, .ok (), .ok ()⟩

end Sample

/-- A mode that is committed, emitted and not projected, as the mailbox is full, though the command
fails; and a state that changes under its revision, as the configuration names other wallpapers. -/
theorem commands_torn :
    ¬ Along (ThemeDaemon.next Sample.m3e) (ThemeDaemon.KeepsCommands Sample.m3e) Sample.lagging
      [.message (.setMode .dark) Sample.surroundings] ∧
    ¬ Identified (Sample.daemon.state :: expand (ThemeDaemon.next Sample.m3e)
      (ThemeDaemon.seen Sample.m3e) Sample.daemon
      [.message .getState { Sample.surroundings with configured := some (.text "/walls") }]) := by
  refine ⟨fun h => ?_, fun h => ?_⟩
  · have hkeeps := h.1 (.theme (.setMode .dark), "now") rfl
    exact absurd (hkeeps.nothing "mailbox is at capacity" (by decide +kernel)).1
      (by decide +kernel)
  · have hsame := h Sample.daemon.state List.mem_cons_self
      { Sample.daemon.state with wallpaperDir := .text "/walls" } (by decide +kernel) rfl
    exact absurd hsame (by decide +kernel)

end Shilpo.Theme
