import Shilpo.Theme.Commands

/-!
# Wallpapers

`ThemeDaemon::spawn_wallpaper_task` and `wallpaper_cache.rs`. Each request for a wallpaper is a task
of its own: it looks for what is known of the picture, or analyses it, has the desktop show it, and
leaves a result in a bounded mailbox. The daemon passes over the result of a request that is not the
newest; but the desktop shows what the task that was last has had it show, whichever this is
(`wallpapers_disagree`). Where the result of the last of these arrives while its request is the
newest, the state agrees with the desktop (`wallpapers_agree`).
-/

namespace Shilpo.Theme

open Theory

variable {Palettes : Type}

/-! ### What is known of pictures -/

structure WallpaperCacheKey where
  canonicalPath : Path
  mtime : ℕ
  schemeVariant : SchemeVariant
  deriving DecidableEq

structure WallpaperAnalysis where
  seed : UInt32
  detectedVariant : SchemeVariant
  deriving DecidableEq

/-- The entries, the one that was used last at the end. -/
structure WallpaperAnalysisCache where
  capacity : ℕ
  entries : List (WallpaperCacheKey × WallpaperAnalysis)

namespace WallpaperAnalysisCache

variable (cache : WallpaperAnalysisCache)

def empty : WallpaperAnalysisCache := ⟨32, []⟩

/-- The entry of a key becomes the last one. -/
def touch (key : WallpaperCacheKey) (analysis : WallpaperAnalysis) : WallpaperAnalysisCache :=
  { cache with entries := cache.entries.filter (·.1 ≠ key) ++ [(key, analysis)] }

def get (key : WallpaperCacheKey) : WallpaperAnalysisCache × Option WallpaperAnalysis :=
  match cache.entries.find? (·.1 = key) with
  | some (_, analysis) => (cache.touch key analysis, some analysis)
  | none => (cache, none)

def insert (key : WallpaperCacheKey) (analysis : WallpaperAnalysis) : WallpaperAnalysisCache :=
  if cache.capacity = 0 then cache
  else if cache.entries.any (·.1 = key) then cache.touch key analysis
  else
    let kept :=
      if cache.capacity ≤ cache.entries.length then cache.entries.drop 1 else cache.entries
    { cache with entries := kept ++ [(key, analysis)] }

end WallpaperAnalysisCache

/-! ### Tasks -/

/-- How far a task has come. -/
inductive WallpaperPhase where
  | started
  /-- Nothing is known of the picture. -/
  | missed
  | analysed (analysis : WallpaperAnalysis)
  /-- The result waits to be sent. -/
  | finished (result : WallpaperTaskResult)

structure WallpaperTask where
  opId : ℕ
  key : WallpaperCacheKey
  reply : ℕ
  phase : WallpaperPhase

/-- What comes of a task whose picture could be analysed, or not. -/
def WallpaperTask.result (task : WallpaperTask) (analysis : WallpaperAnalysis)
    (error : Option String) : WallpaperTaskResult :=
  ⟨task.opId, task.key.canonicalPath, analysis.seed, analysis.detectedVariant, error, task.reply⟩

/-- The daemon and its wallpaper tasks; `requests` have been made. -/
structure Wallpapers (Palettes : Type) where
  daemon : ThemeDaemon Palettes
  cache : WallpaperAnalysisCache
  tasks : List WallpaperTask
  requests : ℕ

/-- What happens next; a task is named by its place among those that have not ended. -/
inductive WallpaperStep where
  /-- A wallpaper is asked for: its canonical path and when it was changed, if it is a file. -/
  | request (key : Except String (Path × ℕ))
  | lookup (index : ℕ)
  | analyse (index : ℕ) (outcome : Except String WallpaperAnalysis)
  /-- The desktop is to show the picture, and does or does not. -/
  | invoke (index : ℕ) (outcome : Except String Unit)
  | deliver (index : ℕ)
  /-- The daemon handles the oldest result; its answer waits until the state is on the disk. -/
  | complete (now : String) (durable : Except String Unit)
  /-- The daemon handles something else. -/
  | daemon (input : DaemonInput)

/-- What can be told of a run. -/
inductive WallpaperEvent (Palettes : Type) where
  | requested (reply : ℕ) (path : Option Path)
  | analysed (key : WallpaperCacheKey) (analysis : WallpaperAnalysis)
  /-- The desktop shows the picture that an operation has found. -/
  | shown (opId : ℕ) (path : Path) (analysis : WallpaperAnalysis)
  /-- The result of an operation arrives, when another is the newest. -/
  | arrived (opId newest : ℕ)
  | answered (reply : ℕ) (result : Except String (DaemonState Palettes))
  deriving DecidableEq

/-- The input is none that the tasks give. -/
def DaemonInput.isOther : DaemonInput → Bool
  | .message (.setWallpaper _) _ | .wallpaperResult _ _ => false
  | _ => true

namespace Wallpapers

variable (m3e : M3e Palettes) (wallpapers : Wallpapers Palettes)

/-- No wallpaper has been asked for. -/
def start (daemon : ThemeDaemon Palettes) : Wallpapers Palettes :=
  ⟨{ daemon with wallpaperResults := [] }, .empty, [], 0⟩

def withTask (index : ℕ) (task : WallpaperTask) : Wallpapers Palettes :=
  { wallpapers with tasks := wallpapers.tasks.set index task }

/-- A task is spawned, unless the file could not be looked at. -/
def spawnWallpaperTask :
    Except String (Path × ℕ) → Wallpapers Palettes × List (WallpaperEvent Palettes)
  | .error error =>
    ({ wallpapers with requests := wallpapers.requests + 1 },
      [.requested wallpapers.requests none, .answered wallpapers.requests (.error error)])
  | .ok (path, mtime) =>
    let opId := wallpapers.daemon.currentWallpaperOp + 1
    let key : WallpaperCacheKey := ⟨path, mtime, wallpapers.daemon.state.theme.schemeVariant⟩
    ({ wallpapers with
        daemon := { wallpapers.daemon with currentWallpaperOp := opId },
        tasks := wallpapers.tasks ++ [⟨opId, key, wallpapers.requests, .started⟩],
        requests := wallpapers.requests + 1 },
      [.requested wallpapers.requests (some path)])

/-- A result is left in the mailbox, or dropped; then its request is answered by the bus. -/
def sendWallpaperResult (result : WallpaperTaskResult) :
    Wallpapers Palettes × List (WallpaperEvent Palettes) :=
  let daemon := wallpapers.daemon
  if daemon.wallpaperResults.length < wallpaperResultMailboxCapacity then
    ({ wallpapers with
        daemon := { daemon with wallpaperResults := daemon.wallpaperResults ++ [result] } }, [])
  else
    ({ wallpapers with
        daemon := { daemon with
          wallpaperResultOverloads := daemon.wallpaperResultOverloads + 1 } },
      [.answered result.reply (.error "Actor request dropped")])

/-- One of the tasks goes on. -/
def proceed (index : ℕ) (task : WallpaperTask) :
    WallpaperPhase → WallpaperStep → Wallpapers Palettes × List (WallpaperEvent Palettes)
  | .started, .lookup _ =>
    let (cache, cached) := wallpapers.cache.get task.key
    let phase := match cached with
      | some analysis => .analysed analysis
      | none => .missed
    ({ wallpapers with cache }.withTask index { task with phase }, [])
  | .missed, .analyse _ (.ok analysis) =>
    ({ wallpapers with cache := wallpapers.cache.insert task.key analysis }.withTask index
      { task with phase := .analysed analysis }, [.analysed task.key analysis])
  | .missed, .analyse _ (.error error) =>
    (wallpapers.withTask index
      { task with phase := .finished (task.result ⟨0, .auto⟩ (some error)) }, [])
  | .analysed analysis, .invoke _ (.ok ()) =>
    (wallpapers.withTask index { task with phase := .finished (task.result analysis none) },
      [.shown task.opId task.key.canonicalPath analysis])
  | .analysed analysis, .invoke _ (.error error) =>
    (wallpapers.withTask index
      { task with phase := .finished (task.result analysis (some error)) }, [])
  | .finished result, .deliver _ =>
    { wallpapers with tasks := wallpapers.tasks.eraseIdx index }.sendWallpaperResult result
  | _, _ => (wallpapers, [])

/-- What is answered waits until it is on the disk. -/
def respondAfterDurable (result : Except String (DaemonState Palettes))
    (durable : Except String Unit) : Except String (DaemonState Palettes) :=
  match result, durable with
  | .ok state, .ok () => .ok state
  | .ok _, .error error => .error error
  | .error error, _ => .error error

def complete (now : String) (durable : Except String Unit) :
    Wallpapers Palettes × List (WallpaperEvent Palettes) :=
  match wallpapers.daemon.wallpaperResults with
  | [] => (wallpapers, [])
  | result :: rest =>
    let daemon := { wallpapers.daemon with wallpaperResults := rest }
    let processed := daemon.handleWallpaperCompletion m3e result now
    ({ wallpapers with daemon := processed.daemon },
      [.arrived result.opId daemon.currentWallpaperOp,
        .answered result.reply (respondAfterDurable processed.result durable)])

def handle (step : WallpaperStep) : Wallpapers Palettes × List (WallpaperEvent Palettes) :=
  match step with
  | .request key => wallpapers.spawnWallpaperTask key
  | .lookup index | .analyse index _ | .invoke index _ | .deliver index =>
    match wallpapers.tasks[index]? with
    | some task => wallpapers.proceed index task task.phase step
    | none => (wallpapers, [])
  | .complete now durable => wallpapers.complete m3e now durable
  | .daemon input =>
    if input.isOther then
      ({ wallpapers with daemon := wallpapers.daemon.next m3e input }, [])
    else (wallpapers, [])

def next (step : WallpaperStep) : Wallpapers Palettes := (wallpapers.handle m3e step).1

def events (step : WallpaperStep) : List (WallpaperEvent Palettes) :=
  (wallpapers.handle m3e step).2

/-- Every task has ended, and every result has been handled. -/
def Quiet : Prop := wallpapers.tasks = [] ∧ wallpapers.daemon.wallpaperResults = []

end Wallpapers

/-! ### What is promised -/

/-- The answers that a request has got. -/
def answers (events : List (WallpaperEvent Palettes)) (reply : ℕ) : ℕ :=
  events.countP fun
    | .answered other _ => other = reply
    | _ => false

/-- What the desktop has been made to show last: by which operation, the picture, and what had been
found of it. -/
def lastShown (events : List (WallpaperEvent Palettes)) :
    Option (ℕ × Path × WallpaperAnalysis) :=
  (events.filterMap fun
    | .shown opId path analysis => some (opId, path, analysis)
    | _ => none).getLast?

/-- The wallpaper of the state is this picture. -/
structure DaemonState.Shows (state : DaemonState Palettes) (path : Path)
    (analysis : WallpaperAnalysis) : Prop where
  path : state.wallpaperPath = some path
  seed : state.wallpaperSeed = some analysis.seed
  detectedVariant : state.wallpaperDetectedVariant = analysis.detectedVariant

/-- The state has the picture that the desktop shows, and what an analysis of it has found. -/
def Agrees (events : List (WallpaperEvent Palettes)) (state : DaemonState Palettes) : Prop :=
  ∀ opId path analysis, lastShown events = some (opId, path, analysis) →
    state.Shows path analysis ∧
      ∃ key, key.canonicalPath = path ∧ .analysed key analysis ∈ events

/-- Each request has been answered once. -/
def AnsweredOnce (events : List (WallpaperEvent Palettes)) : Prop :=
  ∀ reply path, .requested reply path ∈ events → answers events reply = 1

/-- A request has been answered with a state only if this has the wallpaper that was asked for. -/
def AnsweredTruly (events : List (WallpaperEvent Palettes)) : Prop :=
  ∀ reply state, .answered reply (.ok state) ∈ events →
    ∃ path, .requested reply (some path) ∈ events ∧ state.wallpaperPath = some path

/-! ### What keeps it -/

/-- The result of the operation that the desktop has followed last arrives while it is the newest. -/
def LastArrives (events : List (WallpaperEvent Palettes)) : Prop :=
  ∀ opId path analysis, lastShown events = some (opId, path, analysis) →
    .arrived opId opId ∈ events

/-- A theme is not taken back, and is newer if the seed has been applied. -/
structure M3e.Raises (m3e : M3e Palettes) : Prop where
  keeps : ∀ theme seed variant now,
    theme.revision ≤ (m3e.materializeSeedWithVariant theme seed variant now).1.revision
  raises : ∀ theme seed variant now,
    (m3e.materializeSeedWithVariant theme seed variant now).2 = true →
      theme.revision < (m3e.materializeSeedWithVariant theme seed variant now).1.revision

/-! ### Setting a wallpaper -/

/-- Two states have one wallpaper. -/
structure DaemonState.SameWallpaper (state other : DaemonState Palettes) : Prop where
  path : other.wallpaperPath = state.wallpaperPath
  seed : other.wallpaperSeed = state.wallpaperSeed
  detectedVariant : other.wallpaperDetectedVariant = state.wallpaperDetectedVariant

theorem DaemonState.SameWallpaper.rfl {state : DaemonState Palettes} : state.SameWallpaper state :=
  ⟨Eq.refl _, Eq.refl _, Eq.refl _⟩

theorem DaemonState.Shows.of_same {state other : DaemonState Palettes} {path : Path}
    {analysis : WallpaperAnalysis} (h : state.Shows path analysis)
    (hsame : state.SameWallpaper other) : other.Shows path analysis :=
  ⟨hsame.path.trans h.path, hsame.seed.trans h.seed, hsame.detectedVariant.trans h.detectedVariant⟩

namespace M3e

variable {m3e : M3e Palettes} {state next : DaemonState Palettes} {path : Path}
  {analysis : WallpaperAnalysis} {now : String}

theorem setWallpaper_shows :
    (m3e.setWallpaper state path analysis.seed analysis.detectedVariant now).Shows path
      analysis := by
  unfold setWallpaper
  dsimp only
  split_ifs <;> exact ⟨rfl, rfl, rfl⟩

/-- Another wallpaper raises the revision. -/
theorem setWallpaper_raises (hraises : m3e.Raises) (h : ¬ state.Shows path analysis) :
    state.theme.revision <
      (m3e.setWallpaper state path analysis.seed analysis.detectedVariant now).theme.revision := by
  have hkeeps := hraises.keeps state.theme analysis.seed analysis.detectedVariant now
  have happlied := hraises.raises state.theme analysis.seed analysis.detectedVariant now
  have hchanged : (decide (state.wallpaperPath ≠ some path) ||
      decide (state.wallpaperSeed ≠ some analysis.seed) ||
      decide (state.wallpaperDetectedVariant ≠ analysis.detectedVariant)) = true := by
    by_contra hsame
    simp only [ne_eq, decide_not, Bool.or_eq_true, Bool.not_eq_true', decide_eq_false_iff_not,
      not_or, not_not] at hsame
    exact h ⟨hsame.1.1, hsame.1.2, hsame.2⟩
  unfold setWallpaper
  simp only [hchanged, Bool.true_and, Bool.not_eq_true']
  split_ifs with hseed
  · exact Nat.lt_succ_of_le hkeeps
  · exact happlied (by simpa using hseed)

/-- Only one command sets the wallpaper. -/
theorem transition_sameWallpaper {command : DaemonCommand} {mode : Option ThemeMode}
    (h : m3e.transition state now command = .ok (next, mode))
    (hother : ∀ path seed variant, command ≠ .setWallpaper path seed variant) :
    state.SameWallpaper next := by
  cases command with
  | setWallpaper path seed variant => exact absurd rfl (hother path seed variant)
  | theme command =>
    cases command with
    | setColorSource source =>
      simp only [transition] at h
      cases source with
      | custom =>
        cases hseed : state.theme.customSeed with
        | none => rw [hseed] at h; cases h
        | some seed => rw [hseed] at h; cases h; exact ⟨rfl, rfl, rfl⟩
      | wallpaper =>
        cases hseed : state.wallpaperSeed with
        | none => rw [hseed] at h; cases h
        | some seed => rw [hseed] at h; cases h; exact ⟨rfl, hseed.symm, rfl⟩
    | _ => cases h; exact ⟨rfl, rfl, rfl⟩
  | setWallpaperDirectory dir =>
    simp only [transition] at h
    split at h <;> cases h <;> exact ⟨rfl, rfl, rfl⟩
  | portalAppearanceChanged mode =>
    cases mode with
    | none => cases h; exact .rfl
    | some mode =>
      simp only [transition] at h
      split at h <;> cases h <;> exact ⟨rfl, rfl, rfl⟩

end M3e

namespace ThemeDaemon

variable {m3e : M3e Palettes} {daemon : ThemeDaemon Palettes}

/-- The requests for wallpapers are the same. -/
structure SameTasks (daemon other : ThemeDaemon Palettes) : Prop where
  newest : other.currentWallpaperOp = daemon.currentWallpaperOp
  results : other.wallpaperResults = daemon.wallpaperResults

theorem SameTasks.rfl : daemon.SameTasks daemon := ⟨Eq.refl _, Eq.refl _⟩

theorem sameTasks_dispatch (emitted : Option (ThemeUpdate Palettes)) (mode : Option ThemeMode) :
    daemon.SameTasks (daemon.dispatch emitted mode).daemon := by
  cases mode <;> exact ⟨rfl, rfl⟩

theorem sameTasks_commit (next : DaemonState Palettes) (outcome : ApplyOutcome) :
    daemon.SameTasks (daemon.commit next outcome).daemon := by
  unfold commit
  dsimp only
  split
  · exact ⟨rfl, rfl⟩
  · split
    · exact ⟨rfl, rfl⟩
    · have h := @sameTasks_dispatch _ { daemon with
        state := next, persistence := (daemon.persistence.enqueue next).1 }
        (some ⟨next, outcome.changeKind⟩) outcome.dispatchAdapterMode
      exact ⟨h.newest, h.results⟩

theorem sameTasks_processCommand (command : DaemonCommand) (now : String) :
    daemon.SameTasks (daemon.processCommand m3e command now).daemon := by
  unfold processCommand
  split
  · exact .rfl
  · split
    · exact sameTasks_commit _ _
    · exact sameTasks_dispatch _ _

/-- What has been set is in the state, committed now or before. -/
theorem shows_processCommand (hraises : m3e.Raises) (daemon : ThemeDaemon Palettes) (path : Path) (analysis : WallpaperAnalysis)
    (now : String) :
    (daemon.processCommand m3e (.setWallpaper path analysis.seed analysis.detectedVariant)
      now).daemon.state.Shows path analysis := by
  simp only [processCommand, M3e.applyCommand, M3e.transition, Except.map]
  split_ifs with hraised
  · rw [commit_state]
    exact M3e.setWallpaper_shows
  · rw [dispatch_state]
    by_contra hshows
    exact hraised (M3e.setWallpaper_raises hraises hshows)

theorem sameWallpaper_processCommand {command : DaemonCommand} (now : String)
    (hother : ∀ path seed variant, command ≠ .setWallpaper path seed variant) :
    daemon.state.SameWallpaper (daemon.processCommand m3e command now).daemon.state := by
  unfold processCommand
  split
  · exact .rfl
  · rename_i next outcome happly
    split_ifs
    · rw [commit_state]
      exact M3e.transition_sameWallpaper (M3e.applyCommand_eq_ok.mp happly).1 hother
    · rw [dispatch_state]
      exact .rfl

/-- What a command is answered with is the state then. -/
theorem processCommand_ok {command : DaemonCommand} {now : String} {state : DaemonState Palettes}
    (h : (daemon.processCommand m3e command now).result = .ok state) :
    state = (daemon.processCommand m3e command now).daemon.state := by
  refine (steady_processCommand command now).seen state (List.mem_append_right _ ?_)
  rw [h]
  exact List.mem_singleton_self _

theorem syncWallpaperDir_same (configured : Option Path) :
    daemon.SameTasks (daemon.syncWallpaperDir configured) ∧
      daemon.state.SameWallpaper (daemon.syncWallpaperDir configured).state := by
  unfold syncWallpaperDir
  split
  · exact ⟨.rfl, .rfl⟩
  · split
    · exact ⟨⟨rfl, rfl⟩, ⟨rfl, rfl, rfl⟩⟩
    · exact ⟨.rfl, .rfl⟩

/-- **Nothing else sets a wallpaper**, or has to do with the tasks. -/
theorem next_same (m3e : M3e Palettes) (daemon : ThemeDaemon Palettes) {input : DaemonInput} (hother : input.isOther = true) :
    daemon.SameTasks (daemon.next m3e input) ∧
      daemon.state.SameWallpaper (daemon.next m3e input).state := by
  have hcommand : ∀ (command : DaemonCommand) (now : String),
      (∀ path seed variant, command ≠ .setWallpaper path seed variant) →
      daemon.SameTasks (daemon.processCommand m3e command now).daemon ∧
        daemon.state.SameWallpaper (daemon.processCommand m3e command now).daemon.state :=
    fun command now hother =>
      ⟨sameTasks_processCommand command now, sameWallpaper_processCommand now hother⟩
  cases input with
  | message message surroundings =>
    cases message with
    | getState => exact syncWallpaperDir_same _
    | getDiagnostics => exact syncWallpaperDir_same _
    | setWallpaper path => cases hother
    | setWallpaperDirectory dir =>
      simp only [next, handle, handleActorMessage, ActorMessage.command]
      cases surroundings.isDir with
      | false => exact ⟨.rfl, .rfl⟩
      | true =>
        have h := hcommand (.setWallpaperDirectory dir) surroundings.now fun _ _ _ h => by cases h
        simp only [if_true]
        cases surroundings.configWritten <;> exact h
    | setRandomWallpaper => exact ⟨.rfl, .rfl⟩
    | _ => exact hcommand _ _ fun _ _ _ h => by cases h
  | portal mode now => exact hcommand _ _ fun _ _ _ h => by cases h
  | wallpaperResult result now => cases hother
  | _ => exact ⟨⟨rfl, rfl⟩, ⟨rfl, rfl, rfl⟩⟩

end ThemeDaemon

/-! ### Requests that wait -/

/-- A request that waits for a task, or for its result; `shown` is what the desktop has followed. -/
structure PendingRequest where
  opId : ℕ
  reply : ℕ
  path : Path
  shown : Option WallpaperAnalysis

/-- What was asked for. -/
def PendingRequest.asked (request : PendingRequest) : ℕ × Path := (request.reply, request.path)

def WallpaperTaskResult.pending (result : WallpaperTaskResult) : PendingRequest where
  opId := result.opId
  reply := result.reply
  path := result.path
  shown := if result.error = none then some ⟨result.seed, result.detectedVariant⟩ else none

def WallpaperTask.pending (task : WallpaperTask) : PendingRequest :=
  match task.phase with
  | .finished result => result.pending
  | _ => ⟨task.opId, task.reply, task.key.canonicalPath, none⟩

def Wallpapers.pending (wallpapers : Wallpapers Palettes) : List PendingRequest :=
  wallpapers.tasks.map (·.pending) ++ wallpapers.daemon.wallpaperResults.map (·.pending)

/-! ### Answers -/

/-- It says nothing of requests. -/
def WallpaperEvent.isSilent : WallpaperEvent Palettes → Bool
  | .requested .. | .answered .. => false
  | _ => true

theorem AnsweredTruly.append {events new : List (WallpaperEvent Palettes)}
    (h : AnsweredTruly events)
    (hnew : ∀ reply state, .answered reply (.ok state) ∈ new →
      ∃ path, .requested reply (some path) ∈ events ∧ state.wallpaperPath = some path) :
    AnsweredTruly (events ++ new) := by
  intro reply state hmem
  have hasked : ∃ path, .requested reply (some path) ∈ events ∧
      state.wallpaperPath = some path := by
    rcases List.mem_append.mp hmem with hmem | hmem
    · exact h reply state hmem
    · exact hnew reply state hmem
  obtain ⟨path, hasked, hpath⟩ := hasked
  exact ⟨path, List.mem_append_left _ hasked, hpath⟩

/-- Each request waits, or has been answered, and this once. -/
structure Answering (waiting : List (ℕ × Path)) (events : List (WallpaperEvent Palettes))
    (requests : ℕ) : Prop where
  counted : ∀ reply, answers events reply + waiting.countP (·.1 = reply) =
    if reply < requests then 1 else 0
  asked : ∀ request ∈ waiting, .requested request.1 (some request.2) ∈ events
  numbered : ∀ reply path, .requested reply path ∈ events → reply < requests
  truly : AnsweredTruly events

namespace Answering

variable {waiting other : List (ℕ × Path)} {events : List (WallpaperEvent Palettes)}
  {requests reply : ℕ} {path : Path}

theorem perm (h : Answering waiting events requests) (hperm : waiting.Perm other) :
    Answering other events requests where
  counted reply := by rw [← hperm.countP_eq]; exact h.counted reply
  asked request hmem := h.asked request (hperm.mem_iff.mpr hmem)
  numbered := h.numbered
  truly := h.truly

theorem silent (h : Answering waiting events requests) (event : WallpaperEvent Palettes)
    (hsilent : event.isSilent = true) : Answering waiting (events ++ [event]) requests where
  counted reply := by
    have hanswers : answers (events ++ [event]) reply = answers events reply := by
      cases event with
      | requested | answered => cases hsilent
      | _ => simp [answers, List.countP_append]
    rw [hanswers]
    exact h.counted reply
  asked request hmem := List.mem_append_left _ (h.asked request hmem)
  numbered reply path hmem := by
    rcases List.mem_append.mp hmem with hmem | hmem
    · exact h.numbered reply path hmem
    · cases List.mem_singleton.mp hmem
      cases hsilent
  truly := h.truly.append fun reply state hmem => by
    cases List.mem_singleton.mp hmem
    cases hsilent

/-- A request is made. -/
theorem request (h : Answering waiting events requests) (path : Path) :
    Answering ((requests, path) :: waiting)
      (events ++ [WallpaperEvent.requested requests (some path)])
      (requests + 1) where
  counted reply := by
    have hcounted := h.counted reply
    have hanswers : answers (events ++ [WallpaperEvent.requested requests (some path)]) reply =
        answers events reply := by
      simp [answers]
    rw [hanswers, List.countP_cons]
    by_cases hreply : requests = reply
    · subst hreply
      simp only [lt_irrefl, if_false, Nat.lt_succ_self, if_true, decide_true] at hcounted ⊢
      omega
    · have hlt : reply < requests + 1 ↔ reply < requests := by omega
      simpa [hreply, hlt] using hcounted
  asked request hmem := by
    rcases List.mem_cons.mp hmem with rfl | hmem
    · exact List.mem_append_right _ (List.mem_singleton_self _)
    · exact List.mem_append_left _ (h.asked request hmem)
  numbered reply path hmem := by
    rcases List.mem_append.mp hmem with hmem | hmem
    · exact Nat.lt_succ_of_lt (h.numbered reply path hmem)
    · cases List.mem_singleton.mp hmem
      exact Nat.lt_succ_self _
  truly := h.truly.append fun reply state hmem => by cases List.mem_singleton.mp hmem

/-- A request that waits is answered. -/
theorem answer (h : Answering ((reply, path) :: waiting) events requests)
    {result : Except String (DaemonState Palettes)}
    (htruly : ∀ state, result = .ok state → state.wallpaperPath = some path) :
    Answering waiting (events ++ [WallpaperEvent.answered reply result]) requests where
  counted other := by
    have hcounted := h.counted other
    have hanswers : answers (events ++ [WallpaperEvent.answered reply result]) other =
        answers events other + if reply = other then 1 else 0 := by
      simp [answers, List.countP_append, List.countP_cons]
    rw [List.countP_cons] at hcounted
    rw [hanswers]
    simp only [decide_eq_true_eq] at hcounted
    omega
  asked request hmem := List.mem_append_left _ (h.asked request (List.mem_cons_of_mem _ hmem))
  numbered other path hmem := by
    rcases List.mem_append.mp hmem with hmem | hmem
    · exact h.numbered other path hmem
    · cases List.mem_singleton.mp hmem
  truly := h.truly.append fun other state hmem => by
    cases List.mem_singleton.mp hmem
    exact ⟨path, h.asked _ List.mem_cons_self, htruly state rfl⟩

/-- A request is refused at once. -/
theorem reject (h : Answering waiting events requests) (error : String) :
    Answering waiting
      (events ++ [WallpaperEvent.requested requests none, .answered requests (.error error)])
      (requests + 1) where
  counted reply := by
    have hcounted := h.counted reply
    have hanswers : answers (events ++
        [.requested requests none, .answered requests (.error error)]) reply =
          answers events reply + if requests = reply then 1 else 0 := by
      simp [answers, List.countP_append, List.countP_cons]
    rw [hanswers]
    split_ifs at hcounted ⊢ <;> omega
  asked request hmem := List.mem_append_left _ (h.asked request hmem)
  numbered reply path hmem := by
    rcases List.mem_append.mp hmem with hmem | hmem
    · exact Nat.lt_succ_of_lt (h.numbered reply path hmem)
    · simp only [List.mem_cons, WallpaperEvent.requested.injEq, reduceCtorEq, List.not_mem_nil,
        or_false] at hmem
      omega
  truly := h.truly.append fun reply state hmem => by simp at hmem

end Answering

/-! ### Operations -/

/-- It says nothing of what the desktop shows, or of results. -/
def WallpaperEvent.isAside : WallpaperEvent Palettes → Bool
  | .shown .. | .arrived .. => false
  | _ => true

theorem lastShown_append {events : List (WallpaperEvent Palettes)}
    {event : WallpaperEvent Palettes}
    (h : ∀ opId path analysis, event ≠ .shown opId path analysis) :
    lastShown (events ++ [event]) = lastShown events := by
  cases event with
  | shown opId path analysis => exact absurd rfl (h opId path analysis)
  | _ => simp [lastShown, List.filterMap_append]

@[simp] theorem lastShown_append_shown (events : List (WallpaperEvent Palettes)) (opId : ℕ)
    (path : Path) (analysis : WallpaperAnalysis) :
    lastShown (events ++ [WallpaperEvent.shown opId path analysis]) =
      some (opId, path, analysis) := by
  simp [lastShown, List.filterMap_append]

theorem mem_of_lastShown {events : List (WallpaperEvent Palettes)} {opId : ℕ} {path : Path}
    {analysis : WallpaperAnalysis} (h : lastShown events = some (opId, path, analysis)) :
    .shown opId path analysis ∈ events := by
  obtain ⟨event, hmem, hevent⟩ := List.mem_filterMap.mp (List.mem_of_getLast? h)
  cases event <;> cases hevent
  exact hmem

/-- What the desktop follows, and what the state has of it: the operations that wait are different
and have not arrived; one that the desktop has followed waits with what it has shown; and where the
result of the last has arrived in time, the state shows it, and older ones come too late. -/
structure Operating (pending : List PendingRequest) (events : List (WallpaperEvent Palettes))
    (newest : ℕ) (state : DaemonState Palettes) : Prop where
  nodup : (pending.map (·.opId)).Nodup
  bounded : ∀ request ∈ pending, request.opId ≤ newest
  arrived : ∀ opId other, .arrived opId other ∈ events →
    opId ≤ newest ∧ ∀ request ∈ pending, request.opId ≠ opId
  shown : ∀ opId path analysis, .shown opId path analysis ∈ events →
    opId ≤ newest ∧ ∀ request ∈ pending, request.opId = opId →
      request.path = path ∧ request.shown = some analysis
  last : ∀ opId path analysis, lastShown events = some (opId, path, analysis) →
    .arrived opId opId ∈ events →
      state.Shows path analysis ∧
        ∀ request ∈ pending, request.shown.isSome = true → request.opId < opId

namespace Operating

variable {pending other : List PendingRequest} {events : List (WallpaperEvent Palettes)}
  {newest : ℕ} {state next : DaemonState Palettes} {request : PendingRequest}

/-- Fewer requests may wait. -/
theorem of_subset (h : Operating pending events newest state)
    (hnodup : (other.map (·.opId)).Nodup) (hsubset : other ⊆ pending) :
    Operating other events newest state where
  nodup := hnodup
  bounded request hmem := h.bounded request (hsubset hmem)
  arrived opId newer hmem :=
    ⟨(h.arrived opId newer hmem).1, fun request hrequest =>
      (h.arrived opId newer hmem).2 request (hsubset hrequest)⟩
  shown opId path analysis hmem :=
    ⟨(h.shown opId path analysis hmem).1, fun request hrequest =>
      (h.shown opId path analysis hmem).2 request (hsubset hrequest)⟩
  last opId path analysis hlast harrived :=
    ⟨(h.last opId path analysis hlast harrived).1, fun request hrequest =>
      (h.last opId path analysis hlast harrived).2 request (hsubset hrequest)⟩

theorem perm (h : Operating pending events newest state) (hperm : pending.Perm other) :
    Operating other events newest state :=
  h.of_subset ((hperm.map _).nodup_iff.mp h.nodup) hperm.symm.subset

theorem tail (h : Operating (request :: pending) events newest state) :
    Operating pending events newest state :=
  h.of_subset (List.nodup_cons.mp h.nodup).2 (List.subset_cons_self _ _)

/-- The others are of other operations. -/
theorem others (h : Operating (request :: pending) events newest state) :
    ∀ other ∈ pending, other.opId ≠ request.opId :=
  fun other hmem heq => (List.nodup_cons.mp h.nodup).1 (List.mem_map.mpr ⟨other, hmem, heq⟩)

theorem of_same (h : Operating pending events newest state) (hsame : state.SameWallpaper next) :
    Operating pending events newest next where
  nodup := h.nodup
  bounded := h.bounded
  arrived := h.arrived
  shown := h.shown
  last opId path analysis hlast harrived :=
    ⟨(h.last opId path analysis hlast harrived).1.of_same hsame,
      (h.last opId path analysis hlast harrived).2⟩

theorem aside (h : Operating pending events newest state) (event : WallpaperEvent Palettes)
    (haside : event.isAside = true) : Operating pending (events ++ [event]) newest state := by
  have hshown : ∀ opId path analysis, event ≠ .shown opId path analysis := by
    rintro opId path analysis rfl
    cases haside
  have harrived : ∀ {opId other}, .arrived opId other ∈ events ++ [event] →
      .arrived opId other ∈ events := by
    intro opId other hmem
    rcases List.mem_append.mp hmem with hmem | hmem
    · exact hmem
    · cases List.mem_singleton.mp hmem
      cases haside
  refine ⟨h.nodup, h.bounded, fun opId other hmem => h.arrived opId other (harrived hmem), ?_, ?_⟩
  · intro opId path analysis hmem
    rcases List.mem_append.mp hmem with hmem | hmem
    · exact h.shown opId path analysis hmem
    · exact absurd (List.mem_singleton.mp hmem).symm (hshown opId path analysis)
  · intro opId path analysis hlast hmem
    rw [lastShown_append hshown] at hlast
    exact h.last opId path analysis hlast (harrived hmem)

/-- A request is made; it is the newest. -/
theorem spawn (h : Operating pending events newest state) (reply : ℕ) (path : Path) :
    Operating (⟨newest + 1, reply, path, none⟩ :: pending) events (newest + 1) state where
  nodup := by
    refine List.nodup_cons.mpr ⟨fun hmem => ?_, h.nodup⟩
    obtain ⟨request, hrequest, hop⟩ := List.mem_map.mp hmem
    have hle := h.bounded request hrequest
    dsimp only at hop
    omega
  bounded request hmem := by
    rcases List.mem_cons.mp hmem with rfl | hmem
    · exact le_rfl
    · exact (h.bounded request hmem).trans (Nat.le_succ _)
  arrived opId other hmem := by
    obtain ⟨hle, hpending⟩ := h.arrived opId other hmem
    refine ⟨hle.trans (Nat.le_succ _), List.forall_mem_cons.mpr ⟨?_, hpending⟩⟩
    exact fun heq => absurd heq (by dsimp only; omega)
  shown opId path analysis hmem := by
    obtain ⟨hle, hpending⟩ := h.shown opId path analysis hmem
    refine ⟨hle.trans (Nat.le_succ _), List.forall_mem_cons.mpr ⟨?_, hpending⟩⟩
    exact fun heq => absurd heq (by dsimp only; omega)
  last opId path analysis hlast harrived := by
    obtain ⟨hshows, hpending⟩ := h.last opId path analysis hlast harrived
    exact ⟨hshows, List.forall_mem_cons.mpr ⟨(fun h => by cases h), hpending⟩⟩

/-- The desktop shows the picture of a request. -/
theorem show_request (h : Operating (request :: pending) events newest state)
    (hnone : request.shown = none) (analysis : WallpaperAnalysis) :
    Operating ({ request with shown := some analysis } :: pending)
      (events ++ [WallpaperEvent.shown request.opId request.path analysis]) newest state := by
  refine ⟨h.nodup, ?_, ?_, ?_, ?_⟩
  · intro other hmem
    rcases List.mem_cons.mp hmem with rfl | hmem
    · exact h.bounded request List.mem_cons_self
    · exact h.bounded other (List.mem_cons_of_mem _ hmem)
  · intro opId other hmem
    rcases List.mem_append.mp hmem with hmem | hmem
    · obtain ⟨hle, hpending⟩ := h.arrived opId other hmem
      obtain ⟨hhead, hpending⟩ := List.forall_mem_cons.mp hpending
      exact ⟨hle, List.forall_mem_cons.mpr ⟨hhead, hpending⟩⟩
    · cases List.mem_singleton.mp hmem
  · intro opId path shown hmem
    rcases List.mem_append.mp hmem with hmem | hmem
    · obtain ⟨hle, hpending⟩ := h.shown opId path shown hmem
      obtain ⟨hhead, hpending⟩ := List.forall_mem_cons.mp hpending
      refine ⟨hle, List.forall_mem_cons.mpr ⟨fun heq => ?_, hpending⟩⟩
      rw [(hhead heq).2] at hnone
      cases hnone
    · cases List.mem_singleton.mp hmem
      refine ⟨h.bounded request List.mem_cons_self, List.forall_mem_cons.mpr ⟨?_, ?_⟩⟩
      · exact fun _ => ⟨rfl, rfl⟩
      · exact fun other hother heq => absurd heq (h.others other hother)
  · intro opId path shown hlast harrived
    rw [lastShown_append_shown] at hlast
    cases hlast
    rcases List.mem_append.mp harrived with hmem | hmem
    · exact absurd rfl ((h.arrived _ _ hmem).2 request List.mem_cons_self)
    · cases List.mem_singleton.mp hmem

/-- The result of a request arrives: what it shows is set if it is the newest, and nothing else. -/
theorem arrive (h : Operating (request :: pending) events newest state)
    (hset : ∀ analysis, request.opId = newest → request.shown = some analysis →
      next.Shows request.path analysis)
    (hsame : request.opId < newest ∨ request.shown = none → state.SameWallpaper next) :
    Operating pending (events ++ [WallpaperEvent.arrived request.opId newest]) newest next := by
  have hlater : ∀ opId path analysis,
      WallpaperEvent.arrived request.opId newest ≠
        (.shown opId path analysis : WallpaperEvent Palettes) :=
    fun _ _ _ heq => by cases heq
  refine ⟨h.tail.nodup, h.tail.bounded, ?_, ?_, ?_⟩
  · intro opId other hmem
    rcases List.mem_append.mp hmem with hmem | hmem
    · exact h.tail.arrived opId other hmem
    · cases List.mem_singleton.mp hmem
      exact ⟨h.bounded request List.mem_cons_self, h.others⟩
  · intro opId path analysis hmem
    rcases List.mem_append.mp hmem with hmem | hmem
    · exact h.tail.shown opId path analysis hmem
    · exact absurd (List.mem_singleton.mp hmem).symm (hlater opId path analysis)
  · intro opId path analysis hlast harrived
    rw [lastShown_append hlater] at hlast
    have hle := h.bounded request List.mem_cons_self
    rcases List.mem_append.mp harrived with hmem | hmem
    · -- the last one has arrived before, so this one is older, or has failed
      obtain ⟨hshows, hpending⟩ := h.last opId path analysis hlast hmem
      refine ⟨hshows.of_same (hsame ?_), fun other hother => ?_⟩
      · cases hshown : request.shown with
        | none => exact .inr rfl
        | some shown =>
          refine .inl ((hpending request List.mem_cons_self ?_).trans_le ?_)
          · rw [hshown]; rfl
          · exact (h.arrived opId opId hmem).1
      · exact hpending other (List.mem_cons_of_mem _ hother)
    · -- this is the last one
      obtain ⟨hop, hnewest⟩ : opId = request.opId ∧ opId = newest := by
        simpa using List.mem_singleton.mp hmem
      obtain ⟨hpath, hshown⟩ := (h.shown opId path analysis (mem_of_lastShown hlast)).2 request
        List.mem_cons_self hop.symm
      refine ⟨hpath ▸ hset analysis (hop ▸ hnewest) hshown, fun other hother _ => ?_⟩
      have hlt := lt_of_le_of_ne (h.tail.bounded other hother)
      exact hnewest ▸ hlt (hnewest ▸ hop ▸ h.others other hother)

end Operating

/-! ### Steps -/

/-- What the handling of a result does. -/
structure Completes (daemon : ThemeDaemon Palettes) (result : WallpaperTaskResult)
    (processed : Processed Palettes) : Prop where
  tasks : daemon.SameTasks processed.daemon
  sets : ∀ analysis, result.opId = daemon.currentWallpaperOp →
    result.pending.shown = some analysis → processed.daemon.state.Shows result.path analysis
  keeps : result.opId < daemon.currentWallpaperOp ∨ result.pending.shown = none →
    daemon.state.SameWallpaper processed.daemon.state
  truly : ∀ state, processed.result = .ok state → state.wallpaperPath = some result.path

theorem completes {m3e : M3e Palettes} (hraises : m3e.Raises) (daemon : ThemeDaemon Palettes)
    (result : WallpaperTaskResult) (now : String) :
    Completes daemon result (daemon.handleWallpaperCompletion m3e result now) := by
  unfold ThemeDaemon.handleWallpaperCompletion
  split_ifs with hlate
  · refine ⟨.rfl, fun _ hop => absurd hlate (hop ▸ lt_irrefl _), fun _ => .rfl, ?_⟩
    exact fun _ h => by cases h
  · cases herror : result.error with
    | some error =>
      refine ⟨.rfl, fun analysis _ hshown => ?_, fun _ => .rfl, fun _ h => by cases h⟩
      simp [WallpaperTaskResult.pending, herror] at hshown
    | none =>
      have hshows := ThemeDaemon.shows_processCommand hraises daemon result.path
        ⟨result.seed, result.detectedVariant⟩ now
      refine ⟨ThemeDaemon.sameTasks_processCommand _ _, fun analysis _ hshown => ?_, ?_, ?_⟩
      · obtain rfl : (⟨result.seed, result.detectedVariant⟩ : WallpaperAnalysis) = analysis := by
          simpa [WallpaperTaskResult.pending, herror] using hshown
        exact hshows
      · rintro (hless | hnone)
        · exact absurd hless hlate
        · simp [WallpaperTaskResult.pending, herror] at hnone
      · intro state hok
        rw [ThemeDaemon.processCommand_ok hok]
        exact hshows.path

namespace Wallpapers

variable {m3e : M3e Palettes} {wallpapers other : Wallpapers Palettes}
  {events : List (WallpaperEvent Palettes)} {index : ℕ} {task : WallpaperTask}

/-- The requests that wait for anything but this task. -/
def others (wallpapers : Wallpapers Palettes) (index : ℕ) : List PendingRequest :=
  (wallpapers.tasks.eraseIdx index).map (·.pending) ++
    wallpapers.daemon.wallpaperResults.map (·.pending)

theorem pending_perm (h : wallpapers.tasks[index]? = some task) :
    wallpapers.pending.Perm (task.pending :: wallpapers.others index) := by
  obtain ⟨hlt, rfl⟩ := List.getElem?_eq_some_iff.mp h
  exact ((List.getElem_cons_eraseIdx_perm hlt).symm.map _).append_right _

theorem pending_withTask (h : wallpapers.tasks[index]? = some task) (next : WallpaperTask) :
    (wallpapers.withTask index next).pending.Perm (next.pending :: wallpapers.others index) := by
  obtain ⟨hlt, -⟩ := List.getElem?_eq_some_iff.mp h
  exact ((List.set_perm_cons_eraseIdx hlt next).map _).append_right _

/-- Requests and operations are as they have to be. -/
structure Kept (wallpapers : Wallpapers Palettes) (events : List (WallpaperEvent Palettes)) :
    Prop where
  answering : Answering (wallpapers.pending.map (·.asked)) events wallpapers.requests
  operating : Operating wallpapers.pending events wallpapers.daemon.currentWallpaperOp
    wallpapers.daemon.state

namespace Kept

theorem start (daemon : ThemeDaemon Palettes) : Kept (.start daemon) [] where
  answering :=
    ⟨fun _ => rfl, (fun _ hmem => by cases hmem), (fun _ _ hmem => by cases hmem),
      fun _ _ hmem => by cases hmem⟩
  operating :=
    ⟨List.nodup_nil, (fun _ hmem => by cases hmem), (fun _ _ hmem => by cases hmem),
      (fun _ _ _ hmem => by cases hmem), fun _ _ _ hlast => by cases hlast⟩

/-- What waits is the same. -/
theorem perm (h : Kept wallpapers events) (hpending : wallpapers.pending.Perm other.pending)
    (hdaemon : wallpapers.daemon.SameTasks other.daemon)
    (hstate : wallpapers.daemon.state.SameWallpaper other.daemon.state)
    (hrequests : other.requests = wallpapers.requests) : Kept other events where
  answering := by rw [hrequests]; exact h.answering.perm (hpending.map _)
  operating := by rw [hdaemon.newest]; exact (h.operating.perm hpending).of_same hstate

theorem silent (h : Kept wallpapers events) (event : WallpaperEvent Palettes)
    (hsilent : event.isSilent = true) (haside : event.isAside = true) :
    Kept wallpapers (events ++ [event]) :=
  ⟨h.answering.silent event hsilent, h.operating.aside event haside⟩

theorem spawnWallpaperTask (h : Kept wallpapers events) (key : Except String (Path × ℕ)) :
    Kept (wallpapers.spawnWallpaperTask key).1
      (events ++ (wallpapers.spawnWallpaperTask key).2) := by
  cases key with
  | error error =>
    have hasked := h.operating.aside (.requested wallpapers.requests none) rfl
    have hanswered := hasked.aside (.answered wallpapers.requests (.error error)) rfl
    rw [List.append_assoc] at hanswered
    exact ⟨h.answering.reject error, hanswered⟩
  | ok key =>
    obtain ⟨path, mtime⟩ := key
    have hperm : (⟨wallpapers.daemon.currentWallpaperOp + 1, wallpapers.requests, path, none⟩ ::
        wallpapers.pending).Perm (wallpapers.spawnWallpaperTask (.ok (path, mtime))).1.pending := by
      simp only [pending, Wallpapers.spawnWallpaperTask, List.map_append, List.append_assoc]
      exact List.perm_middle.symm
    refine ⟨?_, ?_⟩
    · exact (h.answering.request path).perm (hperm.map PendingRequest.asked)
    · exact ((h.operating.spawn wallpapers.requests path).perm hperm).aside _ rfl

/-- A task goes on, and waits as it did. -/
theorem withTask (h : Kept wallpapers events) (htask : wallpapers.tasks[index]? = some task)
    (next : WallpaperTask) (hnext : next.pending = task.pending) :
    Kept (wallpapers.withTask index next) events :=
  h.perm ((pending_perm htask).trans (hnext ▸ (pending_withTask htask next).symm)) .rfl .rfl rfl

theorem sendWallpaperResult (h : Kept wallpapers events)
    (htask : wallpapers.tasks[index]? = some task) {result : WallpaperTaskResult}
    (hresult : task.pending = result.pending) :
    let sent := ({ wallpapers with
      tasks := wallpapers.tasks.eraseIdx index } : Wallpapers Palettes).sendWallpaperResult result
    Kept sent.1 (events ++ sent.2) := by
  have hperm := pending_perm htask
  rw [hresult] at hperm
  simp only [Wallpapers.sendWallpaperResult]
  split_ifs
  · -- it waits in the mailbox
    have hsent : ((wallpapers.tasks.eraseIdx index).map (·.pending) ++
        (wallpapers.daemon.wallpaperResults ++ [result]).map (·.pending)).Perm
          (result.pending :: wallpapers.others index) := by
      rw [List.map_append, ← List.append_assoc]
      exact List.perm_append_singleton _ _
    rw [List.append_nil]
    exact ⟨h.answering.perm ((hperm.trans hsent.symm).map _),
      h.operating.perm (hperm.trans hsent.symm)⟩
  · -- it is dropped, and the request answered
    refine ⟨(h.answering.perm (hperm.map _)).answer (fun _ heq => by cases heq), ?_⟩
    exact (h.operating.perm hperm).tail.aside _ rfl

/-- The desktop shows the picture of a task. -/
theorem shown (h : Kept wallpapers events) (htask : wallpapers.tasks[index]? = some task)
    {analysis : WallpaperAnalysis} (hphase : task.phase = .analysed analysis) :
    Kept (wallpapers.withTask index
        { task with phase := .finished (task.result analysis none) })
      (events ++ [WallpaperEvent.shown task.opId task.key.canonicalPath analysis]) := by
  have hbefore : task.pending = ⟨task.opId, task.reply, task.key.canonicalPath, none⟩ := by
    rw [WallpaperTask.pending, hphase]
  have hperm := pending_perm htask
  have hafter := (pending_withTask htask
    { task with phase := .finished (task.result analysis none) }).symm
  rw [hbefore] at hperm
  refine ⟨?_, ?_⟩
  · exact (h.answering.perm ((hperm.map (·.asked)).trans (hafter.map (·.asked)))).silent _ rfl
  · exact ((h.operating.perm hperm).show_request rfl analysis).perm hafter

theorem proceed (h : Kept wallpapers events) (htask : wallpapers.tasks[index]? = some task)
    (step : WallpaperStep) :
    Kept (wallpapers.proceed index task task.phase step).1
      (events ++ (wallpapers.proceed index task task.phase step).2) := by
  generalize hphase : task.phase = phase
  unfold Wallpapers.proceed
  split
  · rw [List.append_nil]
    have hnext := h.withTask htask { task with
      phase := match (wallpapers.cache.get task.key).2 with
        | some analysis => .analysed analysis
        | none => .missed } ?_
    · exact ⟨hnext.answering, hnext.operating⟩
    · rw [WallpaperTask.pending, WallpaperTask.pending, hphase]
      cases (wallpapers.cache.get task.key).2 <;> rfl
  · rename_i analysis
    have hnext := h.withTask htask { task with phase := .analysed analysis } ?_
    · have hsilent := hnext.silent (.analysed task.key analysis) rfl rfl
      exact ⟨hsilent.answering, hsilent.operating⟩
    · rw [WallpaperTask.pending, WallpaperTask.pending, hphase]
  · rw [List.append_nil]
    refine h.withTask htask _ ?_
    rw [WallpaperTask.pending, WallpaperTask.pending, hphase]
    rfl
  · exact h.shown htask hphase
  · rw [List.append_nil]
    refine h.withTask htask _ ?_
    rw [WallpaperTask.pending, WallpaperTask.pending, hphase]
    rfl
  · refine h.sendWallpaperResult htask ?_
    rw [WallpaperTask.pending, hphase]
  · rw [List.append_nil]
    exact h

/-- The oldest result is handled. -/
theorem complete (h : Kept wallpapers events) (hraises : m3e.Raises) (now : String)
    (durable : Except String Unit) :
    Kept (wallpapers.complete m3e now durable).1
      (events ++ (wallpapers.complete m3e now durable).2) := by
  unfold Wallpapers.complete
  cases hresults : wallpapers.daemon.wallpaperResults with
  | nil =>
    rw [List.append_nil]
    exact h
  | cons result rest =>
    set daemon : ThemeDaemon Palettes := { wallpapers.daemon with wallpaperResults := rest }
    have hcompletes := completes hraises daemon result now
    set processed := daemon.handleWallpaperCompletion m3e result now
    have hperm : wallpapers.pending.Perm (result.pending ::
        ({ wallpapers with daemon := processed.daemon } : Wallpapers Palettes).pending) := by
      simp only [pending, hresults, hcompletes.tasks.results, List.map_cons]
      exact List.perm_middle
    have htruly : ∀ state, respondAfterDurable processed.result durable = .ok state →
        state.wallpaperPath = some result.path := by
      intro state hok
      cases hresult : processed.result with
      | error error => rw [hresult] at hok; cases hok
      | ok answered =>
        rw [hresult] at hok
        cases durable <;> cases hok
        exact hcompletes.truly state hresult
    have hanswering := ((h.answering.perm (hperm.map PendingRequest.asked)).silent
      (.arrived result.opId daemon.currentWallpaperOp) rfl).answer htruly
    have hoperating := ((h.operating.perm hperm).arrive hcompletes.sets hcompletes.keeps).aside
      (.answered result.reply (respondAfterDurable processed.result durable)) rfl
    rw [List.append_assoc] at hanswering hoperating
    have hnewest : processed.daemon.currentWallpaperOp = wallpapers.daemon.currentWallpaperOp :=
      hcompletes.tasks.newest
    refine ⟨hanswering, ?_⟩
    show Operating _ _ processed.daemon.currentWallpaperOp processed.daemon.state
    rw [hnewest]
    exact hoperating

theorem next (h : Kept wallpapers events) (hraises : m3e.Raises) (step : WallpaperStep) :
    Kept (wallpapers.next m3e step) (events ++ wallpapers.events m3e step) := by
  have hproceed : ∀ index, Kept
      (match wallpapers.tasks[index]? with
        | some task => wallpapers.proceed index task task.phase step
        | none => (wallpapers, [])).1
      (events ++ (match wallpapers.tasks[index]? with
        | some task => wallpapers.proceed index task task.phase step
        | none => (wallpapers, [])).2) := by
    intro index
    cases htask : wallpapers.tasks[index]? with
    | none => simpa using h
    | some task => exact h.proceed htask step
  cases step with
  | request key => exact h.spawnWallpaperTask key
  | lookup index => exact hproceed index
  | analyse index => exact hproceed index
  | invoke index => exact hproceed index
  | deliver index => exact hproceed index
  | complete now durable => exact h.complete hraises now durable
  | daemon input =>
    simp only [Wallpapers.next, Wallpapers.events, handle]
    split_ifs with hother
    · obtain ⟨hdaemon, hstate⟩ := ThemeDaemon.next_same m3e wallpapers.daemon hother
      rw [List.append_nil]
      refine h.perm ?_ hdaemon hstate rfl
      rw [pending, pending, hdaemon.results]
    · rw [List.append_nil]
      exact h

end Kept

/-! ### What has been found of pictures -/

/-- What is known of a picture has been found by an analysis of it. -/
structure Found (wallpapers : Wallpapers Palettes) (events : List (WallpaperEvent Palettes)) :
    Prop where
  cached : ∀ entry ∈ wallpapers.cache.entries, .analysed entry.1 entry.2 ∈ events
  tasks : ∀ task ∈ wallpapers.tasks, ∀ analysis, task.phase = .analysed analysis →
    .analysed task.key analysis ∈ events
  shown : ∀ opId path analysis, .shown opId path analysis ∈ events →
    ∃ key, key.canonicalPath = path ∧ .analysed key analysis ∈ events

end Wallpapers

namespace WallpaperAnalysisCache

variable {cache : WallpaperAnalysisCache} {key : WallpaperCacheKey} {analysis : WallpaperAnalysis}
  {entry : WallpaperCacheKey × WallpaperAnalysis}

theorem mem_touch (h : entry ∈ (cache.touch key analysis).entries) :
    entry ∈ cache.entries ∨ entry = (key, analysis) := by
  rcases List.mem_append.mp h with h | h
  · exact .inl (List.mem_of_mem_filter h)
  · exact .inr (List.mem_singleton.mp h)

theorem mem_insert (h : entry ∈ (cache.insert key analysis).entries) :
    entry ∈ cache.entries ∨ entry = (key, analysis) := by
  unfold insert at h
  split_ifs at h
  · exact .inl h
  · exact mem_touch h
  · rcases List.mem_append.mp h with h | h
    · exact .inl (List.mem_of_mem_drop h)
    · exact .inr (List.mem_singleton.mp h)
  · rcases List.mem_append.mp h with h | h
    · exact .inl h
    · exact .inr (List.mem_singleton.mp h)

/-- What is found in the cache is one of its entries, and they stay. -/
theorem get_found (h : (cache.get key).2 = some analysis) : (key, analysis) ∈ cache.entries := by
  unfold get at h
  split at h
  · rename_i other found hfind
    cases h
    have hkey : other = key := by simpa using List.find?_some hfind
    exact hkey ▸ List.mem_of_find?_eq_some hfind
  · cases h

theorem mem_get (h : entry ∈ (cache.get key).1.entries) : entry ∈ cache.entries := by
  cases hfind : cache.entries.find? (·.1 = key) with
  | none => simpa only [get, hfind] using h
  | some found =>
    have hfound : (cache.get key).2 = some found.2 := by simp only [get, hfind]
    simp only [get, hfind] at h
    rcases mem_touch h with h | rfl
    · exact h
    · exact get_found hfound

end WallpaperAnalysisCache

namespace Wallpapers.Found

variable {m3e : M3e Palettes} {wallpapers other : Wallpapers Palettes}
  {events : List (WallpaperEvent Palettes)} {index : ℕ} {task : WallpaperTask}

/-- Nothing is known of more pictures. -/
theorem append {new : List (WallpaperEvent Palettes)} (h : Found wallpapers events)
    (hcache : ∀ entry ∈ other.cache.entries, entry ∈ wallpapers.cache.entries)
    (htasks : ∀ task ∈ other.tasks, task ∈ wallpapers.tasks ∨
      ∀ analysis, task.phase ≠ .analysed analysis)
    (hnew : ∀ opId path analysis, .shown opId path analysis ∉ new) :
    Found other (events ++ new) where
  cached entry hmem := List.mem_append_left _ (h.cached entry (hcache entry hmem))
  tasks task hmem analysis hphase := by
    rcases htasks task hmem with hmem | hnone
    · exact List.mem_append_left _ (h.tasks task hmem analysis hphase)
    · exact absurd hphase (hnone analysis)
  shown opId path analysis hmem := by
    rcases List.mem_append.mp hmem with hmem | hmem
    · obtain ⟨key, hpath, hanalysed⟩ := h.shown opId path analysis hmem
      exact ⟨key, hpath, List.mem_append_left _ hanalysed⟩
    · exact absurd hmem (hnew opId path analysis)

/-- A task goes on, with what has been found. -/
theorem withTask (h : Found wallpapers events) (index : ℕ) (next : WallpaperTask)
    (hnext : ∀ analysis, next.phase = .analysed analysis → .analysed next.key analysis ∈ events) :
    Found (wallpapers.withTask index next) events where
  cached := h.cached
  tasks task hmem := by
    rcases List.mem_or_eq_of_mem_set hmem with hmem | rfl
    · exact h.tasks task hmem
    · exact hnext
  shown := h.shown

theorem sendWallpaperResult (h : Found wallpapers events) (result : WallpaperTaskResult) :
    Found (wallpapers.sendWallpaperResult result).1
      (events ++ (wallpapers.sendWallpaperResult result).2) := by
  unfold Wallpapers.sendWallpaperResult
  dsimp only
  split_ifs
  · exact h.append (fun _ hmem => hmem) (fun _ hmem => .inl hmem) fun _ _ _ hmem => by cases hmem
  · exact h.append (fun _ hmem => hmem) (fun _ hmem => .inl hmem)
      fun _ _ _ hmem => by simp at hmem

theorem proceed (h : Found wallpapers events) (htask : wallpapers.tasks[index]? = some task)
    (step : WallpaperStep) :
    Found (wallpapers.proceed index task task.phase step).1
      (events ++ (wallpapers.proceed index task task.phase step).2) := by
  generalize hphase : task.phase = phase
  unfold Wallpapers.proceed
  split
  · rw [List.append_nil]
    have hcache : Found { wallpapers with cache := (wallpapers.cache.get task.key).1 } events :=
      ⟨fun entry hmem => h.cached entry (WallpaperAnalysisCache.mem_get hmem), h.tasks, h.shown⟩
    refine hcache.withTask index _ fun analysis hfound => h.cached (task.key, analysis) ?_
    refine WallpaperAnalysisCache.get_found ?_
    cases hget : (wallpapers.cache.get task.key).2 with
    | none => simp [hget] at hfound
    | some found => simpa [hget] using hfound
  · rename_i analysis
    have hnew : WallpaperEvent.analysed task.key analysis ∈
        events ++ [(.analysed task.key analysis : WallpaperEvent Palettes)] :=
      List.mem_append_right _ (List.mem_singleton_self _)
    have hlater : Found wallpapers (events ++ [WallpaperEvent.analysed task.key analysis]) :=
      h.append (fun _ hmem => hmem) (fun _ hmem => .inl hmem) fun _ _ _ hmem => by simp at hmem
    have hcache : Found { wallpapers with cache := wallpapers.cache.insert task.key analysis }
        (events ++ [WallpaperEvent.analysed task.key analysis]) := by
      refine ⟨fun entry hmem => ?_, hlater.tasks, hlater.shown⟩
      rcases WallpaperAnalysisCache.mem_insert hmem with hmem | rfl
      · exact hlater.cached entry hmem
      · exact hnew
    refine hcache.withTask index _ fun found hfound => ?_
    cases hfound
    exact hnew
  · rw [List.append_nil]
    exact h.withTask index _ fun _ hfound => by cases hfound
  · rename_i analysis _
    have hanalysed := h.tasks task (List.mem_of_getElem? htask) analysis hphase
    have hnext := h.withTask index
      { task with phase := .finished (task.result analysis none) } fun _ hfound => by cases hfound
    refine ⟨fun entry hmem => List.mem_append_left _ (hnext.cached entry hmem),
      fun other hmem found hfound => List.mem_append_left _ (hnext.tasks other hmem found hfound),
      fun opId path found hmem => ?_⟩
    rcases List.mem_append.mp hmem with hmem | hmem
    · obtain ⟨key, hpath, hfound⟩ := hnext.shown opId path found hmem
      exact ⟨key, hpath, List.mem_append_left _ hfound⟩
    · cases List.mem_singleton.mp hmem
      exact ⟨task.key, rfl, List.mem_append_left _ hanalysed⟩
  · rw [List.append_nil]
    exact h.withTask index _ fun _ hfound => by cases hfound
  · have hrest : Found { wallpapers with tasks := wallpapers.tasks.eraseIdx index } events :=
      ⟨h.cached, fun other hmem => h.tasks other (List.mem_of_mem_eraseIdx hmem), h.shown⟩
    exact hrest.sendWallpaperResult _
  · rw [List.append_nil]
    exact h

theorem next (h : Found wallpapers events) (step : WallpaperStep) :
    Found (wallpapers.next m3e step) (events ++ wallpapers.events m3e step) := by
  have hproceed : ∀ index, Found
      (match wallpapers.tasks[index]? with
        | some task => wallpapers.proceed index task task.phase step
        | none => (wallpapers, [])).1
      (events ++ (match wallpapers.tasks[index]? with
        | some task => wallpapers.proceed index task task.phase step
        | none => (wallpapers, [])).2) := by
    intro index
    cases htask : wallpapers.tasks[index]? with
    | none => simpa using h
    | some task => exact h.proceed htask step
  cases step with
  | request key =>
    cases key with
    | error error =>
      exact h.append (fun _ hmem => hmem) (fun _ hmem => .inl hmem) fun _ _ _ hmem => by
        simp [Wallpapers.events, handle, spawnWallpaperTask] at hmem
    | ok key =>
      refine h.append (fun _ hmem => hmem) (fun task hmem => ?_) fun _ _ _ hmem => by
        simp [Wallpapers.events, handle, spawnWallpaperTask] at hmem
      rcases List.mem_append.mp hmem with hmem | hmem
      · exact .inl hmem
      · cases List.mem_singleton.mp hmem
        exact .inr fun _ heq => by cases heq
  | lookup index => exact hproceed index
  | analyse index => exact hproceed index
  | invoke index => exact hproceed index
  | deliver index => exact hproceed index
  | complete now durable =>
    simp only [Wallpapers.next, Wallpapers.events, handle, complete]
    split
    · rw [List.append_nil]
      exact h
    · exact h.append (fun _ hmem => hmem) (fun _ hmem => .inl hmem)
        fun _ _ _ hmem => by simp at hmem
  | daemon input =>
    simp only [Wallpapers.next, Wallpapers.events, handle]
    split_ifs
    · exact h.append (fun _ hmem => hmem) (fun _ hmem => .inl hmem) fun _ _ _ hmem => by cases hmem
    · rw [List.append_nil]
      exact h

end Wallpapers.Found

/-! ### Runs -/

namespace Wallpapers

variable {m3e : M3e Palettes}

/-- **Every run** keeps count of the requests, and of what has been found. -/
theorem kept (hraises : m3e.Raises) (daemon : ThemeDaemon Palettes) (steps : List WallpaperStep) :
    Kept (run (next m3e) (start daemon) steps)
        (expand (next m3e) (events m3e) (start daemon) steps) ∧
      Found (run (next m3e) (start daemon) steps)
        (expand (next m3e) (events m3e) (start daemon) steps) := by
  have hpreserved : Preserved (keeping (next m3e) (events m3e))
      fun wallpapers => Kept wallpapers.1 wallpapers.2 ∧ Found wallpapers.1 wallpapers.2 :=
    fun _ step h => ⟨h.1.next hraises step, h.2.next step⟩
  have hstart : Kept (start daemon) [] ∧ Found (start daemon) [] :=
    ⟨.start daemon, (fun _ hmem => by cases hmem), (fun _ hmem => by cases hmem),
      fun _ _ _ hmem => by cases hmem⟩
  have hrun := hpreserved.holds (s := (start daemon, [])) hstart steps
  rw [run_keeping] at hrun
  exact hrun

end Wallpapers

/-- **When all is quiet**, every request has been answered once, and with a state only if this has
the wallpaper that was asked for. The state agrees with the desktop where the result of the
operation that the desktop has followed last has arrived while it was the newest. -/
theorem wallpapers_agree (m3e : M3e Palettes) (hraises : m3e.Raises)
    (daemon : ThemeDaemon Palettes) (steps : List WallpaperStep)
    (hquiet : (run (Wallpapers.next m3e) (.start daemon) steps).Quiet) :
    AnsweredOnce (expand (Wallpapers.next m3e) (Wallpapers.events m3e) (.start daemon) steps) ∧
    AnsweredTruly (expand (Wallpapers.next m3e) (Wallpapers.events m3e) (.start daemon) steps) ∧
    (LastArrives (expand (Wallpapers.next m3e) (Wallpapers.events m3e) (.start daemon) steps) →
      Agrees (expand (Wallpapers.next m3e) (Wallpapers.events m3e) (.start daemon) steps)
        (run (Wallpapers.next m3e) (.start daemon) steps).daemon.state) := by
  obtain ⟨hkept, hfound⟩ := Wallpapers.kept hraises daemon steps
  refine ⟨fun reply path hasked => ?_, hkept.answering.truly, ?_⟩
  · have hcounted := hkept.answering.counted reply
    rw [if_pos (hkept.answering.numbered reply path hasked), Wallpapers.pending, hquiet.1,
      hquiet.2] at hcounted
    exact hcounted
  · intro harrives opId path analysis hlast
    exact ⟨(hkept.operating.last opId path analysis hlast (harrives opId path analysis hlast)).1,
      hfound.shown opId path analysis (mem_of_lastShown hlast)⟩

namespace Sample

theorem m3e_raises : m3e.Raises where
  keeps theme seed variant now := by
    simp only [m3e]
    split_ifs
    · exact Nat.le_succ _
    · exact le_rfl
  raises theme seed variant now h := by
    simp only [m3e] at h ⊢
    split_ifs at h ⊢
    exact Nat.lt_succ_self _

/-- One wallpaper, asked for and shown. -/
def oneWallpaper : List WallpaperStep :=
  [.request (.ok (.text "/a", 0)), .lookup 0, .analyse 0 (.ok ⟨1, .auto⟩), .invoke 0 (.ok ()),
    .deliver 0, .complete "now" (.ok ())]

/-- Two wallpapers; the first is analysed slowly, and shown last. -/
def slowWallpaper : List WallpaperStep :=
  [.request (.ok (.text "/a", 0)), .request (.ok (.text "/b", 0)), .lookup 0, .lookup 1,
    .analyse 1 (.ok ⟨2, .auto⟩), .invoke 1 (.ok ()), .deliver 1, .complete "now" (.ok ()),
    .analyse 0 (.ok ⟨1, .auto⟩), .invoke 0 (.ok ()), .deliver 0, .complete "later" (.ok ())]

end Sample

/-- The run of one wallpaper is one of these. -/
theorem wallpapers_agree_one :
    LastArrives (expand (Wallpapers.next Sample.m3e) (Wallpapers.events Sample.m3e)
        (.start Sample.daemon) Sample.oneWallpaper) ∧
      Agrees (expand (Wallpapers.next Sample.m3e) (Wallpapers.events Sample.m3e)
          (.start Sample.daemon) Sample.oneWallpaper)
        (run (Wallpapers.next Sample.m3e) (.start Sample.daemon)
          Sample.oneWallpaper).daemon.state := by
  have harrives : LastArrives (expand (Wallpapers.next Sample.m3e) (Wallpapers.events Sample.m3e)
      (.start Sample.daemon) Sample.oneWallpaper) := by
    have hlast : lastShown (expand (Wallpapers.next Sample.m3e) (Wallpapers.events Sample.m3e)
        (.start Sample.daemon) Sample.oneWallpaper) = some (1, .text "/a", ⟨1, .auto⟩) := by
      decide +kernel
    intro opId path analysis hshown
    rw [hlast] at hshown
    cases hshown
    decide +kernel
  exact ⟨harrives, (wallpapers_agree Sample.m3e Sample.m3e_raises Sample.daemon
    Sample.oneWallpaper ⟨rfl, rfl⟩).2.2 harrives⟩

/-- The desktop shows the first wallpaper, and the state has the second. -/
theorem wallpapers_disagree :
    (run (Wallpapers.next Sample.m3e) (.start Sample.daemon) Sample.slowWallpaper).Quiet ∧
      ¬ Agrees (expand (Wallpapers.next Sample.m3e) (Wallpapers.events Sample.m3e)
          (.start Sample.daemon) Sample.slowWallpaper)
        (run (Wallpapers.next Sample.m3e) (.start Sample.daemon)
          Sample.slowWallpaper).daemon.state := by
  refine ⟨⟨rfl, rfl⟩, fun h => ?_⟩
  have hlast : lastShown (expand (Wallpapers.next Sample.m3e) (Wallpapers.events Sample.m3e)
      (.start Sample.daemon) Sample.slowWallpaper) = some (1, .text "/a", ⟨1, .auto⟩) := by
    decide +kernel
  exact absurd (h 1 (.text "/a") ⟨1, .auto⟩ hlast).1.path (by decide +kernel)

end Shilpo.Theme
