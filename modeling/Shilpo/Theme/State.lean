import Mathlib

/-!
# The theme daemon

`desktop/theme-daemon/src/daemon.rs` and `executors.rs`: one actor owns the state of the theme. A
command is applied to a copy of the state; if that raises the revision it becomes the state, and
is emitted, handed to the executor that writes it to the disk, and, if the desktop has to follow,
projected. What makes a palette of a seed is not part of the repository (`M3e`).
-/

namespace Shilpo.Theme

/-! ### The theme -/

inductive ThemeMode where
  | light
  | dark
  | system
  deriving DecidableEq

inductive ColorSource where
  | custom
  | wallpaper
  deriving DecidableEq

structure SchemeVariant where
  name : String
  deriving DecidableEq

def SchemeVariant.auto : SchemeVariant := ⟨"auto"⟩

/-- A path; the name of one that is no UTF-8 is kept as bytes. -/
inductive Path where
  | text (name : String)
  | bytes (name : List UInt8)
  deriving DecidableEq

def Path.isUtf8 : Path → Bool
  | .text _ => true
  | .bytes _ => false

variable {Palettes : Type}

/-- The theme; `palettes` is what is made of the rest. -/
structure ThemeState (Palettes : Type) where
  revision : ℕ
  selectedMode : ThemeMode
  resolvedMode : ThemeMode
  colorSource : ColorSource
  schemeVariant : SchemeVariant
  sourceArgb : UInt32
  customSeed : Option UInt32
  updatedAt : String
  palettes : Palettes
  deriving DecidableEq

inductive ThemeCommand where
  | setMode (mode : ThemeMode)
  | toggleMode
  | setColorSource (source : ColorSource)
  | setSchemeVariant (variant : SchemeVariant)
  | setCustomSeed (seed : UInt32)
  | setSeed (seed : UInt32)
  deriving DecidableEq

/-- What `shilpo_m3e` does with a theme. -/
structure M3e (Palettes : Type) where
  reduce : ThemeState Palettes → ThemeCommand → String → ThemeState Palettes
  /-- The theme of a seed, and whether it has been applied. -/
  materializeSeedWithVariant : ThemeState Palettes → UInt32 → SchemeVariant → String →
    ThemeState Palettes × Bool

/-! ### The state of the daemon -/

structure DaemonState (Palettes : Type) where
  theme : ThemeState Palettes
  wallpaperPath : Option Path
  wallpaperSeed : Option UInt32
  wallpaperDetectedVariant : SchemeVariant
  wallpaperDir : Path
  deriving DecidableEq

namespace DaemonState

variable (state : DaemonState Palettes)

def bumpRevision (now : String) : DaemonState Palettes :=
  { state with theme := { state.theme with revision := state.theme.revision + 1, updatedAt := now } }

/-- The paths of the state can be written as JSON. -/
def isSerializable : Bool := state.wallpaperPath.all (·.isUtf8) && state.wallpaperDir.isUtf8

end DaemonState

inductive DaemonCommand where
  | theme (command : ThemeCommand)
  | setWallpaperDirectory (dir : Path)
  | setWallpaper (path : Path) (seed : UInt32) (detectedVariant : SchemeVariant)
  | portalAppearanceChanged (mode : Option ThemeMode)
  deriving DecidableEq

/-- What of the state has changed. -/
structure ChangeKind where
  mode : Bool
  source : Bool
  variant : Bool
  palette : Bool
  wallpaper : Bool
  deriving DecidableEq

def ChangeKind.full : ChangeKind := ⟨true, true, true, true, true⟩

/-- What differs between two states. -/
def ChangeKind.between (before state : DaemonState Palettes) : ChangeKind where
  mode := before.theme.selectedMode ≠ state.theme.selectedMode ||
    before.theme.resolvedMode ≠ state.theme.resolvedMode
  source := before.theme.colorSource ≠ state.theme.colorSource
  variant := before.theme.schemeVariant ≠ state.theme.schemeVariant
  palette := before.theme.sourceArgb ≠ state.theme.sourceArgb ||
    before.theme.schemeVariant ≠ state.theme.schemeVariant
  wallpaper := before.wallpaperPath ≠ state.wallpaperPath ||
    before.wallpaperSeed ≠ state.wallpaperSeed ||
    before.wallpaperDetectedVariant ≠ state.wallpaperDetectedVariant ||
    before.wallpaperDir ≠ state.wallpaperDir

structure ThemeUpdate (Palettes : Type) where
  state : DaemonState Palettes
  changeKind : ChangeKind
  deriving DecidableEq

/-- What a command asks for. -/
structure ApplyOutcome where
  dispatchAdapterMode : Option ThemeMode
  changeKind : ChangeKind
  deriving DecidableEq

def ColorSource.text : ColorSource → String
  | .custom => "Custom"
  | .wallpaper => "Wallpaper"

/-! ### Commands -/

namespace M3e

variable (m3e : M3e Palettes)

/-- The mode that the desktop is told when one is set; `theme` is what it has led to. -/
def modeToDispatch (before theme : ThemeState Palettes) (mode : ThemeMode) : Option ThemeMode :=
  if mode = .system then none
  else if theme.resolvedMode ≠ before.resolvedMode then some theme.resolvedMode
  else if theme.selectedMode = mode then some mode
  else none

/-- The wallpaper is another one. The revision is raised once, by the seed or by hand. -/
def setWallpaper (state : DaemonState Palettes) (path : Path) (seed : UInt32)
    (detectedVariant : SchemeVariant) (now : String) : DaemonState Palettes :=
  let changed := state.wallpaperPath ≠ some path || state.wallpaperSeed ≠ some seed ||
    state.wallpaperDetectedVariant ≠ detectedVariant
  let (theme, seedApplied) :=
    m3e.materializeSeedWithVariant state.theme seed detectedVariant now
  let next : DaemonState Palettes :=
    { state with
      theme, wallpaperPath := some path, wallpaperSeed := some seed,
      wallpaperDetectedVariant := detectedVariant }
  if changed && !seedApplied then next.bumpRevision now else next

/-- What a command makes of a state, and the mode that the desktop has to be told. -/
def transition (state : DaemonState Palettes) (now : String) :
    DaemonCommand → Except String (DaemonState Palettes × Option ThemeMode)
  | .theme (.setMode mode) =>
    let theme := m3e.reduce state.theme (.setMode mode) now
    .ok ({ state with theme }, modeToDispatch state.theme theme mode)
  | .theme .toggleMode =>
    let theme := m3e.reduce state.theme .toggleMode now
    .ok ({ state with theme }, some theme.resolvedMode)
  | .theme (.setColorSource source) =>
    let isAvailable := match source with
      | .custom => state.theme.customSeed.isSome
      | .wallpaper => state.wallpaperSeed.isSome
    if !isAvailable then .error s!"No seed is available for color source {source.text}"
    else
      let theme := m3e.reduce state.theme (.setColorSource source) now
      match source, state.wallpaperSeed with
      | .wallpaper, some seed =>
        let theme :=
          (m3e.materializeSeedWithVariant theme seed state.wallpaperDetectedVariant now).1
        .ok ({ state with theme }, none)
      | _, _ => .ok ({ state with theme }, none)
  | .theme command =>
    let theme := m3e.reduce state.theme command now
    .ok ({ state with theme }, none)
  | .setWallpaperDirectory dir =>
    if state.wallpaperDir ≠ dir then
      .ok (({ state with wallpaperDir := dir }).bumpRevision now, none)
    else .ok (state, none)
  | .setWallpaper path seed detectedVariant =>
    .ok (m3e.setWallpaper state path seed detectedVariant now, none)
  | .portalAppearanceChanged portalMode =>
    match portalMode with
    | none => .ok (state, none)
    | some mode =>
      if state.theme.selectedMode = .system && state.theme.resolvedMode ≠ mode then
        let theme := { state.theme with resolvedMode := mode }
        .ok (({ state with theme }).bumpRevision now, some mode)
      else .ok (state, none)

/-- What a command makes of a state. -/
def applyCommand (state : DaemonState Palettes) (command : DaemonCommand) (now : String) :
    Except String (DaemonState Palettes × ApplyOutcome) :=
  (m3e.transition state now command).map fun (next, mode) =>
    (next, ⟨mode, .between state next⟩)

end M3e

/-! ### The executors -/

inductive PersistenceRequest (Palettes : Type) where
  | persist (state : DaemonState Palettes)
  | flush
  deriving DecidableEq

/-- What writes the state to the disk: the requests that wait, and the state that is being
written. -/
structure PersistenceExecutor (Palettes : Type) where
  requests : List (PersistenceRequest Palettes)
  isClosed : Bool
  writing : Option (DaemonState Palettes)
  durableRevision : ℕ
  lastError : Option String
  overloads : ℕ

def persistenceMailboxCapacity : ℕ := 8

namespace PersistenceExecutor

variable (executor : PersistenceExecutor Palettes)

/-- There is room for a request. -/
def accepts : Bool := !executor.isClosed && executor.requests.length < persistenceMailboxCapacity

def enqueue (state : DaemonState Palettes) : PersistenceExecutor Palettes × Except String Unit :=
  let executor := { executor with lastError := none }
  if executor.isClosed then (executor, .error "service is offline or mailbox closed")
  else if persistenceMailboxCapacity ≤ executor.requests.length then
    ({ executor with overloads := executor.overloads + 1 }, .error "mailbox is at capacity")
  else
    ({ executor with requests := executor.requests ++ [PersistenceRequest.persist state] }, .ok ())

/-- The newest of the states. -/
def latest : List (PersistenceRequest Palettes) → Option (DaemonState Palettes) :=
  List.foldl (fun latest request => match latest, request with
    | none, .persist state => some state
    | some state, .persist next =>
      some (if state.theme.revision < next.theme.revision then next else state)
    | latest, .flush => latest) none

/-- Some requests are taken together, unless a state is being written. -/
def take (count : ℕ) : PersistenceExecutor Palettes :=
  if executor.writing.isSome then executor
  else
    { executor with
      requests := executor.requests.drop count, writing := latest (executor.requests.take count) }

/-- What was being written has been, or could not be. -/
def written (result : Except String Unit) : PersistenceExecutor Palettes :=
  match executor.writing, result with
  | none, _ => { executor with lastError := none }
  | some state, .ok () =>
    { executor with
      writing := none, lastError := none,
      durableRevision := max executor.durableRevision state.theme.revision }
  | some _, .error error =>
    { executor with writing := none, lastError := some s!"Persistence failed: {error}" }

end PersistenceExecutor

inductive ProjectionStatus where
  | pending
  | applied
  | degraded (error : String)
  deriving DecidableEq

/-- What tells the desktop the mode. -/
structure AdapterExecutor where
  requests : List (ℕ × ThemeMode)
  isClosed : Bool
  latest : Option (ℕ × ThemeMode)
  projectionStatus : ProjectionStatus
  overloads : ℕ

def adapterMailboxCapacity : ℕ := 8

namespace AdapterExecutor

variable (executor : AdapterExecutor)

def project (revision : ℕ) (mode : ThemeMode) : AdapterExecutor :=
  let executor :=
    { executor with latest := some (revision, mode), projectionStatus := .pending }
  if executor.isClosed then executor
  else if adapterMailboxCapacity ≤ executor.requests.length then
    { executor with overloads := executor.overloads + 1 }
  else { executor with requests := executor.requests ++ [(revision, mode)] }

/-- Some requests are taken together, and the newest of them has ended so. -/
def take (count : ℕ) (status : ProjectionStatus) : AdapterExecutor :=
  { executor with requests := executor.requests.drop count, projectionStatus := status }

end AdapterExecutor

/-! ### The daemon -/

/-- What a wallpaper task has come to; `reply` is the request that waits for it. -/
structure WallpaperTaskResult where
  opId : ℕ
  path : Path
  seed : UInt32
  detectedVariant : SchemeVariant
  error : Option String
  reply : ℕ
  deriving DecidableEq

def wallpaperResultMailboxCapacity : ℕ := 32

structure ThemeDaemon (Palettes : Type) where
  state : DaemonState Palettes
  persistence : PersistenceExecutor Palettes
  adapter : AdapterExecutor
  currentWallpaperOp : ℕ
  wallpaperResults : List WallpaperTaskResult
  wallpaperResultOverloads : ℕ

/-- What has come of a command: the daemon then, the update that was emitted, the mode that the
desktop is to be told, and the answer. -/
structure Processed (Palettes : Type) where
  daemon : ThemeDaemon Palettes
  emitted : Option (ThemeUpdate Palettes)
  projected : Option (ℕ × ThemeMode)
  result : Except String (DaemonState Palettes)

namespace ThemeDaemon

variable (m3e : M3e Palettes) (daemon : ThemeDaemon Palettes)

/-- The desktop is told the mode, if it has to be. -/
def dispatch (emitted : Option (ThemeUpdate Palettes)) : Option ThemeMode → Processed Palettes
  | none => ⟨daemon, emitted, none, .ok daemon.state⟩
  | some mode =>
    ⟨{ daemon with adapter := daemon.adapter.project daemon.state.theme.revision mode }, emitted,
      some (daemon.state.theme.revision, mode), .ok daemon.state⟩

/-- The state is another one; it is emitted and handed on. -/
def commit (next : DaemonState Palettes) (outcome : ApplyOutcome) : Processed Palettes :=
  let update : ThemeUpdate Palettes := ⟨next, outcome.changeKind⟩
  if !next.isSerializable then
    ⟨{ daemon with state := next }, none, none, .error "path contains invalid UTF-8 characters"⟩
  else
    let (persistence, accepted) := daemon.persistence.enqueue next
    let daemon := { daemon with state := next, persistence }
    match accepted with
    | .error error => ⟨daemon, some update, none, .error error⟩
    | .ok () => daemon.dispatch (some update) outcome.dispatchAdapterMode

def processCommand (command : DaemonCommand) (now : String) : Processed Palettes :=
  match m3e.applyCommand daemon.state command now with
  | .error error => ⟨daemon, none, none, .error error⟩
  | .ok (next, outcome) =>
    if daemon.state.theme.revision < next.theme.revision then daemon.commit next outcome
    else daemon.dispatch none outcome.dispatchAdapterMode

def handleWallpaperCompletion (result : WallpaperTaskResult) (now : String) : Processed Palettes :=
  if result.opId < daemon.currentWallpaperOp then
    ⟨daemon, none, none, .error "Wallpaper request superseded"⟩
  else
    match result.error with
    | some error => ⟨daemon, none, none, .error error⟩
    | none =>
      daemon.processCommand m3e (.setWallpaper result.path result.seed result.detectedVariant) now

/-- The directory of the wallpapers is the one that the configuration names. -/
def syncWallpaperDir (configured : Option Path) : ThemeDaemon Palettes :=
  match configured with
  | none => daemon
  | some dir =>
    if dir ≠ daemon.state.wallpaperDir then
      { daemon with state := { daemon.state with wallpaperDir := dir } }
    else daemon

end ThemeDaemon

end Shilpo.Theme
