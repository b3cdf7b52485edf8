import Shilpo.Compositor.Types
import Shilpo.Config.Validation
import Shilpo.Theory.Runs
import Shilpo.Theory.Sorting

/-!
# The listener of Hyprland

`run_hyprland_listener` of `compositor/hyprland.rs`, beside the compositor it listens to. The
listener queries what Hyprland shows, connects to the socket of its events, and queries again when
an event asks for it. A query is four requests, and Hyprland may change between two of them.

A change of Hyprland is any change, with any events that match it (`Matches`); an event that the
listener's parser does not know is `other`. Whether a request is answered, and whether the socket
can be connected to and read, are inputs. `failed` and `readSince` say whether the last request has
failed, and whether an event has been read since; nothing reads them. What becomes of a snapshot on
its way to the channel is left to `Supervision`.
-/

namespace Shilpo.Compositor

open Config Domain Theory

/-! ### Addresses -/

/-- A digit of a number in base 16. -/
def hexDigit (c : Char) : Option ℕ :=
  if '0' ≤ c ∧ c ≤ '9' then some (c.toNat - '0'.toNat)
  else if 'a' ≤ c ∧ c ≤ 'f' then some (c.toNat - 'a'.toNat + 10)
  else if 'A' ≤ c ∧ c ≤ 'F' then some (c.toNat - 'A'.toNat + 10)
  else none

/-- `u64::from_str_radix(text, 16)`. -/
def fromHex (text : List Char) : Option ℕ :=
  let digits := if text.head? = some '+' then text.tail else text
  if digits = [] then none
  else do
    let values ← digits.mapM hexDigit
    let value := values.foldl (fun value digit => 16 * value + digit) 0
    if value < 2 ^ 64 then some value else none

/-- `parse_hex_address`. -/
def parseHexAddress (addr : String) : Option ℕ :=
  let s := trim addr.toList
  if s = [] then none
  else fromHex (if ['0', 'x'].isPrefixOf s then s.drop 2 else s)

/-! ### What Hyprland answers -/

/-- A window, as Hyprland answers it. -/
structure HyprlandClientDto where
  address : String
  title : String := ""
  className : String := ""
  workspaceId : ℤ := 0
  floating : Bool := false
  focusHistoryId : ℤ := 0
  position : ℤ × ℤ := (0, 0)
  deriving DecidableEq

/-- A workspace. -/
structure HyprlandWorkspaceDto where
  id : ℤ
  name : String := ""
  monitor : String := ""
  lastWindow : String := ""
  deriving DecidableEq

/-- A monitor. -/
structure HyprlandMonitorDto where
  name : String
  make : String := ""
  model : String := ""
  width : ℕ := 0
  height : ℕ := 0
  x : ℤ := 0
  y : ℤ := 0
  scale : Float := 0
  focused : Bool := false
  activeWorkspaceId : ℤ := 0

/-- `HyprlandStateTuple`. -/
structure HyprlandStateTuple where
  clients : List HyprlandClientDto
  workspaces : List HyprlandWorkspaceDto
  monitors : List HyprlandMonitorDto
  activeWindow : Option ℕ

/-! ### Snapshots -/

/-- A text that is not empty. -/
def nonempty (text : String) : Option String := if text = "" then none else some text

/-- The id of a workspace that is not a special one. -/
def standardId (id : ℤ) : Option ℕ := if 0 < id then some id.toNat else none

/-- `hyprland_capabilities`. -/
def hyprlandCapabilities (lifecycle : DomainLifecycle) : CompositorCapabilities :=
  if lifecycle = .ready then ⟨.exact, true, true, true, true, true⟩ else {}

def HyprlandMonitorDto.output (m : HyprlandMonitorDto) : CompositorOutput where
  name := m.name
  make := nonempty m.make
  model := nonempty m.model
  logicalPosition := (m.x, m.y)
  logicalSize := (m.width, m.height)
  scale := if 0 < m.scale then m.scale else 1

/-- A standard workspace. The address zero says that there is no last window. -/
def HyprlandWorkspaceDto.info (activeMonitorsWorkspaces : List ℤ) (focusedWorkspaceId : Option ℕ)
    (ws : HyprlandWorkspaceDto) : WorkspaceInfo where
  id := ws.id.toNat
  name := nonempty ws.name
  idx := ws.id.toNat % 2 ^ 32
  isActive := activeMonitorsWorkspaces.contains ws.id
  isFocused := focusedWorkspaceId == some ws.id.toNat
  isUrgent := false
  outputName := nonempty ws.monitor
  activeWindowId := (parseHexAddress ws.lastWindow).filter (· ≠ 0)

def HyprlandWorkspaceDto.special (ws : HyprlandWorkspaceDto) : HyprlandSpecialWorkspace where
  id := ws.id
  name := ws.name
  monitor := nonempty ws.monitor

/-- The empty workspace that is put behind the others. -/
def syntheticWorkspace (focusedOutput : Option String) (standard : List WorkspaceInfo) :
    WorkspaceInfo where
  id := (standard.map WorkspaceInfo.id).foldl max 0 + 1
  name := none
  idx := ((standard.map WorkspaceInfo.id).foldl max 0 + 1) % 2 ^ 32
  isActive := false
  isFocused := false
  isUrgent := false
  outputName := focusedOutput
  activeWindowId := none

/-- A window, if its address can be parsed. -/
def HyprlandClientDto.info (activeWindowAddr : Option ℕ) (urgentWindows : Finset ℕ)
    (c : HyprlandClientDto) : Option WindowInfo :=
  (parseHexAddress c.address).map fun windowId =>
    { id := windowId
      title := nonempty c.title
      appId := nonempty c.className
      workspaceId := standardId c.workspaceId
      isFocused := c.focusHistoryId = 0 ∨ activeWindowAddr = some windowId
      isFloating := c.floating
      isUrgent := windowId ∈ urgentWindows
      layoutX := some (.ofInt c.position.1)
      layoutY := some (.ofInt c.position.2) }

/-- `build_hyprland_snapshot`. -/
def buildHyprlandSnapshot (version : DomainVersion) (lifecycle : DomainLifecycle)
    (state : HyprlandStateTuple) (urgentWindows : Finset ℕ) (lastError : Option String) :
    CompositorSnapshot :=
  let focusedMonitor := state.monitors.find? fun m => m.focused
  let focusedOutput := focusedMonitor.map HyprlandMonitorDto.name
  let focusedWorkspaceId := focusedMonitor.bind fun m => standardId m.activeWorkspaceId
  let activeMonitorsWorkspaces := state.monitors.map HyprlandMonitorDto.activeWorkspaceId
  let standardWorkspaces := sortByKey WorkspaceInfo.id <|
    (state.workspaces.filter fun ws => 0 < ws.id).map
      (HyprlandWorkspaceDto.info activeMonitorsWorkspaces focusedWorkspaceId)
  let specialWorkspaces := sortByKey HyprlandSpecialWorkspace.id <|
    (state.workspaces.filter fun ws => ¬ 0 < ws.id).map HyprlandWorkspaceDto.special
  let windows := sortByKey WindowInfo.id <|
    state.clients.filterMap (HyprlandClientDto.info state.activeWindow urgentWindows)
  { version
    connection := lifecycle
    capabilities := hyprlandCapabilities lifecycle
    outputs := sortByKey CompositorOutput.name (state.monitors.map HyprlandMonitorDto.output)
    workspaces :=
      if standardWorkspaces.all fun w => w.activeWindowId.isSome then
        standardWorkspaces ++ [syntheticWorkspace focusedOutput standardWorkspaces]
      else standardWorkspaces
    windows
    focusedOutput
    focusedWorkspaceId
    focusedWindowId := state.activeWindow.or
      ((windows.find? fun w => w.isFocused).map WindowInfo.id)
    activeKeyboardLayout := none
    extras := .hyprland specialWorkspaces
    lastError }

/-! ### Events -/

/-- `HyprlandEvent`, with what the listener looks at. -/
inductive HyprlandEvent where
  | workspaceV2
  | openWindow
  | closeWindow (address : ℕ)
  | activeWindowV2 (address : Option ℕ)
  | moveWindowV2
  | urgent (address : ℕ)
  | windowTitleV2
  | focusedMon
  | createWorkspaceV2
  | destroyWorkspaceV2
  | other
  deriving DecidableEq

/-- The window that has the focus, as the event tells it. -/
def HyprlandEvent.focus : HyprlandEvent → Option (Option ℕ)
  | .activeWindowV2 address => some address
  | _ => none

/-- `apply_urgent_event`. -/
def applyUrgentEvent (urgentWindows : Finset ℕ) : HyprlandEvent → Finset ℕ
  | .urgent address => insert address urgentWindows
  | .activeWindowV2 (some addr) => urgentWindows.erase addr
  | .closeWindow address => urgentWindows.erase address
  | _ => urgentWindows

/-- The listener is to query again. -/
def needsRefresh (currentActiveAddr : Option ℕ) : HyprlandEvent → Bool
  | .workspaceV2 | .openWindow | .closeWindow _ | .moveWindowV2 | .urgent _ | .focusedMon
  | .createWorkspaceV2 | .destroyWorkspaceV2 => true
  | .activeWindowV2 address => address ≠ currentActiveAddr
  | .windowTitleV2 | .other => false

/-! ### Hyprland -/

/-- Hyprland. -/
structure Hyprland where
  state : HyprlandStateTuple
  urgent : Finset ℕ

/-- The windows, by their addresses and where they are. -/
def Hyprland.placed (h : Hyprland) : List (String × ℤ) :=
  h.state.clients.map fun c => (c.address, c.workspaceId)

/-- The ids of the workspaces. -/
def Hyprland.workspaceIds (h : Hyprland) : List ℤ := h.state.workspaces.map HyprlandWorkspaceDto.id

/-- What is known of a monitor beside its geometry. -/
def HyprlandMonitorDto.shows (m : HyprlandMonitorDto) : String × Bool × ℤ :=
  (m.name, m.focused, m.activeWorkspaceId)

/-- Windows that are urgent are told, and are so until they are focused or closed; the focus is told
where it changes. -/
def MatchesFocus (old : Hyprland) (events : List HyprlandEvent) (new : Hyprland) : Prop :=
  new.urgent = events.foldl applyUrgentEvent old.urgent ∧
    (∀ event ∈ events, ∀ address ∈ event.focus, address = new.state.activeWindow) ∧
    (old.state.activeWindow ≠ new.state.activeWindow →
      .activeWindowV2 new.state.activeWindow ∈ events)

/-- Windows that are opened, closed or moved are told. -/
def MatchesWindows (old : Hyprland) (events : List HyprlandEvent) (new : Hyprland) : Prop :=
  (∀ window ∈ new.placed, window.1 ∉ old.placed.map Prod.fst → .openWindow ∈ events) ∧
    (∀ window ∈ old.placed, window.1 ∉ new.placed.map Prod.fst →
      ∀ address ∈ parseHexAddress window.1, .closeWindow address ∈ events) ∧
    (∀ window ∈ new.placed, window.1 ∈ old.placed.map Prod.fst → window ∉ old.placed →
      .moveWindowV2 ∈ events)

/-- Workspaces that come and go are told, and which of them the monitors show. -/
def MatchesWorkspaces (old : Hyprland) (events : List HyprlandEvent) (new : Hyprland) : Prop :=
  (∀ id ∈ new.workspaceIds, id ∉ old.workspaceIds → .createWorkspaceV2 ∈ events) ∧
    (∀ id ∈ old.workspaceIds, id ∉ new.workspaceIds → .destroyWorkspaceV2 ∈ events) ∧
    (old.state.monitors.map HyprlandMonitorDto.shows ≠
        new.state.monitors.map HyprlandMonitorDto.shows →
      .workspaceV2 ∈ events ∨ .focusedMon ∈ events)

/-- The events match a change. -/
def Matches (old : Hyprland) (events : List HyprlandEvent) (new : Hyprland) : Prop :=
  MatchesFocus old events new ∧ MatchesWindows old events new ∧ MatchesWorkspaces old events new

instance (old : Hyprland) (events : List HyprlandEvent) (new : Hyprland) :
    Decidable (MatchesFocus old events new) := inferInstanceAs (Decidable (_ ∧ _ ∧ _))

instance (old : Hyprland) (events : List HyprlandEvent) (new : Hyprland) :
    Decidable (MatchesWindows old events new) := inferInstanceAs (Decidable (_ ∧ _ ∧ _))

instance (old : Hyprland) (events : List HyprlandEvent) (new : Hyprland) :
    Decidable (MatchesWorkspaces old events new) := inferInstanceAs (Decidable (_ ∧ _ ∧ _))

instance (old : Hyprland) (events : List HyprlandEvent) (new : Hyprland) :
    Decidable (Matches old events new) := inferInstanceAs (Decidable (_ ∧ _ ∧ _))

/-! ### Queries -/

/-- What `fetch_full_hyprland_state` has been answered. -/
inductive Fetch where
  | start
  | hasClients (clients : List HyprlandClientDto)
  | hasWorkspaces (clients : List HyprlandClientDto) (workspaces : List HyprlandWorkspaceDto)
  | hasMonitors (clients : List HyprlandClientDto) (workspaces : List HyprlandWorkspaceDto)
    (monitors : List HyprlandMonitorDto)

/-- What follows a request. -/
inductive Fetched where
  | error
  | more (fetch : Fetch)
  | done (state : HyprlandStateTuple)

/-- The next request, and whether it is answered. Without an answer to the last one there is no
active window. -/
def Fetch.query (state : HyprlandStateTuple) (answered : Bool) : Fetch → Fetched
  | .start => if answered then .more (.hasClients state.clients) else .error
  | .hasClients clients =>
    if answered then .more (.hasWorkspaces clients state.workspaces) else .error
  | .hasWorkspaces clients workspaces =>
    if answered then .more (.hasMonitors clients workspaces state.monitors) else .error
  | .hasMonitors clients workspaces monitors =>
    .done ⟨clients, workspaces, monitors, if answered then state.activeWindow else none⟩

/-! ### The listener -/

/-- Where the listener is. -/
inductive HyprlandPhase where
  /-- It is not connected, and is to start. -/
  | idle
  /-- The initial query. -/
  | querying (fetch : Fetch)
  /-- It is to connect to the socket. -/
  | queried (state : HyprlandStateTuple)
  /-- It reads the next event. -/
  | reading
  /-- An event has asked for a query. -/
  | refreshing (fetch : Fetch)
  /-- It has queried, and is to publish. -/
  | publishing (state : HyprlandStateTuple)

/-- Hyprland and its listener. -/
structure HyprlandListener where
  hyprland : Hyprland
  phase : HyprlandPhase
  /-- The events that have not been read. -/
  socket : List HyprlandEvent
  urgentWindows : Finset ℕ
  currentActiveAddr : Option ℕ
  ownerGeneration : ℕ
  revision : ℕ
  /-- The last snapshot that is ready. -/
  published : Option CompositorSnapshot
  failed : Bool
  readSince : Bool

/-- A step of Hyprland, or of its listener. -/
inductive HyprlandAction where
  | change (hyprland : Hyprland) (events : List HyprlandEvent)
  | start
  | query (answered : Bool)
  | connect (connected : Bool)
  | publish
  | read
  /-- The socket is closed, or cannot be read. -/
  | fail

namespace HyprlandListener

def new (hyprland : Hyprland) : HyprlandListener where
  hyprland
  phase := .idle
  socket := []
  urgentWindows := ∅
  currentActiveAddr := none
  ownerGeneration := 0
  revision := 0
  published := none
  failed := false
  readSince := false

/-- The socket has been connected to. -/
def connected (s : HyprlandListener) : Bool :=
  match s.phase with
  | .reading | .refreshing _ | .publishing _ => true
  | .idle | .querying _ | .queried _ => false

/-- `record_supervisor_failure` takes a revision; the listener starts again. -/
def recordFailure (s : HyprlandListener) : HyprlandListener :=
  { s with phase := .idle, socket := [], revision := s.revision + 1 }

/-- The listener has made a request. -/
def asked (s : HyprlandListener) (answered : Bool) : HyprlandListener :=
  { s with failed := !answered, readSince := false }

/-- An event is read. -/
def read (s : HyprlandListener) (event : HyprlandEvent) (socket : List HyprlandEvent) :
    HyprlandListener :=
  { s with
    socket
    urgentWindows := applyUrgentEvent s.urgentWindows event
    phase := if needsRefresh s.currentActiveAddr event then .refreshing .start else s.phase
    readSince := true }

/-- A snapshot that is ready is published. -/
def publish (s : HyprlandListener) (state : HyprlandStateTuple) : HyprlandListener :=
  { s with
    currentActiveAddr := state.activeWindow
    revision := s.revision + 1
    published := some (buildHyprlandSnapshot ⟨s.ownerGeneration, s.revision + 1⟩ .ready state
      s.urgentWindows none)
    phase := .reading }

/-- One step. -/
def step (s : HyprlandListener) : HyprlandAction → HyprlandListener
  | .change hyprland events =>
    if Matches s.hyprland events hyprland then
      { s with hyprland, socket := if s.connected then s.socket ++ events else s.socket }
    else s
  | .start =>
    match s.phase with
    | .idle =>
      { s with
        ownerGeneration := s.ownerGeneration + 1
        revision := 1
        phase := .querying .start }
    | _ => s
  | .query answered =>
    match s.phase with
    | .querying fetch =>
      match fetch.query s.hyprland.state answered with
      | .error => (s.asked answered).recordFailure
      | .more fetch => { s.asked answered with phase := .querying fetch }
      | .done state => { s.asked answered with phase := .queried state }
    | .refreshing fetch =>
      match fetch.query s.hyprland.state answered with
      | .error => { s.asked answered with phase := .reading }
      | .more fetch => { s.asked answered with phase := .refreshing fetch }
      | .done state => { s.asked answered with phase := .publishing state }
    | _ => s
  | .connect connected =>
    match s.phase with
    | .queried state =>
      if connected then
        { s with
          urgentWindows := ∅
          currentActiveAddr := state.activeWindow
          phase := .publishing state }
      else s.recordFailure
    | _ => s
  | .publish =>
    match s.phase with
    | .publishing state => s.publish state
    | _ => s
  | .read =>
    match s.phase, s.socket with
    | .reading, event :: socket => s.read event socket
    | _, _ => s
  | .fail =>
    match s.phase with
    | .reading => s.recordFailure
    | _ => s

end HyprlandListener

end Shilpo.Compositor
