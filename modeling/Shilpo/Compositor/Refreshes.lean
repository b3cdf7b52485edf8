import Shilpo.Compositor.Hyprland

/-!
# What the listener of Hyprland has published

When the listener has read every event, the last snapshot that it has published as ready is to show
what Hyprland shows (`Converged`). It does in a run where nothing changes between the initial query
and the connection, and nothing is urgent then; where a change is told by an event that asks for a
query, or is one of the focus, not between two requests of a query; and where an event that asks for
no query clears no urgency and does not come after a request that has failed (`Calm`).
-/

namespace Shilpo.Compositor

open Config Domain Theory

/-! ### What is shown -/

/-- A window without its title. -/
def WindowInfo.untitled (window : WindowInfo) : WindowInfo := { window with title := none }

def HyprlandClientDto.untitled (client : HyprlandClientDto) : HyprlandClientDto :=
  { client with title := "" }

/-- Two snapshots show the same windows, apart from their titles, the same workspaces and the same
focus. -/
structure ShowsSame (s t : CompositorSnapshot) : Prop where
  windows : s.windows.map WindowInfo.untitled = t.windows.map WindowInfo.untitled
  workspaces : s.workspaces = t.workspaces
  extras : s.extras = t.extras
  focusedOutput : s.focusedOutput = t.focusedOutput
  focusedWorkspaceId : s.focusedWorkspaceId = t.focusedWorkspaceId
  focusedWindowId : s.focusedWindowId = t.focusedWindowId

/-- What of an answer a snapshot shows. -/
structure HyprlandShown where
  clients : List HyprlandClientDto
  workspaces : List HyprlandWorkspaceDto
  monitors : List (String × Bool × ℤ)
  activeWindow : Option ℕ
  deriving DecidableEq

def HyprlandStateTuple.shown (state : HyprlandStateTuple) : HyprlandShown where
  clients := state.clients.map HyprlandClientDto.untitled
  workspaces := state.workspaces
  monitors := state.monitors.map HyprlandMonitorDto.shows
  activeWindow := state.activeWindow

theorem info_untitled (activeWindowAddr : Option ℕ) (urgentWindows : Finset ℕ)
    (c : HyprlandClientDto) :
    (c.info activeWindowAddr urgentWindows).map WindowInfo.untitled =
      c.untitled.info activeWindowAddr urgentWindows := by
  rw [HyprlandClientDto.info, HyprlandClientDto.info, Option.map_map]
  rfl

/-- The windows, without their titles, are those of the clients without theirs. -/
theorem windows_untitled (version : DomainVersion) (lifecycle : DomainLifecycle)
    (state : HyprlandStateTuple) (urgentWindows : Finset ℕ) (lastError : Option String) :
    (buildHyprlandSnapshot version lifecycle state urgentWindows lastError).windows.map
        WindowInfo.untitled =
      sortByKey WindowInfo.id ((state.clients.map HyprlandClientDto.untitled).filterMap
        (HyprlandClientDto.info state.activeWindow urgentWindows)) := by
  rw [buildHyprlandSnapshot]
  dsimp only
  rw [map_sortByKey (g := WindowInfo.untitled) fun _ => rfl, List.map_filterMap, List.filterMap_map]
  exact congrArg _ (congrArg (List.filterMap · _) (funext fun c => info_untitled _ _ c))

theorem find_untitled (windows : List WindowInfo) :
    (windows.find? fun w => w.isFocused).map WindowInfo.id =
      ((windows.map WindowInfo.untitled).find? fun w => w.isFocused).map WindowInfo.id := by
  rw [List.find?_map, Option.map_map]
  rfl

/-- Of the monitors, only their names, their workspaces and which has the focus are shown. -/
theorem find_focused (monitors : List HyprlandMonitorDto) :
    (monitors.find? fun m => m.focused).map HyprlandMonitorDto.shows =
      (monitors.map HyprlandMonitorDto.shows).find? fun m => m.2.1 := by
  rw [List.find?_map]
  rfl

/-- Answers that show the same make snapshots that do. -/
theorem showsSame_build {state state' : HyprlandStateTuple} (h : state.shown = state'.shown)
    (version version' : DomainVersion) (lifecycle lifecycle' : DomainLifecycle)
    (urgentWindows : Finset ℕ) (lastError lastError' : Option String) :
    ShowsSame (buildHyprlandSnapshot version lifecycle state urgentWindows lastError)
      (buildHyprlandSnapshot version' lifecycle' state' urgentWindows lastError') := by
  simp only [HyprlandStateTuple.shown, HyprlandShown.mk.injEq] at h
  obtain ⟨hclients, hworkspaces, hmonitors, hactive⟩ := h
  have hwindows := windows_untitled version lifecycle state urgentWindows lastError
  rw [hclients, hactive, ← windows_untitled version' lifecycle' state' urgentWindows lastError']
    at hwindows
  have hfocused : (state.monitors.find? fun m => m.focused).map HyprlandMonitorDto.shows =
      (state'.monitors.find? fun m => m.focused).map HyprlandMonitorDto.shows := by
    rw [find_focused, find_focused, hmonitors]
  have houtput : (state.monitors.find? fun m => m.focused).map HyprlandMonitorDto.name =
      (state'.monitors.find? fun m => m.focused).map HyprlandMonitorDto.name := by
    have hnames := congrArg (Option.map Prod.fst) hfocused
    rwa [Option.map_map, Option.map_map] at hnames
  have hworkspace :
      ((state.monitors.find? fun m => m.focused).bind fun m => standardId m.activeWorkspaceId) =
        (state'.monitors.find? fun m => m.focused).bind
          fun m => standardId m.activeWorkspaceId := by
    have hids := congrArg (Option.bind · fun m => standardId m.2.2) hfocused
    rwa [Option.bind_map, Option.bind_map] at hids
  have hactives : state.monitors.map HyprlandMonitorDto.activeWorkspaceId =
      state'.monitors.map HyprlandMonitorDto.activeWorkspaceId := by
    have hids := congrArg (List.map fun m => m.2.2) hmonitors
    rwa [List.map_map, List.map_map] at hids
  exact {
    windows := hwindows
    workspaces := by
      simp only [buildHyprlandSnapshot, hworkspaces, houtput, hworkspace, hactives]
    extras := by simp only [buildHyprlandSnapshot, hworkspaces]
    focusedOutput := houtput
    focusedWorkspaceId := hworkspace
    focusedWindowId := by
      have hids := congrArg
        (fun windows => (windows.find? fun w => w.isFocused).map WindowInfo.id) hwindows
      simp only [← find_untitled] at hids
      exact congrArg₂ Option.or hactive hids }

/-! ### The claim -/

/-- The event asks for a query whatever has the focus. -/
def HyprlandEvent.asks : HyprlandEvent → Bool
  | .activeWindowV2 _ | .windowTitleV2 | .other => false
  | _ => true

theorem needsRefresh_of_asks {event : HyprlandEvent} (h : event.asks = true)
    (currentActiveAddr : Option ℕ) : needsRefresh currentActiveAddr event = true := by
  cases event <;> first | rfl | cases h

namespace HyprlandListener

/-- When every event has been read, and the last request has not failed or an event has been read
since, the last snapshot that is ready shows what Hyprland shows. -/
def Converged (s : HyprlandListener) : Prop :=
  match s.phase with
  | .reading => s.socket = [] → s.failed = false ∨ s.readSince = true →
    ∃ snapshot ∈ s.published, ShowsSame snapshot
      (buildHyprlandSnapshot snapshot.version .ready s.hyprland.state s.hyprland.urgent none)
  | _ => True

/-- A request of a query has been answered, and another is to come. -/
def midQuery (s : HyprlandListener) : Bool :=
  match s.phase with
  | .refreshing .start => false
  | .refreshing _ => true
  | _ => false

/-- A step by which nothing is lost. -/
def Calm (s : HyprlandListener) : HyprlandAction → Prop
  | .change hyprland events =>
    s.connected → s.hyprland.state.shown ≠ hyprland.state.shown →
      (∃ event ∈ events, event.asks) ∨
        s.hyprland.state.activeWindow ≠ hyprland.state.activeWindow ∧ s.midQuery = false
  | .connect true =>
    match s.phase with
    | .queried state =>
      (s.failed = false → state.shown = s.hyprland.state.shown) ∧ s.hyprland.urgent = ∅
    | _ => True
  | .read =>
    match s.phase, s.socket with
    | .reading, event :: _ =>
      needsRefresh s.currentActiveAddr event = true ∨
        s.failed = false ∧ applyUrgentEvent s.urgentWindows event = s.urgentWindows
    | _, _ => True
  | _ => True

instance (s : HyprlandListener) : (action : HyprlandAction) → Decidable (s.Calm action)
  | .change hyprland events =>
    inferInstanceAs (Decidable (s.connected → s.hyprland.state.shown ≠ hyprland.state.shown →
      (∃ event ∈ events, event.asks) ∨
        s.hyprland.state.activeWindow ≠ hyprland.state.activeWindow ∧ s.midQuery = false))
  | .connect true =>
    match h : s.phase with
    | .queried state =>
      decidable_of_iff ((s.failed = false → state.shown = s.hyprland.state.shown) ∧
        s.hyprland.urgent = ∅) (by rw [Calm, h])
    | .idle | .querying _ | .reading | .refreshing _ | .publishing _ =>
      .isTrue (by rw [Calm, h]; trivial)
  | .read =>
    match h : s.phase, hsocket : s.socket with
    | .reading, event :: _ =>
      decidable_of_iff (needsRefresh s.currentActiveAddr event = true ∨
        s.failed = false ∧ applyUrgentEvent s.urgentWindows event = s.urgentWindows)
        (by rw [Calm, h, hsocket])
    | .reading, [] => .isTrue (by rw [Calm, h, hsocket]; trivial)
    | .idle, _ | .querying _, _ | .queried _, _ | .refreshing _, _ | .publishing _, _ =>
      .isTrue (by rw [Calm, h]; trivial)
  | .connect false | .start | .query _ | .publish | .fail => .isTrue trivial

/-! ### The invariant -/

/-- An event that has not been read asks for a query when this window has the focus. -/
def Pending (s : HyprlandListener) (currentActiveAddr : Option ℕ) : Prop :=
  ∃ event ∈ s.socket, needsRefresh currentActiveAddr event = true

/-- An answer is what is shown, or an event is to be read that asks for a query. -/
def Fresh (s : HyprlandListener) (state : HyprlandStateTuple) : Prop :=
  state.shown = s.hyprland.state.shown ∨ s.Pending state.activeWindow

/-- What has been answered of a query is what is shown. -/
def Current (state : HyprlandStateTuple) : Fetch → Prop
  | .start => True
  | .hasClients clients =>
    clients.map HyprlandClientDto.untitled = state.clients.map HyprlandClientDto.untitled
  | .hasWorkspaces clients workspaces =>
    clients.map HyprlandClientDto.untitled = state.clients.map HyprlandClientDto.untitled ∧
      workspaces = state.workspaces
  | .hasMonitors clients workspaces monitors =>
    clients.map HyprlandClientDto.untitled = state.clients.map HyprlandClientDto.untitled ∧
      workspaces = state.workspaces ∧
      monitors.map HyprlandMonitorDto.shows = state.monitors.map HyprlandMonitorDto.shows

/-- The last query that has not failed is what is shown, or there will be another. -/
def Reflects (s : HyprlandListener) : Prop :=
  match s.phase with
  | .idle | .querying _ | .queried _ => True
  | .refreshing fetch =>
    Current s.hyprland.state fetch ∨ ∃ event ∈ s.socket, event.asks = true
  | .publishing state => s.failed = false → s.Fresh state
  | .reading => s.failed = false → ∃ state version,
      s.published = some (buildHyprlandSnapshot version .ready state s.urgentWindows none) ∧
        state.activeWindow = s.currentActiveAddr ∧ s.Fresh state

/-- The invariant. -/
structure Tracks (s : HyprlandListener) : Prop where
  reflects : s.Reflects
  /-- The events tell which windows are urgent. -/
  urgent : s.connected = true → s.socket.foldl applyUrgentEvent s.urgentWindows = s.hyprland.urgent
  socket : s.connected = false → s.socket = []
  unread : (∀ fetch, s.phase ≠ .refreshing fetch) → s.failed = true → s.readSince = false

theorem Tracks.converged {s : HyprlandListener} (h : s.Tracks) : s.Converged := by
  rw [Converged]
  split
  · next hphase =>
    intro hsocket hproviso
    have hfailed : s.failed = false := by
      cases hfailed : s.failed with
      | false => rfl
      | true =>
        have hnone : ∀ fetch, s.phase ≠ .refreshing fetch := by
          rw [hphase]
          exact fun _ he => by cases he
        rw [hfailed, h.unread hnone hfailed] at hproviso
        obtain he | he := hproviso <;> cases he
    have hreflects := h.reflects
    rw [Reflects, hphase] at hreflects
    obtain ⟨state, version, hpublished, -, hfresh⟩ := hreflects hfailed
    have hshown : state.shown = s.hyprland.state.shown := by
      refine hfresh.resolve_right ?_
      rintro ⟨event, hevent, -⟩
      rw [hsocket] at hevent
      cases hevent
    have hurgent := h.urgent (by rw [connected, hphase])
    rw [hsocket] at hurgent
    refine ⟨_, hpublished, ?_⟩
    rw [← hurgent]
    exact showsSame_build hshown _ _ _ _ _ _ _
  · trivial

/-! ### Changes -/

variable {s : HyprlandListener}

theorem Fetch.current_congr {state state' : HyprlandStateTuple} (h : state.shown = state'.shown)
    {fetch : Fetch} (hcurrent : Current state fetch) : Current state' fetch := by
  simp only [HyprlandStateTuple.shown, HyprlandShown.mk.injEq] at h
  obtain ⟨hclients, hworkspaces, hmonitors, -⟩ := h
  cases fetch with
  | start => trivial
  | hasClients clients => exact hcurrent.trans hclients
  | hasWorkspaces clients workspaces =>
    exact ⟨hcurrent.1.trans hclients, hcurrent.2.trans hworkspaces⟩
  | hasMonitors clients workspaces monitors =>
    exact ⟨hcurrent.1.trans hclients, hcurrent.2.1.trans hworkspaces,
      hcurrent.2.2.trans hmonitors⟩

/-- A change is told: what was fresh stays so. Where only the focus is told and the answer has the
new one already, the answer did not have the old one. -/
theorem fresh_change {hyprland : Hyprland} {events : List HyprlandEvent}
    (hmatches : Matches s.hyprland events hyprland)
    (hcalm : s.hyprland.state.shown ≠ hyprland.state.shown → (∃ event ∈ events, event.asks) ∨
      s.hyprland.state.activeWindow ≠ hyprland.state.activeWindow)
    {state : HyprlandStateTuple} (h : s.Fresh state) :
    Fresh { s with hyprland, socket := s.socket ++ events } state := by
  obtain hshown | ⟨event, hevent, hasks⟩ := h
  · by_cases hsame : s.hyprland.state.shown = hyprland.state.shown
    · exact .inl (hshown.trans hsame)
    · obtain ⟨event, hevent, hasks⟩ | hfocus := hcalm hsame
      · exact .inr ⟨event, List.mem_append_right _ hevent, needsRefresh_of_asks hasks _⟩
      · refine .inr ⟨_, List.mem_append_right _ (hmatches.1.2.2 hfocus), ?_⟩
        have hactive : state.activeWindow = s.hyprland.state.activeWindow :=
          congrArg HyprlandShown.activeWindow hshown
        rw [needsRefresh, hactive]
        exact decide_eq_true hfocus.symm
  · exact .inr ⟨event, List.mem_append_left _ hevent, hasks⟩

theorem tracks_change (h : s.Tracks) {hyprland : Hyprland} {events : List HyprlandEvent}
    (hcalm : s.Calm (.change hyprland events)) : (s.step (.change hyprland events)).Tracks := by
  rw [step]
  split_ifs with hmatches hconnected
  · have hfresh : ∀ state, s.Fresh state →
        Fresh { s with hyprland, socket := s.socket ++ events } state := by
      intro state hstate
      refine fresh_change hmatches (fun hne => ?_) hstate
      exact (hcalm hconnected hne).imp id And.left
    have hreflects := h.reflects
    refine ⟨?_, fun _ => ?_, fun hne => absurd (hconnected.symm.trans hne) Bool.noConfusion,
      h.unread⟩
    · rw [Reflects] at hreflects ⊢
      cases hphase : s.phase with
      | idle | querying | queried => trivial
      | refreshing fetch =>
        rw [hphase] at hreflects
        obtain hcurrent | ⟨event, hevent, hasks⟩ := hreflects
        · by_cases hsame : s.hyprland.state.shown = hyprland.state.shown
          · exact .inl (Fetch.current_congr hsame hcurrent)
          · obtain ⟨event, hevent, hasks⟩ | ⟨-, hmid⟩ := hcalm hconnected hsame
            · exact .inr ⟨event, List.mem_append_right _ hevent, hasks⟩
            · left
              rw [midQuery, hphase] at hmid
              cases fetch with
              | start => trivial
              | _ => cases hmid
        · exact .inr ⟨event, List.mem_append_left _ hevent, hasks⟩
      | publishing state =>
        rw [hphase] at hreflects
        exact fun hfailed => hfresh state (hreflects hfailed)
      | reading =>
        rw [hphase] at hreflects
        intro hfailed
        obtain ⟨state, version, hpublished, hactive, hstate⟩ := hreflects hfailed
        exact ⟨state, version, hpublished, hactive, hfresh state hstate⟩
    · rw [List.foldl_append, h.urgent hconnected]
      exact hmatches.1.1.symm
  · have hfalse : s.connected = false := Bool.eq_false_iff.mpr hconnected
    refine ⟨?_, fun he => absurd he hconnected, fun _ => h.socket hfalse, h.unread⟩
    rw [Reflects]
    rw [connected] at hfalse
    cases hphase : s.phase with
    | idle | querying | queried => trivial
    | refreshing | publishing | reading =>
      rw [hphase] at hfalse
      cases hfalse
  · exact h

/-! ### The listener -/

/-- The listener is not connected. -/
theorem tracks_apart {s' : HyprlandListener} (hphase : s'.connected = false)
    (hsocket : s'.socket = []) (hunread : s'.failed = true → s'.readSince = false) :
    s'.Tracks where
  reflects := by
    rw [Reflects]
    rw [connected] at hphase
    cases he : s'.phase with
    | idle | querying | queried => trivial
    | refreshing | publishing | reading =>
      rw [he] at hphase
      cases hphase
  urgent he := by
    rw [hphase] at he
    cases he
  socket _ := hsocket
  unread _ := hunread

/-- The listener is connected. -/
theorem tracks_connected {s' : HyprlandListener} (hconnected : s'.connected = true)
    (hreflects : s'.Reflects)
    (hurgent : s'.socket.foldl applyUrgentEvent s'.urgentWindows = s'.hyprland.urgent)
    (hunread : (∀ fetch, s'.phase ≠ .refreshing fetch) → s'.failed = true → s'.readSince = false) :
    s'.Tracks where
  reflects := hreflects
  urgent _ := hurgent
  socket he := by
    rw [hconnected] at he
    cases he
  unread := hunread

/-- A request of a query that an event has asked for. -/
theorem tracks_refresh (h : s.Tracks) {fetch : Fetch} (hphase : s.phase = .refreshing fetch)
    (answered : Bool) : (s.step (.query answered)).Tracks := by
  have hurgent := h.urgent (by rw [connected, hphase])
  have hreflects := h.reflects
  rw [Reflects, hphase] at hreflects
  have hfailed : Tracks { s.asked false with phase := .reading } :=
    tracks_connected rfl (fun he => by cases he) hurgent fun _ _ => rfl
  have hmore : ∀ fetch, (Current s.hyprland.state fetch ∨ ∃ event ∈ s.socket, event.asks = true) →
      Tracks { s.asked true with phase := .refreshing fetch } := fun fetch hcurrent =>
    tracks_connected rfl hcurrent hurgent fun hne => absurd rfl (hne fetch)
  simp only [step, hphase]
  cases fetch with
  | start =>
    cases answered with
    | false => exact hfailed
    | true => exact hmore _ (.inl rfl)
  | hasClients clients =>
    cases answered with
    | false => exact hfailed
    | true => exact hmore _ (hreflects.imp (fun he => ⟨he, rfl⟩) id)
  | hasWorkspaces clients workspaces =>
    cases answered with
    | false => exact hfailed
    | true => exact hmore _ (hreflects.imp (fun he => ⟨he.1, he.2, rfl⟩) id)
  | hasMonitors clients workspaces monitors =>
    cases answered with
    | false => exact tracks_connected rfl (fun he => by cases he) hurgent fun _ _ => rfl
    | true =>
      refine tracks_connected rfl (fun _ => ?_) hurgent fun _ _ => rfl
      obtain ⟨hclients, hworkspaces, hmonitors⟩ | ⟨event, hevent, hasks⟩ := hreflects
      · left
        rw [HyprlandStateTuple.shown, hclients, hworkspaces, hmonitors]
        rfl
      · exact .inr ⟨event, hevent, needsRefresh_of_asks hasks _⟩

theorem tracks_query (h : s.Tracks) (answered : Bool) : (s.step (.query answered)).Tracks := by
  cases hphase : s.phase with
  | idle | queried | reading | publishing => simpa only [step, hphase] using h
  | querying fetch =>
    have hsocket := h.socket (by rw [connected, hphase])
    simp only [step, hphase]
    cases fetch.query s.hyprland.state answered with
    | error => exact tracks_apart rfl rfl fun _ => rfl
    | more | done => exact tracks_apart rfl hsocket fun _ => rfl
  | refreshing fetch => exact tracks_refresh h hphase answered

theorem tracks_recordFailure (h : s.Tracks) (hphase : ∀ fetch, s.phase ≠ .refreshing fetch) :
    s.recordFailure.Tracks := tracks_apart rfl rfl (h.unread hphase)

theorem tracks_connect (h : s.Tracks) {success : Bool} (hcalm : s.Calm (.connect success)) :
    (s.step (.connect success)).Tracks := by
  cases hphase : s.phase with
  | idle | querying | reading | refreshing | publishing => simpa only [step, hphase] using h
  | queried state =>
    have hunread : ∀ fetch, s.phase ≠ .refreshing fetch := by
      rw [hphase]
      exact fun _ he => by cases he
    simp only [step, hphase]
    cases success with
    | false => exact tracks_recordFailure h hunread
    | true =>
      simp only [Calm, hphase] at hcalm
      have hsocket := h.socket (by rw [connected, hphase])
      refine tracks_connected rfl (fun hfailed => .inl (hcalm.1 hfailed)) ?_
        fun _ => h.unread hunread
      simp only [if_true, hsocket, hcalm.2, List.foldl_nil]

theorem tracks_publish (h : s.Tracks) : (s.step .publish).Tracks := by
  cases hphase : s.phase with
  | idle | querying | queried | reading | refreshing => simpa only [step, hphase] using h
  | publishing state =>
    have hurgent := h.urgent (by rw [connected, hphase])
    have hreflects := h.reflects
    rw [Reflects, hphase] at hreflects
    simp only [step, hphase]
    refine tracks_connected rfl ?_ hurgent fun _ => h.unread ?_
    · exact fun hfailed => ⟨state, _, rfl, rfl, hreflects hfailed⟩
    · rw [hphase]
      exact fun _ he => by cases he

/-- An event is read. One that asks for no query leaves what is to be read that asks for one. -/
theorem tracks_read (h : s.Tracks) (hcalm : s.Calm .read) : (s.step .read).Tracks := by
  cases hphase : s.phase with
  | idle | querying | queried | publishing | refreshing => simpa only [step, hphase] using h
  | reading =>
    cases hsocket : s.socket with
    | nil => simpa only [step, hphase, hsocket] using h
    | cons event socket =>
      have hurgent := h.urgent (by rw [connected, hphase])
      rw [hsocket, List.foldl_cons] at hurgent
      simp only [step, hphase, hsocket]
      simp only [Calm, hphase, hsocket] at hcalm
      by_cases hneeds : needsRefresh s.currentActiveAddr event = true
      · have hread : (s.read event socket).phase = .refreshing .start := by
          rw [read, if_pos hneeds]
        refine tracks_connected (by rw [connected, hread]) ?_ hurgent
          fun hne => absurd hread (hne _)
        rw [Reflects, hread]
        exact .inl trivial
      · obtain ⟨hfailed, hsame⟩ := hcalm.resolve_left hneeds
        have hread : (s.read event socket).phase = .reading := by
          rw [read, if_neg hneeds]
          exact hphase
        refine tracks_connected (by rw [connected, hread]) ?_ hurgent ?_
        · have hreflects := h.reflects
          rw [Reflects, hphase] at hreflects
          obtain ⟨state, version, hpublished, hactive, hfresh⟩ := hreflects hfailed
          rw [Reflects, hread]
          refine fun _ => ⟨state, version, ?_, hactive, hfresh.imp id ?_⟩
          · rw [read]
            dsimp only
            rw [hsame]
            exact hpublished
          · rintro ⟨event', hevent', hasks⟩
            rw [hsocket] at hevent'
            obtain rfl | hevent' := List.mem_cons.mp hevent'
            · rw [hactive] at hasks
              exact absurd hasks hneeds
            · exact ⟨event', hevent', hasks⟩
        · intro _ hfailed'
          exact absurd (hfailed.symm.trans hfailed') Bool.false_ne_true

theorem tracks_step (h : s.Tracks) {action : HyprlandAction} (hcalm : s.Calm action) :
    (s.step action).Tracks := by
  cases action with
  | change => exact tracks_change h hcalm
  | start =>
    cases hphase : s.phase with
    | querying | queried | publishing | refreshing | reading =>
      simpa only [step, hphase] using h
    | idle =>
      simp only [step, hphase]
      refine tracks_apart rfl (h.socket (by rw [connected, hphase])) (h.unread ?_)
      rw [hphase]
      exact fun _ he => by cases he
  | query answered => exact tracks_query h answered
  | connect => exact tracks_connect h hcalm
  | publish => exact tracks_publish h
  | read => exact tracks_read h hcalm
  | fail =>
    cases hphase : s.phase with
    | idle | querying | queried | publishing | refreshing => simpa only [step, hphase] using h
    | reading =>
      simp only [step, hphase]
      refine tracks_recordFailure h ?_
      rw [hphase]
      exact fun _ he => by cases he

/-! ### Runs -/

/-- **In a calm run, what has been published is what is shown whenever every event has been read.**
-/
theorem converged_of_calm (hyprland : Hyprland) {actions : List HyprlandAction}
    (hcalm : Along step Calm (new hyprland) actions) :
    Always step Converged (new hyprland) actions := by
  rw [always_iff]
  rintro pre post rfl
  have hpre := ((along_append _ pre post).mp hcalm).1
  have htracks : (run step (new hyprland) pre).Tracks :=
    Along.holds (I := Tracks) (fun _ _ h hc => tracks_step h hc)
      (tracks_apart rfl rfl fun he => by cases he) hpre
  exact htracks.converged

/-- A monitor and its workspace, with these windows. -/
def desktop (clients : List HyprlandClientDto) (activeWindow : Option ℕ) : Hyprland where
  state :=
    { clients
      workspaces := [{ id := 1, name := "1", monitor := "eDP-1" }]
      monitors := [{ name := "eDP-1", focused := true, activeWorkspaceId := 1 }]
      activeWindow }
  urgent := ∅

/-- A window is opened, and has the focus. -/
def opening : HyprlandAction :=
  .change (desktop [{ address := "0x1f", className := "foot", workspaceId := 1 }] (some 31))
    [.openWindow, .activeWindowV2 (some 31)]

/-- All requests of a query are answered. -/
def queries : List HyprlandAction := List.replicate 4 (.query true)

/-- The window is opened when the listener is connected. -/
def openedConnected : List HyprlandAction :=
  HyprlandAction.start :: queries ++ [HyprlandAction.connect true, .publish, opening, .read] ++
    queries ++ [HyprlandAction.publish, .read]

theorem converged_openedConnected :
    Always step Converged (new (desktop [] none)) openedConnected :=
  converged_of_calm (desktop [] none) (by decide +kernel)

/-- The window is opened between the initial query and the connection. -/
def openedBefore : List HyprlandAction :=
  HyprlandAction.start :: queries ++ [opening, .connect true, .publish]

theorem not_converged_openedBefore :
    ¬ Always step Converged (new (desktop [] none)) openedBefore := by
  intro halways
  have hlast : Converged (run step (new (desktop [] none)) openedBefore) :=
    (always_iff _ _).mp halways openedBefore [] (List.append_nil _).symm
  obtain ⟨snapshot, hpublished, hshows⟩ := hlast (by decide +kernel) (.inl (by decide +kernel))
  have hnone : snapshot.windows.length = 0 := by
    have hlengths : (run step (new (desktop [] none)) openedBefore).published.map
        (fun snapshot => snapshot.windows.length) = some 0 := by decide +kernel
    rw [hpublished] at hlengths
    exact Option.some.inj hlengths
  have hone := congrArg List.length hshows.windows
  rw [List.length_map, List.length_map, hnone] at hone
  have hcurrent : (buildHyprlandSnapshot .zero .ready
      (run step (new (desktop [] none)) openedBefore).hyprland.state
      (run step (new (desktop [] none)) openedBefore).hyprland.urgent none).windows.length = 1 := by
    decide +kernel
  exact absurd (hone.trans hcurrent) Nat.zero_ne_one

end HyprlandListener

end Shilpo.Compositor
