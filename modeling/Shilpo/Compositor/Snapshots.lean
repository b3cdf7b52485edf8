import Shilpo.Compositor.Hyprland

/-!
# Snapshots of Hyprland

What `build_hyprland_snapshot` makes of answers in which windows have addresses of their own,
workspaces ids and monitors names, and of which at most one monitor has the focus. The answers are
of different moments, so that they need not agree about the focus. Where they do, the snapshot says
one thing about it, and only there (`buildHyprlandSnapshot_coherent_iff`): a window has the first
place in the history exactly if it is the one that was asked for, and the focused workspace says
that it is on the focused monitor.
-/

namespace Shilpo.Compositor

open Config Domain Theory

/-! ### Answers -/

/-- The addresses of the windows, as far as they can be parsed. -/
def HyprlandStateTuple.addresses (state : HyprlandStateTuple) : List ℕ :=
  state.clients.filterMap fun c => parseHexAddress c.address

/-- Answers in which nothing is listed twice. -/
structure HyprlandAnswers extends HyprlandStateTuple where
  distinct_addresses : toHyprlandStateTuple.addresses.Nodup
  nonzero_addresses : 0 ∉ toHyprlandStateTuple.addresses
  distinct_workspaces : (workspaces.map HyprlandWorkspaceDto.id).Nodup
  distinct_monitors : (monitors.map HyprlandMonitorDto.name).Nodup
  one_focused : ∀ m ∈ monitors, ∀ m' ∈ monitors, m.focused = true → m'.focused = true → m = m'

/-- The monitor that has the focus. -/
def HyprlandStateTuple.focusedMonitor (state : HyprlandStateTuple) : Option HyprlandMonitorDto :=
  state.monitors.find? fun m => m.focused

/-- The address is that of a window with the first place in the history. -/
def HyprlandStateTuple.IsLastFocused (state : HyprlandStateTuple) (w : ℕ) : Prop :=
  ∃ c ∈ state.clients, c.focusHistoryId = 0 ∧ parseHexAddress c.address = some w

/-- The answers say one thing about the focus. -/
structure HyprlandStateTuple.Agrees (state : HyprlandStateTuple) : Prop where
  /-- One window at most has the first place in the history. -/
  one_last : ∀ w w', state.IsLastFocused w → state.IsLastFocused w' → w = w'
  /-- It is the active window, if there is one. -/
  last_active : ∀ w a, state.IsLastFocused w → state.activeWindow = some a → w = a
  /-- The active window is among the windows. -/
  active_listed : ∀ a, state.activeWindow = some a → a ∈ state.addresses
  /-- The workspace that the focused monitor shows is said to be there. -/
  on_monitor : ∀ m ws, state.focusedMonitor = some m → ws ∈ state.workspaces → 0 < ws.id →
    m.activeWorkspaceId = ws.id → ws.monitor ≠ "" ∧ ws.monitor = m.name

/-! ### Snapshots -/

/-- A snapshot lists everything once and in order, and what it says of the focus is one thing. -/
structure CompositorSnapshot.Coherent (s : CompositorSnapshot) : Prop where
  windows_ascending : (s.windows.map WindowInfo.id).Pairwise (· < ·)
  workspaces_ascending : (s.workspaces.map WorkspaceInfo.id).Pairwise (· < ·)
  one_window : ∀ w ∈ s.windows, ∀ w' ∈ s.windows, w.isFocused = true → w'.isFocused = true →
    w.id = w'.id
  focused_window : ∀ id, s.focusedWindowId = some id ↔
    ∃ w ∈ s.windows, w.isFocused = true ∧ w.id = id
  one_workspace : ∀ ws ∈ s.workspaces, ∀ ws' ∈ s.workspaces, ws.isFocused = true →
    ws'.isFocused = true → ws.id = ws'.id
  focused_workspace : ∀ ws ∈ s.workspaces, ws.isFocused = true →
    s.focusedWorkspaceId = some ws.id ∧ ws.outputName = s.focusedOutput ∧ ws.isActive = true
  empty_workspace : ∃ ws ∈ s.workspaces, ws.activeWindowId = none

/-- The lists of the answers may have come in another order. -/
structure HyprlandStateTuple.Reorders (state other : HyprlandStateTuple) : Prop where
  clients : state.clients.Perm other.clients
  workspaces : state.workspaces.Perm other.workspaces
  monitors : state.monitors.Perm other.monitors
  activeWindow : state.activeWindow = other.activeWindow

variable {version : DomainVersion} {lifecycle : DomainLifecycle} {state : HyprlandStateTuple}
  {answers : HyprlandAnswers} {urgentWindows : Finset ℕ} {lastError : Option String}

/-! ### What is sorted -/

theorem pairwise_lt_of_nodup {α : Type} {f : α → ℕ} {l : List α} (h : (l.map f).Nodup) :
    ((sortByKey f l).map f).Pairwise (· < ·) := by
  have hnodup : ((sortByKey f l).map f).Nodup := ((perm_sortByKey l).map f).nodup_iff.mpr h
  have hle : ((sortByKey f l).map f).Pairwise (· ≤ ·) :=
    List.pairwise_map.mpr (pairwise_sortByKey l)
  exact (hle.and hnodup).imp fun h => lt_of_le_of_ne h.1 h.2

theorem le_foldl_max {l : List ℕ} {n : ℕ} (h : n ∈ l) (start : ℕ) : n ≤ l.foldl max start := by
  have hstart : ∀ (l : List ℕ) (start : ℕ), start ≤ l.foldl max start := by
    intro l
    induction l with
    | nil => exact fun start => le_rfl
    | cons m l ih => exact fun start => (le_max_left start m).trans (ih _)
  induction l generalizing start with
  | nil => cases h
  | cons m l ih =>
    rcases List.mem_cons.mp h with rfl | h
    · exact (le_max_right start n).trans (hstart l _)
    · exact ih h _

/-! ### Windows -/

/-- The windows that are listed, before they are sorted. -/
def HyprlandStateTuple.windowInfos (state : HyprlandStateTuple) (urgentWindows : Finset ℕ) :
    List WindowInfo :=
  state.clients.filterMap (HyprlandClientDto.info state.activeWindow urgentWindows)

theorem map_id_windowInfos :
    (state.windowInfos urgentWindows).map WindowInfo.id = state.addresses := by
  rw [HyprlandStateTuple.windowInfos, List.map_filterMap, HyprlandStateTuple.addresses]
  refine List.filterMap_congr fun c _ => ?_
  rw [HyprlandClientDto.info, Option.map_map]
  exact Option.map_id_apply

/-- A window is marked focused if it has the first place in the history, or is the active one. -/
theorem exists_focused_iff {w : ℕ} :
    (∃ info ∈ state.windowInfos urgentWindows, info.isFocused = true ∧ info.id = w) ↔
      state.IsLastFocused w ∨ state.activeWindow = some w ∧ w ∈ state.addresses := by
  have hmem : w ∈ state.addresses ↔ ∃ c ∈ state.clients, parseHexAddress c.address = some w :=
    List.mem_filterMap
  rw [hmem]
  constructor
  · rintro ⟨info, hinfo, hfocused, rfl⟩
    obtain ⟨c, hc, heq⟩ := List.mem_filterMap.mp hinfo
    obtain ⟨address, haddress, rfl⟩ := Option.map_eq_some_iff.mp heq
    rcases of_decide_eq_true hfocused with hlast | hactive
    · exact .inl ⟨c, hc, hlast, haddress⟩
    · exact .inr ⟨hactive, c, hc, haddress⟩
  · have hinfo : ∀ c ∈ state.clients, parseHexAddress c.address = some w →
        (c.focusHistoryId = 0 ∨ state.activeWindow = some w) →
        ∃ info ∈ state.windowInfos urgentWindows, info.isFocused = true ∧ info.id = w := by
      intro c hc haddress hfocused
      refine ⟨_, List.mem_filterMap.mpr ⟨c, hc, Option.map_eq_some_iff.mpr ⟨w, haddress, rfl⟩⟩,
        decide_eq_true hfocused, rfl⟩
    rintro (⟨c, hc, hlast, haddress⟩ | ⟨hactive, c, hc, haddress⟩)
    · exact hinfo c hc haddress (.inl hlast)
    · exact hinfo c hc haddress (.inr hactive)

/-! ### Workspaces -/

/-- The standard workspaces that are listed, before they are sorted. -/
def HyprlandStateTuple.workspaceInfos (state : HyprlandStateTuple) : List WorkspaceInfo :=
  (state.workspaces.filter fun ws => 0 < ws.id).map
    (HyprlandWorkspaceDto.info (state.monitors.map HyprlandMonitorDto.activeWorkspaceId)
      (state.focusedMonitor.bind fun m => standardId m.activeWorkspaceId))

theorem standardId_eq_some_iff {id : ℤ} {n : ℕ} :
    standardId id = some n ↔ 0 < id ∧ id.toNat = n := by
  rw [standardId]
  split_ifs with h <;> simp [h]

/-- A workspace is marked focused if the focused monitor shows it. -/
theorem isFocused_info_iff {ws : HyprlandWorkspaceDto} (h : 0 < ws.id) {active : List ℤ} :
    (ws.info active (state.focusedMonitor.bind fun m => standardId m.activeWorkspaceId)).isFocused =
      true ↔ ∃ m, state.focusedMonitor = some m ∧ m.activeWorkspaceId = ws.id := by
  rw [HyprlandWorkspaceDto.info, beq_iff_eq, Option.bind_eq_some_iff]
  refine exists_congr fun m => and_congr_right fun _ => ?_
  rw [standardId_eq_some_iff]
  omega

theorem nodup_workspaceInfos (answers : HyprlandAnswers) :
    (answers.workspaceInfos.map WorkspaceInfo.id).Nodup := by
  rw [HyprlandStateTuple.workspaceInfos, List.map_map]
  have hsub := answers.distinct_workspaces.sublist
    ((List.filter_sublist (p := fun ws => decide (0 < ws.id))).map HyprlandWorkspaceDto.id)
  refine List.Nodup.map_on (fun ws hws ws' hws' heq => ?_) (List.Nodup.of_map _ hsub)
  have hpos : 0 < ws.id := of_decide_eq_true (List.mem_filter.mp hws).2
  have hpos' : 0 < ws'.id := of_decide_eq_true (List.mem_filter.mp hws').2
  have hid : ws.id.toNat = ws'.id.toNat := heq
  exact List.inj_on_of_nodup_map hsub hws hws' (by omega)

theorem workspaces_eq :
    (buildHyprlandSnapshot version lifecycle state urgentWindows lastError).workspaces =
      if (sortByKey WorkspaceInfo.id state.workspaceInfos).all fun w => w.activeWindowId.isSome then
        sortByKey WorkspaceInfo.id state.workspaceInfos ++
          [syntheticWorkspace (state.focusedMonitor.map HyprlandMonitorDto.name)
            (sortByKey WorkspaceInfo.id state.workspaceInfos)]
      else sortByKey WorkspaceInfo.id state.workspaceInfos :=
  rfl

/-- The workspaces of a snapshot are the standard ones, and perhaps one without the focus. -/
theorem mem_workspaces {info : WorkspaceInfo}
    (h : info ∈
      (buildHyprlandSnapshot version lifecycle state urgentWindows lastError).workspaces) :
    info ∈ state.workspaceInfos ∨ info.isFocused = false := by
  rw [workspaces_eq] at h
  split_ifs at h
  · rcases List.mem_append.mp h with h | h
    · exact .inl (mem_sortByKey.mp h)
    · rw [List.mem_singleton.mp h]
      exact .inr rfl
  · exact .inl (mem_sortByKey.mp h)

theorem mem_workspaces_of_mem {info : WorkspaceInfo} (h : info ∈ state.workspaceInfos) :
    info ∈ (buildHyprlandSnapshot version lifecycle state urgentWindows lastError).workspaces := by
  rw [workspaces_eq]
  split_ifs
  · exact List.mem_append_left _ (mem_sortByKey.mpr h)
  · exact mem_sortByKey.mpr h

theorem workspaces_ascending (answers : HyprlandAnswers) :
    ((buildHyprlandSnapshot version lifecycle answers.toHyprlandStateTuple urgentWindows
      lastError).workspaces.map WorkspaceInfo.id).Pairwise (· < ·) := by
  have hstandard := pairwise_lt_of_nodup (nodup_workspaceInfos answers)
  rw [workspaces_eq]
  split_ifs
  · rw [List.map_append, List.pairwise_append]
    refine ⟨hstandard, List.pairwise_singleton _ _, fun n hn m hm => ?_⟩
    rw [List.mem_singleton.mp hm]
    exact Nat.lt_succ_of_le (le_foldl_max hn 0)
  · exact hstandard

/-- A workspace has no active window, if only the one that is put behind the others. -/
theorem exists_empty_workspace :
    ∃ ws ∈ (buildHyprlandSnapshot version lifecycle state urgentWindows lastError).workspaces,
      ws.activeWindowId = none := by
  rw [workspaces_eq]
  split_ifs with hall
  · exact ⟨_, List.mem_append_right _ (List.mem_singleton_self _), rfl⟩
  · rw [List.all_eq_true] at hall
    push Not at hall
    obtain ⟨ws, hws, hnone⟩ := hall
    exact ⟨ws, hws, by simpa using hnone⟩

/-! ### The focus -/

/-- The window with the focus: the active one, or else the first that is marked. -/
theorem focusedWindowId_eq :
    (buildHyprlandSnapshot version lifecycle state urgentWindows lastError).focusedWindowId =
      state.activeWindow.or (((sortByKey WindowInfo.id (state.windowInfos urgentWindows)).find?
        fun w => w.isFocused).map WindowInfo.id) :=
  rfl

theorem mem_windows {info : WindowInfo} :
    info ∈ (buildHyprlandSnapshot version lifecycle state urgentWindows lastError).windows ↔
      info ∈ state.windowInfos urgentWindows :=
  mem_sortByKey

/-- A window that is listed and marked focused has this id. -/
def HyprlandStateTuple.Marks (state : HyprlandStateTuple) (w : ℕ) : Prop :=
  state.IsLastFocused w ∨ state.activeWindow = some w ∧ w ∈ state.addresses

theorem marks_iff {w : ℕ} :
    (∃ info ∈ (buildHyprlandSnapshot version lifecycle state urgentWindows lastError).windows,
      info.isFocused = true ∧ info.id = w) ↔ state.Marks w := by
  simp only [mem_windows]
  exact exists_focused_iff

/-- Where the answers agree, one window is marked: the one that has the focus. -/
theorem focusedWindowId_of_agrees (h : state.Agrees) (w : ℕ) :
    (buildHyprlandSnapshot version lifecycle state urgentWindows lastError).focusedWindowId =
      some w ↔ state.Marks w := by
  rw [focusedWindowId_eq]
  cases hactive : state.activeWindow with
  | some a =>
    rw [Option.some_or, Option.some.injEq]
    constructor
    · rintro rfl
      exact .inr ⟨hactive, h.active_listed a hactive⟩
    · rintro (hlast | ⟨hw, -⟩)
      · exact (h.last_active w a hlast hactive).symm
      · exact Option.some.inj (hactive.symm.trans hw)
  | none =>
    have hmarks : state.Marks w ↔ state.IsLastFocused w := by
      rw [HyprlandStateTuple.Marks, hactive]
      simp
    rw [Option.none_or, hmarks, Option.map_eq_some_iff]
    have hlisted : ∀ {v : ℕ}, state.IsLastFocused v → ∃ info ∈ state.windowInfos urgentWindows,
        info.isFocused = true ∧ info.id = v := fun hv => exists_focused_iff.mpr (.inl hv)
    have hlast : ∀ info ∈ state.windowInfos urgentWindows, info.isFocused = true →
        state.IsLastFocused info.id := by
      intro info hinfo hfocused
      rcases exists_focused_iff.mp ⟨info, hinfo, hfocused, rfl⟩ with hlast | ⟨hw, -⟩
      · exact hlast
      · rw [hactive] at hw
        cases hw
    constructor
    · rintro ⟨info, hfind, rfl⟩
      exact hlast info (mem_sortByKey.mp (List.mem_of_find?_eq_some hfind))
        (List.find?_some hfind)
    · intro hw
      obtain ⟨info, hinfo, hfocused, rfl⟩ := hlisted hw
      have hsome : ((sortByKey WindowInfo.id (state.windowInfos urgentWindows)).find?
          fun w => w.isFocused).isSome :=
        List.find?_isSome.mpr ⟨info, mem_sortByKey.mpr hinfo, hfocused⟩
      obtain ⟨first, hfirst⟩ := Option.isSome_iff_exists.mp hsome
      refine ⟨first, hfirst, h.one_last _ _ ?_ hw⟩
      exact hlast first (mem_sortByKey.mp (List.mem_of_find?_eq_some hfirst))
        (List.find?_some hfirst)

/-- What a focused workspace says is right where the answers agree about its monitor. -/
theorem focused_workspace_iff (answers : HyprlandAnswers) :
    (∀ ws ∈ (buildHyprlandSnapshot version lifecycle answers.toHyprlandStateTuple urgentWindows
        lastError).workspaces, ws.isFocused = true →
      (buildHyprlandSnapshot version lifecycle answers.toHyprlandStateTuple urgentWindows
          lastError).focusedWorkspaceId = some ws.id ∧
        ws.outputName = (buildHyprlandSnapshot version lifecycle answers.toHyprlandStateTuple
          urgentWindows lastError).focusedOutput ∧ ws.isActive = true) ↔
      ∀ m ws, answers.focusedMonitor = some m → ws ∈ answers.workspaces → 0 < ws.id →
        m.activeWorkspaceId = ws.id → ws.monitor ≠ "" ∧ ws.monitor = m.name := by
  have hname : ∀ (ws : HyprlandWorkspaceDto) (m : HyprlandMonitorDto),
      nonempty ws.monitor = some m.name ↔ ws.monitor ≠ "" ∧ ws.monitor = m.name := by
    intro ws m
    rw [nonempty]
    split_ifs with hempty <;> simp [hempty]
  constructor
  · intro h m ws hm hws hpos hshown
    have hmem : ws.info (answers.monitors.map HyprlandMonitorDto.activeWorkspaceId)
        (answers.focusedMonitor.bind fun m => standardId m.activeWorkspaceId) ∈
          answers.workspaceInfos :=
      List.mem_map_of_mem (List.mem_filter.mpr ⟨hws, decide_eq_true hpos⟩)
    have houtput := (h _ (mem_workspaces_of_mem hmem)
      ((isFocused_info_iff hpos).mpr ⟨m, hm, hshown⟩)).2.1
    have hfocused : (buildHyprlandSnapshot version lifecycle answers.toHyprlandStateTuple
        urgentWindows lastError).focusedOutput = some m.name :=
      congrArg (Option.map HyprlandMonitorDto.name) hm
    exact (hname ws m).mp (houtput.trans hfocused)
  · intro h info hinfo hfocused
    rcases mem_workspaces hinfo with hinfo | hnot
    · obtain ⟨ws, hws, rfl⟩ := List.mem_map.mp hinfo
      obtain ⟨hws, hpos⟩ := List.mem_filter.mp hws
      have hpos : 0 < ws.id := of_decide_eq_true hpos
      obtain ⟨m, hm, hshown⟩ := (isFocused_info_iff hpos).mp hfocused
      refine ⟨beq_iff_eq.mp hfocused, ?_, ?_⟩
      · have houtput : (buildHyprlandSnapshot version lifecycle answers.toHyprlandStateTuple
            urgentWindows lastError).focusedOutput = some m.name :=
          congrArg (Option.map HyprlandMonitorDto.name) hm
        rw [houtput]
        exact (hname ws m).mpr (h m ws hm hws hpos hshown)
      · refine List.contains_iff_mem.mpr (List.mem_map.mpr ⟨m, ?_, hshown⟩)
        exact List.mem_of_find?_eq_some hm
    · rw [hnot] at hfocused
      cases hfocused

/-! ### Another order -/

section

variable {other : HyprlandStateTuple} (h : answers.Reorders other)

include h

theorem focusedMonitor_eq : answers.focusedMonitor = other.focusedMonitor := by
  have hone : ∀ m ∈ other.monitors, ∀ m' ∈ other.monitors, m.focused = true →
      m'.focused = true → m = m' := fun m hm m' hm' =>
    answers.one_focused m (h.monitors.mem_iff.mpr hm) m' (h.monitors.mem_iff.mpr hm')
  have hfind : ∀ {l : List HyprlandMonitorDto},
      (∀ m ∈ l, ∀ m' ∈ l, m.focused = true → m'.focused = true → m = m') → ∀ m,
        l.find? (fun m => m.focused) = some m ↔ m ∈ l ∧ m.focused = true := by
    intro l hl m
    constructor
    · exact fun hm => ⟨List.mem_of_find?_eq_some hm, List.find?_some hm⟩
    · rintro ⟨hm, hfocused⟩
      have hsome : (l.find? fun m => m.focused).isSome := List.find?_isSome.mpr ⟨m, hm, hfocused⟩
      obtain ⟨m', hm'⟩ := Option.isSome_iff_exists.mp hsome
      rw [hm', hl m' (List.mem_of_find?_eq_some hm') m hm (List.find?_some hm') hfocused]
  refine Option.ext fun m => ?_
  rw [HyprlandStateTuple.focusedMonitor, HyprlandStateTuple.focusedMonitor,
    hfind answers.one_focused, hfind hone, h.monitors.mem_iff]

theorem windows_eq : sortByKey WindowInfo.id (answers.windowInfos urgentWindows) =
    sortByKey WindowInfo.id (other.windowInfos urgentWindows) := by
  have hnodup : ((answers.windowInfos urgentWindows).map WindowInfo.id).Nodup := by
    rw [map_id_windowInfos]
    exact answers.distinct_addresses
  refine sortByKey_eq_of_perm ?_ fun a ha b hb => List.inj_on_of_nodup_map hnodup ha hb
  rw [HyprlandStateTuple.windowInfos, HyprlandStateTuple.windowInfos, h.activeWindow]
  exact h.clients.filterMap _

theorem workspaceInfos_perm : answers.workspaceInfos.Perm other.workspaceInfos := by
  have hactive : ∀ id : ℤ, (answers.monitors.map HyprlandMonitorDto.activeWorkspaceId).contains id =
      (other.monitors.map HyprlandMonitorDto.activeWorkspaceId).contains id := fun id =>
    (h.monitors.map HyprlandMonitorDto.activeWorkspaceId).contains_eq
  rw [HyprlandStateTuple.workspaceInfos, HyprlandStateTuple.workspaceInfos, focusedMonitor_eq h]
  refine List.Perm.trans ((h.workspaces.filter _).map _) (List.Perm.of_eq ?_)
  exact List.map_congr_left fun ws _ => by simp only [HyprlandWorkspaceDto.info, hactive]

theorem workspaceList_eq : sortByKey WorkspaceInfo.id answers.workspaceInfos =
    sortByKey WorkspaceInfo.id other.workspaceInfos :=
  sortByKey_eq_of_perm (workspaceInfos_perm h) fun _ ha _ hb =>
    List.inj_on_of_nodup_map (nodup_workspaceInfos answers) ha hb

theorem outputs_eq :
    sortByKey CompositorOutput.name (answers.monitors.map HyprlandMonitorDto.output) =
      sortByKey CompositorOutput.name (other.monitors.map HyprlandMonitorDto.output) := by
  have hnodup : ((answers.monitors.map HyprlandMonitorDto.output).map
      CompositorOutput.name).Nodup := by
    rw [List.map_map]
    exact answers.distinct_monitors
  exact sortByKey_eq_of_perm (h.monitors.map _) fun a ha b hb =>
    List.inj_on_of_nodup_map hnodup ha hb

theorem specialWorkspaces_eq :
    sortByKey HyprlandSpecialWorkspace.id
        ((answers.workspaces.filter fun ws => ¬0 < ws.id).map HyprlandWorkspaceDto.special) =
      sortByKey HyprlandSpecialWorkspace.id
        ((other.workspaces.filter fun ws => ¬0 < ws.id).map HyprlandWorkspaceDto.special) := by
  have hnodup : (((answers.workspaces.filter fun ws => ¬0 < ws.id).map
      HyprlandWorkspaceDto.special).map HyprlandSpecialWorkspace.id).Nodup := by
    rw [List.map_map]
    exact answers.distinct_workspaces.sublist (List.filter_sublist.map _)
  exact sortByKey_eq_of_perm ((h.workspaces.filter _).map _) fun a ha b hb =>
    List.inj_on_of_nodup_map hnodup ha hb

/-- The snapshot is the same. -/
theorem buildHyprlandSnapshot_reorders :
    buildHyprlandSnapshot version lifecycle answers.toHyprlandStateTuple urgentWindows lastError =
      buildHyprlandSnapshot version lifecycle other urgentWindows lastError := by
  have hbuild : ∀ state : HyprlandStateTuple,
      buildHyprlandSnapshot version lifecycle state urgentWindows lastError =
        { version
          connection := lifecycle
          capabilities := hyprlandCapabilities lifecycle
          outputs := sortByKey CompositorOutput.name (state.monitors.map HyprlandMonitorDto.output)
          workspaces :=
            let standard := sortByKey WorkspaceInfo.id state.workspaceInfos
            if standard.all fun w => w.activeWindowId.isSome then
              standard ++ [syntheticWorkspace (state.focusedMonitor.map HyprlandMonitorDto.name)
                standard]
            else standard
          windows := sortByKey WindowInfo.id (state.windowInfos urgentWindows)
          focusedOutput := state.focusedMonitor.map HyprlandMonitorDto.name
          focusedWorkspaceId := state.focusedMonitor.bind fun m => standardId m.activeWorkspaceId
          focusedWindowId := state.activeWindow.or
            (((sortByKey WindowInfo.id (state.windowInfos urgentWindows)).find?
              fun w => w.isFocused).map WindowInfo.id)
          activeKeyboardLayout := none
          extras := .hyprland (sortByKey HyprlandSpecialWorkspace.id
            ((state.workspaces.filter fun ws => ¬0 < ws.id).map HyprlandWorkspaceDto.special))
          lastError } := fun _ => rfl
  rw [hbuild, hbuild, outputs_eq h, workspaceList_eq h, windows_eq h, focusedMonitor_eq h,
    specialWorkspaces_eq h, h.activeWindow]

end

/-! ### Main result -/

/-- **A snapshot is coherent exactly if the answers agree about the focus**, and the same whatever
the order of the answers. -/
theorem buildHyprlandSnapshot_coherent_iff (version : DomainVersion) (lifecycle : DomainLifecycle)
    (answers : HyprlandAnswers) (urgentWindows : Finset ℕ) (lastError : Option String) :
    ((buildHyprlandSnapshot version lifecycle answers.toHyprlandStateTuple urgentWindows
        lastError).Coherent ↔ answers.Agrees) ∧
      ∀ other, answers.Reorders other →
        buildHyprlandSnapshot version lifecycle answers.toHyprlandStateTuple urgentWindows
            lastError =
          buildHyprlandSnapshot version lifecycle other urgentWindows lastError := by
  refine ⟨⟨fun h => ?_, fun h => ?_⟩, fun other => buildHyprlandSnapshot_reorders⟩
  · have hmarks : ∀ w, answers.Marks w ↔ (buildHyprlandSnapshot version lifecycle
        answers.toHyprlandStateTuple urgentWindows lastError).focusedWindowId = some w := fun w =>
      marks_iff.symm.trans (h.focused_window w).symm
    have hactive : ∀ a, answers.activeWindow = some a → answers.Marks a := by
      intro a ha
      rw [hmarks, focusedWindowId_eq, ha, Option.some_or]
    refine ⟨fun w w' hw hw' => ?_, fun w a hw ha => ?_, fun a ha => ?_,
      (focused_workspace_iff answers).mp h.focused_workspace⟩
    · exact Option.some.inj (((hmarks w).mp (.inl hw)).symm.trans ((hmarks w').mp (.inl hw')))
    · exact Option.some.inj (((hmarks w).mp (.inl hw)).symm.trans ((hmarks a).mp (hactive a ha)))
    · rcases hactive a ha with ⟨c, hc, -, haddress⟩ | ⟨-, hlisted⟩
      · exact List.mem_filterMap.mpr ⟨c, hc, haddress⟩
      · exact hlisted
  · have hmarks := @focusedWindowId_of_agrees version lifecycle answers.toHyprlandStateTuple
      urgentWindows lastError h
    have hworkspace : ∀ ws ∈ (buildHyprlandSnapshot version lifecycle answers.toHyprlandStateTuple
        urgentWindows lastError).workspaces, ws.isFocused = true → _ :=
      (focused_workspace_iff answers).mpr h.on_monitor
    refine ⟨?_, workspaces_ascending answers, fun w hw w' hw' hf hf' => ?_,
      fun w => (hmarks w).trans marks_iff.symm, fun ws hws ws' hws' hf hf' => ?_, hworkspace,
      exists_empty_workspace⟩
    · refine pairwise_lt_of_nodup ?_
      have hnodup := answers.distinct_addresses
      rwa [← map_id_windowInfos] at hnodup
    · have hw := (hmarks w.id).mpr (marks_iff.mp ⟨w, hw, hf, rfl⟩)
      have hw' := (hmarks w'.id).mpr (marks_iff.mp ⟨w', hw', hf', rfl⟩)
      exact Option.some.inj (hw.symm.trans hw')
    · exact Option.some.inj ((hworkspace ws hws hf).1.symm.trans (hworkspace ws' hws' hf').1)

/-- Two windows, of which the second is the active one; the history of neither is told. -/
def twoWindows : HyprlandAnswers where
  clients := [{ address := "0x1" }, { address := "0x2" }]
  workspaces := []
  monitors := []
  activeWindow := some 2
  distinct_addresses := by decide +kernel
  nonzero_addresses := by decide +kernel
  distinct_workspaces := List.nodup_nil
  distinct_monitors := List.nodup_nil
  one_focused m h := by cases h

/-- Both are marked focused. -/
theorem not_coherent_twoWindows :
    ¬(buildHyprlandSnapshot .zero .ready twoWindows.toHyprlandStateTuple ∅ none).Coherent := by
  intro h
  have hfirst : twoWindows.IsLastFocused 1 :=
    ⟨{ address := "0x1" }, by simp [twoWindows], rfl, by decide +kernel⟩
  have hsecond : twoWindows.IsLastFocused 2 :=
    ⟨{ address := "0x2" }, by simp [twoWindows], rfl, by decide +kernel⟩
  obtain ⟨w, hw, hf, hid⟩ := marks_iff.mpr (.inl hfirst)
  obtain ⟨w', hw', hf', hid'⟩ := marks_iff.mpr (.inl hsecond)
  have hids := h.one_window w hw w' hw' hf hf'
  rw [hid, hid'] at hids
  cases hids

end Shilpo.Compositor
