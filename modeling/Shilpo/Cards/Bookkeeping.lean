import Shilpo.Cards.Coherence

/-!
# The state keeps its books

The fields of a `CardState` hang together in every state of a run, and the bar has been told what
the state says (`bookkeeping`).
-/

namespace Shilpo.Cards

open Theory

namespace ChannelSlot

variable (slot : ChannelSlot) (anchor : Option (Bounds × DisplayId))

@[simp] theorem anchoredAt_lifecycle : (slot.anchoredAt anchor).lifecycle = slot.lifecycle := by
  cases anchor <;> rfl

@[simp] theorem anchoredAt_source : (slot.anchoredAt anchor).source = slot.source := by
  cases anchor <;> rfl

@[simp] theorem anchoredAt_generation : (slot.anchoredAt anchor).generation = slot.generation := by
  cases anchor <;> rfl

@[simp] theorem anchoredAt_pendingOpenGeneration :
    (slot.anchoredAt anchor).pendingOpenGeneration = slot.pendingOpenGeneration := by
  cases anchor <;> rfl

@[simp] theorem anchoredAt_pendingOpenSource :
    (slot.anchoredAt anchor).pendingOpenSource = slot.pendingOpenSource := by
  cases anchor <;> rfl

@[simp] theorem anchoredAt_pendingCloseGeneration :
    (slot.anchoredAt anchor).pendingCloseGeneration = slot.pendingCloseGeneration := by
  cases anchor <;> rfl

@[simp] theorem anchoredAt_restoreFocusAfterClose :
    (slot.anchoredAt anchor).restoreFocusAfterClose = slot.restoreFocusAfterClose := by
  cases anchor <;> rfl

end ChannelSlot

namespace CardState

variable {state : CardState}

variable {left : CardState}

/-- Only the slots and the focus are asked whether the fields hang together. -/
theorem Sound.of_slots (hfocus : left.focusCaptured = true ↔
      left.persistent.lifecycle ≠ .closed)
    (hpersistent : left.persistent.source.isSome ↔ left.persistent.lifecycle ≠ .closed)
    (hpreview : left.preview.source.isSome ↔ left.preview.lifecycle ≠ .closed)
    (hpending : left.preview.pendingOpenGeneration.isSome ↔ left.preview.pendingOpenSource.isSome)
    (hopen : left.preview.lifecycle = .opened → left.preview.pendingOpenGeneration = none)
    (hclose : left.preview.pendingCloseGeneration.isSome → left.preview.lifecycle = .opened) :
    left.Sound := by
  refine ⟨hfocus, ?_, hpending, hopen, hclose⟩
  rintro (_ | _)
  · exact hpersistent
  · exact hpreview

/-- Only the preview is another one. -/
theorem Sound.of_preview (h : state.Sound) (hfocus : left.focusCaptured = state.focusCaptured)
    (hpersistent : left.persistent = state.persistent)
    (hpreview : left.preview.source.isSome ↔ left.preview.lifecycle ≠ .closed)
    (hpending : left.preview.pendingOpenGeneration.isSome ↔ left.preview.pendingOpenSource.isSome)
    (hopen : left.preview.lifecycle = .opened → left.preview.pendingOpenGeneration = none)
    (hclose : left.preview.pendingCloseGeneration.isSome → left.preview.lifecycle = .opened) :
    left.Sound := by
  refine .of_slots ?_ ?_ hpreview hpending hopen hclose
  · rw [hfocus, hpersistent]
    exact h.focus
  · rw [hpersistent]
    exact h.source .persistent

/-- Only the persistent slot is another one. -/
theorem Sound.of_persistent (h : state.Sound) (hpreview : left.preview = state.preview)
    (hfocus : left.focusCaptured = true ↔ left.persistent.lifecycle ≠ .closed)
    (hpersistent : left.persistent.source.isSome ↔ left.persistent.lifecycle ≠ .closed) :
    left.Sound := by
  refine .of_slots hfocus hpersistent ?_ ?_ ?_ ?_ <;> rw [hpreview]
  · exact h.source .preview
  · exact h.pending
  · exact h.pendingOpen
  · exact h.pendingClose

/-- Neither the lifecycles nor the preview's timer are others. -/
theorem Coherent.of_same (h : state.Coherent) (hsound : left.Sound)
    (hhold : left.barVisibilityHold = state.barVisibilityHold)
    (hpersistent : left.persistent.lifecycle ≠ .closed ↔ state.persistent.lifecycle ≠ .closed)
    (hpreview : left.preview.lifecycle ≠ .closed ↔ state.preview.lifecycle ≠ .closed)
    (hpending : left.preview.pendingOpenGeneration.isSome ↔
      state.preview.pendingOpenGeneration.isSome) : left.Coherent := by
  refine ⟨hsound, ?_⟩
  rw [hhold, hpersistent, hpreview, hpending]
  exact h.hold

/-! ### The states that are reached -/

section

variable (state)

variable (source : CardSourceId)

theorem scheduleOpen_state : (state.scheduleOpen source).state =
    ({ state.nextGeneration with
      preview :=
        { state.preview with
          pendingOpenGeneration := some state.nextGeneration.generationCounter,
          pendingOpenSource := some source, pendingCloseGeneration := none } } :
            CardState).updateHold.state := rfl

theorem showPreview_state : (state.showPreview source).state =
    ({ state.nextGeneration with
      preview := (state.preview.shows source state.nextGeneration.generationCounter).anchoredAt
        (state.anchors source) } : CardState).updateHold.state := rfl

/-- The persistent slot before the card is shown. -/
def vacated : ChannelSlot :=
  { if state.persistent.isOpen then state.persistent.replaced else state.persistent with
    restoreFocusAfterClose := false }

theorem openPersistent_state : (state.openPersistent source).state =
    ({ state.nextGeneration with
      persistent := (state.vacated.shows source state.nextGeneration.generationCounter).anchoredAt
        (state.anchors source),
      focusCaptured := true } : CardState).updateHold.state := by
  unfold openPersistent replacePersistent vacated
  cases hopen : state.persistent.isOpen <;> cases hfocus : state.focusCaptured <;>
    simp only [Reduction.andThen, emit, captureFocus, showPersistent, announceOpened, hfocus,
      nextGeneration, if_true, if_false, Bool.false_eq_true]

variable (reason : CardDismissReason)

theorem closePersistent_state : (state.closePersistent reason).state =
    if state.persistent.isOpen then
      { state with
        persistent :=
          { state.persistent with
            lifecycle := .closing, restoreFocusAfterClose := reason.restoresFocus } }
    else state := by
  unfold closePersistent
  cases state.persistent.isOpen <;> rfl

theorem closeVisiblePreview_state :
    (state.closeVisiblePreview reason).state =
      (if state.preview.isOpen then
        { state with preview := { state.preview with lifecycle := .closing } }
      else state : CardState).updateHold.state := by
  unfold closeVisiblePreview
  cases state.preview.isOpen <;> rfl

/-- The preview is neither going to open nor to close. -/
def untimed : CardState :=
  { state with
    preview :=
      { state.preview with
        pendingOpenGeneration := none, pendingOpenSource := none, pendingCloseGeneration := none } }

theorem closePreview_state : (state.closePreview reason).state =
    if state.preview.isClosed && state.preview.pendingOpenGeneration.isNone then state
    else (state.untimed.closeVisiblePreview reason).state := by
  unfold closePreview
  split_ifs <;> rfl

theorem closeRemoved_state (persistent preview : Bool) (reason : CardDismissReason) :
    (state.closeRemoved (fun _ => persistent) (fun _ => preview) reason).state =
      let closed := if persistent then (state.closePersistent reason).state else state
      if preview then (closed.closePreview reason).state else closed := by
  unfold closeRemoved Reduction.andThen
  cases persistent <;> cases preview <;> rfl

/-- The state when a channel has closed. -/
def released (channel : CardChannel) : CardState :=
  match channel with
  | .persistent => { state with persistent := state.persistent.finished, focusCaptured := false }
  | .preview => { state with preview := state.preview.finished }

theorem finishClose_state (channel : CardChannel) (generation : ℕ) :
    (state.finishClose channel generation).state =
      if (state.slot channel).lifecycle ≠ .closing || (state.slot channel).generation ≠ generation
      then state else (state.released channel).updateHold.state := by
  unfold finishClose
  dsimp only
  split_ifs with h hchannel
  · rfl
  · subst hchannel
    unfold releaseFocus
    cases hfocus : state.focusCaptured <;>
      simp only [Reduction.andThen, emit, announceClosed, withSlot, hfocus, released, slot,
        if_true, if_false, Bool.false_eq_true]
  · cases channel with
    | persistent => exact absurd rfl hchannel
    | preview => rfl

theorem reanchor_state (channel : CardChannel) (source : CardSourceId) (bounds : Bounds)
    (displayId : DisplayId) (isAnchored : Bool) :
    (state.reanchor channel source bounds displayId isAnchored).state =
      state.withSlot ((state.slot channel).anchoredAt
        (if isAnchored then some (bounds, displayId) else none)) channel := by
  unfold reanchor
  cases isAnchored <;> cases channel <;> rfl

theorem updateAnchor_state (bounds : Bounds) (displayId : DisplayId) :
    (state.updateAnchor source bounds displayId).state =
      { state with
        anchors := Function.update state.anchors source (some (bounds, displayId)),
        persistent := state.persistent.anchoredAt
          (if state.persistent.source = some source then some (bounds, displayId) else none),
        preview := state.preview.anchoredAt
          (if state.preview.source = some source ∨ state.preview.pendingOpenSource = some source
            then some (bounds, displayId) else none) } := by
  unfold updateAnchor Reduction.andThen
  simp only [reanchor_state, withSlot, slot, decide_eq_true_eq, Bool.or_eq_true]

end

/-! ### Each thing that a request can do -/

theorem Coherent.takeClose (h : state.Coherent) : state.takeClose.state.Coherent := by
  refine h.of_same (h.toSound.of_preview rfl rfl (h.source .preview) h.pending h.pendingOpen ?_)
    rfl Iff.rfl Iff.rfl Iff.rfl
  exact fun hsome => by cases hsome

theorem Sound.cancelOpen (h : state.Sound) : state.cancelOpen.state.Sound := by
  refine h.of_preview rfl rfl (h.source .preview) ?_ (fun _ => rfl) h.pendingClose
  simp [CardState.cancelOpen]

theorem Sound.untimed (h : state.Sound) : state.untimed.Sound := by
  refine h.of_preview rfl rfl (h.source .preview) ?_ (fun _ => rfl) ?_ <;>
    simp [CardState.untimed]

theorem Coherent.retarget (h : state.Coherent) (hopen : state.preview.lifecycle = .opened)
    (source : CardSourceId) : (state.retarget source).state.Coherent := by
  have hpending := h.pending
  have hnone := h.pendingOpen hopen
  have hclose := h.pendingClose
  refine h.of_same (h.toSound.of_preview rfl rfl ?_ ?_ ?_ ?_) rfl Iff.rfl ?_ ?_ <;>
    simp_all [CardState.retarget, nextGeneration]

theorem Sound.scheduleOpen (h : state.Sound) (hopen : state.preview.lifecycle ≠ .opened)
    (source : CardSourceId) : (state.scheduleOpen source).state.Coherent := by
  rw [scheduleOpen_state]
  refine Sound.coherent_updateHold (h.of_preview ?_ ?_ (h.source .preview) ?_ ?_ ?_)
  · rfl
  · rfl
  · exact ⟨fun _ => rfl, fun _ => rfl⟩
  · exact fun hopened => absurd hopened hopen
  · exact fun hsome => by cases hsome

theorem Sound.showPreview (h : state.Sound) (hpending : state.preview.pendingOpenGeneration = none)
    (source : CardSourceId) : (state.showPreview source).state.Coherent := by
  have hsource := h.pending
  rw [hpending] at hsource
  rw [showPreview_state]
  refine Sound.coherent_updateHold (h.of_preview ?_ ?_ ?_ ?_ ?_ ?_) <;>
    simp_all [ChannelSlot.shows, nextGeneration]

theorem Sound.openPersistent (h : state.Sound) (source : CardSourceId) :
    (state.openPersistent source).state.Coherent := by
  rw [openPersistent_state]
  refine Sound.coherent_updateHold (h.of_persistent ?_ ?_ ?_) <;>
    simp [ChannelSlot.shows, nextGeneration]

theorem Coherent.closePersistent (h : state.Coherent) (reason : CardDismissReason) :
    (state.closePersistent reason).state.Coherent := by
  rw [closePersistent_state]
  split_ifs with hopen
  · have hopened : state.persistent.lifecycle ≠ .closed := by
      intro hclosed
      simp [ChannelSlot.isOpen, hclosed] at hopen
    have hfocus := h.focus.mpr hopened
    have hsource := (h.source .persistent).mpr hopened
    refine h.of_same (h.toSound.of_persistent rfl ?_ ?_) rfl ?_ Iff.rfl Iff.rfl
    · simp [hfocus]
    · simpa [slot] using hsource
    · simpa using hopened
  · exact h

theorem Sound.closeVisiblePreview (h : state.Sound)
    (hclose : state.preview.pendingCloseGeneration = none) (reason : CardDismissReason) :
    (state.closeVisiblePreview reason).state.Coherent := by
  rw [closeVisiblePreview_state]
  refine Sound.coherent_updateHold ?_
  split_ifs with hopen
  · have hopened : state.preview.lifecycle ≠ .closed := by
      intro hclosed
      simp [ChannelSlot.isOpen, hclosed] at hopen
    have hsource := (h.source .preview).mpr hopened
    refine h.of_preview rfl rfl ?_ h.pending ?_ ?_
    · simpa [slot] using hsource
    · simp
    · simp [hclose]
  · exact h

theorem Coherent.closePreview (h : state.Coherent) (reason : CardDismissReason) :
    (state.closePreview reason).state.Coherent := by
  rw [closePreview_state]
  split_ifs
  · exact h
  · exact h.toSound.untimed.closeVisiblePreview rfl reason

theorem Coherent.closeRemoved (h : state.Coherent) (persistent preview : Bool)
    (reason : CardDismissReason) :
    (state.closeRemoved (fun _ => persistent) (fun _ => preview) reason).state.Coherent := by
  rw [closeRemoved_state]
  dsimp only
  split_ifs
  · exact (h.closePersistent reason).closePreview reason
  · exact h.closePreview reason
  · exact h.closePersistent reason
  · exact h

theorem Coherent.finishClose (h : state.Coherent) (channel : CardChannel) (generation : ℕ) :
    (state.finishClose channel generation).state.Coherent := by
  rw [finishClose_state]
  split_ifs with hstale
  · exact h
  · refine Sound.coherent_updateHold ?_
    cases channel with
    | persistent =>
      refine h.toSound.of_persistent rfl ?_ ?_ <;> simp [released, ChannelSlot.finished]
    | preview =>
      have hclosing : state.preview.lifecycle = .closing := by
        simp only [Bool.or_eq_true, decide_eq_true_eq, not_or, not_not] at hstale
        exact hstale.1
      have hclose := h.pendingClose
      have hpending := h.pending
      refine h.toSound.of_preview rfl rfl ?_ ?_ ?_ ?_ <;> simp_all [released, ChannelSlot.finished]

theorem Coherent.updateAnchor (h : state.Coherent) (source : CardSourceId) (bounds : Bounds)
    (displayId : DisplayId) : (state.updateAnchor source bounds displayId).state.Coherent := by
  rw [updateAnchor_state]
  refine h.of_same (.of_slots ?_ ?_ ?_ ?_ ?_ ?_) rfl ?_ ?_ ?_ <;>
    simp only [ChannelSlot.anchoredAt_lifecycle, ChannelSlot.anchoredAt_source,
      ChannelSlot.anchoredAt_pendingOpenGeneration, ChannelSlot.anchoredAt_pendingOpenSource,
      ChannelSlot.anchoredAt_pendingCloseGeneration]
  · exact h.focus
  · exact h.source .persistent
  · exact h.source .preview
  · exact h.pending
  · exact h.pendingOpen
  · exact h.pendingClose

/-- **What a request can do** keeps the fields together. -/
theorem Coherent.change {request : CardRequest} {reduction : Reduction} (h : state.Coherent)
    (hchange : state.Change request reduction) : reduction.state.Coherent := by
  cases hchange with
  | idle => exact h
  | timed _ _ generation counter hopen =>
    exact h.of_same (h.toSound.of_preview rfl rfl (h.source .preview) h.pending h.pendingOpen hopen)
      rfl Iff.rfl Iff.rfl Iff.rfl
  | unscheduled => exact h.toSound.cancelOpen.coherent_updateHold
  | scheduled source _ hopen => exact h.toSound.scheduleOpen hopen source
  | retargeted source _ hopen => exact h.takeClose.retarget hopen source
  | persistentOpened _ source anchor =>
    refine Sound.openPersistent (h.toSound.of_persistent ?_ ?_ ?_) source
    · rfl
    · rw [ChannelSlot.anchoredAt_lifecycle]
      exact h.focus
    · rw [ChannelSlot.anchoredAt_lifecycle, ChannelSlot.anchoredAt_source]
      exact h.source .persistent
  | closed _ anchors _ persistent preview reason =>
    have hanchors : ({ state with anchors } : CardState).Coherent :=
      ⟨.of_slots h.focus (h.source .persistent) (h.source .preview) h.pending h.pendingOpen
        h.pendingClose, h.hold⟩
    exact hanchors.closeRemoved persistent preview reason
  | previewClosed generation hgeneration =>
    exact h.takeClose.toSound.closeVisiblePreview rfl _
  | anchored source bounds displayId => exact h.updateAnchor source bounds displayId
  | placed source channel bounds displayId =>
    cases channel with
    | persistent => exact ⟨h.toSound.of_persistent rfl h.focus (h.source .persistent), h.hold⟩
    | preview =>
      exact ⟨h.toSound.of_preview rfl rfl (h.source .preview) h.pending h.pendingOpen
        h.pendingClose, h.hold⟩
  | previewOpened generation source hgeneration hsource =>
    exact h.toSound.cancelOpen.showPreview rfl source
  | finished channel generation => exact h.finishClose channel generation

theorem Coherent.next (h : state.Coherent) (request : CardRequest) : (state.next request).Coherent :=
  h.change (change_reduce h request)

/-- A timer that is not waited for, or the end of an animation that is not the last, changes
nothing. -/
structure IgnoresStale (state : CardState) : Prop where
  openTimer : ∀ generation, state.preview.pendingOpenGeneration ≠ some generation →
    state.next (.previewOpenTimer generation) = state
  closeTimer : ∀ generation, state.preview.pendingCloseGeneration ≠ some generation →
    state.next (.previewCloseTimer generation) = state
  closeAnimation : ∀ channel generation, (state.slot channel).generation ≠ generation →
    state.next (.closeAnimationFinished channel generation) = state

theorem ignoresStale (state : CardState) : state.IgnoresStale := by
  refine ⟨fun generation h => ?_, fun generation h => ?_, fun channel generation h => ?_⟩ <;>
    rw [CardState.next, reduce]
  · rw [openTimer, if_pos h]
    rfl
  · rw [closeTimer, if_pos h]
    rfl
  · rw [finishClose, if_pos (by simp [h])]
    rfl

end CardState

/-! ### Runs -/

/-- What the requests of a run give out. -/
def emitted (requests : List CardRequest) : List CardEffect :=
  expand CardState.next CardState.effects CardState.initial requests

theorem tells_run (state : CardState) (requests : List CardRequest) :
    Alternates state.barVisibilityHold
      (barHolds (expand CardState.next CardState.effects state requests))
      (run CardState.next state requests).barVisibilityHold := by
  induction requests generalizing state with
  | nil => rfl
  | cons request requests ih =>
    rw [expand, barHolds_append]
    exact alternates_append.mpr ⟨_, state.tells_reduce request, ih _⟩

/-- **The state keeps its books**: after every run its fields hang together, what the bar has been
told alternates and ends with what the state says, and what is stale changes nothing. -/
theorem bookkeeping (requests : List CardRequest) :
    let state := run CardState.next CardState.initial requests
    state.Coherent ∧ List.IsChain (· ≠ ·) (false :: barHolds (emitted requests)) ∧
      (barHolds (emitted requests)).getLastD false = state.barVisibilityHold ∧
      state.IgnoresStale := by
  have hcoherent : Preserved CardState.next CardState.Coherent := fun _ request h => h.next request
  have htells := tells_run CardState.initial requests
  exact ⟨hcoherent.holds CardState.coherent_initial requests, htells.isChain, htells.last,
    CardState.ignoresStale _⟩

end Shilpo.Cards
