import Mathlib

/-!
# Cards of the bar

`desktop/shilpo/src/shell/bar/cards/model.rs`: a card hangs from a widget of the bar, its source.
It is shown in one of two channels: a card that was clicked stays (persistent), one that the
pointer has called goes with it (preview). `CardState::reduce` takes the requests of the shell,
one after the other, and gives out what the shell has to do.

A request is reduced in parts; each part has a state to begin with, and what it gives out comes
after what was given out before (`andThen`). Bounds are compared and kept, and nothing else.
-/

namespace Shilpo.Cards

/-! ### Sources -/

/-- Who provides a card. -/
structure CardOwnerId where
  text : String
  deriving DecidableEq

/-- A widget that has a card. -/
structure CardSourceId where
  owner : CardOwnerId
  instanceId : String
  contentKey : Option String
  deriving DecidableEq

/-- The source is one of a group of sources. -/
def CardSourceId.belongsTo (source : CardSourceId) (owner : CardOwnerId) (instanceId : String) :
    Bool :=
  source.owner = owner && source.instanceId = instanceId

/-- A rectangle on a display. -/
structure Bounds where
  x : ℚ
  y : ℚ
  width : ℚ
  height : ℚ
  deriving DecidableEq

abbrev DisplayId : Type := ℕ

inductive CardChannel where
  | persistent
  | preview
  deriving DecidableEq

/-- Why a channel is closed. -/
inductive CardDismissReason where
  | sourceToggle
  | escape
  | focusLost
  | outsideClick
  | overviewOpened
  | barClosed
  | displayRemoved
  | shutdown
  | ownerRemoved
  | sourceDisappeared
  | explicit
  deriving DecidableEq

/-- The focus goes back when the card has been closed for this reason. -/
def CardDismissReason.restoresFocus : CardDismissReason → Bool
  | .focusLost | .overviewOpened => false
  | _ => true

/-! ### Requests and effects -/

/-- What the shell tells. -/
inductive CardRequest where
  | sourceEnter (source : CardSourceId)
  | sourceLeave (source : CardSourceId)
  | sourceGroupLeave (owner : CardOwnerId) (instanceId : String)
  | sourceGroupEnter (owner : CardOwnerId) (instanceId : String)
  | previewEnter (source : CardSourceId)
  | previewLeave (source : CardSourceId)
  | persistentToggle (source : CardSourceId)
  | persistentToggleAt (source : CardSourceId) (bounds : Bounds) (displayId : DisplayId)
  | anchorUpdate (source : CardSourceId) (bounds : Bounds) (displayId : DisplayId)
  | anchorRemoved (source : CardSourceId)
  | placementUpdated (source : CardSourceId) (channel : CardChannel) (bounds : Bounds)
    (displayId : DisplayId)
  | reposition (source : CardSourceId)
  | dismiss (channel : CardChannel) (reason : CardDismissReason)
  | displayRemoved (displayId : DisplayId)
  | ownerRemoved (owner : CardOwnerId)
  | overviewOpened
  | barClosed
  | shutdown
  | previewOpenTimer (generation : ℕ)
  | previewCloseTimer (generation : ℕ)
  | closeAnimationFinished (channel : CardChannel) (generation : ℕ)

inductive TimerKind where
  | previewOpen
  | previewClose
  deriving DecidableEq

inductive DiagnosticKind where
  | channelOpened
  | channelClosed
  | timerStarted
  | timerStale
  | focusCaptured
  | focusRestored
  deriving DecidableEq

structure CardDiagnostic where
  kind : DiagnosticKind
  source : Option CardSourceId
  channel : Option CardChannel
  generation : ℕ
  deriving DecidableEq

/-- What the shell has to do. -/
inductive CardEffect where
  | openChannel (channel : CardChannel) (source : CardSourceId) (generation : ℕ)
  | closeChannel (channel : CardChannel) (reason : CardDismissReason)
    (displayId : Option DisplayId) (generation : ℕ) (source : Option CardSourceId)
  | repositionChannel (channel : CardChannel) (source : CardSourceId)
  | retargetChannel (channel : CardChannel) (source : CardSourceId) (generation : ℕ)
  | startTimer (kind : TimerKind) (generation : ℕ)
  | cancelTimers (kind : TimerKind)
  | captureFocus
  | restoreFocus
  | updateBarHold (hold : Bool)
  | diagnostic (diagnostic : CardDiagnostic)
  deriving DecidableEq

/-! ### The state -/

inductive ChannelLifecycle where
  | closed
  | opened
  | closing
  deriving DecidableEq

/-- What is known of a channel. -/
structure ChannelSlot where
  source : Option CardSourceId
  lifecycle : ChannelLifecycle
  generation : ℕ
  displayId : Option DisplayId
  anchorBounds : Option Bounds
  cardBounds : Option Bounds
  pendingOpenGeneration : Option ℕ
  pendingOpenSource : Option CardSourceId
  pendingCloseGeneration : Option ℕ
  restoreFocusAfterClose : Bool

namespace ChannelSlot

/-- A channel that shows nothing. -/
def empty : ChannelSlot := ⟨none, .closed, 0, none, none, none, none, none, none, false⟩

def isOpen (slot : ChannelSlot) : Bool := slot.lifecycle = .opened

def isClosed (slot : ChannelSlot) : Bool := slot.lifecycle = .closed

def holdsVisibility (slot : ChannelSlot) : Bool := slot.lifecycle ≠ .closed

/-- The slot is where its source is, if that is known. -/
def anchoredAt (slot : ChannelSlot) : Option (Bounds × DisplayId) → ChannelSlot
  | some (bounds, displayId) =>
    { slot with anchorBounds := some bounds, displayId := some displayId }
  | none => slot

/-- The slot shows a source. -/
def shows (slot : ChannelSlot) (source : CardSourceId) (generation : ℕ) : ChannelSlot :=
  { slot with source := some source, lifecycle := .opened, generation }

/-- The slot is emptied before another source takes it. -/
def replaced (slot : ChannelSlot) : ChannelSlot :=
  { slot with
    lifecycle := .closed, source := none, displayId := none, anchorBounds := none,
    cardBounds := none }

/-- The slot has closed. -/
def finished (slot : ChannelSlot) : ChannelSlot :=
  { slot with
    source := none, lifecycle := .closed, generation := 0, displayId := none,
    anchorBounds := none, cardBounds := none, restoreFocusAfterClose := false }

end ChannelSlot

/-- The state of both channels. -/
structure CardState where
  persistent : ChannelSlot
  preview : ChannelSlot
  /-- Where the sources are, as `AnchorUpdate` has said. -/
  anchors : CardSourceId → Option (Bounds × DisplayId)
  focusCaptured : Bool
  barVisibilityHold : Bool
  generationCounter : ℕ

/-- The state that is reached, and what has been given out on the way. -/
structure Reduction where
  state : CardState
  effects : List CardEffect

/-- A further part of a request. -/
def Reduction.andThen (reduction : Reduction) (part : CardState → Reduction) : Reduction :=
  ⟨(part reduction.state).state, reduction.effects ++ (part reduction.state).effects⟩

namespace CardState

/-- Nothing is shown. -/
def initial : CardState := ⟨.empty, .empty, fun _ => none, false, false, 0⟩

/-- The slot of a channel. -/
def slot (state : CardState) : CardChannel → ChannelSlot
  | .persistent => state.persistent
  | .preview => state.preview

variable (state : CardState)

/-- The next generation is the counter after this. -/
def nextGeneration : CardState :=
  { state with generationCounter := (state.generationCounter + 1) % 2 ^ 64 }

/-- Effects are given out, and nothing is changed. -/
def emit (effects : List CardEffect) : Reduction := ⟨state, effects⟩

/-- The bar is to be seen while a channel is not closed, or the preview is going to open. -/
def holds : Bool :=
  state.persistent.holdsVisibility || state.preview.holdsVisibility ||
    state.preview.pendingOpenGeneration.isSome

def updateHold : Reduction :=
  if state.holds ≠ state.barVisibilityHold then
    ⟨{ state with barVisibilityHold := state.holds }, [.updateBarHold state.holds]⟩
  else state.emit []

/-! ### Timers of the preview -/

/-- No preview is going to open. -/
def cancelOpen : Reduction where
  state :=
    { state with
      preview := { state.preview with pendingOpenGeneration := none, pendingOpenSource := none } }
  effects := [.cancelTimers .previewOpen]

/-- No preview is going to open; the timer is cancelled, if there was one. -/
def takeOpen : Reduction where
  state := state.cancelOpen.state
  effects := if state.preview.pendingOpenGeneration.isSome then [.cancelTimers .previewOpen] else []

/-- The preview is not going to close; the timer is cancelled, if there was one. -/
def takeClose : Reduction where
  state := { state with preview := { state.preview with pendingCloseGeneration := none } }
  effects :=
    if state.preview.pendingCloseGeneration.isSome then [.cancelTimers .previewClose] else []

/-- The preview is going to open for a source. -/
def scheduleOpen (source : CardSourceId) : Reduction :=
  let state := state.nextGeneration
  let tok := state.generationCounter
  (Reduction.mk
    { state with
      preview :=
        { state.preview with
          pendingOpenGeneration := some tok, pendingOpenSource := some source,
          pendingCloseGeneration := none } }
    [.cancelTimers .previewClose, .startTimer .previewOpen tok]).andThen fun state =>
      state.updateHold.andThen (·.emit
        [.diagnostic ⟨.timerStarted, some source, some .preview, tok⟩])

/-- The preview is going to close. -/
def scheduleClose : Reduction :=
  let state := state.nextGeneration
  ⟨{ state with
     preview := { state.preview with pendingCloseGeneration := some state.generationCounter } },
    [.startTimer .previewClose state.generationCounter]⟩

/-- The timer is not the one that is waited for. -/
def staleTimer (source : Option CardSourceId) (generation : ℕ) : Reduction :=
  state.emit [.diagnostic ⟨.timerStale, source, some .preview, generation⟩]

/-! ### Opening -/

/-- The preview goes over to another source. -/
def retarget (source : CardSourceId) : Reduction :=
  let state := state.nextGeneration
  ⟨{ state with
     preview := ({ state.preview with
       source := some source, generation := state.generationCounter,
       cardBounds := none } : ChannelSlot).anchoredAt (state.anchors source) },
    [.retargetChannel .preview source state.generationCounter]⟩

/-- The channel has been opened. -/
def announceOpened (channel : CardChannel) (source : CardSourceId) (generation : ℕ) : Reduction :=
  state.updateHold.andThen (·.emit
    [.diagnostic ⟨.channelOpened, some source, some channel, generation⟩])

/-- The preview that is open gives way to another one. -/
def replacePreview (source : CardSourceId) : Reduction :=
  if state.preview.isOpen && state.preview.source ≠ some source then
    ⟨{ state with preview := state.preview.replaced },
      [.closeChannel .preview .explicit state.preview.displayId state.preview.generation
        state.preview.source]⟩
  else state.emit []

/-- The preview of a source is shown. -/
def showPreview (source : CardSourceId) : Reduction :=
  let state := state.nextGeneration
  let tok := state.generationCounter
  (Reduction.mk
    { state with preview := (state.preview.shows source tok).anchoredAt (state.anchors source) }
    [.openChannel .preview source tok]).andThen (·.announceOpened .preview source tok)

/-- The persistent card that is open gives way to another one. -/
def replacePersistent : Reduction :=
  if state.persistent.isOpen then
    ⟨{ state with persistent := state.persistent.replaced },
      [.closeChannel .persistent .sourceToggle state.persistent.displayId
        state.persistent.generation state.persistent.source,
       .diagnostic ⟨.channelClosed, none, some .persistent, state.persistent.generation⟩]⟩
  else state.emit []

/-- The card has the focus; where it was is kept for later. -/
def captureFocus (source : CardSourceId) : Reduction :=
  if state.focusCaptured then state.emit []
  else
    ⟨{ state with focusCaptured := true },
      [.captureFocus,
       .diagnostic ⟨.focusCaptured, some source, some .persistent, state.generationCounter⟩]⟩

/-- The persistent card of a source is shown. -/
def showPersistent (source : CardSourceId) : Reduction :=
  let state := state.nextGeneration
  let tok := state.generationCounter
  (Reduction.mk
    { state with
      persistent := ({ state.persistent with restoreFocusAfterClose := false }.shows source
        tok).anchoredAt (state.anchors source) }
    [.openChannel .persistent source tok]).andThen (·.announceOpened .persistent source tok)

/-- The persistent card of a source opens. -/
def openPersistent (source : CardSourceId) : Reduction :=
  (state.replacePersistent.andThen (·.captureFocus source)).andThen (·.showPersistent source)

/-! ### Closing -/

/-- The persistent card begins to close. -/
def closePersistent (reason : CardDismissReason) : Reduction :=
  if !state.persistent.isOpen then state.emit []
  else
    ⟨{ state with
       persistent :=
        { state.persistent with
          lifecycle := .closing, restoreFocusAfterClose := reason.restoresFocus } },
      [.closeChannel .persistent reason state.persistent.displayId state.persistent.generation
        state.persistent.source]⟩

/-- The preview that is to be seen begins to close. -/
def closeVisiblePreview (reason : CardDismissReason) : Reduction :=
  (if state.preview.isOpen then
    ⟨{ state with preview := { state.preview with lifecycle := .closing } },
      [.closeChannel .preview reason state.preview.displayId state.preview.generation
        state.preview.source]⟩
  else state.emit []).andThen (·.updateHold)

/-- The preview begins to close, and none is going to open. -/
def closePreview (reason : CardDismissReason) : Reduction :=
  if state.preview.isClosed && state.preview.pendingOpenGeneration.isNone then state.emit []
  else (state.takeOpen.andThen (·.takeClose)).andThen (·.closeVisiblePreview reason)

/-- Both channels begin to close. -/
def closeAll (reason : CardDismissReason) : Reduction :=
  (state.closePersistent reason).andThen (·.closePreview reason)

/-- The focus goes back, or stays where it has gone. -/
def releaseFocus (slot : ChannelSlot) (generation : ℕ) : Reduction :=
  if state.focusCaptured then
    ⟨{ state with focusCaptured := false },
      if slot.restoreFocusAfterClose then
        [.restoreFocus,
         .diagnostic ⟨.focusRestored, slot.source, some .persistent, generation⟩]
      else []⟩
  else state.emit []

/-- The channel has closed. -/
def announceClosed (channel : CardChannel) (source : Option CardSourceId) (generation : ℕ) :
    Reduction :=
  state.updateHold.andThen (·.emit [.diagnostic ⟨.channelClosed, source, some channel, generation⟩])

/-- The slot of a channel is another one. -/
def withSlot (slot : ChannelSlot) : CardChannel → CardState
  | .persistent => { state with persistent := slot }
  | .preview => { state with preview := slot }

/-- The animation of a channel that closes has come to its end. -/
def finishClose (channel : CardChannel) (generation : ℕ) : Reduction :=
  let slot := state.slot channel
  if slot.lifecycle ≠ .closing || slot.generation ≠ generation then state.emit []
  else
    let state := state.withSlot slot.finished channel
    (if channel = .persistent then state.releaseFocus slot generation
      else state.emit []).andThen (·.announceClosed channel slot.source generation)

/-! ### Anchors -/

/-- A slot of the source is where the source is. -/
def reanchor (channel : CardChannel) (source : CardSourceId) (bounds : Bounds)
    (displayId : DisplayId) (isAnchored : Bool) : Reduction :=
  let slot := state.slot channel
  if isAnchored then
    ⟨state.withSlot (slot.anchoredAt (some (bounds, displayId))) channel,
      if (slot.anchorBounds ≠ some bounds || slot.displayId ≠ some displayId) && slot.isOpen then
        [.repositionChannel channel source]
      else []⟩
  else state.emit []

/-- Where a source is now. -/
def updateAnchor (source : CardSourceId) (bounds : Bounds) (displayId : DisplayId) : Reduction :=
  let state :=
    { state with anchors := Function.update state.anchors source (some (bounds, displayId)) }
  (state.reanchor .persistent source bounds displayId
    (state.persistent.source = some source)).andThen fun state =>
      state.reanchor .preview source bounds displayId
        (state.preview.source = some source || state.preview.pendingOpenSource = some source)

/-- The anchors of some sources are forgotten. -/
def forget (removed : CardSourceId → Bounds × DisplayId → Bool) : CardState :=
  { state with
    anchors := fun source => (state.anchors source).filter fun anchor => !removed source anchor }

/-- The channels begin to close that show what has been removed. -/
def closeRemoved (persistent preview : CardState → Bool) (reason : CardDismissReason) : Reduction :=
  (if persistent state then state.closePersistent reason else state.emit []).andThen fun state =>
    if preview state then state.closePreview reason else state.emit []

/-! ### Requests -/

/-- A persistent card of this source is open. -/
def persistentBlocks (source : CardSourceId) : Bool :=
  state.persistent.source = some source && state.persistent.isOpen

/-- The pointer has come to a source. -/
def enter (source : CardSourceId) : Reduction :=
  if state.persistentBlocks source then state.emit []
  else if state.preview.isOpen then
    if state.preview.source = some source then state.takeClose
    else (state.takeOpen.andThen (·.takeClose)).andThen (·.retarget source)
  else if state.preview.isClosed || state.preview.source ≠ some source then
    if state.preview.pendingOpenSource = some source &&
        state.preview.pendingOpenGeneration.isSome then
      state.emit []
    else state.scheduleOpen source
  else state.emit []

/-- The preview that is to be seen is going to close, if it is of one of these sources. -/
def leave (isLeft : CardSourceId → Bool) : Reduction :=
  if state.preview.source.any isLeft && state.preview.isOpen then state.scheduleClose
  else state.emit []

/-- The persistent card of a source opens, or begins to close; what is done before it opens is
`prepare`. -/
def toggle (source : CardSourceId) (prepare : CardState → CardState) : Reduction :=
  if state.persistent.source = some source then
    if state.persistent.isOpen then state.closePersistent .sourceToggle else state.emit []
  else (prepare state).openPersistent source

/-- The time has come to open the preview. -/
def openTimer (generation : ℕ) : Reduction :=
  if state.preview.pendingOpenGeneration ≠ some generation then
    state.staleTimer state.preview.source generation
  else
    let pending := state.preview.pendingOpenSource
    let state := state.cancelOpen.state
    match pending with
    | none => state.staleTimer none generation
    | some source =>
      if state.persistentBlocks source then state.emit []
      else (state.replacePreview source).andThen (·.showPreview source)

/-- The time has come to close the preview. -/
def closeTimer (generation : ℕ) : Reduction :=
  if state.preview.pendingCloseGeneration ≠ some generation then
    state.staleTimer state.preview.source generation
  else state.takeClose.state.closeVisiblePreview .focusLost

/-- One request. -/
def reduce : CardRequest → Reduction
  | .sourceEnter source => state.enter source
  | .sourceLeave source =>
    (if state.preview.pendingOpenGeneration.isSome &&
        state.preview.pendingOpenSource = some source then
      state.cancelOpen.andThen (·.updateHold)
    else state.emit []).andThen (·.leave (· = source))
  | .sourceGroupLeave owner instanceId =>
    (if state.preview.pendingOpenSource.any (·.belongsTo owner instanceId) then
      state.cancelOpen.andThen (·.updateHold)
    else state.emit []).andThen (·.leave (·.belongsTo owner instanceId))
  | .sourceGroupEnter owner instanceId =>
    if state.preview.source.any (·.belongsTo owner instanceId) then state.takeClose
    else state.emit []
  | .previewEnter source =>
    (if state.preview.source = some source then state.takeClose else state.emit []).andThen
      fun state =>
        if state.preview.pendingOpenSource = some source &&
            state.preview.pendingOpenGeneration.isSome then
          state.cancelOpen.andThen (·.updateHold)
        else state.emit []
  | .previewLeave source => state.leave (· = source)
  | .persistentToggle source => state.toggle source id
  | .persistentToggleAt source bounds displayId =>
    state.toggle source fun state =>
      { state with persistent := state.persistent.anchoredAt (some (bounds, displayId)) }
  | .anchorUpdate source bounds displayId => state.updateAnchor source bounds displayId
  | .anchorRemoved source =>
    (state.forget fun removed _ => removed = source).closeRemoved
      (·.persistent.source = some source)
      (fun state => state.preview.source = some source ||
        state.preview.pendingOpenSource = some source) .sourceDisappeared
  | .placementUpdated source channel bounds displayId =>
    let slot := state.slot channel
    if slot.source = some source && slot.isOpen then
      (state.withSlot { slot with cardBounds := some bounds, displayId := some displayId }
        channel).emit []
    else state.emit []
  | .reposition source =>
    if state.persistent.source = some source && state.persistent.isOpen then
      state.emit [.repositionChannel .persistent source]
    else state.emit []
  | .dismiss .persistent reason => state.closePersistent reason
  | .dismiss .preview reason => state.closePreview reason
  | .displayRemoved displayId =>
    (state.forget fun _ anchor => anchor.2 = displayId).closeRemoved
      (·.persistent.displayId = some displayId) (·.preview.displayId = some displayId)
      .displayRemoved
  | .ownerRemoved owner =>
    (state.forget fun source _ => source.owner = owner).closeRemoved
      (·.persistent.source.map (·.owner) = some owner)
      (fun state => state.preview.source.map (·.owner) = some owner ||
        state.preview.pendingOpenSource.map (·.owner) = some owner) .ownerRemoved
  | .overviewOpened => state.closeAll .overviewOpened
  | .barClosed => state.closeAll .barClosed
  | .shutdown => state.closeAll .shutdown
  | .previewOpenTimer generation => state.openTimer generation
  | .previewCloseTimer generation => state.closeTimer generation
  | .closeAnimationFinished channel generation => state.finishClose channel generation

/-- The state after a request. -/
def next (request : CardRequest) : CardState := (state.reduce request).state

/-- What a request gives out. -/
def effects (request : CardRequest) : List CardEffect := (state.reduce request).effects

end CardState

end Shilpo.Cards
