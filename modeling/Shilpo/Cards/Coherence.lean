import Shilpo.Cards.State
import Shilpo.Theory.Runs

/-!
# What a request can do

The fields of a `CardState` hang together (`Coherent`), and in a state where they do, a request
does one of twelve things (`Change`, `change_reduce`); what is to be said of all requests is said
of these. The effects that tell the bar to stay follow the state in every reduction, whatever the
state is (`alternates_reduce`).
-/

namespace Shilpo.Cards

open Theory

/-! ### The hold of the bar -/

/-- From `a`, each of the values differs from the one before it, and the last is `b`. -/
def Alternates : Bool → List Bool → Bool → Prop
  | a, [], b => a = b
  | a, value :: values, b => value ≠ a ∧ Alternates value values b

theorem alternates_append {a c : Bool} {values values' : List Bool} :
    Alternates a (values ++ values') c ↔ ∃ b, Alternates a values b ∧ Alternates b values' c := by
  induction values generalizing a with
  | nil => simp [Alternates]
  | cons value values ih => simp only [List.cons_append, Alternates, ih, and_assoc, exists_and_left]

theorem Alternates.last {a b : Bool} {values : List Bool} (h : Alternates a values b) :
    values.getLastD a = b := by
  induction values generalizing a with
  | nil => exact h
  | cons value values ih =>
    rw [List.getLastD_cons]
    exact ih h.2

theorem Alternates.isChain {a b : Bool} {values : List Bool} (h : Alternates a values b) :
    List.IsChain (· ≠ ·) (a :: values) := by
  induction values generalizing a with
  | nil => exact .singleton a
  | cons value values ih => exact .cons_cons (Ne.symm h.1) (ih h.2)

/-- What the bar is told. -/
def barHolds (effects : List CardEffect) : List Bool :=
  effects.filterMap fun
    | .updateBarHold hold => some hold
    | _ => none

theorem barHolds_append (effects effects' : List CardEffect) :
    barHolds (effects ++ effects') = barHolds effects ++ barHolds effects' := List.filterMap_append

/-- What a reduction tells the bar leads from what the state says to what it says then. -/
def Reduction.Tells (reduction : Reduction) (state : CardState) : Prop :=
  Alternates state.barVisibilityHold (barHolds reduction.effects)
    reduction.state.barVisibilityHold

namespace Reduction.Tells

variable {state : CardState}

theorem andThen {reduction : Reduction} {part : CardState → Reduction}
    (h : reduction.Tells state) (hpart : ∀ state, (part state).Tells state) :
    (reduction.andThen part).Tells state := by
  unfold Tells Reduction.andThen
  rw [barHolds_append]
  exact alternates_append.mpr ⟨_, h, hpart _⟩

/-- A part that leaves what the state says, and tells nothing. -/
theorem of_silent {reduction : Reduction}
    (hstate : reduction.state.barVisibilityHold = state.barVisibilityHold)
    (heffects : barHolds reduction.effects = []) : reduction.Tells state := by
  unfold Tells
  rw [heffects, hstate]
  rfl

theorem emit (state : CardState) {effects : List CardEffect} (h : barHolds effects = []) :
    (state.emit effects).Tells state := of_silent rfl h

end Reduction.Tells

namespace CardState

open Reduction

variable (state : CardState)

theorem tells_updateHold : state.updateHold.Tells state := by
  unfold updateHold
  split_ifs with h
  · exact ⟨h, rfl⟩
  · exact .emit state rfl

theorem tells_announceOpened (channel : CardChannel) (source : CardSourceId) (generation : ℕ) :
    (state.announceOpened channel source generation).Tells state :=
  state.tells_updateHold.andThen fun state => .emit state rfl

theorem tells_takeOpen : state.takeOpen.Tells state := by
  refine .of_silent rfl ?_
  unfold takeOpen
  split_ifs <;> rfl

theorem tells_takeClose : state.takeClose.Tells state := by
  refine .of_silent rfl ?_
  unfold takeClose
  split_ifs <;> rfl

theorem tells_cancelOpen : (state.cancelOpen.andThen (·.updateHold)).Tells state :=
  Tells.andThen (.of_silent rfl rfl) tells_updateHold

variable (source : CardSourceId)

theorem tells_scheduleOpen : (state.scheduleOpen source).Tells state :=
  Tells.andThen (.of_silent rfl rfl) fun state =>
    state.tells_updateHold.andThen fun state => .emit state rfl

theorem tells_showPreview : (state.showPreview source).Tells state :=
  Tells.andThen (.of_silent rfl rfl) fun state => state.tells_announceOpened _ _ _

theorem tells_openPersistent : (state.openPersistent source).Tells state := by
  refine Tells.andThen (Tells.andThen ?_ fun state => ?_) fun state => ?_
  · unfold replacePersistent
    split_ifs
    · exact .of_silent rfl rfl
    · exact .emit state rfl
  · unfold captureFocus
    split_ifs
    · exact .emit state rfl
    · exact .of_silent rfl rfl
  · exact Tells.andThen (.of_silent rfl rfl) fun state => state.tells_announceOpened _ _ _

variable (reason : CardDismissReason)

theorem tells_closePersistent :
    (state.closePersistent reason).Tells state := by
  unfold closePersistent
  split_ifs
  · exact .emit state rfl
  · exact .of_silent rfl rfl

theorem tells_closeVisiblePreview :
    (state.closeVisiblePreview reason).Tells state := by
  refine Tells.andThen ?_ tells_updateHold
  split_ifs
  · exact .of_silent rfl rfl
  · exact .emit state rfl

theorem tells_closePreview :
    (state.closePreview reason).Tells state := by
  unfold closePreview
  split_ifs
  · exact .emit state rfl
  · exact (state.tells_takeOpen.andThen tells_takeClose).andThen (tells_closeVisiblePreview · reason)

theorem tells_closeRemoved (persistent preview : CardState → Bool) (reason : CardDismissReason) :
    (state.closeRemoved persistent preview reason).Tells state := by
  refine Tells.andThen ?_ fun state => ?_
  · split_ifs
    · exact state.tells_closePersistent reason
    · exact .emit state rfl
  · split_ifs
    · exact state.tells_closePreview reason
    · exact .emit state rfl

theorem tells_of_forget {state : CardState} {removed : CardSourceId → Bounds × DisplayId → Bool}
    {reduction : Reduction} (h : reduction.Tells (state.forget removed)) : reduction.Tells state := h

theorem tells_finishClose (channel : CardChannel) (generation : ℕ) :
    (state.finishClose channel generation).Tells state := by
  unfold finishClose
  dsimp only
  split_ifs with h hchannel
  · exact .emit state rfl
  · refine Tells.andThen ?_ fun state => state.tells_updateHold.andThen fun state => .emit state rfl
    subst hchannel
    unfold releaseFocus
    split_ifs
    · exact .of_silent rfl rfl
    · exact .of_silent rfl rfl
    · exact .of_silent rfl rfl
  · refine Tells.andThen ?_ fun state => state.tells_updateHold.andThen fun state => .emit state rfl
    refine .of_silent ?_ rfl
    cases channel <;> rfl

theorem tells_leave (isLeft : CardSourceId → Bool) : (state.leave isLeft).Tells state := by
  unfold leave
  split_ifs
  · exact .of_silent rfl rfl
  · exact .emit state rfl

theorem tells_enter : (state.enter source).Tells state := by
  unfold enter
  split_ifs
  · exact .emit state rfl
  · exact state.tells_takeClose
  · refine (state.tells_takeOpen.andThen tells_takeClose).andThen fun state => .of_silent ?_ rfl
    unfold retarget ChannelSlot.anchoredAt
    rfl
  · exact .emit state rfl
  · exact state.tells_scheduleOpen source
  · exact .emit state rfl

theorem tells_toggle (prepare : CardState → CardState)
    (hprepare : (prepare state).barVisibilityHold = state.barVisibilityHold) :
    (state.toggle source prepare).Tells state := by
  unfold toggle
  split_ifs
  · exact state.tells_closePersistent _
  · exact .emit state rfl
  · have h := (prepare state).tells_openPersistent source
    unfold Tells at h ⊢
    rwa [hprepare] at h

theorem tells_updateAnchor (bounds : Bounds) (displayId : DisplayId) :
    (state.updateAnchor source bounds displayId).Tells state := by
  have hreanchor : ∀ (state : CardState) channel isAnchored,
      (state.reanchor channel source bounds displayId isAnchored).Tells state := by
    intro state channel isAnchored
    unfold reanchor
    dsimp only
    split_ifs
    · exact .of_silent (by cases channel <;> rfl) rfl
    · exact .of_silent (by cases channel <;> rfl) rfl
    · exact .emit state rfl
  have h := (hreanchor { state with
    anchors := Function.update state.anchors source (some (bounds, displayId)) } .persistent
      (state.persistent.source = some source)).andThen fun state => hreanchor state .preview
        (state.preview.source = some source || state.preview.pendingOpenSource = some source)
  exact h

theorem tells_openTimer (generation : ℕ) : (state.openTimer generation).Tells state := by
  unfold openTimer staleTimer
  dsimp only
  split_ifs
  · exact .emit state rfl
  · split
    · exact .of_silent rfl rfl
    · split_ifs
      · exact .of_silent rfl rfl
      · have h : ∀ source, (state.cancelOpen.state.replacePreview source).Tells state := by
          intro source
          unfold replacePreview
          split_ifs
          · exact .of_silent rfl rfl
          · exact .of_silent rfl rfl
        exact (h _).andThen fun state => state.tells_showPreview _

theorem tells_closeTimer (generation : ℕ) : (state.closeTimer generation).Tells state := by
  unfold closeTimer staleTimer
  split_ifs
  · exact .emit state rfl
  · exact state.takeClose.state.tells_closeVisiblePreview _

/-- **What a request tells the bar** leads from what the state says to what it says then. -/
theorem tells_reduce (request : CardRequest) : (state.reduce request).Tells state := by
  cases request with
  | sourceEnter source => exact state.tells_enter source
  | sourceLeave source =>
    refine Tells.andThen ?_ (tells_leave · _)
    split_ifs
    · exact state.tells_cancelOpen
    · exact .emit state rfl
  | sourceGroupLeave owner instanceId =>
    refine Tells.andThen ?_ (tells_leave · _)
    split_ifs
    · exact state.tells_cancelOpen
    · exact .emit state rfl
  | sourceGroupEnter owner instanceId =>
    rw [reduce]
    split_ifs
    · exact state.tells_takeClose
    · exact .emit state rfl
  | previewEnter source =>
    refine Tells.andThen ?_ fun state => ?_
    · split_ifs
      · exact state.tells_takeClose
      · exact .emit state rfl
    · split_ifs
      · exact state.tells_cancelOpen
      · exact .emit state rfl
  | previewLeave source => exact state.tells_leave _
  | persistentToggle source => exact state.tells_toggle source id rfl
  | persistentToggleAt source bounds displayId =>
    rw [reduce]
    exact state.tells_toggle source _ rfl
  | anchorUpdate source bounds displayId => exact state.tells_updateAnchor source bounds displayId
  | anchorRemoved source => exact tells_of_forget (tells_closeRemoved _ _ _ _)
  | placementUpdated source channel bounds displayId =>
    rw [reduce]
    split_ifs
    · exact .of_silent (by cases channel <;> rfl) rfl
    · exact .emit state rfl
  | reposition source =>
    rw [reduce]
    split_ifs <;> exact .emit state rfl
  | dismiss channel reason =>
    cases channel with
    | persistent => exact state.tells_closePersistent reason
    | preview => exact state.tells_closePreview reason
  | displayRemoved displayId => exact tells_of_forget (tells_closeRemoved _ _ _ _)
  | ownerRemoved owner => exact tells_of_forget (tells_closeRemoved _ _ _ _)
  | overviewOpened | barClosed | shutdown =>
    exact (state.tells_closePersistent _).andThen (tells_closePreview · _)
  | previewOpenTimer generation => exact state.tells_openTimer generation
  | previewCloseTimer generation => exact state.tells_closeTimer generation
  | closeAnimationFinished channel generation => exact state.tells_finishClose channel generation

/-! ### How the fields hang together -/

/-- What holds of the fields but the hold of the bar. -/
structure Sound (state : CardState) : Prop where
  /-- The focus is kept for the persistent card while there is one. -/
  focus : state.focusCaptured = true ↔ state.persistent.lifecycle ≠ .closed
  /-- A channel has a source while it is not closed. -/
  source : ∀ channel, (state.slot channel).source.isSome ↔ (state.slot channel).lifecycle ≠ .closed
  /-- There is a source for which the preview is going to open while there is a timer. -/
  pending : state.preview.pendingOpenGeneration.isSome ↔ state.preview.pendingOpenSource.isSome
  /-- A preview that is open is not going to open. -/
  pendingOpen : state.preview.lifecycle = .opened → state.preview.pendingOpenGeneration = none
  /-- Only a preview that is open is going to close. -/
  pendingClose : state.preview.pendingCloseGeneration.isSome → state.preview.lifecycle = .opened

/-- How the fields hang together. -/
structure Coherent (state : CardState) : Prop extends state.Sound where
  /-- The bar is to be seen while a channel is not closed, or the preview is going to open. -/
  hold : state.barVisibilityHold = true ↔ state.persistent.lifecycle ≠ .closed ∨
    state.preview.lifecycle ≠ .closed ∨ state.preview.pendingOpenGeneration.isSome

theorem holds_iff : state.holds = true ↔ state.persistent.lifecycle ≠ .closed ∨
    state.preview.lifecycle ≠ .closed ∨ state.preview.pendingOpenGeneration.isSome := by
  simp [holds, ChannelSlot.holdsVisibility, or_assoc]

theorem updateHold_state : state.updateHold.state = { state with barVisibilityHold := state.holds } := by
  unfold updateHold
  split_ifs with h
  · rfl
  · rw [not_not.mp h]
    rfl

theorem coherent_initial : initial.Coherent := by
  refine ⟨⟨?_, ?_, ?_, ?_, ?_⟩, ?_⟩ <;> simp [initial, ChannelSlot.empty]
  rintro (_ | _) <;> simp [slot]

variable {state}

theorem Sound.coherent_updateHold (h : state.Sound) : state.updateHold.state.Coherent := by
  rw [updateHold_state]
  exact ⟨⟨h.focus, h.source, h.pending, h.pendingOpen, h.pendingClose⟩, state.holds_iff⟩

end CardState

/-! ### What a request can do -/

/-- The effect is about what is shown, or where the focus is. -/
def CardEffect.isMark : CardEffect → Bool
  | .openChannel .. | .closeChannel .. | .retargetChannel .. | .captureFocus | .restoreFocus => true
  | _ => false

/-- None of the effects is such a one. -/
def Lacks (p : CardEffect → Bool) (effects : List CardEffect) : Prop :=
  ∀ effect ∈ effects, p effect = false

theorem Lacks.nil {p : CardEffect → Bool} : Lacks p [] := fun _ hmem => by cases hmem

theorem Lacks.append {p : CardEffect → Bool} {effects effects' : List CardEffect}
    (h : Lacks p effects) (h' : Lacks p effects') : Lacks p (effects ++ effects') := by
  intro effect hmem
  rcases List.mem_append.mp hmem with hmem | hmem
  · exact h effect hmem
  · exact h' effect hmem

/-- None of the effects is about what is shown, or where the focus is. -/
abbrev Quiet : List CardEffect → Prop := Lacks CardEffect.isMark

/-- The source that is toggled, and where it has been clicked. -/
def CardRequest.toggles : CardRequest → Option (CardSourceId × Option (Bounds × DisplayId))
  | .persistentToggle source => some (source, none)
  | .persistentToggleAt source bounds displayId => some (source, some (bounds, displayId))
  | _ => none

namespace CardState

variable (state : CardState)

/-- What a request can do. -/
inductive Change : CardRequest → Reduction → Prop
  | idle (request : CardRequest) {effects : List CardEffect} (hquiet : Quiet effects) :
    Change request (state.emit effects)
  | timed (request : CardRequest) {effects : List CardEffect} (hquiet : Quiet effects)
    (generation : Option ℕ) (counter : ℕ)
    (hopen : generation.isSome → state.preview.lifecycle = .opened) :
    Change request
      ⟨{ state with
         preview := { state.preview with pendingCloseGeneration := generation },
         generationCounter := counter }, effects⟩
  | unscheduled (request : CardRequest) {effects : List CardEffect} (hquiet : Quiet effects) :
    Change request ⟨(state.cancelOpen.andThen (·.updateHold)).state, effects⟩
  | scheduled (source : CardSourceId) (hblocks : state.persistentBlocks source = false)
    (hopen : state.preview.lifecycle ≠ .opened) :
    Change (.sourceEnter source) (state.scheduleOpen source)
  | retargeted (source : CardSourceId) (hblocks : state.persistentBlocks source = false)
    (hopen : state.preview.lifecycle = .opened) (hsource : state.preview.source ≠ some source) :
    Change (.sourceEnter source) (state.takeClose.andThen (·.retarget source))
  | persistentOpened (request : CardRequest) (source : CardSourceId)
    (anchor : Option (Bounds × DisplayId)) (hrequest : request.toggles = some (source, anchor))
    (hsource : state.persistent.source ≠ some source) :
    Change request
      ({ state with persistent := state.persistent.anchoredAt anchor }.openPersistent source)
  | closed (request : CardRequest) (anchors : CardSourceId → Option (Bounds × DisplayId))
    (hanchors : ∀ source, anchors source = none ∨ anchors source = state.anchors source)
    (persistent preview : Bool) (reason : CardDismissReason) :
    Change request
      ({ state with anchors }.closeRemoved (fun _ => persistent) (fun _ => preview) reason)
  | previewClosed (generation : ℕ)
    (hgeneration : state.preview.pendingCloseGeneration = some generation) :
    Change (.previewCloseTimer generation) (state.takeClose.state.closeVisiblePreview .focusLost)
  | anchored (source : CardSourceId) (bounds : Bounds) (displayId : DisplayId) :
    Change (.anchorUpdate source bounds displayId) (state.updateAnchor source bounds displayId)
  | placed (source : CardSourceId) (channel : CardChannel) (bounds : Bounds)
    (displayId : DisplayId) (hsource : (state.slot channel).source = some source)
    (hopen : (state.slot channel).lifecycle = .opened) :
    Change (.placementUpdated source channel bounds displayId)
      ((state.withSlot { state.slot channel with
        cardBounds := some bounds, displayId := some displayId } channel).emit [])
  | previewOpened (generation : ℕ) (source : CardSourceId)
    (hgeneration : state.preview.pendingOpenGeneration = some generation)
    (hsource : state.preview.pendingOpenSource = some source)
    (hblocks : state.persistentBlocks source = false) :
    Change (.previewOpenTimer generation) (state.cancelOpen.state.showPreview source)
  | finished (channel : CardChannel) (generation : ℕ)
    (hclosing : (state.slot channel).lifecycle = .closing)
    (hgeneration : (state.slot channel).generation = generation) :
    Change (.closeAnimationFinished channel generation) (state.finishClose channel generation)

@[simp] theorem andThen_emit_nil (reduction : Reduction) :
    reduction.andThen (·.emit []) = reduction := by
  simp [Reduction.andThen, emit]

@[simp] theorem emit_nil_andThen (part : CardState → Reduction) :
    (state.emit []).andThen part = part state := by
  simp [Reduction.andThen, emit]

theorem quiet_nil : Quiet [] := List.forall_mem_nil _

theorem quiet_updateHold : Quiet state.updateHold.effects := by
  unfold updateHold
  split_ifs <;> simp [Lacks, emit, CardEffect.isMark]

theorem quiet_takeClose : Quiet state.takeClose.effects := by
  unfold takeClose
  dsimp only
  split_ifs <;> simp [Lacks, CardEffect.isMark]

theorem quiet_cancelOpen : Quiet (state.cancelOpen.andThen (·.updateHold)).effects := by
  refine Lacks.append ?_ (quiet_updateHold _)
  simp [cancelOpen, Lacks, CardEffect.isMark]

variable {state}

variable (request : CardRequest)

theorem change_takeClose : state.Change request state.takeClose :=
  .timed request state.quiet_takeClose none state.generationCounter nofun

theorem change_leave (isLeft : CardSourceId → Bool) :
    state.Change request (state.leave isLeft) := by
  unfold leave
  split_ifs with h
  · refine .timed request ?_ _ _ fun _ => ?_
    · simp [Lacks, CardEffect.isMark]
    · simp only [Bool.and_eq_true, ChannelSlot.isOpen, decide_eq_true_eq] at h
      exact h.2
  · exact .idle request quiet_nil

/-- A preview that is going to open is not open. -/
theorem Sound.not_opened (h : state.Sound) (hpending : state.preview.pendingOpenGeneration.isSome) :
    state.preview.lifecycle ≠ .opened := by
  intro hopen
  rw [h.pendingOpen hopen] at hpending
  cases hpending

/-- While the preview is going to open, nothing begins to close. -/
theorem Sound.leave_cancelOpen (h : state.Sound)
    (hpending : state.preview.pendingOpenGeneration.isSome) (isLeft : CardSourceId → Bool) :
    (state.cancelOpen.andThen (·.updateHold)).andThen (·.leave isLeft) =
      state.cancelOpen.andThen (·.updateHold) := by
  have hpreview : (state.cancelOpen.andThen (·.updateHold)).state.preview.isOpen = false := by
    simp only [Reduction.andThen, updateHold_state]
    simp [ChannelSlot.isOpen, cancelOpen, h.not_opened hpending]
  have hleave : (state.cancelOpen.andThen (·.updateHold)).state.leave isLeft =
      (state.cancelOpen.andThen (·.updateHold)).state.emit [] := by
    rw [leave, hpreview, Bool.and_false, if_neg Bool.false_ne_true]
  rw [Reduction.andThen, hleave]
  exact andThen_emit_nil _

/-- What is to be closed may be asked before anything is. -/
theorem closeRemoved_eq (state : CardState) {preview : CardState → Bool}
    (hpreview : ∀ state state' : CardState, state.preview = state'.preview →
      preview state = preview state') (persistent : CardState → Bool) (reason : CardDismissReason) :
    state.closeRemoved persistent preview reason =
      state.closeRemoved (fun _ => persistent state) (fun _ => preview state) reason := by
  have hclose : (state.closePersistent reason).state.preview = state.preview := by
    unfold closePersistent
    split_ifs <;> rfl
  have hboth := hpreview _ _ hclose
  unfold closeRemoved Reduction.andThen
  cases persistent state with
  | true =>
    dsimp only
    rw [if_pos rfl, hboth]
  | false => rfl

theorem change_closeRemoved (removed : CardSourceId → Bounds × DisplayId → Bool)
    (persistent preview : CardState → Bool)
    (hpreview : ∀ state state' : CardState, state.preview = state'.preview →
      preview state = preview state') (reason : CardDismissReason) :
    state.Change request ((state.forget removed).closeRemoved persistent preview reason) := by
  rw [closeRemoved_eq _ hpreview]
  refine .closed request _ (fun source => ?_) _ _ reason
  cases hanchor : state.anchors source with
  | none => exact .inl rfl
  | some anchor =>
    rw [Option.filter_some]
    split_ifs
    · exact .inr rfl
    · exact .inl rfl

theorem change_closed (state : CardState) (request : CardRequest) (persistent preview : Bool)
    (reason : CardDismissReason) : state.Change request
      (state.closeRemoved (fun _ => persistent) (fun _ => preview) reason) :=
  .closed request state.anchors (fun _ => .inr rfl) persistent preview reason

theorem change_closePersistent (reason : CardDismissReason) :
    state.Change request (state.closePersistent reason) := by
  simpa [closeRemoved] using state.change_closed request true false reason

theorem change_toggle {request : CardRequest} {source : CardSourceId}
    {anchor : Option (Bounds × DisplayId)} (hrequest : request.toggles = some (source, anchor))
    {prepare : CardState → CardState}
    (hprepare : prepare state = { state with persistent := state.persistent.anchoredAt anchor }) :
    state.Change request (state.toggle source prepare) := by
  unfold toggle
  split_ifs with hsource
  · exact change_closePersistent _ _
  · exact .idle _ quiet_nil
  · rw [hprepare]
    exact .persistentOpened request source anchor hrequest hsource

theorem change_finishClose (channel : CardChannel) (generation : ℕ) :
    state.Change (.closeAnimationFinished channel generation)
      (state.finishClose channel generation) := by
  by_cases h : ((state.slot channel).lifecycle ≠ .closing ||
      (state.slot channel).generation ≠ generation) = true
  · rw [finishClose, if_pos h]
    exact .idle _ quiet_nil
  · simp only [Bool.or_eq_true, decide_eq_true_eq, not_or, not_not] at h
    exact .finished channel generation h.1 h.2

theorem change_openTimer (hcoherent : state.Coherent) (generation : ℕ) :
    state.Change (.previewOpenTimer generation) (state.openTimer generation) := by
  have hsound := hcoherent.toSound
  unfold openTimer
  split_ifs with hgeneration
  · exact .idle _ (by simp [Lacks, CardEffect.isMark])
  rw [not_not] at hgeneration
  have hpending : state.preview.pendingOpenGeneration.isSome := by rw [hgeneration]; rfl
  obtain ⟨source, hsource⟩ := Option.isSome_iff_exists.mp (hsound.pending.mp hpending)
  dsimp only
  rw [hsource]
  dsimp only
  split_ifs with hblocks
  · -- the bar is held by the card that is in the way
    have hopen : state.persistent.lifecycle = .opened := by
      have h : state.persistentBlocks source = true := hblocks
      simp only [persistentBlocks, Bool.and_eq_true, ChannelSlot.isOpen, decide_eq_true_eq] at h
      exact h.2
    have hhold : state.barVisibilityHold = true :=
      hcoherent.hold.mpr (.inl (by rw [hopen]; nofun))
    have hsame : state.cancelOpen.state = (state.cancelOpen.andThen (·.updateHold)).state := by
      have hholds : state.cancelOpen.state.holds = true :=
        (holds_iff _).mpr (.inl (by change state.persistent.lifecycle ≠ _; rw [hopen]; nofun))
      simp only [Reduction.andThen, updateHold_state, hholds]
      rw [← hhold]
      rfl
    rw [emit, hsame]
    exact .unscheduled _ quiet_nil
  · have hclosed : state.cancelOpen.state.preview.isOpen = false := by
      simp [ChannelSlot.isOpen, cancelOpen, hsound.not_opened hpending]
    rw [replacePreview, hclosed, Bool.false_and, if_neg Bool.false_ne_true, emit_nil_andThen]
    exact .previewOpened generation source hgeneration hsource (Bool.eq_false_iff.mpr hblocks)

/-- **What a request can do** where the fields hang together. -/
theorem change_reduce (hcoherent : state.Coherent) (request : CardRequest) :
    state.Change request (state.reduce request) := by
  have hsound := hcoherent.toSound
  have hcancel : state.Change request (state.cancelOpen.andThen (·.updateHold)) :=
    .unscheduled request state.quiet_cancelOpen
  cases request with
  | sourceEnter source =>
    rw [reduce, enter]
    split_ifs with hblocks hopen hsource
    · exact .idle _ quiet_nil
    · exact change_takeClose _
    · have hopened : state.preview.lifecycle = .opened := by simpa [ChannelSlot.isOpen] using hopen
      have htake : state.takeOpen = state.emit [] := by
        have hnone := hsound.pendingOpen hopened
        have hsome := hsound.pending
        rw [hnone] at hsome
        have hsource : state.preview.pendingOpenSource = none := by simpa using hsome
        rw [takeOpen, cancelOpen, hnone]
        unfold emit
        congr 2
        rw [← hnone, ← hsource]
      rw [htake, emit_nil_andThen]
      exact .retargeted source (Bool.eq_false_iff.mpr hblocks) hopened hsource
    · exact .idle _ quiet_nil
    · refine .scheduled source (Bool.eq_false_iff.mpr hblocks) ?_
      simpa [ChannelSlot.isOpen] using hopen
    · exact .idle _ quiet_nil
  | sourceLeave source =>
    rw [reduce]
    split_ifs with hpending
    · rw [hsound.leave_cancelOpen (Bool.and_eq_true_iff.mp hpending).1]
      exact hcancel
    · rw [emit_nil_andThen]
      exact change_leave _ _
  | sourceGroupLeave owner instanceId =>
    rw [reduce]
    split_ifs with hpending
    · rw [hsound.leave_cancelOpen]
      · exact hcancel
      · cases hsource : state.preview.pendingOpenSource with
        | none => simp [hsource] at hpending
        | some source => exact hsound.pending.mpr (by rw [hsource]; rfl)
    · rw [emit_nil_andThen]
      exact change_leave _ _
  | sourceGroupEnter owner instanceId =>
    rw [reduce]
    split_ifs
    · exact change_takeClose _
    · exact .idle _ quiet_nil
  | previewEnter source =>
    rw [reduce]
    by_cases hpending : (state.preview.pendingOpenSource = some source &&
        state.preview.pendingOpenGeneration.isSome) = true
    · -- no preview is open that could be going to close
      simp only [Bool.and_eq_true, decide_eq_true_eq] at hpending
      have hclose : state.takeClose = state.emit [] := by
        have hnone : state.preview.pendingCloseGeneration = none :=
          Option.not_isSome_iff_eq_none.mp fun hsome =>
            hsound.not_opened hpending.2 (hsound.pendingClose hsome)
        rw [takeClose, hnone]
        unfold emit
        congr 2
        rw [← hnone]
      rw [hclose, ite_self, emit_nil_andThen]
      simp only [hpending, decide_true, Bool.and_self, if_true]
      exact hcancel
    · split_ifs with hsource
      · have hsame : (state.takeClose.andThen fun state =>
            if (state.preview.pendingOpenSource = some source &&
              state.preview.pendingOpenGeneration.isSome) = true then
              state.cancelOpen.andThen (·.updateHold) else state.emit []) = state.takeClose := by
          have hif : ∀ part : Reduction, (if (state.takeClose.state.preview.pendingOpenSource =
              some source && state.takeClose.state.preview.pendingOpenGeneration.isSome) = true
              then part else state.takeClose.state.emit []) = state.takeClose.state.emit [] :=
            fun part => if_neg hpending
          rw [Reduction.andThen, hif]
          exact andThen_emit_nil _
        rw [hsame]
        exact change_takeClose _
      · rw [emit_nil_andThen, if_neg hpending]
        exact .idle _ quiet_nil
  | previewLeave source => exact change_leave _ _
  | persistentToggle source => exact change_toggle rfl rfl
  | persistentToggleAt source bounds displayId =>
    rw [reduce]
    exact change_toggle rfl rfl
  | anchorUpdate source bounds displayId => exact .anchored source bounds displayId
  | anchorRemoved source =>
    rw [reduce]
    refine change_closeRemoved _ _ _ _ (fun state state' h => ?_) _
    simp only [h]
  | placementUpdated source channel bounds displayId =>
    rw [reduce]
    split_ifs with h
    · simp only [Bool.and_eq_true, decide_eq_true_eq, ChannelSlot.isOpen] at h
      exact .placed source channel bounds displayId h.1 h.2
    · exact .idle _ quiet_nil
  | reposition source =>
    rw [reduce]
    split_ifs
    · exact .idle _ (by simp [Lacks, CardEffect.isMark])
    · exact .idle _ quiet_nil
  | dismiss channel reason =>
    cases channel with
    | persistent => exact change_closePersistent _ _
    | preview =>
      rw [reduce]
      simpa [closeRemoved] using state.change_closed (.dismiss .preview reason) false true reason
  | displayRemoved displayId =>
    rw [reduce]
    refine change_closeRemoved _ _ _ _ (fun state state' h => ?_) _
    simp only [h]
  | ownerRemoved owner =>
    rw [reduce]
    refine change_closeRemoved _ _ _ _ (fun state state' h => ?_) _
    simp only [h]
  | overviewOpened | barClosed | shutdown => exact state.change_closed _ true true _
  | previewOpenTimer generation => exact change_openTimer hcoherent generation
  | previewCloseTimer generation =>
    rw [reduce, closeTimer]
    split_ifs with h
    · exact .idle _ (by simp [Lacks, CardEffect.isMark])
    · exact .previewClosed generation (not_not.mp h)
  | closeAnimationFinished channel generation => exact change_finishClose channel generation

end CardState

end Shilpo.Cards
