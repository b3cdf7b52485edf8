import Shilpo.Cards.Bookkeeping

/-!
# The focus, and the source of two cards

The focus is kept when a persistent card opens, and goes back when it has closed. If the user has
moved it elsewhere, it does not go back; but a card that opens while such a card is still closing
takes over what was kept, and gives the focus back to where it was long ago. And a card that is
clicked opens over its own preview (`focus_taken_back`). A run in which no card opens so restores
only what it has captured, and shows no source twice (`focus_kept`).
-/

namespace Shilpo.Cards

open Theory

/-! ### What is promised -/

/-- The focus has gone elsewhere: it has been restored, or the user has moved it. -/
def CardEffect.givesFocusAway : CardEffect → Bool
  | .restoreFocus => true
  | .closeChannel .persistent .focusLost .. | .closeChannel .persistent .overviewOpened .. => true
  | _ => false

/-- The focus is restored only where it has been captured, and has not gone elsewhere since. -/
def RestoresCaptured (effects : List CardEffect) : Prop :=
  ∀ before after, effects = before ++ CardEffect.restoreFocus :: after →
    ∃ earlier later, before = earlier ++ CardEffect.captureFocus :: later ∧
      ∀ effect ∈ later, effect.givesFocusAway = false

namespace CardState

variable (state : CardState)

/-- The preview shows a source, or is going to. -/
def Previews (source : CardSourceId) : Prop :=
  state.preview.lifecycle = .opened ∧ state.preview.source = some source ∨
    state.preview.pendingOpenSource = some source

/-- The source of the persistent card has no preview. -/
def Exclusive : Prop :=
  ∀ source, state.persistent.lifecycle = .opened → state.persistent.source = some source →
    ¬ state.Previews source

/-! ### What keeps it -/

/-- No card opens while one is closing after the user has moved the focus, and none over its own
preview. -/
def Undisturbed (request : CardRequest) : Prop :=
  ∀ toggled ∈ request.toggles, state.persistent.source ≠ some toggled.1 →
    (state.persistent.lifecycle = .closing → state.persistent.restoreFocusAfterClose = true) ∧
      ¬ state.Previews toggled.1

instance (source : CardSourceId) : Decidable (state.Previews source) :=
  inferInstanceAs (Decidable (_ ∧ _ ∨ _))

/-- The one source that can have two cards. -/
theorem exclusive_iff : state.Exclusive ↔
    ∀ source ∈ state.persistent.source, state.persistent.lifecycle = .opened →
      ¬ state.Previews source :=
  ⟨fun h source hsource hopen => h source hopen hsource,
    fun h source hopen hsource => h source hsource hopen⟩

instance : Decidable state.Exclusive := decidable_of_iff' _ state.exclusive_iff

instance (request : CardRequest) : Decidable (state.Undisturbed request) :=
  inferInstanceAs (Decidable (∀ toggled ∈ request.toggles, _ → (_ → _) ∧ _))

end CardState

/-! ### The focus that is held -/

/-- Whether the focus has been captured, and has not gone elsewhere since. -/
def holdFocus (held : Bool) (effect : CardEffect) : Bool :=
  effect = .captureFocus || held && !effect.givesFocusAway

variable {effects : List CardEffect}

theorem captured_of_held (h : run holdFocus false effects = true) :
    ∃ earlier later, effects = earlier ++ CardEffect.captureFocus :: later ∧
      ∀ effect ∈ later, effect.givesFocusAway = false := by
  induction effects using List.reverseRecOn with
  | nil => cases h
  | append_singleton effects effect ih =>
    rw [run_append, run_cons, run_nil, holdFocus] at h
    by_cases hcapture : effect = .captureFocus
    · exact ⟨effects, [], by rw [hcapture], (fun _ hmem => by cases hmem)⟩
    · simp only [hcapture, decide_false, Bool.false_or, Bool.and_eq_true, Bool.not_eq_true'] at h
      obtain ⟨earlier, later, rfl, hlater⟩ := ih h.1
      refine ⟨earlier, later ++ [effect], by simp, ?_⟩
      intro effect' hmem
      rcases List.mem_append.mp hmem with hmem | hmem
      · exact hlater effect' hmem
      · rw [List.mem_singleton.mp hmem]
        exact h.2

/-- The focus is restored only while it is held. -/
def Restores (held : Bool) (effect : CardEffect) : Prop := effect = .restoreFocus → held = true

theorem held_of_captured {held : Bool}
    (h : ∃ earlier later, effects = earlier ++ CardEffect.captureFocus :: later ∧
      ∀ effect ∈ later, effect.givesFocusAway = false) : run holdFocus held effects = true := by
  obtain ⟨earlier, later, rfl, hlater⟩ := h
  rw [run_append, run_cons]
  have hcaptured : holdFocus (run holdFocus held earlier) .captureFocus = true := rfl
  rw [hcaptured]
  induction later with
  | nil => rfl
  | cons effect later ih =>
    rw [run_cons, holdFocus, hlater effect List.mem_cons_self, Bool.not_false, Bool.and_true,
      Bool.or_true]
    exact ih fun effect hmem => hlater effect (List.mem_cons_of_mem _ hmem)

/-- The focus is restored only where it has been captured while it is restored only as it is
held. -/
theorem restoresCaptured_iff :
    RestoresCaptured effects ↔ Along holdFocus Restores false effects := by
  rw [along_iff]
  constructor
  · rintro h before effect after hsplit rfl
    exact held_of_captured (h before after hsplit)
  · intro h before after hsplit
    exact captured_of_held (h before _ after hsplit rfl)

instance (held : Bool) (effect : CardEffect) : Decidable (Restores held effect) :=
  inferInstanceAs (Decidable (_ → _))

/-- The effect is about the focus. -/
def CardEffect.isFocus (effect : CardEffect) : Bool :=
  effect = .captureFocus || effect.givesFocusAway

/-- Effects that are not about the focus. -/
theorem restores_of_lacks (h : Lacks CardEffect.isFocus effects) (held : Bool) :
    Along holdFocus Restores held effects ∧ run holdFocus held effects = held := by
  induction effects with
  | nil => exact ⟨trivial, rfl⟩
  | cons effect effects ih =>
    obtain ⟨halong, hrun⟩ := ih fun effect hmem => h effect (List.mem_cons_of_mem _ hmem)
    have heffect := h effect List.mem_cons_self
    simp only [CardEffect.isFocus, Bool.or_eq_false_iff, decide_eq_false_iff_not] at heffect
    have hheld : holdFocus held effect = held := by
      simp [holdFocus, heffect.1, heffect.2]
    rw [Along, run_cons, hheld]
    refine ⟨⟨fun hrestore => ?_, halong⟩, hrun⟩
    rw [hrestore] at heffect
    cases heffect.2

theorem CardEffect.isFocus_of_isMark {effect : CardEffect} (h : effect.isMark = false) :
    effect.isFocus = false := by
  cases effect <;> first | rfl | cases h

theorem CardEffect.isFocus_of_quiet (h : Quiet effects) :
    Lacks isFocus effects := fun effect hmem => isFocus_of_isMark (h effect hmem)

namespace CardState

/-- The focus is held for the persistent card, as long as it is to be restored. -/
structure HoldsFocus (state : CardState) (held : Bool) : Prop where
  opened : state.persistent.lifecycle = .opened → held = true
  closing : state.persistent.lifecycle = .closing →
    state.persistent.restoreFocusAfterClose = true → held = true

variable {state : CardState} {held : Bool}

variable {left : CardState}

theorem HoldsFocus.of_same (h : state.HoldsFocus held)
    (hlifecycle : left.persistent.lifecycle = state.persistent.lifecycle)
    (hrestore : left.persistent.restoreFocusAfterClose = state.persistent.restoreFocusAfterClose) :
    left.HoldsFocus held :=
  ⟨fun hopen => h.opened (hlifecycle ▸ hopen),
    fun hclosing hr => h.closing (hlifecycle ▸ hclosing) (hrestore ▸ hr)⟩

/-- A part restores the focus only while it is held. -/
def KeepsFocus (held : Bool) (reduction : Reduction) : Prop :=
  Along holdFocus Restores held reduction.effects ∧
    reduction.state.HoldsFocus (run holdFocus held reduction.effects)

variable {reduction : Reduction}

theorem KeepsFocus.of_lacks (heffects : Lacks CardEffect.isFocus reduction.effects)
    (hstate : reduction.state.HoldsFocus held) : KeepsFocus held reduction := by
  obtain ⟨halong, hrun⟩ := restores_of_lacks heffects held
  refine ⟨halong, ?_⟩
  rw [hrun]
  exact hstate

theorem KeepsFocus.andThen {part : CardState → Reduction} (h : KeepsFocus held reduction)
    (hpart : ∀ (held : Bool) (state : CardState), state.HoldsFocus held →
      KeepsFocus held (part state)) : KeepsFocus held (reduction.andThen part) := by
  obtain ⟨halong, hstate⟩ := hpart _ _ h.2
  refine ⟨(along_append _ _ _).mpr ⟨h.1, halong⟩, ?_⟩
  rw [Reduction.andThen, run_append]
  exact hstate

theorem lacks_updateHold (state : CardState) : Lacks CardEffect.isFocus state.updateHold.effects :=
  CardEffect.isFocus_of_quiet state.quiet_updateHold

section

variable {p : CardEffect → Bool}
  (hmark : ∀ effect : CardEffect, effect.isMark = false → p effect = false)
  (hclose : ∀ reason displayId generation source,
    p (.closeChannel .preview reason displayId generation source) = false)

include hmark hclose

/-- Nothing but the end of the preview is said when it begins to close. -/
theorem lacks_closeVisiblePreview (state : CardState) (reason : CardDismissReason) :
    Lacks p (state.closeVisiblePreview reason).effects := by
  refine Lacks.append ?_ fun effect hmem => hmark effect (quiet_updateHold _ effect hmem)
  split_ifs
  · intro effect hmem
    rw [List.mem_singleton.mp hmem]
    exact hclose _ _ _ _
  · exact fun _ hmem => by cases hmem

theorem lacks_closePreview (state : CardState) (reason : CardDismissReason) :
    Lacks p (state.closePreview reason).effects := by
  unfold closePreview
  split_ifs
  · exact fun _ hmem => by cases hmem
  · refine Lacks.append (Lacks.append ?_ fun effect hmem =>
      hmark effect (quiet_takeClose _ effect hmem)) (lacks_closeVisiblePreview hmark hclose _ reason)
    unfold takeOpen
    dsimp only
    split_ifs
    · intro effect hmem
      rw [List.mem_singleton.mp hmem]
      exact hmark _ rfl
    · exact fun _ hmem => by cases hmem

end

theorem quiet_updateAnchor (state : CardState) (source : CardSourceId) (bounds : Bounds)
    (displayId : DisplayId) : Quiet (state.updateAnchor source bounds displayId).effects := by
  have hreanchor : ∀ (state : CardState) channel isAnchored,
      Quiet (state.reanchor channel source bounds displayId isAnchored).effects := by
    intro state channel isAnchored
    unfold reanchor
    dsimp only
    split_ifs <;> simp [Lacks, emit, CardEffect.isMark]
  exact Lacks.append (hreanchor _ _ _) (hreanchor _ _ _)

theorem persistent_closeVisiblePreview (state : CardState) (reason : CardDismissReason) :
    (state.closeVisiblePreview reason).state.persistent = state.persistent := by
  rw [closeVisiblePreview_state, updateHold_state]
  split_ifs <;> rfl

theorem persistent_closePreview (state : CardState) (reason : CardDismissReason) :
    (state.closePreview reason).state.persistent = state.persistent := by
  rw [closePreview_state]
  split_ifs
  · rfl
  · exact persistent_closeVisiblePreview _ reason

theorem keepsFocus_openPersistent (hcoherent : state.Coherent) (h : state.HoldsFocus held)
    (hclosing : state.persistent.lifecycle = .closing →
      state.persistent.restoreFocusAfterClose = true) (source : CardSourceId) :
    KeepsFocus held (state.openPersistent source) := by
  have hreplace : Lacks CardEffect.isFocus state.replacePersistent.effects := by
    unfold replacePersistent
    split_ifs <;> simp [Lacks, emit, CardEffect.isFocus, CardEffect.givesFocusAway]
  have hfocus : state.replacePersistent.state.focusCaptured = state.focusCaptured := by
    unfold replacePersistent
    split_ifs <;> rfl
  have hcapture : Along holdFocus Restores held
        (state.replacePersistent.state.captureFocus source).effects ∧
      run holdFocus held (state.replacePersistent.state.captureFocus source).effects = true := by
    unfold captureFocus
    split_ifs with hcaptured
    · -- what has been captured is held
      refine ⟨trivial, ?_⟩
      rw [hfocus, hcoherent.focus] at hcaptured
      cases hlifecycle : state.persistent.lifecycle with
      | closed => exact absurd hlifecycle hcaptured
      | opened => exact h.opened hlifecycle
      | closing => exact h.closing hlifecycle (hclosing hlifecycle)
    · exact ⟨⟨(fun heq => by cases heq), (fun heq => by cases heq), trivial⟩, rfl⟩
  have hshow : ∀ state : CardState,
      Lacks CardEffect.isFocus (state.showPersistent source).effects := by
    intro state
    refine Lacks.append ?_ (Lacks.append (lacks_updateHold _) ?_) <;>
      simp [Lacks, emit, CardEffect.isFocus, CardEffect.givesFocusAway]
  obtain ⟨halong, hrun⟩ := restores_of_lacks hreplace held
  obtain ⟨halong', hrun'⟩ := restores_of_lacks
    (hshow (state.replacePersistent.state.captureFocus source).state) true
  have heffects : (state.openPersistent source).effects = (state.replacePersistent.effects ++
      (state.replacePersistent.state.captureFocus source).effects) ++
        ((state.replacePersistent.state.captureFocus source).state.showPersistent source).effects :=
    rfl
  have hheld : run holdFocus held (state.openPersistent source).effects = true := by
    rw [heffects, run_append, run_append, hrun, hcapture.2, hrun']
  refine ⟨?_, ?_⟩
  · rw [heffects, along_append, along_append, run_append, hrun, hcapture.2]
    exact ⟨⟨halong, hcapture.1⟩, halong'⟩
  · exact ⟨fun _ => hheld, fun _ _ => hheld⟩

theorem keepsFocus_closePersistent (h : state.HoldsFocus held) (reason : CardDismissReason) :
    KeepsFocus held (state.closePersistent reason) := by
  unfold closePersistent
  split_ifs with hopen
  · exact ⟨trivial, h⟩
  · have hopened : state.persistent.lifecycle = .opened := by
      simpa [ChannelSlot.isOpen] using hopen
    have hheld := h.opened hopened
    refine ⟨⟨(fun heq => by cases heq), trivial⟩, ⟨(fun heq => by cases heq), fun _ hrestore => ?_⟩⟩
    -- what is to be restored is still held
    have hreason : reason.restoresFocus = true := hrestore
    rw [run_cons, run_nil, hheld]
    cases reason <;> first | rfl | cases hreason

theorem keepsFocus_finishClose (hcoherent : state.Coherent) (h : state.HoldsFocus held)
    (channel : CardChannel) (generation : ℕ) :
    KeepsFocus held (state.finishClose channel generation) := by
  have hannounce : ∀ state : CardState, ∀ source, Lacks CardEffect.isFocus
      (state.announceClosed channel source generation).effects := by
    intro state source
    refine Lacks.append (lacks_updateHold _) ?_
    simp [Lacks, emit, CardEffect.isFocus, CardEffect.givesFocusAway]
  have hstate := finishClose_state state channel generation
  unfold finishClose at hstate ⊢
  dsimp only at hstate ⊢
  by_cases hstale : ((state.slot channel).lifecycle ≠ .closing ||
      (state.slot channel).generation ≠ generation) = true
  · rw [if_pos hstale]
    exact ⟨trivial, h⟩
  rw [if_neg hstale] at hstate ⊢
  rw [if_neg hstale] at hstate
  cases channel with
  | preview =>
    refine .of_lacks ?_ ?_
    · exact hannounce _ _
    · rw [hstate, updateHold_state]
      exact h.of_same rfl rfl
  | persistent =>
    simp only [Bool.or_eq_true, decide_eq_true_eq, not_or, not_not] at hstale
    have hcaptured : state.focusCaptured = true :=
      hcoherent.focus.mpr (by change (state.slot .persistent).lifecycle ≠ _; rw [hstale.1]; exact ChannelLifecycle.noConfusion)
    refine ⟨?_, ?_⟩
    · rw [if_pos rfl]
      refine (along_append _ _ _).mpr ⟨?_, (restores_of_lacks (hannounce _ _) _).1⟩
      unfold releaseFocus
      rw [if_pos (by exact hcaptured)]
      split_ifs with hrestore
      · exact ⟨fun _ => h.closing hstale.1 hrestore, (fun heq => by cases heq), trivial⟩
      · trivial
    · rw [hstate, updateHold_state]
      exact ⟨(fun heq => by cases heq), fun heq => by cases heq⟩

/-- A request restores the focus only while it is held. -/
theorem keepsFocus_change {request : CardRequest} (hcoherent : state.Coherent)
    (h : state.HoldsFocus held) (hundisturbed : state.Undisturbed request)
    (hchange : state.Change request reduction) :
    KeepsFocus held reduction := by
  cases hchange with
  | idle _ hquiet => exact .of_lacks (CardEffect.isFocus_of_quiet hquiet) h
  | timed _ hquiet => exact .of_lacks (CardEffect.isFocus_of_quiet hquiet) (h.of_same rfl rfl)
  | unscheduled _ hquiet =>
    refine .of_lacks (CardEffect.isFocus_of_quiet hquiet) ?_
    simp only [Reduction.andThen, updateHold_state]
    exact h.of_same rfl rfl
  | scheduled source =>
    refine .of_lacks (Lacks.append ?_ (Lacks.append (lacks_updateHold _) ?_)) ?_
    · simp [Lacks, CardEffect.isFocus, CardEffect.givesFocusAway]
    · simp [Lacks, emit, CardEffect.isFocus, CardEffect.givesFocusAway]
    · rw [scheduleOpen_state, updateHold_state]
      exact h.of_same rfl rfl
  | retargeted source =>
    refine .of_lacks (Lacks.append (CardEffect.isFocus_of_quiet (quiet_takeClose _)) ?_)
      (h.of_same rfl rfl)
    simp [retarget, Lacks, CardEffect.isFocus, CardEffect.givesFocusAway]
  | persistentOpened _ source anchor hrequest hsource =>
    have hanchored : ({ state with persistent := state.persistent.anchoredAt anchor } :
        CardState).Coherent :=
      hcoherent.of_same (hcoherent.toSound.of_persistent rfl
        (by rw [ChannelSlot.anchoredAt_lifecycle]; exact hcoherent.focus)
        (by
          rw [ChannelSlot.anchoredAt_source, ChannelSlot.anchoredAt_lifecycle]
          exact hcoherent.source .persistent)) rfl (by simp) Iff.rfl Iff.rfl
    refine keepsFocus_openPersistent hanchored (h.of_same ?_ ?_) ?_ source
    · exact ChannelSlot.anchoredAt_lifecycle _ _
    · exact ChannelSlot.anchoredAt_restoreFocusAfterClose _ _
    · simpa using (hundisturbed _ hrequest hsource).1
  | closed _ anchors _ persistent preview reason =>
    have h : ({ state with anchors } : CardState).HoldsFocus held := ⟨h.opened, h.closing⟩
    refine KeepsFocus.andThen ?_ fun held state h => ?_
    · split_ifs
      · exact keepsFocus_closePersistent h reason
      · exact ⟨trivial, h⟩
    · split_ifs
      · refine .of_lacks (lacks_closePreview (fun _ => CardEffect.isFocus_of_isMark)
        (fun _ _ _ _ => rfl) state reason) ?_
        exact h.of_same (congrArg _ (persistent_closePreview state reason))
          (congrArg _ (persistent_closePreview state reason))
      · exact ⟨trivial, h⟩
  | previewClosed generation =>
    refine .of_lacks (lacks_closeVisiblePreview (fun _ => CardEffect.isFocus_of_isMark)
      (fun _ _ _ _ => rfl) _ _) ?_
    exact h.of_same (congrArg _ (persistent_closeVisiblePreview _ _))
      (congrArg _ (persistent_closeVisiblePreview _ _))
  | anchored source bounds displayId =>
    refine .of_lacks (CardEffect.isFocus_of_quiet (quiet_updateAnchor _ _ _ _)) ?_
    rw [updateAnchor_state]
    refine h.of_same ?_ ?_
    · exact ChannelSlot.anchoredAt_lifecycle _ _
    · exact ChannelSlot.anchoredAt_restoreFocusAfterClose _ _
  | placed source channel bounds displayId =>
    refine .of_lacks (fun _ hmem => by cases hmem) ?_
    cases channel <;> exact h.of_same rfl rfl
  | previewOpened generation source =>
    refine .of_lacks (Lacks.append ?_ (Lacks.append (lacks_updateHold _) ?_)) ?_
    · simp [Lacks, CardEffect.isFocus, CardEffect.givesFocusAway]
    · simp [Lacks, emit, CardEffect.isFocus, CardEffect.givesFocusAway]
    · rw [showPreview_state, updateHold_state]
      exact h.of_same rfl rfl
  | finished channel generation => exact keepsFocus_finishClose hcoherent h channel generation

/-! ### The source of two cards -/

/-- Nothing more is previewed, and the persistent card is no other one. -/
theorem Exclusive.of_fewer (h : state.Exclusive)
    (hpersistent : left.persistent.lifecycle = .opened →
      state.persistent.lifecycle = .opened ∧ left.persistent.source = state.persistent.source)
    (hpreview : ∀ source, left.Previews source → state.Previews source) : left.Exclusive := by
  intro source hopen hsource hpreviews
  obtain ⟨hopened, hsame⟩ := hpersistent hopen
  exact h source hopened (hsame ▸ hsource) (hpreview source hpreviews)

theorem Exclusive.of_same (h : state.Exclusive)
    (hlifecycle : left.persistent.lifecycle = state.persistent.lifecycle)
    (hsource : left.persistent.source = state.persistent.source)
    (hpreview : ∀ source, left.Previews source → state.Previews source) : left.Exclusive :=
  h.of_fewer (fun hopen => ⟨hlifecycle ▸ hopen, hsource⟩) hpreview

/-- What is previewed more is a source that no persistent card blocks. -/
theorem Exclusive.of_unblocked {source : CardSourceId} (h : state.Exclusive)
    (hblocks : state.persistentBlocks source = false)
    (hpersistent : left.persistent = state.persistent)
    (hpreview : ∀ other, left.Previews other → other = source ∨ state.Previews other) :
    left.Exclusive := by
  intro other hopen hsource hpreviews
  rw [hpersistent] at hopen hsource
  rcases hpreview other hpreviews with rfl | hpreviews
  · simp [persistentBlocks, ChannelSlot.isOpen, hopen, hsource] at hblocks
  · exact h other hopen hsource hpreviews

theorem Exclusive.closePersistent (h : state.Exclusive) (reason : CardDismissReason) :
    (state.closePersistent reason).state.Exclusive := by
  rw [closePersistent_state]
  split_ifs
  · exact h.of_fewer (fun heq => by cases heq) fun _ hpreviews => hpreviews
  · exact h

theorem Exclusive.closeVisiblePreview (h : state.Exclusive) (reason : CardDismissReason) :
    (state.closeVisiblePreview reason).state.Exclusive := by
  rw [closeVisiblePreview_state, updateHold_state]
  split_ifs
  · refine h.of_same rfl rfl fun source hpreviews => ?_
    rcases hpreviews with ⟨hopen, -⟩ | hpending
    · cases hopen
    · exact .inr hpending
  · exact h

theorem Exclusive.closePreview (h : state.Exclusive) (reason : CardDismissReason) :
    (state.closePreview reason).state.Exclusive := by
  rw [closePreview_state]
  split_ifs
  · exact h
  · refine @Exclusive.closeVisiblePreview state.untimed ?_ reason
    refine h.of_same rfl rfl fun source hpreviews => ?_
    rcases hpreviews with hshown | hpending
    · exact .inl hshown
    · cases hpending

/-- A request shows no source twice, unless a card opens over its own preview. -/
theorem Exclusive.change {request : CardRequest} (h : state.Exclusive)
    (hundisturbed : state.Undisturbed request) (hchange : state.Change request reduction) :
    reduction.state.Exclusive := by
  cases hchange with
  | idle => exact h
  | timed => exact h.of_same rfl rfl fun _ hpreviews => hpreviews
  | unscheduled =>
    simp only [Reduction.andThen, updateHold_state]
    refine h.of_same rfl rfl fun source hpreviews => ?_
    rcases hpreviews with hshown | hpending
    · exact .inl hshown
    · cases hpending
  | scheduled source hblocks =>
    rw [scheduleOpen_state, updateHold_state]
    refine h.of_unblocked hblocks rfl fun other hpreviews => ?_
    rcases hpreviews with hshown | hpending
    · exact .inr (.inl hshown)
    · exact .inl (Option.some.inj hpending).symm
  | retargeted source hblocks =>
    refine h.of_unblocked hblocks rfl fun other hpreviews => ?_
    simp only [Previews, Reduction.andThen, retarget, takeClose, nextGeneration,
      ChannelSlot.anchoredAt_source, ChannelSlot.anchoredAt_pendingOpenSource] at hpreviews
    rcases hpreviews with ⟨-, hsource⟩ | hpending
    · exact .inl (Option.some.inj hsource).symm
    · exact .inr (.inr hpending)
  | persistentOpened _ source anchor hrequest hsource =>
    rw [openPersistent_state, updateHold_state]
    intro other hopen hother hpreviews
    simp only [ChannelSlot.anchoredAt_source, ChannelSlot.shows, Option.some.injEq] at hother
    subst hother
    exact (hundisturbed _ hrequest hsource).2 hpreviews
  | closed _ anchors _ persistent preview reason =>
    have h : ({ state with anchors } : CardState).Exclusive := h
    rw [closeRemoved_state]
    dsimp only
    split_ifs
    · exact (h.closePersistent reason).closePreview reason
    · exact h.closePreview reason
    · exact h.closePersistent reason
    · exact h
  | previewClosed => exact @Exclusive.closeVisiblePreview state.takeClose.state h _
  | anchored source bounds displayId =>
    rw [updateAnchor_state]
    refine h.of_same ?_ ?_ fun source hpreviews => ?_
    · exact ChannelSlot.anchoredAt_lifecycle _ _
    · exact ChannelSlot.anchoredAt_source _ _
    · simpa only [Previews, ChannelSlot.anchoredAt_lifecycle, ChannelSlot.anchoredAt_source,
        ChannelSlot.anchoredAt_pendingOpenSource] using hpreviews
  | placed source channel =>
    cases channel <;> exact h.of_same rfl rfl fun _ hpreviews => hpreviews
  | previewOpened generation source hgeneration hsource hblocks =>
    rw [showPreview_state, updateHold_state]
    refine h.of_unblocked hblocks rfl fun other hpreviews => ?_
    simp only [Previews, ChannelSlot.anchoredAt_source, ChannelSlot.anchoredAt_pendingOpenSource,
      ChannelSlot.shows] at hpreviews
    rcases hpreviews with ⟨-, hsource⟩ | hpending
    · exact .inl (Option.some.inj hsource).symm
    · cases hpending
  | finished channel generation =>
    rw [finishClose_state]
    split_ifs
    · exact h
    · rw [updateHold_state]
      cases channel with
      | persistent => exact h.of_fewer (fun heq => by cases heq) fun _ hpreviews => hpreviews
      | preview =>
        refine h.of_same rfl rfl fun source hpreviews => ?_
        rcases hpreviews with ⟨hopen, -⟩ | hpending
        · cases hopen
        · exact .inr hpending

end CardState

/-! ### Runs -/

open CardState in
theorem restores_run {requests : List CardRequest} {state : CardState} {held : Bool}
    (hcoherent : state.Coherent) (h : state.HoldsFocus held)
    (hrequests : Along CardState.next CardState.Undisturbed state requests) :
    Along holdFocus Restores held (expand CardState.next CardState.effects state requests) := by
  induction requests generalizing state held with
  | nil => trivial
  | cons request requests ih =>
    obtain ⟨halong, hstate⟩ :=
      keepsFocus_change hcoherent h hrequests.1 (change_reduce hcoherent request)
    exact (along_append _ _ _).mpr ⟨halong, ih (hcoherent.next request) hstate hrequests.2⟩


/-- **The focus is kept**: where no card opens while one is closing after the user has moved the
focus, and none opens over its own preview, the focus is restored only where it has been captured
and has not gone elsewhere, and no source has two cards. -/
theorem focus_kept {requests : List CardRequest}
    (hrequests : Along CardState.next CardState.Undisturbed CardState.initial requests) :
    RestoresCaptured (emitted requests) ∧
      Always CardState.next CardState.Exclusive CardState.initial requests := by
  refine ⟨restoresCaptured_iff.mpr
    (restores_run CardState.coherent_initial
      ⟨(fun heq => by cases heq), fun heq => by cases heq⟩ hrequests), ?_⟩
  rw [always_iff]
  rintro before after rfl
  have hbefore := ((along_append _ _ _).mp hrequests).1
  refine (hbefore.holds (I := fun state => state.Coherent ∧ state.Exclusive) ?_
    ⟨CardState.coherent_initial, fun _ hopen => by cases hopen⟩).2
  rintro state request ⟨hcoherent, hexclusive⟩ hundisturbed
  exact ⟨hcoherent.next request,
    hexclusive.change hundisturbed (CardState.change_reduce hcoherent request)⟩

namespace Sample

def clock : CardSourceId := ⟨⟨"shell"⟩, "clock", none⟩

def weather : CardSourceId := ⟨⟨"shell"⟩, "weather", none⟩

/-- A card is closed as the focus goes elsewhere; another one opens before it has closed. -/
def reopened : List CardRequest :=
  [.persistentToggle clock, .dismiss .persistent .focusLost, .persistentToggle weather,
    .dismiss .persistent .escape, .closeAnimationFinished .persistent 2]

/-- A card opens over its preview. -/
def doubled : List CardRequest :=
  [.sourceEnter clock, .previewOpenTimer 1, .persistentToggle clock]

/-- Another card opens when the first has closed. -/
def orderly : List CardRequest :=
  [.persistentToggle clock, .dismiss .persistent .focusLost, .closeAnimationFinished .persistent 1,
    .sourceEnter clock, .previewOpenTimer 2, .persistentToggle weather,
    .dismiss .persistent .escape, .closeAnimationFinished .persistent 4]

end Sample

/-- Where the next card opens when the first has closed, the focus is kept. -/
theorem focus_kept_orderly : RestoresCaptured (emitted Sample.orderly) ∧
    Always CardState.next CardState.Exclusive CardState.initial Sample.orderly :=
  focus_kept (by decide +kernel)

/-- The focus is taken back from where the user has moved it, and a source has two cards. -/
theorem focus_taken_back : ¬ RestoresCaptured (emitted Sample.reopened) ∧
    ¬ Always CardState.next CardState.Exclusive CardState.initial Sample.doubled :=
  ⟨fun h => absurd (restoresCaptured_iff.mp h) (by decide +kernel), by decide +kernel⟩

end Shilpo.Cards
