import Shilpo.Cards.Focus

/-!
# What is opened is closed

What is opened in a channel is closed there, under its own source and generation, whatever is
requested (`follows_run`). The display that is named with it, and the anchor of a channel that is
open, are those that were reported of the source last only if no request takes them from elsewhere
(`protocol_kept`): a card that is clicked while another one is open writes where it was clicked
over the other one's display, and loses it when the other one is closed (`protocol_broken`); and a
source that has no anchor is shown where the slot was left.
-/

namespace Shilpo.Cards

open Theory

/-! ### The order of the effects -/

/-- What a channel shows, and under which generation. -/
abbrev Shown : Type := CardChannel → Option (Option CardSourceId × ℕ)

/-- What the channels show after an effect. -/
def Shown.follow (shown : Shown) : CardEffect → Shown
  | .openChannel channel source generation | .retargetChannel channel source generation =>
    Function.update shown channel (some (some source, generation))
  | .closeChannel channel .. => Function.update shown channel none
  | _ => shown

/-- A channel is opened while it shows nothing, goes over to another source while it shows one, and
is closed under what it shows. -/
def Shown.InTurn (shown : Shown) : CardEffect → Prop
  | .openChannel channel .. => shown channel = none
  | .retargetChannel channel .. => (shown channel).isSome
  | .closeChannel channel _ _ generation source => shown channel = some (source, generation)
  | _ => True

/-- The effect is about what is shown. -/
def CardEffect.isShown : CardEffect → Bool
  | .openChannel .. | .closeChannel .. | .retargetChannel .. => true
  | _ => false

theorem CardEffect.isShown_of_quiet {effects : List CardEffect} (h : Quiet effects) :
    Lacks isShown effects := by
  intro effect hmem
  have hmark := h effect hmem
  cases effect <;> simp_all [isMark, isShown]

theorem follow_of_lacks {effects : List CardEffect} (h : Lacks CardEffect.isShown effects)
    (shown : Shown) :
    Along Shown.follow Shown.InTurn shown effects ∧ run Shown.follow shown effects = shown := by
  induction effects with
  | nil => exact ⟨trivial, rfl⟩
  | cons effect effects ih =>
    have heffect := h effect List.mem_cons_self
    have hrest := ih fun effect hmem => h effect (List.mem_cons_of_mem _ hmem)
    cases effect <;> first | exact ⟨⟨trivial, hrest.1⟩, hrest.2⟩ | cases heffect

namespace CardState

/-- What the channels show. -/
def shown (state : CardState) : Shown := fun channel =>
  if (state.slot channel).isOpen then
    some ((state.slot channel).source, (state.slot channel).generation)
  else none

/-- The effects of a part follow each other, and what the channels show then is what the state
says. -/
def Follows (state : CardState) (reduction : Reduction) : Prop :=
  Along Shown.follow Shown.InTurn state.shown reduction.effects ∧
    run Shown.follow state.shown reduction.effects = reduction.state.shown

variable {state : CardState}

variable {reduction : Reduction}

theorem Follows.andThen {part : CardState → Reduction} (h : state.Follows reduction)
    (hpart : reduction.state.Follows (part reduction.state)) :
    state.Follows (reduction.andThen part) := by
  obtain ⟨halong, hrun⟩ := h
  obtain ⟨halong', hrun'⟩ := hpart
  refine ⟨(along_append _ _ _).mpr ⟨halong, ?_⟩, ?_⟩
  · rw [hrun]
    exact halong'
  · rw [Reduction.andThen, run_append, hrun]
    exact hrun'

theorem Follows.of_lacks (heffects : Lacks CardEffect.isShown reduction.effects)
    (hstate : reduction.state.shown = state.shown) : state.Follows reduction := by
  obtain ⟨halong, hrun⟩ := follow_of_lacks heffects state.shown
  exact ⟨halong, hrun.trans hstate.symm⟩

theorem Follows.of_quiet (heffects : Quiet reduction.effects)
    (hstate : reduction.state.shown = state.shown) : state.Follows reduction :=
  .of_lacks (CardEffect.isShown_of_quiet heffects) hstate

/-- Only one effect is about what is shown. -/
theorem Follows.of_single {reduction : Reduction} {effect : CardEffect}
    (heffects : reduction.effects = [effect]) (hturn : state.shown.InTurn effect)
    (hstate : reduction.state.shown = state.shown.follow effect) : state.Follows reduction := by
  rw [Follows, heffects]
  exact ⟨⟨hturn, trivial⟩, hstate.symm⟩

/-! ### Parts of a request -/

theorem shown_of_slots {left : CardState}
    (h : ∀ channel, (left.slot channel).lifecycle = (state.slot channel).lifecycle ∧
      (left.slot channel).source = (state.slot channel).source ∧
      (left.slot channel).generation = (state.slot channel).generation) :
    left.shown = state.shown := by
  funext channel
  obtain ⟨hlifecycle, hsource, hgeneration⟩ := h channel
  simp only [shown, ChannelSlot.isOpen, hlifecycle, hsource, hgeneration]
  rfl

theorem shown_updateHold : state.updateHold.state.shown = state.shown := by
  rw [updateHold_state]
  rfl

@[simp] theorem shown_nextGeneration : state.nextGeneration.shown = state.shown := rfl

@[simp] theorem nextGeneration_preview : state.nextGeneration.preview = state.preview := rfl

theorem shown_takeClose : state.takeClose.state.shown = state.shown :=
  shown_of_slots fun channel => by cases channel <;> exact ⟨rfl, rfl, rfl⟩

theorem shown_cancelOpen : state.cancelOpen.state.shown = state.shown :=
  shown_of_slots fun channel => by cases channel <;> exact ⟨rfl, rfl, rfl⟩

/-- What follows where the channels show the same. -/
theorem Follows.of_same {left : CardState} (h : left.Follows reduction)
    (hshown : left.shown = state.shown) : state.Follows reduction := by
  rwa [Follows, hshown] at h

theorem follows_updateHold : state.Follows state.updateHold :=
  .of_quiet state.quiet_updateHold shown_updateHold

variable (channel : CardChannel)

/-- Another slot in a channel. -/
theorem shown_withSlot (slot : ChannelSlot) :
    (state.withSlot slot channel).shown = Function.update state.shown channel
      (if slot.isOpen then some (slot.source, slot.generation) else none) := by
  funext other
  cases channel <;> cases other <;> simp [shown, withSlot, CardState.slot, Function.update] <;> rfl

theorem follows_announceOpened (source : CardSourceId) (generation : ℕ) :
    state.Follows (state.announceOpened channel source generation) :=
  follows_updateHold.andThen (.of_quiet (by simp [Lacks, emit, CardEffect.isMark]) rfl)

theorem follows_announceClosed (source : Option CardSourceId) (generation : ℕ) :
    state.Follows (state.announceClosed channel source generation) :=
  follows_updateHold.andThen (.of_quiet (by simp [Lacks, emit, CardEffect.isMark]) rfl)

variable (reason : CardDismissReason)

theorem follows_closePersistent :
    state.Follows (state.closePersistent reason) := by
  unfold closePersistent
  split_ifs with hopen
  · exact ⟨trivial, rfl⟩
  · refine .of_single rfl ?_ ?_
    · have hopened : state.persistent.isOpen = true := by simpa using hopen
      simp [Shown.InTurn, shown, slot, hopened]
    · exact shown_withSlot .persistent _

theorem follows_closeVisiblePreview :
    state.Follows (state.closeVisiblePreview reason) := by
  refine Follows.andThen ?_ follows_updateHold
  split_ifs with hopen
  · refine .of_single rfl ?_ ?_
    · simp [Shown.InTurn, shown, slot, hopen]
    · exact shown_withSlot .preview _
  · exact ⟨trivial, rfl⟩

theorem follows_closePreview :
    state.Follows (state.closePreview reason) := by
  unfold closePreview
  split_ifs
  · exact ⟨trivial, rfl⟩
  · refine Follows.andThen (Follows.andThen (.of_lacks ?_ ?_) (.of_quiet (quiet_takeClose _) ?_))
      (follows_closeVisiblePreview reason)
    · unfold takeOpen
      dsimp only
      split_ifs <;> simp [Lacks, CardEffect.isShown]
    · exact shown_of_slots fun channel => by cases channel <;> exact ⟨rfl, rfl, rfl⟩
    · exact shown_of_slots fun channel => by cases channel <;> exact ⟨rfl, rfl, rfl⟩

theorem follows_closeRemoved (persistent preview : Bool) (reason : CardDismissReason) :
    state.Follows (state.closeRemoved (fun _ => persistent) (fun _ => preview) reason) := by
  refine Follows.andThen ?_ ?_
  · split_ifs
    · exact follows_closePersistent reason
    · exact ⟨trivial, rfl⟩
  · by_cases hpreview : preview = true
    · rw [if_pos hpreview]
      exact follows_closePreview reason
    · rw [if_neg hpreview]
      exact ⟨trivial, rfl⟩

theorem follows_showPreview (hopen : state.preview.lifecycle ≠ .opened) (source : CardSourceId) :
    state.Follows (state.showPreview source) := by
  refine Follows.andThen (.of_single rfl ?_ ?_) (follows_announceOpened _ _ _)
  · simp [Shown.InTurn, shown, slot, ChannelSlot.isOpen, hopen]
  · refine (shown_withSlot .preview _).trans ?_
    simp [ChannelSlot.isOpen, ChannelSlot.shows, Shown.follow]

theorem follows_retarget (hopen : state.preview.lifecycle = .opened) (source : CardSourceId) :
    state.Follows (state.retarget source) := by
  refine .of_single rfl ?_ ?_
  · simp [Shown.InTurn, shown, slot, ChannelSlot.isOpen, hopen]
  · refine (shown_withSlot .preview _).trans ?_
    simp [ChannelSlot.isOpen, hopen, Shown.follow]

theorem follows_openPersistent (source : CardSourceId) :
    state.Follows (state.openPersistent source) := by
  have hreplace : state.Follows state.replacePersistent := by
    unfold replacePersistent
    split_ifs with hopen
    · refine ⟨⟨?_, trivial, trivial⟩, ?_⟩
      · simp [Shown.InTurn, shown, slot, hopen]
      · exact (shown_withSlot .persistent state.persistent.replaced).symm
    · exact ⟨trivial, rfl⟩
  have hclosed : state.replacePersistent.state.persistent.lifecycle ≠ .opened := by
    unfold replacePersistent
    split_ifs with hopen
    · exact fun heq => by cases heq
    · intro hopened
      exact hopen (by simpa [ChannelSlot.isOpen, emit] using hopened)
  have hfocus : ∀ state : CardState, state.Follows (state.captureFocus source) ∧
      (state.captureFocus source).state.persistent = state.persistent := by
    intro state
    unfold captureFocus
    split_ifs
    · exact ⟨⟨trivial, rfl⟩, rfl⟩
    · exact ⟨.of_lacks (by simp [Lacks, CardEffect.isShown]) rfl, rfl⟩
  obtain ⟨hcapture, hsame⟩ := hfocus state.replacePersistent.state
  refine (hreplace.andThen hcapture).andThen
    (Follows.andThen (.of_single rfl ?_ ?_) (follows_announceOpened _ _ _))
  · rw [Reduction.andThen]
    simp [Shown.InTurn, shown, slot, ChannelSlot.isOpen, hsame, hclosed]
  · rw [Reduction.andThen]
    refine (shown_withSlot .persistent _).trans ?_
    simp [ChannelSlot.isOpen, ChannelSlot.shows, Shown.follow]

theorem follows_finishClose (generation : ℕ) :
    state.Follows (state.finishClose channel generation) := by
  have hrelease : ∀ state : CardState, ∀ slot, Lacks CardEffect.isShown
      (state.releaseFocus slot generation).effects ∧
        (state.releaseFocus slot generation).state.shown = state.shown := by
    intro state slot
    unfold releaseFocus
    split_ifs <;> refine ⟨?_, rfl⟩ <;> simp [Lacks, emit, CardEffect.isShown]
  unfold finishClose
  dsimp only
  split_ifs with hstale hchannel
  · exact ⟨trivial, rfl⟩
  all_goals
    have hfinished : (state.withSlot (state.slot channel).finished channel).shown = state.shown := by
      simp only [Bool.or_eq_true, decide_eq_true_eq, not_or, not_not] at hstale
      rw [shown_withSlot]
      funext other
      by_cases hother : other = channel
      · subst hother
        simp [ChannelSlot.finished, ChannelSlot.isOpen, shown, hstale.1]
      · rw [Function.update_of_ne hother]
  · refine Follows.andThen (.of_lacks (hrelease _ _).1 ?_) (follows_announceClosed _ _ _)
    exact (hrelease _ _).2.trans hfinished
  · exact Follows.andThen (.of_lacks .nil hfinished) (follows_announceClosed _ _ _)

/-- **The effects of a request follow each other.** -/
theorem follows_change {request : CardRequest} (hcoherent : state.Coherent)
    (hchange : state.Change request reduction) :
    state.Follows reduction := by
  cases hchange with
  | idle _ hquiet => exact .of_quiet hquiet rfl
  | timed _ hquiet =>
    exact .of_quiet hquiet (shown_of_slots fun channel => by cases channel <;> exact ⟨rfl, rfl, rfl⟩)
  | unscheduled _ hquiet =>
    refine .of_quiet hquiet ?_
    rw [Reduction.andThen, shown_updateHold]
    exact shown_cancelOpen
  | scheduled source =>
    refine Follows.andThen (.of_quiet ?_ ?_) (follows_updateHold.andThen (.of_quiet ?_ rfl))
    · simp [Lacks, CardEffect.isMark]
    · exact shown_of_slots fun channel => by cases channel <;> exact ⟨rfl, rfl, rfl⟩
    · simp [Lacks, emit, CardEffect.isMark]
  | retargeted source _ hopen =>
    exact Follows.andThen (.of_quiet state.quiet_takeClose shown_takeClose)
      (@follows_retarget state.takeClose.state hopen source)
  | persistentOpened _ source anchor =>
    exact (follows_openPersistent source).of_same
      (shown_of_slots fun channel => by cases channel <;> simp [slot])
  | closed _ anchors _ persistent preview reason =>
    exact @follows_closeRemoved { state with anchors } persistent preview reason
  | previewClosed => exact (follows_closeVisiblePreview _).of_same shown_takeClose
  | anchored source bounds displayId =>
    refine .of_quiet (quiet_updateAnchor _ _ _ _) ?_
    rw [updateAnchor_state]
    exact shown_of_slots fun channel => by cases channel <;> simp [slot]
  | placed source channel =>
    refine .of_quiet .nil (shown_of_slots fun other => ?_)
    cases channel <;> cases other <;> exact ⟨rfl, rfl, rfl⟩
  | previewOpened generation source hgeneration =>
    refine (follows_showPreview ?_ source).of_same shown_cancelOpen
    exact hcoherent.toSound.not_opened (by rw [hgeneration]; rfl)
  | finished channel generation => exact follows_finishClose channel generation

end CardState

/-- **What is opened is closed**, under its own source and generation. -/
theorem follows_run {state : CardState} (hcoherent : state.Coherent) (requests : List CardRequest) :
    Along Shown.follow Shown.InTurn state.shown
      (expand CardState.next CardState.effects state requests) := by
  induction requests generalizing state with
  | nil => trivial
  | cons request requests ih =>
    obtain ⟨halong, hrun⟩ :=
      CardState.follows_change hcoherent (CardState.change_reduce hcoherent request)
    refine (along_append _ _ _).mpr ⟨halong, ?_⟩
    have hnext : run Shown.follow state.shown (state.effects request) = (state.next request).shown :=
      hrun
    rw [hnext]
    exact ih (hcoherent.next request)

/-! ### What has been reported -/

/-- Where a source is, as far as it has been said. -/
structure Report where
  bounds : Option Bounds
  displayId : Option DisplayId
  deriving DecidableEq

/-- Where the slot is. -/
def ChannelSlot.report (slot : ChannelSlot) : Report := ⟨slot.anchorBounds, slot.displayId⟩

/-- The slot shows what another one shows, and where that shows it, or nothing. -/
def ChannelSlot.ShowsAs (slot other : ChannelSlot) : Prop :=
  slot.lifecycle = .opened →
    other.lifecycle = .opened ∧ slot.source = other.source ∧ slot.report = other.report

theorem ChannelSlot.ShowsAs.refl (slot : ChannelSlot) : slot.ShowsAs slot :=
  fun hopen => ⟨hopen, rfl, rfl⟩

theorem ChannelSlot.ShowsAs.trans {slot other third : ChannelSlot} (h : slot.ShowsAs other)
    (h' : other.ShowsAs third) : slot.ShowsAs third := by
  intro hopen
  obtain ⟨hopened, hsource, hreport⟩ := h hopen
  obtain ⟨hopened', hsource', hreport'⟩ := h' hopened
  exact ⟨hopened', hsource.trans hsource', hreport.trans hreport'⟩

/-- What has been reported last of each source. -/
abbrev Reports : Type := CardSourceId → Report

/-- The request says where a source is. -/
def CardRequest.isReport : CardRequest → Bool
  | .anchorUpdate .. | .persistentToggleAt .. | .placementUpdated .. => true
  | _ => false

/-- The request neither shows a source nor says where one is. -/
def CardRequest.isCalm : CardRequest → Bool
  | .sourceEnter .. | .previewOpenTimer .. | .persistentToggle .. => false
  | request => !request.isReport

theorem CardRequest.toggles_of_isCalm {request : CardRequest} (h : request.isCalm = true) :
    request.toggles = none := by
  cases request <;> first | rfl | cases h

/-- What has been reported after a request. A placement says where a card is, and of its source
only the display. -/
def Reports.after (reports : Reports) : CardRequest → Reports
  | .anchorUpdate source bounds displayId | .persistentToggleAt source bounds displayId =>
    Function.update reports source ⟨some bounds, some displayId⟩
  | .placementUpdated source _ _ displayId =>
    Function.update reports source { reports source with displayId := some displayId }
  | _ => reports

/-- The state, and what has been reported on the way. -/
structure Reported where
  state : CardState
  reports : Reports

namespace Reported

/-- Nothing is shown, and nothing has been reported. -/
def initial : Reported := ⟨.initial, fun _ => ⟨none, none⟩⟩

variable (reported : Reported)

def next (request : CardRequest) : Reported :=
  ⟨reported.state.next request, reported.reports.after request⟩

/-- The channel shows the source. -/
def IsShown (channel : CardChannel) (source : CardSourceId) : Prop :=
  (reported.state.slot channel).lifecycle = .opened ∧
    (reported.state.slot channel).source = some source

/-! ### What is promised -/

/-- A channel that is open is where its source has been reported. -/
def AtReported : Prop :=
  ∀ channel source, reported.IsShown channel source →
    (reported.state.slot channel).report = reported.reports source

/-- What a request closes is closed on the display that had been reported of its source. -/
def ClosesReported (request : CardRequest) : Prop :=
  ∀ channel reason displayId generation source,
    .closeChannel channel reason displayId generation (some source) ∈
        reported.state.effects request →
      displayId = (reported.reports source).displayId

/-! ### What keeps it -/

/-- The anchor that is kept of the source is what has been reported of it; where none is kept, the
slot that is going to show it has been left there, and not where another one was. -/
def Known (slot : ChannelSlot) (source : CardSourceId) : Prop :=
  match reported.state.anchors source with
  | some (bounds, displayId) => reported.reports source = ⟨some bounds, some displayId⟩
  | none => reported.reports source = slot.report

/-- A source is shown only where it is known; one that is clicked takes no other one's place, and
is known from nowhere else; and what is reported of a source that is shown reaches its slot. -/
def Faithful : CardRequest → Prop
  | .sourceEnter source =>
    reported.state.preview.lifecycle = .opened → reported.state.preview.source ≠ some source →
      reported.state.persistentBlocks source = false →
        reported.Known reported.state.preview source
  | .previewOpenTimer generation =>
    reported.state.preview.pendingOpenGeneration = some generation →
      ∀ source ∈ reported.state.preview.pendingOpenSource,
        reported.state.persistentBlocks source = false →
          reported.Known reported.state.preview source
  | .persistentToggle source =>
    reported.state.persistent.source ≠ some source →
      reported.Known reported.state.vacated source
  | .persistentToggleAt source bounds displayId =>
    (reported.IsShown .preview source →
      reported.state.preview.report = ⟨some bounds, some displayId⟩) ∧
    (reported.state.persistent.source ≠ some source →
      (reported.state.persistent.lifecycle = .opened →
        reported.state.persistent.displayId = some displayId ∧
          (reported.state.anchors source).isSome) ∧
      ∀ anchor ∈ reported.state.anchors source, anchor = (bounds, displayId))
  | .placementUpdated source channel _ displayId =>
    ∀ other, other ≠ channel → reported.IsShown other source →
      (reported.state.slot other).displayId = some displayId
  | _ => True

instance (channel : CardChannel) (source : CardSourceId) :
    Decidable (reported.IsShown channel source) :=
  inferInstanceAs (Decidable (_ ∧ _))

variable {reported}

/-! ### The slots -/

theorem known_iff {slot left : ChannelSlot} (hreport : left.report = slot.report)
    {source : CardSourceId} : reported.Known slot source ↔
      (left.anchoredAt (reported.state.anchors source)).report = reported.reports source := by
  unfold Known
  cases reported.state.anchors source with
  | none =>
    rw [← hreport]
    exact eq_comm
  | some anchor => exact eq_comm

theorem AtReported.of_shows {left : CardState} (h : reported.AtReported)
    (hshows : ∀ channel, ((left.slot channel).ShowsAs (reported.state.slot channel))) :
    (Reported.mk left reported.reports).AtReported := by
  rintro channel source ⟨hopen, hsource⟩
  obtain ⟨hopened, hsame, hreport⟩ := hshows channel hopen
  rw [hreport]
  exact h channel source ⟨hopened, hsame ▸ hsource⟩

/-- Only the preview is another one. -/
theorem atReported_of_preview (h : reported.AtReported) {left : CardState}
    (hpersistent : left.persistent = reported.state.persistent) :
    (Reported.mk left reported.reports).AtReported ↔
      ∀ source, left.preview.lifecycle = .opened → left.preview.source = some source →
        left.preview.report = reported.reports source := by
  constructor
  · exact fun hleft source hopen hsource => hleft .preview source ⟨hopen, hsource⟩
  · rintro hpreview (_ | _) source ⟨hopen, hsource⟩
    · simp only [CardState.slot, hpersistent] at hopen hsource ⊢
      exact h .persistent source ⟨hopen, hsource⟩
    · exact hpreview source hopen hsource

end Reported

/-! ### What is closed -/

theorem ChannelSlot.isOpen_iff {slot : ChannelSlot} : slot.isOpen = true ↔ slot.lifecycle = .opened :=
  decide_eq_true_iff

namespace CardState

variable {state : CardState}

/-- What is closed is a channel that is open, and the display that is named is that of its slot. -/
def Closes (state : CardState) (effects : List CardEffect) : Prop :=
  ∀ channel reason displayId generation source,
    .closeChannel channel reason displayId generation source ∈ effects →
      (state.slot channel).lifecycle = .opened ∧ (state.slot channel).source = source ∧
        (state.slot channel).displayId = displayId

theorem Closes.append {effects effects' : List CardEffect} (h : state.Closes effects)
    (h' : state.Closes effects') : state.Closes (effects ++ effects') := by
  intro channel reason displayId generation source hmem
  rcases List.mem_append.mp hmem with hmem | hmem
  · exact h _ _ _ _ _ hmem
  · exact h' _ _ _ _ _ hmem

theorem Closes.of_lacks {effects : List CardEffect} (h : Lacks CardEffect.isShown effects) :
    state.Closes effects := by
  intro channel reason displayId generation source hmem
  cases h _ hmem

theorem Closes.of_quiet {effects : List CardEffect} (h : Quiet effects) : state.Closes effects :=
  .of_lacks (CardEffect.isShown_of_quiet h)

variable (reason : CardDismissReason)

theorem closes_closePersistent :
    state.Closes (state.closePersistent reason).effects := by
  unfold closePersistent
  split_ifs with hopen
  · exact .of_lacks .nil
  · intro channel reason displayId generation source hmem
    simp only [List.mem_singleton, CardEffect.closeChannel.injEq] at hmem
    obtain ⟨rfl, -, rfl, -, rfl⟩ := hmem
    have hopened : state.persistent.isOpen = true := by simpa using hopen
    exact ⟨ChannelSlot.isOpen_iff.mp hopened, rfl, rfl⟩

theorem closes_closeVisiblePreview {left : CardState} (hpreview : left.preview.isOpen →
    state.preview.isOpen ∧ left.preview.source = state.preview.source ∧
      left.preview.displayId = state.preview.displayId) (reason : CardDismissReason) :
    state.Closes (left.closeVisiblePreview reason).effects := by
  refine Closes.append ?_ (.of_quiet (quiet_updateHold _))
  split_ifs with hopen
  · obtain ⟨hopened, hsource, hdisplay⟩ := hpreview hopen
    intro channel reason displayId generation source hmem
    simp only [List.mem_singleton, CardEffect.closeChannel.injEq] at hmem
    obtain ⟨rfl, -, rfl, -, rfl⟩ := hmem
    exact ⟨ChannelSlot.isOpen_iff.mp hopened, hsource.symm, hdisplay.symm⟩
  · exact .of_lacks .nil

theorem closes_closePreview {left : CardState} (hpreview : left.preview = state.preview)
    (reason : CardDismissReason) : state.Closes (left.closePreview reason).effects := by
  unfold closePreview
  split_ifs
  · exact .of_lacks .nil
  · refine Closes.append (Closes.append (.of_lacks ?_) (.of_quiet (quiet_takeClose _)))
      (closes_closeVisiblePreview (fun hopen => ?_) reason)
    · unfold takeOpen
      dsimp only
      split_ifs <;> simp [Lacks, CardEffect.isShown]
    · rw [← hpreview]
      exact ⟨hopen, rfl, rfl⟩

theorem closes_openPersistent (source : CardSourceId) :
    state.Closes (state.openPersistent source).effects := by
  have hreplace : state.Closes state.replacePersistent.effects := by
    unfold replacePersistent
    split_ifs with hopen
    · intro channel reason displayId generation source hmem
      simp only [List.mem_cons, CardEffect.closeChannel.injEq, List.not_mem_nil, or_false,
        reduceCtorEq] at hmem
      obtain ⟨rfl, -, rfl, -, rfl⟩ := hmem
      exact ⟨ChannelSlot.isOpen_iff.mp hopen, rfl, rfl⟩
    · exact .of_lacks .nil
  have hcapture : ∀ left : CardState, state.Closes (left.captureFocus source).effects := by
    intro left
    unfold captureFocus
    split_ifs <;> refine .of_lacks ?_ <;> simp [Lacks, emit, CardEffect.isShown]
  have hshow : ∀ left : CardState, state.Closes (left.showPersistent source).effects := by
    intro left channel reason displayId generation source hmem
    simp only [showPersistent, announceOpened, Reduction.andThen, emit, List.mem_append,
      List.mem_singleton, reduceCtorEq, false_or, or_false] at hmem
    cases CardEffect.isShown_of_quiet (quiet_updateHold _) _ hmem
  exact (hreplace.append (hcapture _)).append (hshow _)

theorem closes_showPreview (left : CardState) (source : CardSourceId) :
    state.Closes (left.showPreview source).effects := by
  intro channel reason displayId generation source hmem
  simp only [showPreview, announceOpened, Reduction.andThen, emit, List.mem_append,
    List.mem_singleton, reduceCtorEq, false_or, or_false] at hmem
  cases CardEffect.isShown_of_quiet (quiet_updateHold _) _ hmem

theorem lacks_finishClose (channel : CardChannel) (generation : ℕ) :
    Lacks CardEffect.isShown (state.finishClose channel generation).effects := by
  have hannounce : ∀ left : CardState, ∀ source, Lacks CardEffect.isShown
      (left.announceClosed channel source generation).effects := by
    intro left source
    refine Lacks.append (CardEffect.isShown_of_quiet (quiet_updateHold _)) ?_
    simp [Lacks, emit, CardEffect.isShown]
  unfold finishClose
  dsimp only
  split_ifs
  · exact .nil
  · refine Lacks.append ?_ (hannounce _ _)
    unfold releaseFocus
    split_ifs <;> simp [Lacks, emit, CardEffect.isShown]
  · exact Lacks.append .nil (hannounce _ _)

variable (state)

theorem showsAs_closePersistent (channel : CardChannel) :
    ((state.closePersistent reason).state.slot channel).ShowsAs (state.slot channel) := by
  rw [closePersistent_state]
  split_ifs
  · cases channel with
    | persistent => exact fun hopen => by cases hopen
    | preview => exact .refl _
  · exact .refl _

theorem showsAs_closeVisiblePreview (channel : CardChannel) :
    ((state.closeVisiblePreview reason).state.slot channel).ShowsAs (state.slot channel) := by
  rw [closeVisiblePreview_state, updateHold_state]
  split_ifs
  · cases channel with
    | persistent => exact .refl _
    | preview => exact fun hopen => by cases hopen
  · exact .refl _

theorem showsAs_closePreview (channel : CardChannel) :
    ((state.closePreview reason).state.slot channel).ShowsAs (state.slot channel) := by
  rw [closePreview_state]
  split_ifs
  · exact .refl _
  · refine (showsAs_closeVisiblePreview _ reason channel).trans ?_
    cases channel <;> exact .refl _

theorem showsAs_closeRemoved (persistent preview : Bool) (reason : CardDismissReason)
    (channel : CardChannel) :
    ((state.closeRemoved (fun _ => persistent) (fun _ => preview) reason).state.slot
      channel).ShowsAs (state.slot channel) := by
  rw [closeRemoved_state]
  dsimp only
  split_ifs
  · exact (showsAs_closePreview _ reason channel).trans (state.showsAs_closePersistent reason channel)
  · exact state.showsAs_closePreview reason channel
  · exact state.showsAs_closePersistent reason channel
  · exact .refl _

theorem showsAs_finishClose (channel : CardChannel) (generation : ℕ) (other : CardChannel) :
    ((state.finishClose channel generation).state.slot other).ShowsAs (state.slot other) := by
  rw [finishClose_state]
  split_ifs
  · exact .refl _
  · rw [updateHold_state]
    cases channel <;> cases other <;> first | exact .refl _ | exact fun hopen => by cases hopen

variable {state}

/-- The slots of the channels, but for the anchor that a click has left. -/
theorem closes_change {request : CardRequest} {reduction : Reduction}
    (hchange : state.Change request reduction) :
    state.Closes reduction.effects ∨ ∃ source anchor, request.toggles = some (source, anchor) ∧
      state.persistent.source ≠ some source ∧
        reduction = { state with
          persistent := state.persistent.anchoredAt anchor }.openPersistent source := by
  cases hchange with
  | idle _ hquiet => exact .inl (.of_quiet hquiet)
  | timed _ hquiet => exact .inl (.of_quiet hquiet)
  | unscheduled _ hquiet => exact .inl (.of_quiet hquiet)
  | scheduled source =>
    refine .inl (Closes.append ?_ (Closes.append (.of_quiet (quiet_updateHold _)) ?_)) <;>
      refine .of_lacks ?_ <;> simp [Lacks, emit, CardEffect.isShown]
  | retargeted source =>
    refine .inl (Closes.append (.of_quiet (quiet_takeClose _)) ?_)
    intro channel reason displayId generation source hmem
    simp [retarget] at hmem
  | persistentOpened _ source anchor hrequest hsource =>
    exact .inr ⟨source, anchor, hrequest, hsource, rfl⟩
  | closed _ anchors _ persistent preview reason =>
    have hclose : ∀ left : CardState, left.preview = state.preview →
        state.Closes (if preview = true then left.closePreview reason else left.emit []).effects := by
      intro left hpreview
      split_ifs
      · exact closes_closePreview hpreview reason
      · exact .of_lacks .nil
    refine .inl (Closes.append ?_ (hclose _ ?_))
    · split_ifs
      · exact @closes_closePersistent { state with anchors } reason
      · exact .of_lacks .nil
    · split_ifs
      · rw [closePersistent_state]
        split_ifs <;> rfl
      · rfl
  | previewClosed =>
    have hopen : state.takeClose.state.preview.isOpen = state.preview.isOpen := rfl
    refine .inl (closes_closeVisiblePreview (fun hopened => ?_) .focusLost)
    rw [hopen] at hopened
    exact ⟨hopened, rfl, rfl⟩
  | anchored source bounds displayId => exact .inl (.of_quiet (quiet_updateAnchor _ _ _ _))
  | placed => exact .inl (.of_lacks .nil)
  | previewOpened generation source => exact .inl (closes_showPreview _ source)
  | finished channel generation => exact .inl (.of_lacks (lacks_finishClose channel generation))

end CardState

namespace Reported

open CardState

variable {reported : Reported}

variable {request : CardRequest}

/-- What is closed on the display of its slot is closed where it has been reported. -/
theorem AtReported.closesReported (h : reported.AtReported)
    (hcloses : reported.state.Closes (reported.state.effects request)) :
    reported.ClosesReported request := by
  intro channel reason displayId generation source hmem
  obtain ⟨hopen, hsource, hdisplay⟩ := hcloses _ _ _ _ _ hmem
  rw [← hdisplay, ← h channel source ⟨hopen, hsource⟩]
  rfl

/-- A request that neither shows a source nor says where one is. -/
theorem AtReported.change (h : reported.AtReported) {reduction : Reduction}
    (hcalm : request.isCalm = true) (hchange : reported.state.Change request reduction) :
    (Reported.mk reduction.state reported.reports).AtReported := by
  refine h.of_shows fun channel => ?_
  cases hchange with
  | idle => exact .refl _
  | timed => cases channel <;> exact .refl _
  | unscheduled =>
    rw [Reduction.andThen, updateHold_state]
    cases channel <;> exact .refl _
  | scheduled | retargeted | anchored | placed | previewOpened => cases hcalm
  | persistentOpened _ source anchor hrequest =>
    rw [CardRequest.toggles_of_isCalm hcalm] at hrequest
    cases hrequest
  | closed _ anchors _ persistent preview reason =>
    exact showsAs_closeRemoved { reported.state with anchors } persistent preview reason channel
  | previewClosed =>
    refine (showsAs_closeVisiblePreview reported.state.takeClose.state _ channel).trans ?_
    cases channel <;> exact .refl _
  | finished _ generation => exact showsAs_finishClose reported.state _ generation channel

variable {source : CardSourceId}

/-- A preview that opens is where its source has been reported exactly when that is known. -/
theorem atReported_showing_preview (h : reported.AtReported) {left : CardState} {slot : ChannelSlot}
    (hpersistent : left.persistent = reported.state.persistent)
    (hpreview : left.preview = slot.anchoredAt (reported.state.anchors source))
    (hopen : slot.lifecycle = .opened) (hsource : slot.source = some source)
    (hslot : slot.report = reported.state.preview.report) :
    (Reported.mk left reported.reports).AtReported ↔
      reported.Known reported.state.preview source := by
  rw [atReported_of_preview h hpersistent, known_iff hslot]
  have hleft : left.preview.source = some source := by
    rw [hpreview, ChannelSlot.anchoredAt_source, hsource]
  constructor
  · intro hat
    rw [← hpreview]
    exact hat source (by rw [hpreview, ChannelSlot.anchoredAt_lifecycle, hopen]) hleft
  · rintro hknown other - hother
    obtain rfl : source = other := Option.some.inj (hleft.symm.trans hother)
    rw [← hpreview] at hknown
    exact hknown

/-- What a request must meet: what is shown after it is where it has been reported, and what it
closes is closed there. -/
abbrev Meets (request : CardRequest) : Prop :=
  (reported.next request).AtReported ∧ reported.ClosesReported request

theorem meets_calm (hcoherent : reported.state.Coherent) (h : reported.AtReported)
    (hcalm : request.isCalm = true) : reported.Meets request := by
  have hchange := change_reduce hcoherent request
  have hreports : reported.reports.after request = reported.reports := by
    cases request <;> first | rfl | cases hcalm
  refine ⟨?_, ?_⟩
  · rw [next, hreports]
    exact h.change hcalm hchange
  · rcases closes_change hchange with hcloses | ⟨source, anchor, htoggles, -⟩
    · exact h.closesReported hcloses
    · rw [CardRequest.toggles_of_isCalm hcalm] at htoggles
      cases htoggles

/-- A request that closes nothing but what its slot says. -/
theorem meets_iff (hcoherent : reported.state.Coherent) (h : reported.AtReported)
    (htoggles : request.toggles = none) :
    reported.Meets request ↔ (reported.next request).AtReported := by
  refine and_iff_left ?_
  rcases closes_change (change_reduce hcoherent request) with hcloses | ⟨source, anchor, hsome, -⟩
  · exact h.closesReported hcloses
  · rw [htoggles] at hsome
    cases hsome

theorem meets_sourceEnter (hcoherent : reported.state.Coherent) (h : reported.AtReported)
    (source : CardSourceId) :
    reported.Meets (.sourceEnter source) ↔ reported.Faithful (.sourceEnter source) := by
  rw [meets_iff hcoherent h rfl, Faithful, next, CardState.next, reduce, enter]
  by_cases hblocks : reported.state.persistentBlocks source = true
  · simp only [hblocks, if_true, Bool.true_eq_false, IsEmpty.forall_iff, implies_true, iff_true]
    exact h
  rw [if_neg hblocks]
  by_cases hopen : reported.state.preview.isOpen = true
  · have hopened := ChannelSlot.isOpen_iff.mp hopen
    rw [if_pos hopen]
    by_cases hsource : reported.state.preview.source = some source
    · rw [if_pos hsource]
      refine iff_of_true (h.of_shows fun channel => ?_) fun _ hne => absurd hsource hne
      cases channel <;> exact .refl _
    · rw [if_neg hsource]
      refine Iff.trans (atReported_showing_preview h rfl rfl hopened rfl rfl) ?_
      exact ⟨fun hknown _ _ _ => hknown, fun hknown =>
        hknown hopened hsource (Bool.eq_false_iff.mpr hblocks)⟩
  · rw [if_neg hopen]
    refine iff_of_true (h.of_shows fun channel => ?_) fun hopened =>
      absurd (ChannelSlot.isOpen_iff.mpr hopened) hopen
    split_ifs
    · exact .refl _
    · rw [scheduleOpen_state, updateHold_state]
      cases channel <;> exact .refl _
    · exact .refl _

theorem meets_previewOpenTimer (hcoherent : reported.state.Coherent) (h : reported.AtReported)
    (generation : ℕ) :
    reported.Meets (.previewOpenTimer generation) ↔
      reported.Faithful (.previewOpenTimer generation) := by
  rw [meets_iff hcoherent h rfl, Faithful, next, CardState.next, reduce]
  by_cases hgeneration : reported.state.preview.pendingOpenGeneration = some generation
  swap
  · rw [openTimer, if_pos hgeneration]
    exact iff_of_true h fun hpending => absurd hpending hgeneration
  have hpending : reported.state.preview.pendingOpenGeneration.isSome := by rw [hgeneration]; rfl
  have hclosed := hcoherent.toSound.not_opened hpending
  obtain ⟨source, hsource⟩ := Option.isSome_iff_exists.mp (hcoherent.pending.mp hpending)
  rw [openTimer, if_neg (not_not.mpr hgeneration)]
  dsimp only
  simp only [hsource]
  have hblocks : reported.state.cancelOpen.state.persistentBlocks source =
      reported.state.persistentBlocks source := rfl
  rw [hblocks]
  by_cases hblocked : reported.state.persistentBlocks source = true
  · rw [if_pos hblocked]
    refine iff_of_true (h.of_shows fun channel => ?_) ?_
    · cases channel <;> exact .refl _
    · rintro - other hother hfree
      obtain rfl : source = other := Option.some.inj hother
      rw [hblocked] at hfree
      cases hfree
  · rw [if_neg hblocked]
    have hreplace : reported.state.cancelOpen.state.replacePreview source =
        reported.state.cancelOpen.state.emit [] := by
      have hopen : reported.state.cancelOpen.state.preview.isOpen = false := by
        simp [ChannelSlot.isOpen, cancelOpen, hclosed]
      rw [replacePreview, hopen, Bool.false_and, if_neg Bool.false_ne_true]
    rw [hreplace, emit_nil_andThen, showPreview_state, updateHold_state]
    refine Iff.trans (atReported_showing_preview h rfl rfl rfl rfl rfl) ?_
    constructor
    · rintro hknown - other hother -
      obtain rfl : source = other := Option.some.inj hother
      exact hknown
    · exact fun hknown => hknown hgeneration source rfl (Bool.eq_false_iff.mpr hblocked)

/-! ### Clicks -/

/-- The display that is named when a persistent card gives way to another one. -/
theorem closesReported_opened_iff (hcoherent : reported.state.Coherent) (h : reported.AtReported)
    {anchor : Option (Bounds × DisplayId)}
    (hreduce : reported.state.reduce request = { reported.state with
      persistent := reported.state.persistent.anchoredAt anchor }.openPersistent source) :
    reported.ClosesReported request ↔ (reported.state.persistent.lifecycle = .opened →
      ∀ clicked ∈ anchor, reported.state.persistent.displayId = some clicked.2) := by
  rw [ClosesReported, CardState.effects, hreduce]
  constructor
  · intro hcloses hopen clicked hclicked
    obtain rfl : anchor = some clicked := hclicked
    obtain ⟨old, hold⟩ := Option.isSome_iff_exists.mp
      ((hcoherent.source .persistent).mpr (by rw [CardState.slot, hopen]; exact ChannelLifecycle.noConfusion))
    have hisOpen : (reported.state.persistent.anchoredAt (some clicked)).isOpen = true := by
      rw [ChannelSlot.isOpen_iff, ChannelSlot.anchoredAt_lifecycle, hopen]
    have hmem : CardEffect.closeChannel .persistent .sourceToggle (some clicked.2)
        reported.state.persistent.generation (some old) ∈ ({ reported.state with
          persistent := reported.state.persistent.anchoredAt (some clicked) }.openPersistent
            source).effects := by
      refine List.mem_append_left _ (List.mem_append_left _ ?_)
      rw [replacePersistent, if_pos hisOpen, ← hold]
      exact List.mem_cons_self
    rw [hcloses _ _ _ _ _ hmem, ← h .persistent old ⟨hopen, hold⟩]
    rfl
  · intro hclicked channel reason displayId generation old hmem
    obtain ⟨hopen, hold, hdisplay⟩ := closes_openPersistent source _ _ _ _ _ hmem
    have hopened : (reported.state.slot channel).lifecycle = .opened := by
      cases channel with
      | persistent => exact (ChannelSlot.anchoredAt_lifecycle _ _).symm.trans hopen
      | preview => exact hopen
    have hshown : reported.IsShown channel old := by
      refine ⟨hopened, ?_⟩
      cases channel with
      | persistent => exact (ChannelSlot.anchoredAt_source _ _).symm.trans hold
      | preview => exact hold
    rw [← h channel old hshown, ← hdisplay]
    cases channel with
    | preview => rfl
    | persistent =>
      cases anchor with
      | none => rfl
      | some clicked => exact (hclicked hopened clicked rfl).symm

/-- What is shown after a card has opened. -/
theorem atReported_opened_iff {anchor : Option (Bounds × DisplayId)}
    (hreduce : reported.state.reduce request = { reported.state with
      persistent := reported.state.persistent.anchoredAt anchor }.openPersistent source) :
    (reported.next request).AtReported ↔
      (({ reported.state with persistent := reported.state.persistent.anchoredAt anchor } :
        CardState).vacated.anchoredAt (reported.state.anchors source)).report =
          reported.reports.after request source ∧
      ∀ other, reported.IsShown .preview other →
        reported.state.preview.report = reported.reports.after request other := by
  rw [AtReported, next, CardState.next, hreduce, openPersistent_state, updateHold_state]
  have hreport : ∀ (slot : ChannelSlot) generation, ((slot.shows source generation).anchoredAt
      (reported.state.anchors source)).report =
        (slot.anchoredAt (reported.state.anchors source)).report := by
    intro slot generation
    cases reported.state.anchors source <;> rfl
  constructor
  · intro hat
    refine ⟨?_, fun other hshown => hat .preview other hshown⟩
    rw [← hreport]
    refine hat .persistent source ⟨?_, ?_⟩
    · exact ChannelSlot.anchoredAt_lifecycle _ _
    · exact ChannelSlot.anchoredAt_source _ _
  · rintro ⟨hpersistent, hpreview⟩ (_ | _) other hshown
    · obtain rfl : source = other :=
        Option.some.inj ((ChannelSlot.anchoredAt_source _ _).symm.trans hshown.2)
      exact (hreport _ _).trans hpersistent
    · exact hpreview other hshown

theorem meets_persistentToggle (hcoherent : reported.state.Coherent) (h : reported.AtReported)
    (source : CardSourceId) :
    reported.Meets (.persistentToggle source) ↔ reported.Faithful (.persistentToggle source) := by
  rw [Faithful]
  by_cases hsource : reported.state.persistent.source = some source
  · have hreduce : reported.state.reduce (.persistentToggle source) =
        if reported.state.persistent.isOpen then reported.state.closePersistent .sourceToggle
        else reported.state.emit [] := by rw [reduce, toggle, if_pos hsource]
    refine iff_of_true ⟨?_, h.closesReported ?_⟩ fun hne => absurd hsource hne
    · refine h.of_shows fun channel => ?_
      rw [CardState.next, hreduce]
      split_ifs
      · exact showsAs_closePersistent _ _ channel
      · exact .refl _
    · rw [CardState.effects, hreduce]
      split_ifs
      · exact closes_closePersistent _
      · exact .of_lacks .nil
  · have hreduce : reported.state.reduce (.persistentToggle source) = { reported.state with
        persistent := reported.state.persistent.anchoredAt none }.openPersistent source := by
      rw [reduce, toggle, if_neg hsource]
      rfl
    rw [Meets, atReported_opened_iff hreduce, closesReported_opened_iff hcoherent h hreduce,
      known_iff rfl]
    constructor
    · exact fun hmeets _ => hmeets.1.1
    · exact fun hknown => ⟨⟨hknown hsource, h .preview⟩, fun _ _ hmem => by cases hmem⟩

theorem meets_persistentToggleAt (hcoherent : reported.state.Coherent) (h : reported.AtReported)
    (source : CardSourceId) (bounds : Bounds) (displayId : DisplayId) :
    reported.Meets (.persistentToggleAt source bounds displayId) ↔
      reported.Faithful (.persistentToggleAt source bounds displayId) := by
  have hafter : reported.reports.after (.persistentToggleAt source bounds displayId) source =
      ⟨some bounds, some displayId⟩ := by rw [Reports.after, Function.update_self]
  have hpreview : (∀ other, reported.IsShown .preview other → reported.state.preview.report =
      reported.reports.after (.persistentToggleAt source bounds displayId) other) ↔
        (reported.IsShown .preview source →
          reported.state.preview.report = ⟨some bounds, some displayId⟩) := by
    constructor
    · intro hall hshown
      rw [hall source hshown, hafter]
    · intro hsource other hshown
      by_cases hother : other = source
      · subst hother
        rw [hsource hshown]
        exact hafter.symm
      · exact (h .preview other hshown).trans (Function.update_of_ne hother ..).symm
  rw [Faithful]
  by_cases hsource : reported.state.persistent.source = some source
  · rw [and_iff_left fun hne => absurd hsource hne, ← hpreview]
    have hreduce : reported.state.reduce (.persistentToggleAt source bounds displayId) =
        if reported.state.persistent.isOpen then reported.state.closePersistent .sourceToggle
        else reported.state.emit [] := by rw [reduce, toggle, if_pos hsource]
    have hcloses : reported.ClosesReported (.persistentToggleAt source bounds displayId) := by
      refine h.closesReported ?_
      rw [CardState.effects, hreduce]
      split_ifs
      · exact closes_closePersistent _
      · exact .of_lacks .nil
    rw [Meets, and_iff_left hcloses, AtReported, next, CardState.next, hreduce]
    split_ifs with hopen
    · rw [closePersistent_state, if_pos hopen]
      refine ⟨fun hat => hat .preview, fun hat => ?_⟩
      rintro (_ | _) other ⟨hopened, hother⟩
      · cases hopened
      · exact hat other ⟨hopened, hother⟩
    · refine ⟨fun hat => hat .preview, fun hat => ?_⟩
      rintro (_ | _) other ⟨hopened, hother⟩
      · exact absurd (ChannelSlot.isOpen_iff.mpr hopened) hopen
      · exact hat other ⟨hopened, hother⟩
  · have hreduce : reported.state.reduce (.persistentToggleAt source bounds displayId) =
        { reported.state with
          persistent := reported.state.persistent.anchoredAt
            (some (bounds, displayId)) }.openPersistent source := by
      rw [reduce, toggle, if_neg hsource]
    have hkept : (({ reported.state with
        persistent := reported.state.persistent.anchoredAt (some (bounds, displayId)) } :
          CardState).vacated.anchoredAt (reported.state.anchors source)).report =
            ⟨some bounds, some displayId⟩ ↔
        (reported.state.persistent.lifecycle = .opened →
          (reported.state.anchors source).isSome) ∧
        ∀ anchor ∈ reported.state.anchors source, anchor = (bounds, displayId) := by
      cases reported.state.anchors source with
      | some anchor => simp [ChannelSlot.report, ChannelSlot.anchoredAt, Prod.ext_iff]
      | none =>
        by_cases hopen : reported.state.persistent.lifecycle = .opened
        · simp [vacated, ChannelSlot.report, ChannelSlot.anchoredAt, ChannelSlot.isOpen, hopen,
            ChannelSlot.replaced]
        · simp [vacated, ChannelSlot.report, ChannelSlot.anchoredAt, ChannelSlot.isOpen, hopen]
    rw [Meets, atReported_opened_iff hreduce, closesReported_opened_iff hcoherent h hreduce,
      hpreview, hafter, hkept]
    simp only [Option.mem_some_iff, forall_eq', ne_eq, hsource, not_false_eq_true, true_imp_iff]
    tauto

/-! ### Where sources and cards are -/

theorem meets_anchorUpdate (hcoherent : reported.state.Coherent) (h : reported.AtReported)
    (source : CardSourceId) (bounds : Bounds) (displayId : DisplayId) :
    reported.Meets (.anchorUpdate source bounds displayId) := by
  have hslot : ∀ (channel : CardChannel) (here : Prop) [Decidable here],
      (∀ other, reported.IsShown channel other → (here ↔ other = source)) →
      ∀ other, reported.IsShown channel other →
        ((reported.state.slot channel).anchoredAt
          (if here then some (bounds, displayId) else none)).report =
            reported.reports.after (.anchorUpdate source bounds displayId) other := by
    intro channel here _ hhere other hshown
    rw [Reports.after]
    by_cases hother : other = source
    · rw [if_pos ((hhere other hshown).mpr hother), hother, Function.update_self]
      rfl
    · rw [if_neg fun htrue => hother ((hhere other hshown).mp htrue), Function.update_of_ne hother]
      exact h channel other hshown
  rw [meets_iff hcoherent h rfl, AtReported, next, CardState.next, reduce, updateAnchor_state]
  rintro (_ | _) other ⟨hopen, hother⟩
  · have hshown : reported.IsShown .persistent other :=
      ⟨(ChannelSlot.anchoredAt_lifecycle _ _).symm.trans hopen,
        (ChannelSlot.anchoredAt_source _ _).symm.trans hother⟩
    refine hslot .persistent _ (fun other hshown => ?_) other hshown
    rw [show reported.state.persistent.source = some other from hshown.2, Option.some.injEq]
  · have hopened := (ChannelSlot.anchoredAt_lifecycle _ _).symm.trans hopen
    have hshown : reported.IsShown .preview other :=
      ⟨hopened, (ChannelSlot.anchoredAt_source _ _).symm.trans hother⟩
    refine hslot .preview _ (fun other hshown => ?_) other hshown
    -- a preview that is open is not going to open
    have hpending : reported.state.preview.pendingOpenSource = none := by
      have hnone := hcoherent.pendingOpen hopened
      have hsome := hcoherent.pending
      rw [hnone] at hsome
      simpa using hsome
    rw [show reported.state.preview.source = some other from hshown.2, hpending]
    simp

theorem meets_placementUpdated (hcoherent : reported.state.Coherent) (h : reported.AtReported)
    (source : CardSourceId) (channel : CardChannel) (bounds : Bounds) (displayId : DisplayId) :
    reported.Meets (.placementUpdated source channel bounds displayId) ↔
      reported.Faithful (.placementUpdated source channel bounds displayId) := by
  have hother : ∀ other shown, reported.IsShown other shown →
      ((reported.state.slot other).report =
          reported.reports.after (.placementUpdated source channel bounds displayId) shown ↔
        (shown = source → (reported.state.slot other).displayId = some displayId)) := by
    intro other shown hshown
    have hreport := h other shown hshown
    rw [Reports.after]
    by_cases hsource : shown = source
    · subst hsource
      rw [Function.update_self, ← hreport]
      simp [ChannelSlot.report]
    · rw [Function.update_of_ne hsource]
      simp [hreport, hsource]
  rw [meets_iff hcoherent h rfl, Faithful, AtReported, next, CardState.next, reduce]
  split_ifs with hplaced
  · simp only [Bool.and_eq_true, decide_eq_true_eq, ChannelSlot.isOpen_iff] at hplaced
    have hslot : ∀ {other : CardChannel}, other ≠ channel → (reported.state.withSlot
        { reported.state.slot channel with
          cardBounds := some bounds, displayId := some displayId } channel).slot other =
            reported.state.slot other := by
      intro other hne
      cases channel <;> cases other <;> first | rfl | exact absurd rfl hne
    constructor
    · intro hat other hne hshown
      refine (hother other source hshown).mp ?_ rfl
      have hreport := hat other source
      simp only [IsShown, emit, hslot hne] at hreport
      exact hreport hshown
    · rintro hfaithful other shown ⟨hopen, hsource⟩
      by_cases hne : other = channel
      · subst hne
        obtain rfl : shown = source := by
          have hsame := hplaced.1
          cases other <;> exact Option.some.inj (hsource.symm.trans hsame)
        have hreport := h other shown ⟨hplaced.2, hplaced.1⟩
        simp only [Reports.after, Function.update_self, ← hreport]
        cases other <;> rfl
      · simp only [emit, hslot hne] at hopen hsource ⊢
        exact (hother other shown ⟨hopen, hsource⟩).mpr fun hsame =>
          hfaithful other hne ⟨hopen, hsame ▸ hsource⟩
  · constructor
    · exact fun hat other _ hshown => (hother other source hshown).mp (hat other source hshown) rfl
    · refine fun hfaithful other shown hshown => (hother other shown hshown).mpr fun hsame => ?_
      subst hsame
      refine hfaithful other (fun hne => hplaced ?_) hshown
      subst hne
      have hshown : reported.IsShown other shown := hshown
      simp [hshown.2, ChannelSlot.isOpen_iff.mpr hshown.1]

/-- **What a request does exactly when it is faithful.** -/
theorem meets_iff_faithful (hcoherent : reported.state.Coherent) (h : reported.AtReported)
    (request : CardRequest) : reported.Meets request ↔ reported.Faithful request := by
  cases request with
  | sourceEnter source => exact meets_sourceEnter hcoherent h source
  | previewOpenTimer generation => exact meets_previewOpenTimer hcoherent h generation
  | persistentToggle source => exact meets_persistentToggle hcoherent h source
  | persistentToggleAt source bounds displayId =>
    exact meets_persistentToggleAt hcoherent h source bounds displayId
  | anchorUpdate source bounds displayId =>
    exact iff_of_true (meets_anchorUpdate hcoherent h source bounds displayId) trivial
  | placementUpdated source channel bounds displayId =>
    exact meets_placementUpdated hcoherent h source channel bounds displayId
  | _ => exact iff_of_true (meets_calm hcoherent h rfl) trivial

end Reported

open Reported in
/-- **What is opened is closed**, in every run; and what is shown is where it has been reported,
and is closed there, exactly in the runs whose requests are all faithful. -/
theorem protocol_kept (requests : List CardRequest) :
    Along Shown.follow Shown.InTurn (fun _ => none) (emitted requests) ∧
      (Always next AtReported initial requests ∧ Along next ClosesReported initial requests ↔
        Along next Faithful initial requests) := by
  refine ⟨?_, ?_⟩
  · have h := follows_run CardState.coherent_initial requests
    have hshown : CardState.initial.shown = fun _ => none := by
      funext channel
      cases channel <;> rfl
    rwa [hshown] at h
  · have hinitial : initial.AtReported := by
      rintro (_ | _) source ⟨hopen, -⟩ <;> cases hopen
    suffices h : ∀ {reported : Reported}, reported.state.Coherent → reported.AtReported →
        (Always next AtReported reported requests ∧ Along next ClosesReported reported requests ↔
          Along next Faithful reported requests) from
      h CardState.coherent_initial hinitial
    intro reported hcoherent hat
    induction requests generalizing reported with
    | nil => exact iff_of_true ⟨hat, trivial⟩ trivial
    | cons request requests ih =>
      have hmeets := meets_iff_faithful hcoherent hat request
      have hnext : (reported.next request).state.Coherent := hcoherent.next request
      constructor
      · rintro ⟨⟨-, halways⟩, hcloses, halong⟩
        have hat' : (reported.next request).AtReported := by
          cases requests with
          | nil => exact halways
          | cons => exact halways.1
        exact ⟨hmeets.mp ⟨hat', hcloses⟩, (ih hnext hat').mp ⟨halways, halong⟩⟩
      · rintro ⟨hfaithful, halong⟩
        obtain ⟨hat', hcloses⟩ := hmeets.mpr hfaithful
        obtain ⟨halways, hcloses'⟩ := (ih hnext hat').mpr halong
        exact ⟨⟨hat, halways⟩, hcloses, hcloses'⟩

namespace Sample

def left : Bounds := ⟨0, 0, 10, 10⟩

def right : Bounds := ⟨90, 0, 10, 10⟩

/-- A card is clicked on a display while another one is open on the other. -/
def clickedAway : List CardRequest :=
  [.persistentToggleAt clock left 1, .persistentToggleAt weather right 2]

end Sample

/-- The card that gives way is closed on the display of the next one, and the next one is not where
it was clicked. -/
theorem protocol_broken :
    ¬ Along Reported.next Reported.ClosesReported .initial Sample.clickedAway ∧
      ¬ Always Reported.next Reported.AtReported .initial Sample.clickedAway := by
  refine ⟨fun h => ?_, fun h => ?_⟩
  · have hclosed := h.2.1 .persistent .sourceToggle (some 2) 1 Sample.clock (by decide +kernel)
    exact absurd hclosed (by decide +kernel)
  · have hat := h.2.2 .persistent Sample.weather (by decide +kernel)
    exact absurd hat (by decide +kernel)

end Shilpo.Cards
