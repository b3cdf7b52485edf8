import Shilpo.Cards.Protocol

/-!
# What is removed

When a display goes, a source or its owner, no card of what has been removed is to stay, and none
is to open later; the others are to be left alone. What opens later opens for a source that has
called for it (`unshown_run`). For the rest, a source that goes and an owner that goes are known by
name, but the preview that closes and the one that is going to open share a slot; and a display is
known by the slot, which is not always where the source has been anchored (`removed_iff`).
-/

namespace Shilpo.Cards

open Theory

/-! ### Removals -/

/-- The displays on which the sources have been anchored last. -/
abbrev Anchored : Type := CardSourceId → Option DisplayId

def Anchored.after (anchored : Anchored) : CardRequest → Anchored
  | .anchorUpdate source _ displayId | .persistentToggleAt source _ displayId =>
    Function.update anchored source (some displayId)
  | _ => anchored

/-- Where the sources have been anchored after the requests of a run. -/
def anchored (requests : List CardRequest) : Anchored := run Anchored.after (fun _ => none) requests

/-- What is removed. -/
inductive Removal where
  | display (displayId : DisplayId)
  | anchor (removed : CardSourceId)
  | owner (removed : CardOwnerId)

def Removal.request : Removal → CardRequest
  | .display displayId => .displayRemoved displayId
  | .anchor removed => .anchorRemoved removed
  | .owner removed => .ownerRemoved removed

/-- The source is one of what is removed. -/
def Removal.Removes (anchored : Anchored) : Removal → CardSourceId → Prop
  | .display displayId, source => anchored source = some displayId
  | .anchor removed, source => source = removed
  | .owner removed, source => source.owner = removed

/-- The request calls for a card of the source, or says where it is. -/
def CardRequest.Calls (source : CardSourceId) : CardRequest → Prop
  | .sourceEnter called | .persistentToggle called | .persistentToggleAt called .. |
    .anchorUpdate called .. => called = source
  | _ => False

/-- The effect shows the source. -/
def CardEffect.showsSource (source : CardSourceId) : CardEffect → Bool
  | .openChannel _ shown _ | .retargetChannel _ shown _ => shown = source
  | _ => false

/-! ### What is promised -/

/-- Nothing that has been removed is shown, is going to be shown, or is shown later without having
been called for. -/
structure Cleared (Removes : CardSourceId → Prop) (state : CardState) : Prop where
  closed : ∀ channel source, Removes source → (state.slot channel).lifecycle = .opened →
    (state.slot channel).source ≠ some source
  forgotten : ∀ source, Removes source → state.preview.pendingOpenSource ≠ some source
  unshown : ∀ source, Removes source → ∀ requests : List CardRequest,
    (∀ request ∈ requests, ¬ request.Calls source) →
      Lacks (CardEffect.showsSource source)
        (expand CardState.next CardState.effects state requests)

/-- What has not been removed is as it was. -/
structure Isolated (Removes : CardSourceId → Prop) (state next : CardState) : Prop where
  source : ∀ channel source, ¬ Removes source →
    ((next.slot channel).source = some source ↔ (state.slot channel).source = some source)
  lifecycle : ∀ channel source, ¬ Removes source → (state.slot channel).source = some source →
    (next.slot channel).lifecycle = (state.slot channel).lifecycle
  pending : ∀ source, ¬ Removes source → (next.preview.pendingOpenSource = some source ↔
    state.preview.pendingOpenSource = some source)
  generation : ∀ source, ¬ Removes source → state.preview.pendingOpenSource = some source →
    next.preview.pendingOpenGeneration = state.preview.pendingOpenGeneration

/-! ### What keeps it -/

/-- What is removed is known by the slots: a display, where each channel that is open, and the
preview that is going to open, are on the display exactly when their sources have been anchored
there; a source or an owner, where no preview of it is closing while another's is going to open. -/
def Removal.Exact (state : CardState) (anchored : Anchored) : Removal → Prop
  | .display displayId =>
    (∀ channel, (state.slot channel).lifecycle = .opened →
      ∀ source ∈ (state.slot channel).source,
        ((state.slot channel).displayId = some displayId ↔ anchored source = some displayId)) ∧
    ∀ source ∈ state.preview.pendingOpenSource,
      (state.preview.displayId = some displayId ↔ anchored source = some displayId)
  | .anchor removed =>
    ∀ pending ∈ state.preview.pendingOpenSource, state.preview.source = some removed →
      pending = removed
  | .owner removed =>
    ∀ pending ∈ state.preview.pendingOpenSource,
      state.preview.source.map (·.owner) = some removed → pending.owner = removed

/-! ### What opens later -/

theorem CardEffect.showsSource_of_isMark {source : CardSourceId} {effect : CardEffect}
    (h : effect.isMark = false) : effect.showsSource source = false := by
  cases effect <;> first | rfl | cases h

theorem CardEffect.showsSource_of_isShown {source : CardSourceId} {effect : CardEffect}
    (h : effect.isShown = false) : effect.showsSource source = false := by
  cases effect <;> first | rfl | cases h

namespace CardState

variable {state : CardState} {source : CardSourceId}

/-- The part does not show the source, and leaves no preview of it to be opened. -/
def LeavesHidden (source : CardSourceId) (reduction : Reduction) : Prop :=
  Lacks (CardEffect.showsSource source) reduction.effects ∧
    reduction.state.preview.pendingOpenSource ≠ some source

theorem lacks_openPersistent {opened : CardSourceId} (h : opened ≠ source) :
    Lacks (CardEffect.showsSource source) (state.openPersistent opened).effects := by
  have hreplace : Lacks (CardEffect.showsSource source) state.replacePersistent.effects := by
    unfold replacePersistent
    split_ifs <;> simp [Lacks, emit, CardEffect.showsSource]
  have hcapture : ∀ left : CardState,
      Lacks (CardEffect.showsSource source) (left.captureFocus opened).effects := by
    intro left
    unfold captureFocus
    split_ifs <;> simp [Lacks, emit, CardEffect.showsSource]
  have hshow : ∀ left : CardState,
      Lacks (CardEffect.showsSource source) (left.showPersistent opened).effects := by
    intro left effect hmem
    simp only [showPersistent, announceOpened, Reduction.andThen, emit, List.mem_append,
      List.mem_singleton] at hmem
    rcases hmem with rfl | hmem | rfl
    · simp [CardEffect.showsSource, h]
    · exact CardEffect.showsSource_of_isMark (quiet_updateHold _ _ hmem)
    · rfl
  exact (hreplace.append (hcapture _)).append (hshow _)

theorem pending_closePreview (reason : CardDismissReason)
    (hpending : state.preview.pendingOpenSource ≠ some source) :
    (state.closePreview reason).state.preview.pendingOpenSource ≠ some source := by
  rw [closePreview_state]
  split_ifs
  · exact hpending
  · rw [closeVisiblePreview_state, updateHold_state]
    split_ifs <;> exact fun heq => by cases heq

theorem pending_closeRemoved (persistent preview : Bool) (reason : CardDismissReason)
    (hpending : state.preview.pendingOpenSource ≠ some source) :
    (state.closeRemoved (fun _ => persistent) (fun _ =>
      preview) reason).state.preview.pendingOpenSource ≠ some source := by
  have hclosed : (state.closePersistent reason).state.preview = state.preview := by
    rw [closePersistent_state]
    split_ifs <;> rfl
  rw [closeRemoved_state]
  dsimp only
  split_ifs
  · exact pending_closePreview reason (by rwa [hclosed])
  · exact pending_closePreview reason hpending
  · rwa [hclosed]
  · exact hpending

/-- A request that does not call for a source does not show it, unless a preview of it is going to
open. -/
theorem hidden_change {request : CardRequest} {reduction : Reduction}
    (hpending : state.preview.pendingOpenSource ≠ some source) (hcalls : ¬ request.Calls source)
    (hchange : state.Change request reduction) : LeavesHidden source reduction := by
  have hquiet : ∀ {effects : List CardEffect}, Quiet effects →
      Lacks (CardEffect.showsSource source) effects := fun h effect hmem =>
    CardEffect.showsSource_of_isMark (h effect hmem)
  cases hchange with
  | idle _ h => exact ⟨hquiet h, hpending⟩
  | timed _ h => exact ⟨hquiet h, hpending⟩
  | unscheduled _ h =>
    refine ⟨hquiet h, ?_⟩
    rw [Reduction.andThen, updateHold_state]
    exact fun heq => by cases heq
  | scheduled entered =>
    refine ⟨?_, ?_⟩
    · refine Lacks.append ?_ (Lacks.append (hquiet (quiet_updateHold _)) ?_) <;>
        simp [Lacks, emit, CardEffect.showsSource]
    · rw [scheduleOpen_state, updateHold_state]
      exact fun hsource => hcalls (Option.some.inj hsource)
  | retargeted entered =>
    have hne : entered ≠ source := hcalls
    refine ⟨Lacks.append (hquiet (quiet_takeClose _)) ?_, ?_⟩
    · simp [retarget, Lacks, CardEffect.showsSource, hne]
    · rw [Reduction.andThen, retarget, ChannelSlot.anchoredAt_pendingOpenSource]
      exact hpending
  | persistentOpened _ opened anchor hrequest =>
    have hne : opened ≠ source := by
      rintro rfl
      cases request <;> simp_all [CardRequest.toggles, CardRequest.Calls]
    refine ⟨lacks_openPersistent hne, ?_⟩
    rw [openPersistent_state, updateHold_state]
    exact hpending
  | closed _ anchors _ persistent preview reason =>
    have hclose : ∀ left : CardState, Lacks (CardEffect.showsSource source)
        (if preview = true then left.closePreview reason else left.emit []).effects := by
      intro left
      split_ifs
      · exact lacks_closePreview (p := CardEffect.showsSource source)
          (fun _ => CardEffect.showsSource_of_isMark) (fun _ _ _ _ => rfl) left reason
      · exact fun _ hmem => by cases hmem
    refine ⟨Lacks.append ?_ (hclose _), ?_⟩
    · split_ifs
      · unfold closePersistent
        split_ifs <;> simp [Lacks, emit, CardEffect.showsSource]
      · exact fun _ hmem => by cases hmem
    · exact @pending_closeRemoved { state with anchors } source persistent preview reason hpending
  | previewClosed =>
    refine ⟨lacks_closeVisiblePreview (fun _ => CardEffect.showsSource_of_isMark)
      (fun _ _ _ _ => rfl) _ _, ?_⟩
    rw [closeVisiblePreview_state, updateHold_state]
    split_ifs <;> exact hpending
  | anchored opened bounds displayId =>
    refine ⟨hquiet (quiet_updateAnchor _ _ _ _), ?_⟩
    rw [updateAnchor_state, ChannelSlot.anchoredAt_pendingOpenSource]
    exact hpending
  | placed opened channel =>
    refine ⟨.nil, ?_⟩
    cases channel <;> exact hpending
  | previewOpened generation opened _ hopened =>
    have hne : opened ≠ source := fun h => hpending (h ▸ hopened)
    refine ⟨?_, ?_⟩
    · refine Lacks.append ?_ (Lacks.append (hquiet (quiet_updateHold _)) ?_)
      · simp [Lacks, CardEffect.showsSource, hne]
      · simp [Lacks, emit, CardEffect.showsSource]
    · rw [showPreview_state, updateHold_state]
      refine fun hsource => ?_
      cases (ChannelSlot.anchoredAt_pendingOpenSource _ _).symm.trans hsource
  | finished channel generation =>
    refine ⟨fun effect hmem => CardEffect.showsSource_of_isShown
      (lacks_finishClose channel generation effect hmem), ?_⟩
    rw [finishClose_state]
    split_ifs
    · exact hpending
    · rw [updateHold_state]
      cases channel <;> exact hpending

end CardState

/-- **What opens later has been called for.** -/
theorem unshown_run {state : CardState} {source : CardSourceId} (hcoherent : state.Coherent)
    (hpending : state.preview.pendingOpenSource ≠ some source) {requests : List CardRequest}
    (hcalls : ∀ request ∈ requests, ¬ request.Calls source) :
    Lacks (CardEffect.showsSource source)
      (expand CardState.next CardState.effects state requests) := by
  induction requests generalizing state with
  | nil => exact fun _ hmem => by cases hmem
  | cons request requests ih =>
    obtain ⟨hlacks, hpending'⟩ := CardState.hidden_change hpending
      (hcalls request List.mem_cons_self) (CardState.change_reduce hcoherent request)
    exact hlacks.append (ih (hcoherent.next request) hpending' fun request hmem =>
      hcalls request (List.mem_cons_of_mem _ hmem))

/-! ### What is closed -/

namespace CardState

variable {state : CardState}

/-- What becomes of the channels, where those that are hit begin to close. -/
structure Hits (hit : CardChannel → Bool) (state next : CardState) : Prop where
  source : ∀ channel, (next.slot channel).source = (state.slot channel).source
  lifecycle : ∀ channel, (next.slot channel).lifecycle =
    if hit channel && (state.slot channel).isOpen then .closing else (state.slot channel).lifecycle
  pendingSource : next.preview.pendingOpenSource =
    if hit .preview then none else state.preview.pendingOpenSource
  pendingGeneration : next.preview.pendingOpenGeneration =
    if hit .preview then none else state.preview.pendingOpenGeneration

theorem closePersistent_slots (reason : CardDismissReason) (hit : Bool) :
    let next := if hit then (state.closePersistent reason).state else state
    next.persistent.source = state.persistent.source ∧ next.persistent.lifecycle =
        (if hit && state.persistent.isOpen then .closing else state.persistent.lifecycle) ∧
      next.preview = state.preview := by
  rw [closePersistent_state]
  cases hit <;> cases state.persistent.isOpen <;> exact ⟨rfl, rfl, rfl⟩

theorem closePreview_slots (hpending : state.preview.pendingOpenGeneration.isSome ↔
      state.preview.pendingOpenSource.isSome) (reason : CardDismissReason) (hit : Bool) :
    let next := if hit then (state.closePreview reason).state else state
    next.persistent = state.persistent ∧ next.preview.source = state.preview.source ∧
      next.preview.lifecycle =
        (if hit && state.preview.isOpen then .closing else state.preview.lifecycle) ∧
      next.preview.pendingOpenSource =
        (if hit then none else state.preview.pendingOpenSource) ∧
      next.preview.pendingOpenGeneration =
        (if hit then none else state.preview.pendingOpenGeneration) := by
  cases hit with
  | false => exact ⟨rfl, rfl, rfl, rfl, rfl⟩
  | true =>
    simp only [if_true, Bool.true_and, closePreview_state]
    by_cases hclosed :
        (state.preview.isClosed && state.preview.pendingOpenGeneration.isNone) = true
    · -- nothing is going to open
      simp only [Bool.and_eq_true, ChannelSlot.isClosed, decide_eq_true_eq,
        Option.isNone_iff_eq_none] at hclosed
      have hsource : state.preview.pendingOpenSource = none := by
        rw [hclosed.2] at hpending
        simpa using hpending
      simp [ChannelSlot.isOpen, ChannelSlot.isClosed, hclosed, hsource]
    · rw [if_neg hclosed, closeVisiblePreview_state, updateHold_state]
      have hopen : state.untimed.preview.isOpen = state.preview.isOpen := rfl
      rw [hopen]
      cases state.preview.isOpen <;> exact ⟨rfl, rfl, rfl, rfl, rfl⟩

/-- What is removed begins to close in the channels that are hit. -/
theorem hits_closeRemoved (hcoherent : state.Coherent) (hit : CardChannel → Bool)
    (reason : CardDismissReason) :
    Hits hit state (state.closeRemoved (fun _ => hit .persistent) (fun _ => hit .preview)
      reason).state := by
  obtain ⟨hsource, hlifecycle, hpreview⟩ := state.closePersistent_slots reason (hit .persistent)
  obtain ⟨hpersistent', hsource', hlifecycle', hpending', hgeneration'⟩ := @closePreview_slots
    (if hit .persistent then (state.closePersistent reason).state else state)
    (by rw [hpreview]; exact hcoherent.pending) reason (hit .preview)
  rw [hpreview] at hsource' hlifecycle' hpending' hgeneration'
  rw [closeRemoved_state]
  refine ⟨?_, ?_, hpending', hgeneration'⟩
  · rintro (_ | _)
    · exact (congrArg _ hpersistent').trans hsource
    · exact hsource'
  · rintro (_ | _)
    · exact (congrArg _ hpersistent').trans hlifecycle
    · exact hlifecycle'

end CardState

/-- What is removed is cleared, and the rest left alone, exactly where the channels that are hit
are those that show it, or are going to. -/
theorem cleared_isolated_iff {Removes : CardSourceId → Prop} {hit : CardChannel → Bool}
    {state next : CardState} (hnext : next.Coherent)
    (hhits : CardState.Hits hit state next) :
    Cleared Removes next ∧ Isolated Removes state next ↔
      (∀ channel, (state.slot channel).lifecycle = .opened →
        ∀ source ∈ (state.slot channel).source, (hit channel = true ↔ Removes source)) ∧
      ∀ source ∈ state.preview.pendingOpenSource, (hit .preview = true ↔ Removes source) := by
  constructor
  · rintro ⟨hcleared, hisolated⟩
    refine ⟨fun channel hopen source hsource => ?_, fun source hsource => ?_⟩
    · have hisOpen := ChannelSlot.isOpen_iff.mpr hopen
      have hlifecycle := hhits.lifecycle channel
      rw [hisOpen, Bool.and_true, hopen] at hlifecycle
      constructor
      · intro hhit
        by_contra hremoves
        have hkept := hisolated.lifecycle channel source hremoves hsource
        rw [hlifecycle, if_pos hhit, hopen] at hkept
        cases hkept
      · intro hremoves
        by_contra hhit
        rw [if_neg hhit] at hlifecycle
        exact hcleared.closed channel source hremoves hlifecycle
          ((hhits.source channel).trans hsource)
    · have hpending := hhits.pendingSource
      constructor
      · intro hhit
        by_contra hremoves
        have hkept := (hisolated.pending source hremoves).mpr hsource
        rw [hpending, if_pos hhit] at hkept
        cases hkept
      · intro hremoves
        by_contra hhit
        rw [if_neg hhit] at hpending
        exact hcleared.forgotten source hremoves (hpending.trans hsource)
  · rintro ⟨hopen, hpending⟩
    have hforgotten : ∀ source, Removes source → next.preview.pendingOpenSource ≠ some source := by
      intro source hremoves hsource
      rw [hhits.pendingSource] at hsource
      split_ifs at hsource with hhit
      exact hhit ((hpending source hsource).mpr hremoves)
    refine ⟨⟨?_, hforgotten, ?_⟩, ⟨?_, ?_, ?_, ?_⟩⟩
    · intro channel source hremoves hopened hsource
      have hlifecycle := hhits.lifecycle channel
      rw [hopened] at hlifecycle
      rw [hhits.source] at hsource
      split_ifs at hlifecycle with hhit
      have hopen' := hlifecycle.symm
      exact hhit (by
        rw [ChannelSlot.isOpen_iff.mpr hopen', Bool.and_true]
        exact (hopen channel hopen' source hsource).mpr hremoves)
    · intro source hremoves requests hcalls
      exact unshown_run hnext (hforgotten source hremoves) hcalls
    · intro channel source hremoves
      rw [hhits.source]
    · intro channel source hremoves hsource
      rw [hhits.lifecycle]
      split_ifs with hhit
      · rw [Bool.and_eq_true, ChannelSlot.isOpen_iff] at hhit
        exact absurd ((hopen channel hhit.2 source hsource).mp hhit.1) hremoves
      · rfl
    · intro source hremoves
      rw [hhits.pendingSource]
      split_ifs with hhit
      · refine iff_of_false (fun heq => by cases heq) fun hsource => ?_
        exact hremoves ((hpending source hsource).mp hhit)
      · rfl
    · intro source hremoves hsource
      rw [hhits.pendingGeneration, if_neg fun hhit => hremoves ((hpending source hsource).mp hhit)]

/-- The channels that begin to close when something is removed. -/
def Removal.hit (state : CardState) : Removal → CardChannel → Bool
  | .display displayId, channel => (state.slot channel).displayId = some displayId
  | .anchor removed, .persistent => state.persistent.source = some removed
  | .anchor removed, .preview =>
    state.preview.source = some removed || state.preview.pendingOpenSource = some removed
  | .owner removed, .persistent => state.persistent.source.map (·.owner) = some removed
  | .owner removed, .preview =>
    state.preview.source.map (·.owner) = some removed ||
      state.preview.pendingOpenSource.map (·.owner) = some removed

theorem CardState.hits_removal {state : CardState} (hcoherent : state.Coherent)
    (removal : Removal) : Hits (removal.hit state) state (state.next removal.request) := by
  have hforget : ∀ removed, (state.forget removed).Coherent := fun removed =>
    ⟨.of_slots hcoherent.focus (hcoherent.source .persistent) (hcoherent.source .preview)
      hcoherent.pending hcoherent.pendingOpen hcoherent.pendingClose, hcoherent.hold⟩
  cases removal with
  | display displayId =>
    rw [CardState.next, Removal.request, reduce, closeRemoved_eq _ (fun _ _ h => by simp only [h])]
    obtain ⟨hsource, hlifecycle, hpending, hgeneration⟩ := hits_closeRemoved
      (hforget (fun _ anchor => anchor.2 = displayId)) ((Removal.display displayId).hit state) .displayRemoved
    exact ⟨hsource, hlifecycle, hpending, hgeneration⟩
  | anchor removed =>
    rw [CardState.next, Removal.request, reduce, closeRemoved_eq _ (fun _ _ h => by simp only [h])]
    obtain ⟨hsource, hlifecycle, hpending, hgeneration⟩ := hits_closeRemoved
      (hforget (fun source _ => source = removed)) ((Removal.anchor removed).hit state) .sourceDisappeared
    exact ⟨hsource, hlifecycle, hpending, hgeneration⟩
  | owner removed =>
    rw [CardState.next, Removal.request, reduce, closeRemoved_eq _ (fun _ _ h => by simp only [h])]
    obtain ⟨hsource, hlifecycle, hpending, hgeneration⟩ := hits_closeRemoved
      (hforget (fun source _ => source.owner = removed)) ((Removal.owner removed).hit state) .ownerRemoved
    exact ⟨hsource, hlifecycle, hpending, hgeneration⟩

/-- The channels that are hit are those that show what is removed, or are going to. -/
theorem Removal.exact_iff {state : CardState} (hcoherent : state.Coherent) (anchored : Anchored)
    (removal : Removal) :
    ((∀ channel, (state.slot channel).lifecycle = .opened → ∀ source ∈ (state.slot channel).source,
      (removal.hit state channel = true ↔ removal.Removes anchored source)) ∧
      ∀ source ∈ state.preview.pendingOpenSource,
        (removal.hit state .preview = true ↔ removal.Removes anchored source)) ↔
    removal.Exact state anchored := by
  have hopen : state.preview.lifecycle = .opened → state.preview.pendingOpenSource = none := by
    intro hopened
    have hnone := hcoherent.pendingOpen hopened
    have hsome := hcoherent.pending
    rw [hnone] at hsome
    simpa using hsome
  cases removal with
  | display displayId =>
    simp only [hit, Removes, Exact, decide_eq_true_eq]
    rfl
  | anchor removed =>
    rw [Exact, and_iff_right]
    · refine forall₂_congr fun pending hpending => ?_
      have hpending : state.preview.pendingOpenSource = some pending := hpending
      simp only [hit, Removes, hpending, Bool.or_eq_true, decide_eq_true_eq, Option.some.injEq]
      tauto
    · rintro (_ | _) hopened source hsource
      · have hsource : state.persistent.source = some source := hsource
        simp [hit, Removes, hsource]
      · have hsource : state.preview.source = some source := hsource
        simp [hit, Removes, hsource, hopen hopened]
  | owner removed =>
    rw [Exact, and_iff_right]
    · refine forall₂_congr fun pending hpending => ?_
      have hpending : state.preview.pendingOpenSource = some pending := hpending
      simp only [hit, Removes, hpending, Bool.or_eq_true, decide_eq_true_eq, Option.map_some,
        Option.some.injEq]
      tauto
    · rintro (_ | _) hopened source hsource
      · have hsource : state.persistent.source = some source := hsource
        simp [hit, Removes, hsource]
      · have hsource : state.preview.source = some source := hsource
        simp [hit, Removes, hsource, hopen hopened]

/-- **What is removed is cleared, and the rest left alone**, after every run exactly where what is
removed is known by the slots. -/
theorem removed_iff (requests : List CardRequest) (removal : Removal) :
    let state := run CardState.next CardState.initial requests
    let next := run CardState.next CardState.initial (requests ++ [removal.request])
    let Removes := removal.Removes (anchored requests)
    Cleared Removes next ∧ Isolated Removes state next ↔ removal.Exact state (anchored requests) := by
  have hcoherent : (run CardState.next CardState.initial requests).Coherent :=
    Preserved.holds (fun _ request h => h.next request) CardState.coherent_initial requests
  dsimp only
  rw [run_append, run_cons, run_nil, ← removal.exact_iff hcoherent]
  exact cleared_isolated_iff (hcoherent.next _) (CardState.hits_removal hcoherent removal)

namespace Sample

/-- A preview is going to open for a source that has been anchored on a display. -/
def hovered : List CardRequest := [.anchorUpdate weather left 1, .sourceEnter weather]

/-- A preview is closing while another one is going to open. -/
def passedOn : List CardRequest :=
  [.sourceEnter weather, .previewOpenTimer 1, .dismiss .preview .escape, .sourceEnter clock]

end Sample

/-- The preview opens though its display has gone; and none opens for a source that has stayed,
as the one that is closing has gone. -/
theorem not_removed :
    ¬ Cleared ((Removal.display 1).Removes (anchored Sample.hovered))
        (run CardState.next CardState.initial (Sample.hovered ++ [CardRequest.displayRemoved 1])) ∧
      ¬ Isolated ((Removal.anchor Sample.weather).Removes (anchored Sample.passedOn))
        (run CardState.next CardState.initial Sample.passedOn)
        (run CardState.next CardState.initial
          (Sample.passedOn ++ [CardRequest.anchorRemoved Sample.weather])) := by
  refine ⟨fun h => ?_, fun h => ?_⟩
  · have hremoves : (Removal.display 1).Removes (anchored Sample.hovered) Sample.weather := by
      change anchored Sample.hovered Sample.weather = some 1
      decide +kernel
    exact h.forgotten Sample.weather hremoves (by decide +kernel)
  · have hstays : ¬ (Removal.anchor Sample.weather).Removes (anchored Sample.passedOn)
        Sample.clock := by
      change ¬ Sample.clock = Sample.weather
      decide +kernel
    exact absurd ((h.pending Sample.clock hstays).mpr (by decide +kernel)) (by decide +kernel)

end Shilpo.Cards
