import Shilpo.Engine.Engine
import Shilpo.Extensions.StateRefinement

/-!
# Events of contributions

Which events of contributions reach their guest. The field `contribution_id` of an event is read as
a canonical name by the session and as the name within the extension by the host, and the shell
writes it in either way: an input comes with a canonical name, which the host refuses; what
`mount_contribution` and `unmount_contribution` send comes with the name within the extension, for
which the session finds no extension. Only the events that `reconcile_instances` makes, with
canonical names and no inputs among them, reach the guest (`delivered_iff_isReconciliation`).

The guests are those of a runtime that keeps a record of the events it hands on (`recording`).
-/

namespace Shilpo.Extensions

/-! ### Names -/

/-- A name that can be made: its parts have been looked at. -/
structure CanonicalId.WellFormed (canonical : CanonicalId) : Prop where
  extensionId : Config.isExtensionId canonical.extensionId.text = true
  contributionId : ContributionId.new canonical.contributionId.text = .ok canonical.contributionId

theorem ContributionId.slash_notMem {value : String} {id : ContributionId}
    (h : ContributionId.new value = .ok id) : '/' ∉ value.toList := by
  rw [ContributionId.new] at h
  split at h
  · rename_i hvalid
    rw [Bool.and_eq_true] at hvalid
    intro hmem
    have hslash := List.all_eq_true.mp hvalid.2 '/' hmem
    revert hslash
    decide
  · cases h

/-- A canonical name is no name of a contribution within its extension. -/
theorem ContributionId.new_text (canonical : CanonicalId) :
    ContributionId.new canonical.text = .error (.invalidContributionId canonical.text) := by
  cases h : ContributionId.new canonical.text with
  | ok id =>
    refine absurd ?_ (ContributionId.slash_notMem h)
    simp [CanonicalId.text]
  | error err =>
    rw [ContributionId.new] at h
    split at h
    · cases h
    · cases h
      rfl

/-- The name of a contribution within its extension is no canonical name. -/
theorem CanonicalId.parse_contributionId {canonical : CanonicalId} (h : canonical.WellFormed) :
    CanonicalId.parse canonical.contributionId.text =
      .error (.invalidCanonicalId canonical.contributionId.text) := by
  have hnil : canonical.contributionId.text.toList.dropWhile (· ≠ '/') = [] := by
    rw [List.dropWhile_eq_nil_iff]
    intro c hc
    have hne : c ≠ '/' := fun he =>
      ContributionId.slash_notMem h.contributionId (he ▸ hc)
    simpa using hne
  rw [CanonicalId.parse, hnil]

theorem slash_notMem_of_isExtensionId {text : String} (h : Config.isExtensionId text = true) :
    '/' ∉ text.toList := by
  intro hmem
  have hslash := isIdChar_of_mem h hmem
  revert hslash
  decide

/-- A canonical name is read as it has been written. -/
theorem CanonicalId.parse_text {canonical : CanonicalId} (h : canonical.WellFormed) :
    CanonicalId.parse canonical.text = .ok canonical := by
  have htext : canonical.text.toList =
      canonical.extensionId.text.toList ++ '/' :: canonical.contributionId.text.toList := by
    simp [CanonicalId.text]
  have hbefore : ∀ c ∈ canonical.extensionId.text.toList, decide (c ≠ '/') = true := by
    intro c hc
    have hne : c ≠ '/' := fun he => slash_notMem_of_isExtensionId h.extensionId (he ▸ hc)
    simpa using hne
  have hdrop : canonical.text.toList.dropWhile (· ≠ '/') =
      '/' :: canonical.contributionId.text.toList := by
    rw [htext, List.dropWhile_append_of_pos hbefore]
    rfl
  have htake : canonical.text.toList.takeWhile (· ≠ '/') = canonical.extensionId.text.toList := by
    rw [htext, List.takeWhile_append_of_pos hbefore, List.takeWhile_cons]
    simp
  rw [CanonicalId.parse, hdrop]
  simp only [htake, if_neg (ContributionId.slash_notMem h.contributionId), String.ofList_toList,
    ExtensionId.new, h.extensionId, h.contributionId, if_true]
  rfl

end Shilpo.Extensions

namespace Shilpo.Engine

open Extensions
open Config (JsonValue)

variable {T : Payloads} {ρ σ : Type}

/-! ### The record -/

/-- Events, and the guests they were handed to. -/
abbrev Record := List (ExtensionId × ExtensionEvent)

/-- What a call of the runtime leaves, with the record. -/
def recorded {β : Type} (result : β × ρ) (record : Record) : β × (ρ × Record) :=
  (result.1, result.2, record)

/-- The runtime, with a record of the events it hands to guests. -/
def EngineRuntime.recording (machine : EngineRuntime T ρ) : EngineRuntime T (ρ × Record) where
  load s id module budget declared granted :=
    recorded (machine.load s.1 id module budget declared granted) s.2
  replace s id module budget declared granted :=
    recorded (machine.replace s.1 id module budget declared granted) s.2
  unload s id := recorded (machine.unload s.1 id) s.2
  dispatch s id event budget :=
    recorded (machine.dispatch s.1 id event budget) (s.2 ++ [(id, event)])
  view s id contribution budget := recorded (machine.view s.1 id contribution budget) s.2
  search s id contribution request budget :=
    recorded (machine.search s.1 id contribution request budget) s.2
  compileModule s bytes := machine.compileModule s.1 bytes
  validateModule s id module budget declared granted :=
    recorded (machine.validateModule s.1 id module budget declared granted) s.2

/-- The surroundings with such a runtime. -/
def EngineEnv.recording (env : EngineEnv T ρ σ) : EngineEnv T (ρ × Record) σ where
  host := env.host
  runtime := env.runtime.recording
  scripts := env.scripts
  fromToml := env.fromToml
  aboveShilpo := env.aboveShilpo
  clock := env.clock
  arrange := env.arrange
  arrange_perm := env.arrange_perm

/-- The record of a host. -/
def Host.handed (host : Host (ρ × Record)) : Record := host.inner.runtime.2

/-- The record of a session. -/
def ExtensionSession.handed (session : ExtensionSession T (ρ × Record)) : Record :=
  session.host.handed

section

variable {henv : HostEnv T} {machine : EngineRuntime T ρ} {inner : ExtensionHost (ρ × Record)}
  {clock : ClockReadings} {id : ExtensionId} {event : ExtensionEvent}

theorem record_renderView {canonical : CanonicalId} :
    (inner.renderView henv machine.recording.toExtensionRuntime clock canonical).2.runtime.2 =
      inner.runtime.2 := by
  simp only [ExtensionHost.renderView, ExtensionHost.enter]
  split
  · rfl
  split
  · rfl
  split
  · rfl
  split
  case h_1 hview => exact (congrArg (fun r => r.2.2) hview).symm
  case h_2 hview =>
    have hrecord := (congrArg (fun r => r.2.2) hview).symm
    split <;> exact hrecord

/-- An event is handed to the guest of its extension, or to none. -/
theorem record_dispatchEvent :
    (inner.dispatchEvent henv machine.recording.toExtensionRuntime clock id event).2.runtime.2 =
        inner.runtime.2 ∨
      (inner.dispatchEvent henv machine.recording.toExtensionRuntime clock id event).2.runtime.2 =
        inner.runtime.2 ++ [(id, event)] := by
  unfold ExtensionHost.dispatchEvent ExtensionHost.enter
  split
  · exact .inl rfl
  split
  · exact .inl rfl
  dsimp only
  split
  · exact .inl rfl
  split
  · exact .inl rfl
  split
  case h_1 hdispatch => exact .inr (congrArg (fun r => r.2.2) hdispatch).symm
  case h_2 hdispatch =>
    have hrecord := (congrArg (fun r => r.2.2) hdispatch).symm
    split <;> exact .inr hrecord

/-- A closed circuit lets a call through. -/
theorem acquirePermit_of_closed {breaker : CircuitBreaker} (h : shown breaker id = .closed)
    (now : ℕ) : (breaker.acquirePermit now id).2 = .ok ⟨none⟩ := by
  have hstate : ∃ n, (breaker.state id).getD (.closed 0) = .closed n := by
    simp only [shown] at h
    split at h
    case h_1 hnone => exact ⟨0, by rw [hnone]; rfl⟩
    case h_2 n hclosed => exact ⟨n, by rw [hclosed]; rfl⟩
    all_goals cases h
  obtain ⟨n, hclosed⟩ := hstate
  rw [CircuitBreaker.acquirePermit, hclosed]
  rfl

/-- An event that need not be subscribed to is handed to the guest, if it is no input. -/
theorem record_dispatchEvent_of_closed {registration : Registration}
    (hclosed : shown inner.circuitBreaker id = .closed)
    (hregistration : inner.registrations.lookup id = some registration)
    (hkind : event.subscriptionKind = none)
    (hinput : ExtensionHost.checkInput id registration event = .ok ()) :
    (inner.dispatchEvent henv machine.recording.toExtensionRuntime clock id event).2.runtime.2 =
      inner.runtime.2 ++ [(id, event)] := by
  have hhears : ExtensionHost.hears registration event = true := by
    rw [ExtensionHost.hears, hkind]
  unfold ExtensionHost.dispatchEvent ExtensionHost.enter
  split
  case h_1 hpermit =>
    have herror := congrArg Prod.snd hpermit
    rw [acquirePermit_of_closed hclosed] at herror
    cases herror
  rw [hregistration]
  dsimp only
  rw [hhears, if_neg (by decide), hinput]
  dsimp only
  split
  case h_1 hdispatch => exact (congrArg (fun r => r.2.2) hdispatch).symm
  case h_2 hdispatch =>
    have hrecord := (congrArg (fun r => r.2.2) hdispatch).symm
    split <;> exact hrecord

/-- An input that is refused is handed to none. -/
theorem dispatchEvent_of_refused {err : ExtensionHost.Error}
    (hinput : ∀ registration, ExtensionHost.checkInput id registration event = .error err)
    (hkind : event.subscriptionKind = none) :
    (∃ err, (inner.dispatchEvent henv machine.recording.toExtensionRuntime clock id event).1 =
        .error err) ∧
      (inner.dispatchEvent henv machine.recording.toExtensionRuntime clock id event).2.runtime.2 =
        inner.runtime.2 := by
  unfold ExtensionHost.dispatchEvent ExtensionHost.enter
  split
  · exact ⟨⟨_, rfl⟩, rfl⟩
  split
  · exact ⟨⟨_, rfl⟩, rfl⟩
  case h_2 registration _ =>
    have hhears : ExtensionHost.hears registration event = true := by
      rw [ExtensionHost.hears, hkind]
    dsimp only
    rw [hhears, if_neg (by decide), hinput]
    exact ⟨⟨err, rfl⟩, rfl⟩

end

/-! ### Commands of the shell -/

/-- What the shell asks for of a contribution, or of all. -/
inductive ShellRequest where
  | sendInput (contribution : CanonicalId) (instanceId : Option String) (eventId : String)
      (value : Option JsonValue)
  | mountContribution (contribution : CanonicalId) (width height : Float32)
  | unmountContribution (contribution : CanonicalId)
  | sendInstanceReconciliation (desired : List ContributionInstance)

/-- The command it is sent as. -/
def ShellRequest.command (generation : ℕ) : ShellRequest → ExtensionCommand
  | .sendInput contribution instanceId eventId value =>
    .input generation contribution instanceId eventId value
  | .mountContribution contribution width height =>
    .lifecycle generation
      (.contributionMounted contribution.contributionId.text none width height)
  | .unmountContribution contribution =>
    .lifecycle generation (.contributionUnmounted contribution.contributionId.text none)
  | .sendInstanceReconciliation desired => .reconcileInstances generation desired

/-- What is wanted is put in place by the engine. -/
def ShellRequest.isReconciliation : ShellRequest → Bool
  | .sendInstanceReconciliation _ => true
  | _ => false

/-! ### Offers -/

/-- An event of a contribution, and the session before and after it is dispatched. -/
structure Offer (T : Payloads) (ρ : Type) where
  contribution : CanonicalId
  event : ExtensionEvent
  before : ExtensionSession T ρ
  after : ExtensionSession T ρ

/-- The extension of the contribution is registered, its circuit is closed, and it declares the
contribution. -/
def Offer.Ready (offer : Offer T ρ) : Prop :=
  shown offer.before.host.inner.circuitBreaker offer.contribution.extensionId = .closed ∧
    ∃ registration, offer.before.host.inner.registrations.lookup offer.contribution.extensionId =
      some registration ∧
      registration.manifest.contributions.contains offer.contribution.contributionId = true

/-- What is handed to guests. -/
def Offer.handed (offer : Offer T (ρ × Record)) : Record :=
  offer.after.handed.drop offer.before.handed.length

/-- The event is handed to the guest once, and to no other. -/
def Offer.Delivered (offer : Offer T (ρ × Record)) : Prop :=
  offer.handed = [(offer.contribution.extensionId, offer.event)]

namespace ExtensionSession

variable (env : EngineEnv T ρ σ)

/-- The offers of events that are dispatched one after the other. -/
def offersOf (contribution : CanonicalId) :
    List ExtensionEvent → ExtensionSession T ρ → List (Offer T ρ)
  | [], _ => []
  | event :: events, session =>
    ⟨contribution, event, session, (session.dispatch env event).2⟩ ::
      offersOf contribution events (session.dispatch env event).2

/-- The offers where what stands where nothing is wanted is taken away. -/
def unmountOffers (desired : AList fun _ : String => ContributionInstance) :
    List String → ExtensionSession T ρ → List (Offer T ρ)
  | [], _ => []
  | key :: keys, session =>
    match desired.lookup key, session.instances.lookup key with
    | none, some placed =>
      ⟨placed.contribution, unmounted placed, session,
          (session.dispatch env (unmounted placed)).2⟩ ::
        unmountOffers desired keys (session.dispatch env (unmounted placed)).2
    | _, _ => unmountOffers desired keys session

/-- The session in which what is wanted has been noted. -/
def adjustedFor (key : String) (wanted : ContributionInstance) (session : ExtensionSession T ρ) :
    ExtensionSession T ρ :=
  { session with
    instances :=
      match session.instances.lookup key with
      | some placed => session.instances.insert key (adjusted placed wanted)
      | none => session.instances }

/-- The offers where what is wanted is put where it belongs. -/
def placeOffers :
    List (Sigma fun _ : String => ContributionInstance) → ExtensionSession T ρ → List (Offer T ρ)
  | [], _ => []
  | ⟨key, wanted⟩ :: entries, session =>
    let events := eventsFor (session.instances.lookup key) wanted
    offersOf env wanted.contribution events (session.adjustedFor key wanted) ++
      placeOffers entries ((session.adjustedFor key wanted).dispatchAll env events).2

/-- The offers of `reconcile_instances`. -/
def reconcileOffers (desired : List ContributionInstance) (session : ExtensionSession T ρ) :
    List (Offer T ρ) :=
  let wanted : AList fun _ : String => ContributionInstance :=
    desired.foldl (fun wanted placed => wanted.insert placed.id placed) ∅
  let keys := env.arrange session.instances.keys
  session.unmountOffers env wanted keys ++
    (session.unmountEach env wanted keys).2.placeOffers env (env.arrange wanted.entries)

end ExtensionSession

/-- The events of contributions that are dispatched when the engine gets what the shell asks for. -/
def ShellRequest.offers (env : EngineEnv T ρ σ) (session : ExtensionSession T ρ) :
    ShellRequest → List (Offer T ρ)
  | .sendInput contribution instanceId eventId value =>
    let event := .input contribution.text instanceId eventId value
    [⟨contribution, event, session,
      (session.dispatchToExtension env contribution.extensionId event).2⟩]
  | .mountContribution contribution width height =>
    let event := .contributionMounted contribution.contributionId.text none width height
    [⟨contribution, event, session, (session.dispatch env event).2⟩]
  | .unmountContribution contribution =>
    let event := .contributionUnmounted contribution.contributionId.text none
    [⟨contribution, event, session, (session.dispatch env event).2⟩]
  | .sendInstanceReconciliation desired => session.reconcileOffers env desired

/-! ### Handing on -/

section

variable {env : EngineEnv T ρ σ} {session : ExtensionSession T (ρ × Record)} {id : ExtensionId}
  {event : ExtensionEvent}

namespace ExtensionSession

theorem handed_render (canonical : CanonicalId) :
    (session.render env.recording canonical).2.handed = session.handed := by
  have hrecord : (session.host.renderView env.recording canonical).2.handed = session.handed :=
    record_renderView
  rw [render]
  split <;> rename_i hrender <;> rw [hrender] at hrecord <;> exact hrecord

theorem handed_renderAll (canonicals : List CanonicalId) :
    (session.renderAll env.recording canonicals).2.handed = session.handed := by
  induction canonicals generalizing session with
  | nil => rfl
  | cons canonical canonicals ih => exact ih.trans (handed_render canonical)

theorem handed_refreshEventViews :
    (session.refreshEventViews env.recording event id).2.handed = session.handed := by
  unfold refreshEventViews
  split
  · split
    · rfl
    · split
      · rfl
      · exact handed_renderAll _
  · exact handed_renderAll _

/-- What a dispatch hands on is what the host hands on. -/
theorem handed_dispatchToExtension :
    (session.dispatchToExtension env.recording id event).2.handed =
      (session.host.dispatchEvent env.recording id event).2.handed := by
  rw [dispatchToExtension]
  split
  · rename_i hdispatch
    rw [hdispatch]
    rfl
  · rename_i hdispatch
    rw [hdispatch]
    exact handed_refreshEventViews

theorem dispatchToExtension_cases :
    (session.dispatchToExtension env.recording id event).2.handed = session.handed ∨
      (session.dispatchToExtension env.recording id event).2.handed =
        session.handed ++ [(id, event)] := by
  rw [handed_dispatchToExtension]
  exact record_dispatchEvent

/-- What is handed on is added to the record. -/
theorem handed_isPrefix_dispatchToExtension :
    session.handed <+: (session.dispatchToExtension env.recording id event).2.handed := by
  obtain h | h := dispatchToExtension_cases
  · rw [h]
  · rw [h]
    exact List.prefix_append ..

theorem handed_dispatchEach (ids : List ExtensionId) (session : ExtensionSession T (ρ × Record)) :
    session.handed <+: (session.dispatchEach env.recording event ids).2.handed := by
  induction ids generalizing session with
  | nil => exact List.prefix_rfl
  | cons id ids ih =>
    exact handed_isPrefix_dispatchToExtension.trans (ih _)

theorem handed_dispatch : session.handed <+: (session.dispatch env.recording event).2.handed :=
  handed_dispatchEach _ { session with instances := noteInstance event session.instances }

/-- An event of a contribution that is not an input reaches the guest of the contribution, if that
is registered and its circuit is closed. -/
theorem handed_dispatch_of_ready {canonical : CanonicalId} (hcanonical : canonical.WellFormed)
    (hnamed : namedBy event = some canonical.text)
    (hinput : ∀ contributionId instanceId eventId value,
      event ≠ .input contributionId instanceId eventId value)
    (hclosed : shown session.host.inner.circuitBreaker canonical.extensionId = .closed)
    {registration : Registration}
    (hregistration : session.host.inner.registrations.lookup canonical.extensionId =
      some registration) :
    (session.dispatch env.recording event).2.handed =
      session.handed ++ [(canonical.extensionId, event)] := by
  have htargets : session.targetIds event = [canonical.extensionId] := by
    simp only [targetIds, hnamed, CanonicalId.parse_text hcanonical]
  have hkind : event.subscriptionKind = none := by
    cases event <;> first | rfl | cases hnamed
  have hcheck : ExtensionHost.checkInput canonical.extensionId registration event = .ok () := by
    cases event <;> first | rfl | exact (hinput _ _ _ _ rfl).elim
  rw [dispatch, htargets]
  exact handed_dispatchToExtension.trans
    (record_dispatchEvent_of_closed hclosed hregistration hkind hcheck)

/-- An event that names its contribution otherwise reaches no guest. -/
theorem handed_dispatch_of_unnamed {contributionId : String} {err : IdError}
    (hparse : CanonicalId.parse contributionId = .error err)
    (hnamed : namedBy event = some contributionId) :
    (session.dispatch env.recording event).2.handed = session.handed := by
  have htargets : session.targetIds event = [] := by simp only [targetIds, hnamed, hparse]
  rw [dispatch, htargets]
  rfl

end ExtensionSession

/-! ### What is made by reconciliation -/

/-- The offer is a dispatch of an event that names its contribution canonically and is no input. -/
structure Offer.Made (env : EngineEnv T (ρ × Record) σ) (offer : Offer T (ρ × Record)) : Prop where
  after : offer.after = (offer.before.dispatch env offer.event).2
  named : ExtensionSession.namedBy offer.event = some offer.contribution.text
  noInput : ∀ contributionId instanceId eventId value,
    offer.event ≠ .input contributionId instanceId eventId value

theorem Offer.Made.delivered {offer : Offer T (ρ × Record)} (h : offer.Made env.recording)
    (hcontribution : offer.contribution.WellFormed) (hready : offer.Ready) : offer.Delivered := by
  obtain ⟨hclosed, registration, hregistration, -⟩ := hready
  have hdispatch : (offer.before.dispatch env.recording offer.event).2.handed = _ :=
    ExtensionSession.handed_dispatch_of_ready hcontribution h.named h.noInput hclosed hregistration
  rw [Offer.Delivered, Offer.handed, h.after, hdispatch, List.drop_left]

/-- What one offer hands on is added to the record. -/
theorem handed_offer {contribution : CanonicalId} {after : ExtensionSession T (ρ × Record)}
    (h : session.handed <+: after.handed) :
    after.handed = session.handed ++
      [Offer.mk contribution event session after].flatMap Offer.handed := by
  rw [List.flatMap_singleton]
  exact (List.prefix_iff_eq_append.mp h).symm

theorem Offer.Made.handed_after {offer : Offer T (ρ × Record)} (h : offer.Made env.recording) :
    offer.after.handed = offer.before.handed ++ offer.handed := by
  have hprefix : offer.before.handed <+: offer.after.handed := by
    rw [h.after]
    exact ExtensionSession.handed_dispatch
  exact (List.prefix_iff_eq_append.mp hprefix).symm

namespace ExtensionSession

theorem made_offersOf {contribution : CanonicalId} {events : List ExtensionEvent}
    (hevents : ∀ event ∈ events, namedBy event = some contribution.text ∧
      ∀ contributionId instanceId eventId value,
        event ≠ .input contributionId instanceId eventId value) :
    ∀ offer ∈ session.offersOf env.recording contribution events, offer.Made env.recording := by
  induction events generalizing session with
  | nil => exact List.forall_mem_nil _
  | cons event events ih =>
    obtain ⟨hevent, hevents⟩ := List.forall_mem_cons.mp hevents
    exact List.forall_mem_cons.mpr ⟨⟨rfl, hevent.1, hevent.2⟩, ih hevents⟩

theorem named_eventsFor (existing : Option ContributionInstance) (wanted : ContributionInstance) :
    ∀ event ∈ eventsFor existing wanted, namedBy event = some wanted.contribution.text ∧
      ∀ contributionId instanceId eventId value,
        event ≠ .input contributionId instanceId eventId value := by
  intro event hevent
  cases existing with
  | none =>
    simp only [eventsFor, List.mem_cons, List.not_mem_nil, or_false] at hevent
    obtain rfl | rfl := hevent
    · exact ⟨rfl, fun _ _ _ _ h => by cases h⟩
    · exact ⟨rfl, fun _ _ _ _ h => by cases h⟩
  | some existing =>
    obtain hevent | hevent := List.mem_append.mp hevent
    all_goals
      split at hevent
      · rw [List.mem_singleton.mp hevent]
        exact ⟨rfl, fun _ _ _ _ h => by cases h⟩
      · cases hevent

theorem made_unmountOffers {desired : AList fun _ : String => ContributionInstance}
    {keys : List String} :
    ∀ offer ∈ session.unmountOffers env.recording desired keys, offer.Made env.recording := by
  induction keys generalizing session with
  | nil => exact List.forall_mem_nil _
  | cons key keys ih =>
    rw [unmountOffers]
    split
    · exact List.forall_mem_cons.mpr ⟨⟨rfl, rfl, fun _ _ _ _ h => by cases h⟩, ih⟩
    · exact ih

theorem made_placeOffers {entries : List (Sigma fun _ : String => ContributionInstance)} :
    ∀ offer ∈ session.placeOffers env.recording entries, offer.Made env.recording := by
  induction entries generalizing session with
  | nil => exact List.forall_mem_nil _
  | cons entry entries ih =>
    rw [placeOffers]
    exact List.forall_mem_append.mpr ⟨made_offersOf (named_eventsFor _ _), ih⟩

theorem made_reconcileOffers {desired : List ContributionInstance} :
    ∀ offer ∈ session.reconcileOffers env.recording desired, offer.Made env.recording :=
  List.forall_mem_append.mpr ⟨made_unmountOffers, made_placeOffers⟩

/-! ### What is handed on -/

theorem handed_dispatchAll {contribution : CanonicalId} {events : List ExtensionEvent}
    (hevents : ∀ event ∈ events, namedBy event = some contribution.text ∧
      ∀ contributionId instanceId eventId value,
        event ≠ .input contributionId instanceId eventId value) :
    (session.dispatchAll env.recording events).2.handed =
      session.handed ++ (session.offersOf env.recording contribution events).flatMap
        Offer.handed := by
  induction events generalizing session with
  | nil => exact (List.append_nil _).symm
  | cons event events ih =>
    have hmade : Offer.Made env.recording
        ⟨contribution, event, session, (session.dispatch env.recording event).2⟩ :=
      made_offersOf hevents _ (List.mem_cons_self ..)
    have hafter := hmade.handed_after
    rw [offersOf, List.flatMap_cons, ← List.append_assoc, ← hafter]
    exact ih (List.forall_mem_cons.mp hevents).2

theorem handed_unmountEach {desired : AList fun _ : String => ContributionInstance}
    {keys : List String} :
    (session.unmountEach env.recording desired keys).2.handed =
      session.handed ++ (session.unmountOffers env.recording desired keys).flatMap
        Offer.handed := by
  induction keys generalizing session with
  | nil => exact (List.append_nil _).symm
  | cons key keys ih =>
    rw [unmountEach, unmountOffers]
    cases hdesired : desired.lookup key with
    | some wanted => exact ih
    | none =>
      cases hplaced : session.instances.lookup key with
      | none => exact ih
      | some placed =>
        have hmade : Offer.Made env.recording ⟨placed.contribution, unmounted placed, session,
            (session.dispatch env.recording (unmounted placed)).2⟩ :=
          ⟨rfl, rfl, fun _ _ _ _ h => by cases h⟩
        dsimp only
        rw [List.flatMap_cons, ← List.append_assoc, ← hmade.handed_after]
        exact ih

theorem handed_placeEach {entries : List (Sigma fun _ : String => ContributionInstance)} :
    (session.placeEach env.recording entries).2.handed =
      session.handed ++ (session.placeOffers env.recording entries).flatMap Offer.handed := by
  induction entries generalizing session with
  | nil => exact (List.append_nil _).symm
  | cons entry entries ih =>
    obtain ⟨key, wanted⟩ := entry
    rw [placeOffers, List.flatMap_append, ← List.append_assoc]
    refine ih.trans (congrArg (· ++ _) ?_)
    exact handed_dispatchAll (named_eventsFor (session.instances.lookup key) wanted)

theorem handed_reconcileInstances {desired : List ContributionInstance} :
    (session.reconcileInstances env.recording desired).2.handed =
      session.handed ++ (session.reconcileOffers env.recording desired).flatMap Offer.handed := by
  rw [reconcileOffers, List.flatMap_append, ← List.append_assoc, ← handed_unmountEach]
  exact handed_placeEach

end ExtensionSession

/-! ### Commands -/

namespace ExtensionEngine

variable (env : EngineEnv T ρ σ) (engine : ExtensionEngine T (ρ × Record) σ)

/-- The record of the engine. -/
def handed : Record := engine.session.handed

/-- A snapshot adds to the record what it puts in place, if that has been waiting. -/
theorem handed_buildSnapshot (catalogChanged : Bool) : ∃ later,
    (engine.buildSnapshot env.recording catalogChanged).2.handed = engine.handed ++ later ∧
      (engine.pendingReconcile = none → later = []) ∧
      (engine.buildSnapshot env.recording catalogChanged).2.pendingReconcile = none := by
  cases hpending : engine.pendingReconcile with
  | none =>
    refine ⟨[], ?_, fun _ => rfl, ?_⟩
    · simp only [buildSnapshot, hpending, List.append_nil]
    · simp only [buildSnapshot, hpending]
  | some desired =>
    refine ⟨(engine.session.reconcileOffers env.recording desired).flatMap Offer.handed, ?_, ?_, ?_⟩
    · simp only [buildSnapshot, hpending]
      exact ExtensionSession.handed_reconcileInstances
    · intro h
      cases h
    · simp only [buildSnapshot, hpending]

theorem handed_updateOf (withSnapshot : Bool) (changes : ExtensionChanges) : ∃ later,
    (engine.updateOf env.recording withSnapshot changes).2.handed = engine.handed ++ later ∧
      (engine.pendingReconcile = none → later = [] ∧
        (engine.updateOf env.recording withSnapshot changes).2.pendingReconcile = none) := by
  rw [updateOf]
  split_ifs with hsnapshot
  · obtain ⟨later, hhanded, hlater, hnone⟩ := engine.handed_buildSnapshot env false
    exact ⟨later, hhanded, fun h => ⟨hlater h, hnone⟩⟩
  · exact ⟨[], (List.append_nil _).symm, fun h => ⟨rfl, h⟩⟩

theorem handed_finish (update : Option (ExtensionUpdate T)) : ∃ later,
    (engine.finish env.recording update).2.handed = engine.handed ++ later ∧
      (engine.pendingReconcile = none → later = []) := by
  rw [finish]
  cases update with
  | none => exact ⟨[], (List.append_nil _).symm, fun _ => rfl⟩
  | some update =>
    dsimp only
    split_ifs
    · obtain ⟨later, hhanded, hlater, -⟩ := handed_buildSnapshot env
        { engine with
          session := { engine.session with
            host := engine.session.host.takePendingNotices.2.takeVisibleChanged.2 } } false
      exact ⟨later, hhanded, hlater⟩
    · exact ⟨[], (List.append_nil _).symm, fun _ => rfl⟩

/-- A command hands on what its events hand on, and what its snapshot puts in place. -/
theorem handed_handleCommand (files : Files) (request : ShellRequest) : ∃ later,
    (engine.handleCommand env.recording files (request.command engine.generation)).2.handed =
      engine.handed ++ (request.offers env.recording engine.session).flatMap Offer.handed ++
        later ∧
      (engine.pendingReconcile = none → later = []) := by
  have hanswer : ∃ (withSnapshot : Bool) (changes : ExtensionChanges)
      (session : ExtensionSession T (ρ × Record)),
      engine.answer env.recording files (request.command engine.generation) =
        some ((updateOf env.recording withSnapshot changes { engine with session }).map some id) ∧
      session.handed = engine.handed ++
        (request.offers env.recording engine.session).flatMap Offer.handed := by
    cases request with
    | sendInput contribution instanceId eventId value =>
      refine ⟨true, _, _, if_neg (fun h => h rfl), ?_⟩
      exact handed_offer (ExtensionSession.handed_isPrefix_dispatchToExtension)
    | mountContribution contribution width height =>
      refine ⟨true, _, _, if_neg (fun h => h rfl), ?_⟩
      exact handed_offer ExtensionSession.handed_dispatch
    | unmountContribution contribution =>
      refine ⟨true, _, _, if_neg (fun h => h rfl), ?_⟩
      exact handed_offer ExtensionSession.handed_dispatch
    | sendInstanceReconciliation desired =>
      refine ⟨false, _, _, if_neg (fun h => h rfl), ?_⟩
      exact ExtensionSession.handed_reconcileInstances
  obtain ⟨withSnapshot, changes, session, hanswer, hsession⟩ := hanswer
  obtain ⟨later, hhanded, hlater⟩ :=
    handed_updateOf env { engine with session } withSnapshot changes
  obtain ⟨later', hhanded', hlater'⟩ := handed_finish env
    (updateOf env.recording withSnapshot changes { engine with session }).2
    (some (updateOf env.recording withSnapshot changes { engine with session }).1)
  refine ⟨later ++ later', ?_, ?_⟩
  · rw [handleCommand, hanswer]
    refine hhanded'.trans ?_
    rw [hhanded, ← List.append_assoc]
    exact congrArg (· ++ later ++ later') hsession
  · intro hnone
    rw [(hlater hnone).1, hlater' (hlater hnone).2]
    rfl

end ExtensionEngine

theorem drop_handed {after : ExtensionSession T (ρ × Record)} (h : after.handed = session.handed) :
    after.handed.drop session.handed.length = [] := by
  rw [h, List.drop_length]

/-- The offers of what is not made by the engine itself are handed to no guest. -/
theorem handed_eq_nil {request : ShellRequest} (hrequest : request.isReconciliation = false)
    {offer : Offer T (ρ × Record)} (hoffer : offer ∈ request.offers env.recording session)
    (hcontribution : offer.contribution.WellFormed) : offer.handed = [] := by
  cases request with
  | sendInstanceReconciliation desired => cases hrequest
  | sendInput contribution instanceId eventId value =>
    rw [List.mem_singleton.mp hoffer]
    have hrecord : (session.host.dispatchEvent env.recording contribution.extensionId
        (.input contribution.text instanceId eventId value)).2.handed = session.handed :=
      (dispatchEvent_of_refused
        (fun _ => by rw [ExtensionHost.checkInput, ContributionId.new_text]) rfl).2
    exact drop_handed (ExtensionSession.handed_dispatchToExtension.trans hrecord)
  | mountContribution contribution width height =>
    rw [List.mem_singleton.mp hoffer] at hcontribution ⊢
    exact drop_handed (ExtensionSession.handed_dispatch_of_unnamed
      (CanonicalId.parse_contributionId hcontribution) rfl)
  | unmountContribution contribution =>
    rw [List.mem_singleton.mp hoffer] at hcontribution ⊢
    exact drop_handed (ExtensionSession.handed_dispatch_of_unnamed
      (CanonicalId.parse_contributionId hcontribution) rfl)

/-- Of the events of contributions that come with the commands of the shell, those that the engine
makes itself reach the guest of their contribution, once and no other, where it is registered and its
circuit is closed; inputs, mounts and unmounts that the shell sends reach none. -/
theorem delivered_iff_isReconciliation (env : EngineEnv T ρ σ) (files : Files)
    (engine : ExtensionEngine T (ρ × Record) σ) (request : ShellRequest) :
    (∀ offer ∈ request.offers env.recording engine.session, offer.contribution.WellFormed →
      (offer.Ready → (offer.Delivered ↔ request.isReconciliation = true)) ∧
      (request.isReconciliation = false → offer.handed = [])) ∧
    ∃ later,
      (engine.handleCommand env.recording files (request.command engine.generation)).2.handed =
        engine.handed ++ (request.offers env.recording engine.session).flatMap Offer.handed ++
          later ∧
      (engine.pendingReconcile = none → later = []) := by
  refine ⟨?_, engine.handed_handleCommand env files request⟩
  intro offer hoffer hcontribution
  have hnot := fun hrequest => handed_eq_nil hrequest hoffer hcontribution
  refine ⟨fun hready => ?_, hnot⟩
  cases hrequest : request.isReconciliation with
  | false =>
    rw [Offer.Delivered, hnot hrequest]
    simp
  | true =>
    refine iff_of_true ?_ rfl
    cases request with
    | sendInstanceReconciliation desired =>
      exact (ExtensionSession.made_reconcileOffers offer hoffer).delivered hcontribution hready
    | sendInput | mountContribution | unmountContribution => cases hrequest

end

/-! ### A click -/

/-- The engine with the extension loaded. -/
def loadedEngine : ExtensionEngine plainPayloads (Unit × Record) Unit where
  catalogMtime := none
  activeSources := ∅
  activeDevOverrides := ∅
  devSessionSequences := ∅
  session :=
    { host :=
        ⟨⟨((), []), AList.singleton plainManifest.id ⟨plainManifest, [.notificationsShow]⟩,
          .new .default⟩, false, 0, []⟩
      manifests := AList.singleton plainManifest.id plainManifest
      runtimeIds := [plainManifest.id]
      views := ∅
      instances := ∅ }
  scriptRuntime := ()
  generation := 1
  diagnostics := []
  replaceableEvents := ∅
  pendingReconcile := none
  origins := ∅

/-- Its widget is clicked. -/
def click : ShellRequest := .sendInput ⟨plainManifest.id, ⟨"bar"⟩⟩ none "click" none

/-- The click does not reach the extension, which is registered with a closed circuit and declares
the widget. -/
theorem click_not_delivered :
    (∃ offer ∈ click.offers (plainEnv fun _ => []).recording loadedEngine.session,
      offer.contribution.WellFormed ∧ offer.Ready ∧ ¬ offer.Delivered) ∧
    (loadedEngine.handleCommand (plainEnv fun _ => []).recording (plainFiles true)
      (click.command loadedEngine.generation)).2.handed = [] := by
  refine ⟨⟨_, List.mem_singleton_self _, ⟨by decide, rfl⟩, ⟨rfl, _, rfl, by decide⟩, ?_⟩, rfl⟩
  intro h
  cases h

end Shilpo.Engine
