import Shilpo.Engine.Handling
import Shilpo.Engine.Reload
import Shilpo.Extensions.Notices
import Shilpo.Theory.Runs

/-!
# What the shell is told

Guests answer events with operations, views are rendered and circuits trip; the shell is told of it
by the updates that the engine returns. Here what has happened (`Host.happened`) is held against
what the updates say, over whole runs.

The events of a command are accounted for in its update. When modules are loaded anew, the guests
are told of the start, and where contributions stand, and what comes of that is not handed on;
notices about an extension are dropped when it is loaded anew or goes, and when too many wait.
-/

namespace Shilpo.Engine

open Extensions Theory

variable {T : Payloads} {ρ σ : Type} {env : EngineEnv T ρ σ}

/-! ### What has happened -/

/-- The operations that have been accepted, each with its extension. -/
def acceptedIn (happened : List Happening) : List (ExtensionId × AuthorizedHostOperation) :=
  happened.filterMap fun
    | .accepted id operation => some (id, operation)
    | _ => none

/-- The views that have been replaced. -/
def viewedIn (happened : List Happening) : List CanonicalId :=
  happened.filterMap fun
    | .viewed canonical => some canonical
    | _ => none

/-- The notices that have been raised. -/
def raisedIn (happened : List Happening) : List CircuitNotice :=
  happened.filterMap fun
    | .raised notice => some notice
    | _ => none

section

variable (happened happened' : List Happening)

@[simp] theorem acceptedIn_append :
    acceptedIn (happened ++ happened') = acceptedIn happened ++ acceptedIn happened' :=
  List.filterMap_append

@[simp] theorem viewedIn_append :
    viewedIn (happened ++ happened') = viewedIn happened ++ viewedIn happened' :=
  List.filterMap_append

@[simp] theorem raisedIn_append :
    raisedIn (happened ++ happened') = raisedIn happened ++ raisedIn happened' :=
  List.filterMap_append

variable (id : ExtensionId)

@[simp] theorem acceptedIn_accepted (operations : List AuthorizedHostOperation) :
    acceptedIn (operations.map (.accepted id)) = operations.map (applyEffect id) := by
  induction operations with
  | nil => rfl
  | cons operation operations ih => exact congrArg ((id, operation) :: ·) ih

@[simp] theorem viewedIn_accepted (operations : List AuthorizedHostOperation) :
    viewedIn (operations.map (.accepted id)) = [] := by
  induction operations with
  | nil => rfl
  | cons operation operations ih => exact ih

@[simp] theorem raisedIn_accepted (operations : List AuthorizedHostOperation) :
    raisedIn (operations.map (.accepted id)) = [] := by
  induction operations with
  | nil => rfl
  | cons operation operations ih => exact ih

variable (notices : List CircuitNotice)

@[simp] theorem acceptedIn_raised :
    acceptedIn (notices.map .raised) = [] := by
  induction notices with
  | nil => rfl
  | cons notice notices ih => exact ih

@[simp] theorem viewedIn_raised :
    viewedIn (notices.map .raised) = [] := by
  induction notices with
  | nil => rfl
  | cons notice notices ih => exact ih

@[simp] theorem raisedIn_raised :
    raisedIn (notices.map .raised) = notices := by
  induction notices with
  | nil => rfl
  | cons notice notices ih => exact congrArg (notice :: ·) ih

end

/-! ### The host -/

namespace Host

/-- The notices that wait. -/
abbrev waiting (host : Host ρ) : List CircuitNotice := host.inner.circuitBreaker.pendingNotices

/-- The host goes on to another, and this happens. Notices about some extensions may be dropped. -/
structure Tells (about : ExtensionId → Prop) (host host' : Host ρ) (log : List Happening) :
    Prop where
  happened : host'.happened = host.happened ++ log
  waiting : host.waiting.length ≤ maxPendingNotices →
    Leaves about host.waiting (raisedIn log) host'.waiting ∧
      host'.waiting.length ≤ maxPendingNotices

/-- None is dropped: the notices that have been raised wait behind the others, as far as there is
room. -/
structure TellsAll (host host' : Host ρ) (log : List Happening) : Prop where
  happened : host'.happened = host.happened ++ log
  waiting : host.waiting.length ≤ maxPendingNotices →
    host'.waiting = queued maxPendingNotices host.waiting (raisedIn log)

variable {about about' : ExtensionId → Prop} {host host' host'' : Host ρ}
  {log log' : List Happening}

theorem TellsAll.tells (h : TellsAll host host' log) : Tells about host host' log where
  happened := h.happened
  waiting hlength := by
    rw [h.waiting hlength]
    exact ⟨leaves_queued, length_queued_le⟩

theorem Tells.mono (h : Tells about host host' log) (habout : ∀ id, about id → about' id) :
    Tells about' host host' log where
  happened := h.happened
  waiting hlength := ⟨(h.waiting hlength).1.mono habout, (h.waiting hlength).2⟩

/-- Nothing that is told of has changed. -/
theorem TellsAll.of_same (hhappened : host'.happened = host.happened)
    (hwaiting : host'.waiting = host.waiting) : TellsAll host host' [] where
  happened := hhappened.trans (List.append_nil _).symm
  waiting hlength := hwaiting.trans (queued_nil hlength).symm

theorem TellsAll.refl (host : Host ρ) : TellsAll host host [] := .of_same rfl rfl

theorem Tells.refl (host : Host ρ) : Tells about host host [] := (TellsAll.refl host).tells

theorem TellsAll.trans (h : TellsAll host host' log) (h' : TellsAll host' host'' log') :
    TellsAll host host'' (log ++ log') where
  happened := by rw [h'.happened, h.happened, List.append_assoc]
  waiting hlength := by
    have hwaiting := h.waiting hlength
    have hlength' : host'.waiting.length ≤ maxPendingNotices := hwaiting ▸ length_queued_le
    rw [h'.waiting hlength', hwaiting, queued_queued, raisedIn_append]

theorem Tells.trans (h : Tells about host host' log) (h' : Tells about host' host'' log') :
    Tells about host host'' (log ++ log') where
  happened := by rw [h'.happened, h.happened, List.append_assoc]
  waiting hlength := by
    obtain ⟨hleaves, hlength'⟩ := h.waiting hlength
    obtain ⟨hleaves', hlength''⟩ := h'.waiting hlength'
    rw [raisedIn_append]
    exact ⟨hleaves.trans hleaves', hlength''⟩

variable {id : ExtensionId}

/-- A call that adds its notices is told of in full. -/
theorem tellsAll_call {β : Type} {f : ClockReadings → ExtensionHost ρ → β × ExtensionHost ρ}
    (hadds : ∀ clock, ExtensionHost.Adds (f clock)) {resets : β → Bool}
    {happened : β → List Happening} {answer : β} (hnone : raisedIn (happened answer) = [])
    (h : host.call env id f resets happened = (answer, host')) :
    ∃ raised : List CircuitNotice,
      TellsAll host host' (happened answer ++ raised.map .raised) := by
  have hanswer : (f (env.clock host.calls) host.inner).1 = answer := congrArg Prod.fst h
  have hhost : _ = host' := congrArg Prod.snd h
  subst hanswer hhost
  refine ⟨_, List.append_assoc .., fun hlength => ?_⟩
  rw [raisedIn_append, hnone, raisedIn_raised, List.nil_append]
  have hwaiting := hadds (env.clock host.calls) host.drained host.waiting rfl hlength
  have hinner : host.drained.withNotices host.waiting = host.inner := rfl
  rw [hinner] at hwaiting
  change (f (env.clock host.calls) host.inner).2.circuitBreaker.pendingNotices = _
  rw [hwaiting, ExtensionHost.pendingNotices_withNotices]

theorem tellsAll_refused {event : ExtensionEvent} {err : ExtensionHost.Error}
    (h : host.dispatchEvent env id event = (.error err, host')) :
    ∃ raised : List CircuitNotice, TellsAll host host' (raised.map .raised) :=
  tellsAll_call (fun clock => ExtensionHost.adds_dispatchEvent clock id event) rfl h

theorem tellsAll_dispatched {event : ExtensionEvent} {result : DispatchResult}
    (h : host.dispatchEvent env id event = (.ok result, host')) :
    ∃ raised : List CircuitNotice,
      TellsAll host host' (result.accepted.map (.accepted id) ++ raised.map .raised) :=
  tellsAll_call (fun clock => ExtensionHost.adds_dispatchEvent clock id event)
    (raisedIn_accepted id result.accepted) h

theorem tellsAll_renderView {canonical : CanonicalId}
    {answer : Except ExtensionHost.Error (Option T.View)}
    (h : host.renderView env canonical = (answer, host')) :
    ∃ raised : List CircuitNotice, TellsAll host host' (raised.map .raised) :=
  tellsAll_call (fun clock => ExtensionHost.adds_renderView clock canonical) rfl h

theorem tellsAll_viewed (canonical : CanonicalId) :
    TellsAll host (host.viewed canonical) [.viewed canonical] :=
  ⟨rfl, fun hlength => (queued_nil hlength).symm⟩

/-- A call that may drop the notices about an extension. -/
theorem tells_call {β : Type} {f : ClockReadings → ExtensionHost ρ → β × ExtensionHost ρ}
    {of : ExtensionId} (hadds : ∀ clock, ExtensionHost.AddsSome of (f clock)) {resets : β → Bool}
    {happened : β → List Happening} {answer : β} (hnone : raisedIn (happened answer) = [])
    (h : host.call env id f resets happened = (answer, host')) :
    ∃ raised : List CircuitNotice,
      Tells (· = of) host host' (happened answer ++ raised.map .raised) := by
  have hanswer : (f (env.clock host.calls) host.inner).1 = answer := congrArg Prod.fst h
  have hhost : _ = host' := congrArg Prod.snd h
  subst hanswer hhost
  refine ⟨_, List.append_assoc .., fun hlength => ?_⟩
  rw [raisedIn_append, hnone, raisedIn_raised, List.nil_append]
  exact hadds (env.clock host.calls) host.inner hlength

variable {answer : Except ExtensionHost.Error Unit}

theorem tells_register {manifest : ExtensionManifest} {module : T.Module} {grants : List Capability}
    (h : host.register env manifest module grants = (answer, host')) :
    ∃ log, Tells (· = manifest.id) host host' log ∧ viewedIn log = [] := by
  obtain ⟨raised, htells⟩ := tells_call
    (fun clock => ExtensionHost.addsSome_register clock.recorded manifest module grants) rfl h
  exact ⟨_, htells, viewedIn_raised raised⟩

theorem tells_replace {manifest : ExtensionManifest} {module : T.Module} {grants : List Capability}
    (h : host.replace env manifest module grants = (answer, host')) :
    ∃ log, Tells (· = manifest.id) host host' log ∧ viewedIn log = [] := by
  obtain ⟨raised, htells⟩ := tells_call
    (fun clock => ExtensionHost.addsSome_replace clock.recorded manifest module grants)
    (by cases answer <;> rfl) h
  refine ⟨_, htells, ?_⟩
  rw [viewedIn_append, viewedIn_raised]
  cases answer <;> rfl

theorem tells_unregister (h : host.unregister env id = (answer, host')) :
    ∃ log, Tells (· = id) host host' log ∧ viewedIn log = [] := by
  obtain ⟨raised, htells⟩ := tells_call
    (fun clock => ExtensionHost.addsSome_unregister clock.recorded id)
    (by cases answer <;> rfl) h
  refine ⟨_, htells, ?_⟩
  rw [viewedIn_append, viewedIn_raised]
  cases answer <;> rfl

theorem tells_withRuntime (host : Host ρ) (runtime : ρ) :
    Tells about host (host.withRuntime runtime) [] := by
  have htells : TellsAll host (host.withRuntime runtime) [] := .of_same rfl rfl
  exact htells.tells

theorem tells_recordCoordinatorTimeout (host : Host ρ) (id : ExtensionId) :
    ∃ log, Tells about host (host.recordCoordinatorTimeout env id) log ∧ viewedIn log = [] := by
  have hcall : host.call env id (fun clock inner => ((), inner.recordFailure clock.recorded id))
      (fun _ => false) (fun _ => []) = ((), host.recordCoordinatorTimeout env id) := rfl
  obtain ⟨raised, htells⟩ :=
    tellsAll_call (fun clock => ExtensionHost.adds_recordFailure clock.recorded id) rfl hcall
  exact ⟨_, htells.tells, viewedIn_raised raised⟩

/-- All that waits is dropped. -/
theorem tells_clear (habout : ∀ id, about id) (host : Host ρ) :
    ∃ log, Tells about host (host.clear env) log ∧ viewedIn log = [] := by
  have hdrops : ∀ raised, Leaves about host.waiting raised [] :=
    fun _ => ⟨List.nil_sublist _, fun _ id hid => absurd (habout id) hid⟩
  refine ⟨_, ⟨rfl, fun _ => ⟨hdrops _, Nat.zero_le _⟩⟩, ?_⟩
  generalize env.arrange host.inner.registrations.keys = ids
  induction ids with
  | nil => rfl
  | cons id ids ih => exact ih

end Host

/-! ### Handling events -/

/-- What comes of handling events: the changes say which operations have been accepted and which
views replaced, and these are shown. -/
structure Accounts (session : ExtensionSession T ρ) (changes : ExtensionChanges)
    (session' : ExtensionSession T ρ) (log : List Happening) : Prop where
  host : Host.TellsAll session.host session'.host log
  effects : changes.effects = acceptedIn log
  invalidatedViews : changes.invalidatedViews = viewedIn log
  shown : ∀ canonical ∈ viewedIn log, canonical ∈ session'.views
  kept : ∀ canonical ∈ session.views, canonical ∈ session'.views

theorem Handling.accounts {session session' : ExtensionSession T ρ} {changes : ExtensionChanges}
    (h : Handling env session changes session') : ∃ log, Accounts session changes session' log := by
  induction h with
  | refl session => exact ⟨[], .refl _, rfl, rfl, fun _ h => absurd h List.not_mem_nil, fun _ => id⟩
  | noted session =>
    exact ⟨[], .of_same rfl rfl, rfl, rfl, fun _ h => absurd h List.not_mem_nil, fun _ => id⟩
  | refused session h =>
    obtain ⟨raised, htells⟩ := Host.tellsAll_refused h
    refine ⟨_, htells, ?_, ?_, ?_, fun _ => id⟩
    · exact (acceptedIn_raised raised).symm
    · exact (viewedIn_raised raised).symm
    · simp
  | dispatched session h =>
    obtain ⟨raised, htells⟩ := Host.tellsAll_dispatched h
    refine ⟨_, htells, ?_, ?_, ?_, fun _ => id⟩
    · simp
    · simp
    · simp
  | unrendered session h =>
    obtain ⟨raised, htells⟩ := Host.tellsAll_renderView h
    refine ⟨_, htells, ?_, ?_, ?_, fun _ => id⟩
    · exact (acceptedIn_raised raised).symm
    · exact (viewedIn_raised raised).symm
    · simp
  | @rendered session canonical view host h =>
    obtain ⟨raised, htells⟩ := Host.tellsAll_renderView h
    have hviewed : viewedIn (raised.map Happening.raised ++ [Happening.viewed canonical]) =
        [canonical] := by
      rw [viewedIn_append, viewedIn_raised]
      rfl
    refine ⟨_, htells.trans (host.tellsAll_viewed canonical), ?_, hviewed.symm, ?_, ?_⟩
    · rw [acceptedIn_append, acceptedIn_raised]
      rfl
    · intro other hother
      rw [hviewed, List.mem_singleton] at hother
      exact (AList.mem_insert _).mpr (.inl hother)
    · exact fun other hother => (AList.mem_insert _).mpr (.inr hother)
  | trans _ _ ih ih' =>
    obtain ⟨log, h⟩ := ih
    obtain ⟨log', h'⟩ := ih'
    have hkept : ∀ canonical ∈ _, canonical ∈ _ := fun _ hview => h'.kept _ (h.kept _ hview)
    refine ⟨log ++ log', h.host.trans h'.host, ?_, ?_, ?_, hkept⟩
    · rw [acceptedIn_append, ← h.effects, ← h'.effects]
      rfl
    · rw [viewedIn_append, ← h.invalidatedViews, ← h'.invalidatedViews]
      rfl
    · intro canonical hview
      rw [viewedIn_append] at hview
      obtain hview | hview := List.mem_append.mp hview
      · exact h'.kept _ (h.shown _ hview)
      · exact h'.shown _ hview

/-! ### Loading -/

/-- What is told of on the way from one session to another; what has been replaced is shown in the
end. -/
structure Shows (about : ExtensionId → Prop) (session session' : ExtensionSession T ρ)
    (log : List Happening) : Prop where
  host : Host.Tells about session.host session'.host log
  shown : ∀ canonical ∈ viewedIn log, canonical ∈ session'.views

/-- And what has been shown before still is. -/
structure Grows (about : ExtensionId → Prop) (session session' : ExtensionSession T ρ)
    (log : List Happening) : Prop extends Shows about session session' log where
  kept : ∀ canonical ∈ session.views, canonical ∈ session'.views

section

variable {about : ExtensionId → Prop} {session session' session'' : ExtensionSession T ρ}
  {log log' : List Happening}

theorem Accounts.grows {changes : ExtensionChanges} (h : Accounts session changes session' log) :
    Grows about session session' log :=
  ⟨⟨h.host.tells, h.shown⟩, h.kept⟩

/-- Nothing has been replaced. -/
theorem Shows.quiet (h : Host.Tells about session.host session'.host log)
    (hquiet : viewedIn log = []) : Shows about session session' log :=
  ⟨h, fun _ hview => absurd (hquiet ▸ hview) List.not_mem_nil⟩

theorem Shows.trans (h : Shows about session session' log)
    (h' : Grows about session' session'' log') : Shows about session session'' (log ++ log') where
  host := h.host.trans h'.host
  shown canonical hview := by
    rw [viewedIn_append] at hview
    obtain hview | hview := List.mem_append.mp hview
    · exact h'.kept _ (h.shown _ hview)
    · exact h'.shown _ hview

theorem Grows.trans (h : Grows about session session' log)
    (h' : Grows about session' session'' log') : Grows about session session'' (log ++ log') :=
  ⟨h.toShows.trans h', fun _ hview => h'.kept _ (h.kept _ hview)⟩

theorem Handling.grows {changes : ExtensionChanges} (h : Handling env session changes session') :
    ∃ log, Grows about session session' log := by
  obtain ⟨log, haccounts⟩ := h.accounts
  exact ⟨log, haccounts.grows⟩

end

theorem grows_register {about : ExtensionId → Prop} (habout : ∀ id, about id)
    (manifest : ExtensionManifest) (module : T.Module) (grants : List Capability)
    (session : ExtensionSession T ρ) :
    ∃ log, Grows about session (session.register env manifest module grants).2 log := by
  rw [ExtensionSession.register]
  cases hregister : session.host.register env manifest module grants with
  | mk answer host =>
    obtain ⟨log, htells, hquiet⟩ := Host.tells_register hregister
    have hloaded : Grows about session { session with host } log :=
      ⟨.quiet (htells.mono fun id _ => habout id) hquiet, fun _ => id⟩
    cases answer with
    | error err => exact ⟨log, hloaded⟩
    | ok _ =>
      have hrenders : Handling env _ _ _ := ExtensionSession.handling_renderAll
        (rendered manifest.id manifest.contributions) { session with host }
      obtain ⟨log', hrendered⟩ := hrenders.grows
      exact ⟨log ++ log', hloaded.trans ⟨⟨hrendered.host, hrendered.shown⟩, hrendered.kept⟩⟩

namespace ExtensionEngine

variable {about : ExtensionId → Prop} {engine : ExtensionEngine T ρ σ} {files : Files}

theorem grows_registerAll (habout : ∀ id, about id) (env : EngineEnv T ρ σ)
    (candidates : List (Candidate T)) (engine : ExtensionEngine T ρ σ) :
    ∃ log, Grows about engine.session (registerAll env candidates engine).session log := by
  induction candidates generalizing engine with
  | nil => exact ⟨[], ⟨.refl _, fun _ h => absurd h List.not_mem_nil⟩, fun _ => id⟩
  | cons candidate candidates ih =>
    obtain ⟨id, source, module⟩ := candidate
    have hregisters : ∃ log, Grows about engine.session
        (engine.session.register env source.manifest module source.grants).2 log :=
      grows_register habout source.manifest module source.grants engine.session
    obtain ⟨log, hregistered⟩ := hregisters
    rw [registerAll]
    split
    case h_1 err session hregister =>
      rw [hregister] at hregistered
      obtain ⟨log', hrest⟩ := ih
        { engine with
          session
          diagnostics :=
            engine.diagnostics ++ [s!"failed to register extension '{id.text}': {err}"] }
      exact ⟨log ++ log', hregistered.trans hrest⟩
    case h_2 session hregister =>
      rw [hregister] at hregistered
      obtain ⟨log', hrest⟩ := ih
        { engine with
          session
          origins := engine.origins.insert source.manifest.id ⟨source, false⟩ }
      exact ⟨log ++ log', hregistered.trans hrest⟩

/-- A snapshot handles what has been waiting, if anything. -/
theorem accounts_buildSnapshot (env : EngineEnv T ρ σ) (catalogChanged : Bool)
    (engine : ExtensionEngine T ρ σ) : ∃ changes log,
      Accounts engine.session changes (engine.buildSnapshot env catalogChanged).2.session log ∧
        (engine.pendingReconcile = none → log = []) := by
  unfold buildSnapshot
  cases hpending : engine.pendingReconcile with
  | none =>
    refine ⟨.default, [], ?_, fun _ => rfl⟩
    exact ⟨.refl _, rfl, rfl, fun _ h => absurd h List.not_mem_nil, fun _ => id⟩
  | some desired =>
    have hhandles : Handling env _ _ _ :=
      ExtensionSession.handling_reconcileInstances desired engine.session
    obtain ⟨log, haccounts⟩ := hhandles.accounts
    exact ⟨_, log, haccounts, fun h => by cases h⟩

theorem pendingReconcile_buildSnapshot (env : EngineEnv T ρ σ) (catalogChanged : Bool)
    (engine : ExtensionEngine T ρ σ) :
    (engine.buildSnapshot env catalogChanged).2.pendingReconcile = none := by
  unfold buildSnapshot
  cases hpending : engine.pendingReconcile with
  | none => exact hpending
  | some desired => rfl

/-- The snapshot carries the view as it is, unless a script shows one in its place. -/
def Carried (env : EngineEnv T ρ σ) (engine : ExtensionEngine T ρ σ)
    (snapshot : ExtensionSnapshot T) (canonical : CanonicalId) : Prop :=
  ∃ view, (canonical, view) ∈ snapshot.views ∧
    (engine.session.views.lookup canonical = some view ∨
      (canonical, view) ∈ env.scripts.views engine.scriptRuntime)

/-- The views of a snapshot are those of the session and those of scripts. -/
theorem views_buildSnapshot (env : EngineEnv T ρ σ) (catalogChanged : Bool)
    (engine : ExtensionEngine T ρ σ) :
    let left := (engine.buildSnapshot env catalogChanged).2
    (engine.buildSnapshot env catalogChanged).1.views =
      ((left.session.views.entries.map fun entry => (entry.1, entry.2)).filter fun entry =>
          !(env.scripts.views left.scriptRuntime).any fun view => view.1 = entry.1) ++
        env.scripts.views left.scriptRuntime := rfl

theorem carried_buildSnapshot {catalogChanged : Bool} {canonical : CanonicalId}
    (h : canonical ∈ (engine.buildSnapshot env catalogChanged).2.session.views) :
    Carried env (engine.buildSnapshot env catalogChanged).2
      (engine.buildSnapshot env catalogChanged).1 canonical := by
  have hviews := views_buildSnapshot env catalogChanged engine
  dsimp only at hviews
  rw [Carried, hviews]
  generalize (engine.buildSnapshot env catalogChanged).2 = left at h
  obtain ⟨view, hview⟩ := Option.isSome_iff_exists.mp (AList.lookup_isSome.mpr h)
  by_cases hscript : ∃ entry ∈ env.scripts.views left.scriptRuntime, entry.1 = canonical
  · obtain ⟨⟨_, shown⟩, hshown, rfl⟩ := hscript
    exact ⟨shown, List.mem_append_right _ hshown, .inr hshown⟩
  · refine ⟨view, List.mem_append_left _ (List.mem_filter.mpr ⟨?_, ?_⟩), .inl hview⟩
    · exact List.mem_map.mpr ⟨⟨canonical, view⟩, AList.mem_lookup_iff.mp hview, rfl⟩
    · rw [Bool.not_eq_true', List.any_eq_false]
      exact fun shown hshown he => hscript ⟨shown, hshown, of_decide_eq_true he⟩

end ExtensionEngine

/-! ### What a call is told of -/

/-- The effects of an update, if there is one. -/
def effectsOf (update : Option (ExtensionUpdate T)) :
    List (ExtensionId × AuthorizedHostOperation) :=
  update.elim [] (·.effects)

/-- The notices of an update, if there is one. -/
def noticesOf (update : Option (ExtensionUpdate T)) : List CircuitNotice :=
  update.elim [] (·.circuitNotices)

namespace ExtensionEngine

/-- The notices that wait. -/
abbrev waiting (engine : ExtensionEngine T ρ σ) : List CircuitNotice := engine.session.host.waiting

/-- An update against what has happened: it has no effect that has not been accepted, and no notice
that has not been raised, each but once and in order; notices that are not about some extensions are
told or wait; and every view that has been replaced is named in the update or carried by its
snapshot. -/
structure Told (env : EngineEnv T ρ σ) (about : ExtensionId → Prop)
    (engine engine' : ExtensionEngine T ρ σ) (update : Option (ExtensionUpdate T))
    (log : List Happening) : Prop where
  happened : engine'.session.host.happened = engine.session.host.happened ++ log
  effects : (effectsOf update).Sublist (acceptedIn log)
  notices : engine.waiting.length ≤ maxPendingNotices →
    Leaves about engine.waiting (raisedIn log) (noticesOf update ++ engine'.waiting) ∧
      engine'.waiting.length ≤ maxPendingNotices
  views : ∀ canonical ∈ viewedIn log, ∃ told, update = some told ∧
    (canonical ∈ told.invalidatedViews ∨
      ∃ snapshot, told.snapshot = some snapshot ∧ Carried env engine' snapshot canonical)

variable {about : ExtensionId → Prop} {engine engine' : ExtensionEngine T ρ σ} {files : Files}
  {log : List Happening}

/-- Nothing is told, and no view has been replaced. -/
theorem Told.of_quiet (h : Host.Tells about engine.session.host engine'.session.host log)
    (hquiet : viewedIn log = []) : Told env about engine engine' none log where
  happened := h.happened
  effects := List.nil_sublist _
  notices := h.waiting
  views _ hview := absurd (hquiet ▸ hview) List.not_mem_nil

variable {update : Option (ExtensionUpdate T)}

theorem Told.mono {about' : ExtensionId → Prop} (h : Told env about engine engine' update log)
    (habout : ∀ id, about id → about' id) :
    Told env about' engine engine' update log where
  happened := h.happened
  effects := h.effects
  notices hlength := ⟨(h.notices hlength).1.mono habout, (h.notices hlength).2⟩
  views := h.views

/-- A snapshot is all that is told. -/
theorem told_of_shows (h : Shows about engine.session engine'.session log) (catalogChanged : Bool)
    {told : ExtensionUpdate T}
    (hsnapshot : told.snapshot = some (engine'.buildSnapshot env catalogChanged).1)
    (heffects : told.effects = []) (hnotices : told.circuitNotices = []) :
    ∃ log', Told env about engine (engine'.buildSnapshot env catalogChanged).2 (some told)
      log' := by
  obtain ⟨changes, log', haccounts, -⟩ := accounts_buildSnapshot env catalogChanged engine'
  have hshows := h.trans haccounts.grows
  refine ⟨log ++ log', hshows.host.happened, ?_, ?_, ?_⟩
  · rw [effectsOf, Option.elim_some, heffects]
    exact List.nil_sublist _
  · intro hlength
    rw [noticesOf, Option.elim_some, hnotices]
    exact hshows.host.waiting hlength
  · intro canonical hview
    exact ⟨told, rfl, .inr ⟨_, hsnapshot, carried_buildSnapshot (hshows.shown canonical hview)⟩⟩

/-! ### Reloads -/

/-- A reload that goes through drops all notices. -/
theorem shows_reloadAll (env : EngineEnv T ρ σ) (files : Files) (engine : ExtensionEngine T ρ σ) :
    ∃ log, Shows (fun _ => ∃ sources candidates, Reloads env files engine sources candidates)
      engine.session (engine.reloadAll env files).2.session log := by
  obtain ⟨sources, candidates, hreloads, heq⟩ | ⟨-, diagnostics, runtime, -, heq⟩ :=
    engine.reloadAll_cases env files
  · obtain ⟨runtime, -, hruntime⟩ := validateSources_eq env candidates engine.session.host
    let about : ExtensionId → Prop :=
      fun _ => ∃ sources candidates, Reloads env files engine sources candidates
    have habout : ∀ id, about id := fun _ => ⟨sources, candidates, hreloads⟩
    have hclears : ∃ log, Host.Tells about _ (Host.clear env _) log ∧ viewedIn log = [] :=
      Host.tells_clear habout (engine.session.host.withRuntime runtime)
    obtain ⟨log, htells, hquiet⟩ := hclears
    have hboth := (engine.session.host.tells_withRuntime runtime).trans htells
    rw [← hruntime] at hboth
    have hcleared : Shows about engine.session
        ((engine.tried env files candidates).session.clear env)
        log := .quiet hboth hquiet
    let cleared : ExtensionEngine T ρ σ :=
      { engine.tried env files candidates with
        session := (engine.tried env files candidates).session.clear env
        activeSources := sources
        catalogMtime := files.catalogMtime
        origins := ∅ }
    let filled := registerAll env candidates cleared
    obtain ⟨log', hregistered⟩ := grows_registerAll habout env candidates cleared
    have hstarts : Handling env filled.session _ _ :=
      ExtensionSession.handling_dispatchAll (filled.startingEvents env) filled.session
    obtain ⟨log'', hstarted⟩ := hstarts.grows
    rw [heq]
    exact ⟨_, (hcleared.trans hregistered).trans hstarted⟩
  · rw [heq]
    exact ⟨[], .quiet (engine.session.host.tells_withRuntime runtime) rfl⟩

/-! ### Development -/

theorem quiet_swapModule {manifest : ExtensionManifest} {module : T.Module}
    {grants : List Capability} {answer : Except (String × String) Unit}
    {session : ExtensionSession T ρ}
    (h : engine.swapModule env manifest module grants = (answer, session)) :
    ∃ log, Host.Tells (· = manifest.id) engine.session.host session.host log ∧
      viewedIn log = [] := by
  rw [swapModule] at h
  split at h
  · split at h
    · obtain ⟨-, rfl⟩ := Prod.mk.inj h
      exact ⟨[], .refl _, rfl⟩
    · cases hreplace : engine.session.host.replace env manifest module grants with
      | mk replaced host =>
        rw [hreplace] at h
        have hquiet := Host.tells_replace hreplace
        cases replaced <;> obtain ⟨-, rfl⟩ := Prod.mk.inj h <;> exact hquiet
  · cases hregister : engine.session.host.register env manifest module grants with
    | mk registered host =>
      rw [hregister] at h
      have hquiet := Host.tells_register hregister
      cases registered <;> obtain ⟨-, rfl⟩ := Prod.mk.inj h <;> exact hquiet

/-- A module that has been swapped in is adopted. -/
theorem told_adopt {request : DevReloadRequest} {source : ActiveSource}
    {session : ExtensionSession T ρ} (h : Host.Tells about engine.session.host session.host log)
    (hquiet : viewedIn log = []) : ∃ log',
      Told env about engine
        (({ engine with session } : ExtensionEngine T ρ σ).adopt env request source).2
        (({ engine with session } : ExtensionEngine T ρ σ).adopt env request source).1.update
        log' := by
  let id := request.extensionId
  let dropped := (dropViews env id
    { session with manifests := session.manifests.insert id source.manifest }).2
  have hdropped : Shows about engine.session dropped log := .quiet h hquiet
  have hrenders : Handling env _ _ _ :=
    dropped.handling_renderAll (rendered id source.manifest.contributions)
  have hstarted : ∃ changes, Handling env _ changes (startExtension env _ _ _) :=
    handling_startExtension id (startingEvents env { engine with session })
      (dropped.renderAll env (rendered id source.manifest.contributions)).2
  obtain ⟨changes, hstarts⟩ := hstarted
  obtain ⟨log', hgrows⟩ := (hrenders.trans hstarts).grows
  let started : ExtensionEngine T ρ σ :=
    { engine with
      session := startExtension env id (startingEvents env { engine with session })
        (dropped.renderAll env (rendered id source.manifest.contributions)).2
      activeSources := engine.activeSources.insert id source
      activeDevOverrides := engine.activeDevOverrides.insert id source
      devSessionSequences := engine.devSessionSequences.insert request.sessionId
        request.buildSequence
      generation := engine.generation + 1
      origins := engine.origins.insert id ⟨source, true⟩ }
  have hstarted : Shows about engine.session started.session (log ++ log') := hdropped.trans hgrows
  exact told_of_shows hstarted false rfl rfl rfl

theorem told_handleDevReload (env : EngineEnv T ρ σ) (files : Files) (request : DevReloadRequest)
    (engine : ExtensionEngine T ρ σ) :
    (∃ log, Told env (· = request.extensionId) engine (engine.handleDevReload env files request).2
        (engine.handleDevReload env files request).1.update log) ∧
      noticesOf (engine.handleDevReload env files request).1.update = [] := by
  obtain ⟨_, _, runtime, -, heq⟩ | ⟨manifest, module, runtime, hoffers, hswaps⟩ :=
    engine.handleDevReload_cases env files request
  · rw [heq]
    exact ⟨⟨[], .of_quiet (engine.session.host.tells_withRuntime runtime) rfl⟩, rfl⟩
  · obtain ⟨bytes, hartifact, -⟩ := hoffers.artifact
    have htried : Host.Tells (· = manifest.id) _ _ [] :=
      engine.session.host.tells_withRuntime runtime
    obtain ⟨_, _, session, hswap, heq⟩ | ⟨session, hswap, heq⟩ := hswaps
    · obtain ⟨log, htells, hquiet⟩ := quiet_swapModule hswap
      have hboth := htried.trans htells
      rw [devArtifact_id hartifact] at hboth
      rw [heq]
      exact ⟨⟨log, .of_quiet hboth hquiet⟩, rfl⟩
    · obtain ⟨log, htells, hquiet⟩ := quiet_swapModule hswap
      have hboth := htried.trans htells
      rw [devArtifact_id hartifact] at hboth
      rw [heq]
      exact ⟨told_adopt hboth hquiet, rfl⟩

theorem shows_restore (env : EngineEnv T ρ σ) (files : Files) (id : ExtensionId)
    (source : ActiveSource) (engine : ExtensionEngine T ρ σ) :
    ∃ log, Shows (· = source.manifest.id) engine.session
      (engine.restore env files id source).2.session log := by
  rw [restore]
  split
  · exact ⟨[], .quiet (.refl _) rfl⟩
  split
  · exact ⟨[], .quiet (.refl _) rfl⟩
  case h_2 module _ =>
    cases hreplace : engine.session.host.replace env source.manifest module source.grants with
    | mk answer host =>
      obtain ⟨log, htells, hquiet⟩ := Host.tells_replace hreplace
      let replaced : ExtensionSession T ρ :=
        { engine.session with
          host
          manifests := engine.session.manifests.insert id source.manifest }
      have hreplaced : Shows (· = source.manifest.id) engine.session replaced log :=
        .quiet htells hquiet
      have hrenders : Handling env replaced _ _ :=
        replaced.handling_renderAll (rendered id source.manifest.contributions)
      obtain ⟨log', hrendered⟩ := hrenders.grows
      exact ⟨_, hreplaced.trans hrendered⟩

theorem shows_takeOut (env : EngineEnv T ρ σ) (id : ExtensionId) (engine : ExtensionEngine T ρ σ) :
    ∃ log, Shows (· = id) engine.session (engine.takeOut env id).session log := by
  cases hunregister : engine.session.host.unregister env id with
  | mk answer host =>
    obtain ⟨log, htells, hquiet⟩ := Host.tells_unregister hunregister
    refine ⟨log, .quiet ?_ hquiet⟩
    rw [takeOut, hunregister]
    exact htells

/-- The end of a development session loads the catalog's copy of the extension, or it goes. -/
def Unloads (env : EngineEnv T ρ σ) (files : Files) (id other : ExtensionId) : Prop :=
  match ((discoverSources env files).1.toOption.getD ∅).lookup id with
  | some source => other = source.manifest.id
  | none => other = id

theorem told_handleDevUnload (env : EngineEnv T ρ σ) (files : Files) (sessionId : String)
    (id : ExtensionId) (engine : ExtensionEngine T ρ σ) :
    (∃ log, Told env (Unloads env files id) engine (engine.handleDevUnload env files sessionId id).2
        (engine.handleDevUnload env files sessionId id).1 log) ∧
      noticesOf (engine.handleDevUnload env files sessionId id).1 = [] := by
  simp only [handleDevUnload]
  split
  · exact ⟨⟨[], .of_quiet (.refl _) rfl⟩, rfl⟩
  · let ended : ExtensionEngine T ρ σ :=
      { engine with
        devSessionSequences := engine.devSessionSequences.erase sessionId
        session := (dropViews env id engine.session).2
        activeDevOverrides := engine.activeDevOverrides.erase id
        diagnostics := engine.diagnostics ++ (discoverSources env files).2 }
    -- dropping views tells of nothing, so what is told is what comes after it
    have hended : ∀ {about : ExtensionId → Prop} {left : ExtensionEngine T ρ σ}
        {log : List Happening}, Shows about ended.session left.session log →
        Shows about engine.session
          ({ left with generation := left.generation + 1 } : ExtensionEngine T ρ σ).session log :=
      fun h => ⟨⟨h.host.happened, h.host.waiting⟩, h.shown⟩
    unfold Unloads
    cases hsource : ((discoverSources env files).1.toOption.getD ∅).lookup id with
    | some source =>
      obtain ⟨log, hrestored⟩ := shows_restore env files id source ended
      exact ⟨told_of_shows (hended hrestored) false rfl rfl rfl, rfl⟩
    | none =>
      obtain ⟨log, htakenOut⟩ := shows_takeOut env id ended
      exact ⟨told_of_shows (hended htakenOut) false rfl rfl rfl, rfl⟩

/-! ### Commands -/

/-- A command of which all that happens is told: its events are for the extensions that are
loaded. -/
def Forwards (engine : ExtensionEngine T ρ σ) : ExtensionCommand → Prop
  | .lifecycle expected _ | .input expected .. | .response expected .. |
    .reconcileInstances expected _ => expected = engine.generation
  | .replaceable _ => True
  | _ => False

/-- An update against what has happened, of which all is told: its effects are what has been
accepted, and its notices those that waited and those that have been raised, as far as there was
room. -/
structure TellsAll (env : EngineEnv T ρ σ) (about : ExtensionId → Prop)
    (engine engine' : ExtensionEngine T ρ σ) (update : Option (ExtensionUpdate T))
    (log : List Happening) : Prop extends Told env about engine engine' update log where
  allEffects : effectsOf update = acceptedIn log
  allNotices : engine.waiting.length ≤ maxPendingNotices →
    noticesOf update = queued maxPendingNotices engine.waiting (raisedIn log) ∧
      engine'.waiting = []

/-- The answer to a command, before the notices are taken: all that has happened is told, where
nothing has been waiting to be put in place. -/
structure Answered (env : EngineEnv T ρ σ) (about : ExtensionId → Prop)
    (engine engine' : ExtensionEngine T ρ σ) (told : ExtensionUpdate T) (log : List Happening) :
    Prop extends Told env about engine engine' (some told) log where
  noNotices : told.circuitNotices = []
  all : engine.pendingReconcile = none → told.effects = acceptedIn log ∧
    Host.TellsAll engine.session.host engine'.session.host log ∧ engine'.pendingReconcile = none

/-- The update that tells of the changes that have come of handling events. -/
theorem answered_updateOf (engine' : ExtensionEngine T ρ σ) {changes : ExtensionChanges}
    (h : Handling env engine.session changes engine'.session)
    (hpending : engine'.pendingReconcile = engine.pendingReconcile) (withSnapshot : Bool) :
    ∃ log, Answered env about engine (engine'.updateOf env withSnapshot changes).2
      (engine'.updateOf env withSnapshot changes).1 log := by
  obtain ⟨log, haccounts⟩ := h.accounts
  have hshows : Grows about _ _ _ := haccounts.grows
  rw [updateOf]
  split_ifs with hsnapshot
  · obtain ⟨changes', log', haccounts', hquiet⟩ := accounts_buildSnapshot env false engine'
    have hgrows := hshows.trans haccounts'.grows
    refine ⟨log ++ log', ⟨hgrows.host.happened, ?_, hgrows.host.waiting, ?_⟩, rfl, ?_⟩
    · change changes.effects.Sublist _
      rw [haccounts.effects, acceptedIn_append]
      exact List.sublist_append_left _ _
    · intro canonical hview
      rw [viewedIn_append] at hview
      obtain hview | hview := List.mem_append.mp hview
      · exact ⟨_, rfl, .inl (haccounts.invalidatedViews.symm ▸ hview)⟩
      · exact ⟨_, rfl, .inr ⟨_, rfl, carried_buildSnapshot (haccounts'.shown canonical hview)⟩⟩
    · intro hnone
      have hnil := hquiet (hpending.trans hnone)
      have hboth := haccounts.host.trans haccounts'.host
      rw [hnil, List.append_nil] at hboth ⊢
      exact ⟨haccounts.effects, hboth, engine'.pendingReconcile_buildSnapshot env false⟩
  · refine ⟨log, ⟨hshows.host.happened, ?_, hshows.host.waiting, ?_⟩, rfl, ?_⟩
    · change changes.effects.Sublist _
      rw [haccounts.effects]
    · intro canonical hview
      exact ⟨_, rfl, .inl (haccounts.invalidatedViews.symm ▸ hview)⟩
    · exact fun hnone => ⟨haccounts.effects, haccounts.host, hpending.trans hnone⟩

/-- The notices are taken, and told where there is an update. -/
theorem told_finish (h : Told env about engine engine' update log) (hnone : noticesOf update = [])
    (hsilent : update = none → ∀ id, about id) : ∃ log',
      Told env about engine (engine'.finish env update).2 (engine'.finish env update).1
          (log ++ log') ∧
        (engine'.pendingReconcile = none →
          log' = [] ∧ (engine'.finish env update).2.waiting = []) := by
  let taken : ExtensionEngine T ρ σ :=
    { engine' with
      session := { engine'.session with
        host := engine'.session.host.takePendingNotices.2.takeVisibleChanged.2 } }
  rw [finish]
  cases update with
  | none =>
    refine ⟨[], ?_, fun _ => ⟨rfl, rfl⟩⟩
    rw [List.append_nil]
    refine ⟨h.happened, h.effects, fun _ => ⟨⟨List.nil_sublist _, ?_⟩, Nat.zero_le _⟩, ?_⟩
    · exact fun _ id hid => absurd (hsilent rfl id) hid
    · intro canonical hview
      obtain ⟨_, he, -⟩ := h.views canonical hview
      cases he
  | some told =>
    have hnotices : engine.waiting.length ≤ maxPendingNotices →
        Leaves about engine.waiting (raisedIn log) engine'.waiting := by
      intro hlength
      have hleaves := (h.notices hlength).1
      rw [hnone] at hleaves
      exact hleaves
    dsimp only
    split_ifs with hsnapshot
    · obtain ⟨changes, log', haccounts, hquiet⟩ := accounts_buildSnapshot env false taken
      have hgrows : Grows about _ _ _ := haccounts.grows
      refine ⟨log', ⟨?_, ?_, ?_, ?_⟩, fun hpending => ⟨hquiet hpending, ?_⟩⟩
      · rw [hgrows.host.happened, ← List.append_assoc]
        exact congrArg (· ++ log') h.happened
      · rw [acceptedIn_append]
        exact h.effects.trans (List.sublist_append_left _ _)
      · intro hlength
        obtain ⟨hleaves, hlength'⟩ := hgrows.host.waiting (Nat.zero_le _)
        rw [raisedIn_append]
        exact ⟨(hnotices hlength).append hleaves, hlength'⟩
      · intro canonical hview
        rw [viewedIn_append] at hview
        obtain hview | hview := List.mem_append.mp hview
        · obtain ⟨_, he, hlisted | ⟨snapshot, hsome, -⟩⟩ := h.views canonical hview
          · exact ⟨_, rfl, .inl ((Option.some.inj he) ▸ hlisted)⟩
          · rw [← Option.some.inj he] at hsome
            rw [hsome, Bool.and_eq_true] at hsnapshot
            cases hsnapshot.2
        · exact ⟨_, rfl, .inr ⟨_, rfl, carried_buildSnapshot (haccounts.shown canonical hview)⟩⟩
      · have hwaiting := haccounts.host.waiting (Nat.zero_le _)
        rw [hquiet hpending] at hwaiting
        exact hwaiting.trans (queued_nil (Nat.zero_le _))
    · refine ⟨[], ?_, fun _ => ⟨rfl, rfl⟩⟩
      rw [List.append_nil]
      refine ⟨h.happened, h.effects, ?_, ?_⟩
      · intro hlength
        refine ⟨?_, Nat.zero_le _⟩
        exact (List.append_nil engine'.waiting).symm ▸ hnotices hlength
      · intro canonical hview
        obtain ⟨_, he, htold⟩ := h.views canonical hview
        obtain rfl := Option.some.inj he
        exact ⟨_, rfl, htold⟩

variable {command : ExtensionCommand}

/-- The answer to a command whose events are for the extensions that are loaded. -/
theorem answered_of_forwards (env : EngineEnv T ρ σ) (about : ExtensionId → Prop) (files : Files)
    (h : engine.Forwards command) :
    ∃ told engine' log, engine.answer env files command = some (some told, engine') ∧
      Answered env about engine engine' told log := by
  cases command with
  | lifecycle expected event =>
    have hhandles : Handling env engine.session _ _ := ExtensionSession.handling_dispatch event _
    obtain ⟨log, hanswered⟩ := answered_updateOf { engine with session := _ } hhandles rfl true
    exact ⟨_, _, log, if_neg (not_not.mpr h), hanswered⟩
  | input expected contribution instanceId eventId value =>
    have hhandles : Handling env engine.session _ _ :=
      ExtensionSession.handling_dispatchToExtension contribution.extensionId
        (.input contribution.text instanceId eventId value) _
    obtain ⟨log, hanswered⟩ := answered_updateOf { engine with session := _ } hhandles rfl true
    exact ⟨_, _, log, if_neg (not_not.mpr h), hanswered⟩
  | response expected extensionId event =>
    have hhandles : Handling env engine.session _ _ :=
      ExtensionSession.handling_dispatchToExtension extensionId event _
    obtain ⟨log, hanswered⟩ := answered_updateOf { engine with session := _ } hhandles rfl true
    exact ⟨_, _, log, if_neg (not_not.mpr h), hanswered⟩
  | replaceable event =>
    have hhandles : Handling env engine.session _ _ :=
      ExtensionSession.handling_dispatch event.event _
    obtain ⟨log, hanswered⟩ := answered_updateOf
      { engine with
        session := _
        replaceableEvents := engine.replaceableEvents.insert event.kind event } hhandles rfl false
    exact ⟨_, _, log, rfl, hanswered⟩
  | reconcileInstances expected desired =>
    have hhandles : Handling env engine.session _ _ :=
      ExtensionSession.handling_reconcileInstances desired _
    obtain ⟨log, hanswered⟩ := answered_updateOf { engine with session := _ } hhandles rfl false
    exact ⟨_, _, log, if_neg (not_not.mpr h), hanswered⟩
  | sourcesChanged | devReload | devUnload | search | recordSearchTimeout | shutdown => cases h

/-- The extensions that a command loads anew, and those that go by it. -/
def LoadsAnew (env : EngineEnv T ρ σ) (files : Files) (engine : ExtensionEngine T ρ σ)
    (command : ExtensionCommand) (id : ExtensionId) : Prop :=
  match command with
  | .sourcesChanged => ∃ sources candidates, Reloads env files engine sources candidates
  | .devReload request => id = request.extensionId
  | .devUnload _ gone => Unloads env files gone id
  | _ => False

/-- Whatever the command is, what is answered has happened; no notices are told yet. -/
theorem told_answer (h : engine.answer env files command = some (update, engine')) :
    (∃ log, Told env (engine.LoadsAnew env files command) engine engine' update log) ∧
      noticesOf update = [] := by
  by_cases hforwards : engine.Forwards command
  · obtain ⟨told, left, log, hanswer, hanswered⟩ :=
      answered_of_forwards env (engine.LoadsAnew env files command) files hforwards
    obtain ⟨rfl, rfl⟩ := Prod.mk.inj (Option.some.inj (hanswer.symm.trans h))
    exact ⟨⟨log, hanswered.toTold⟩, hanswered.noNotices⟩
  · cases command with
    | lifecycle expected | input expected | response expected | reconcileInstances expected =>
      rw [answer_eq_none_iff.mpr ⟨expected, rfl, hforwards⟩] at h
      cases h
    | replaceable => exact absurd trivial hforwards
    | sourcesChanged =>
      obtain ⟨log, hreloaded⟩ := shows_reloadAll env files engine
      simp only [answer] at h
      generalize engine.reloadAll env files = reloaded at h hreloaded
      obtain ⟨err | _, left⟩ := reloaded
      · obtain ⟨rfl, rfl⟩ := Prod.mk.inj (Option.some.inj h)
        let failed : ExtensionEngine T ρ σ :=
          { left with diagnostics := left.diagnostics ++ [s!"reload failed: {err}"] }
        have hfailed : Shows _ engine.session failed.session log := hreloaded
        exact ⟨told_of_shows hfailed true rfl rfl rfl, rfl⟩
      · obtain ⟨rfl, rfl⟩ := Prod.mk.inj (Option.some.inj h)
        exact ⟨told_of_shows hreloaded true rfl rfl rfl, rfl⟩
    | devReload request =>
      obtain ⟨rfl, rfl⟩ := Prod.mk.inj (Option.some.inj h)
      exact told_handleDevReload env files request engine
    | devUnload sessionId id =>
      have htold := told_handleDevUnload env files sessionId id engine
      have he : engine.handleDevUnload env files sessionId id = (update, engine') :=
        Option.some.inj h
      rwa [he] at htold
    | search =>
      obtain ⟨rfl, rfl⟩ := Prod.mk.inj (Option.some.inj h)
      exact ⟨⟨[], .of_quiet (.refl _) rfl⟩, rfl⟩
    | recordSearchTimeout id =>
      obtain ⟨rfl, rfl⟩ := Prod.mk.inj (Option.some.inj h)
      have htimeout : ∃ log,
          Host.Tells (engine.LoadsAnew env files (.recordSearchTimeout id)) _
              (Host.recordCoordinatorTimeout env _ _) log ∧
            viewedIn log = [] := engine.session.host.tells_recordCoordinatorTimeout id
      obtain ⟨log, htells, hquiet⟩ := htimeout
      exact ⟨⟨log, .of_quiet htells hquiet⟩, rfl⟩
    | shutdown =>
      obtain ⟨rfl, rfl⟩ := Prod.mk.inj (Option.some.inj h)
      exact ⟨⟨[], .of_quiet (.refl _) rfl⟩, rfl⟩

/-- The extensions about which a call may drop notices: those that it loads anew or that go by it,
and all where a command is answered without an update. -/
def Loses (env : EngineEnv T ρ σ) (files : Files) (engine : ExtensionEngine T ρ σ)
    (call : EngineCall) (id : ExtensionId) : Prop :=
  match call with
  | .handleCommand command =>
    (∃ left, engine.answer env files command = some (none, left)) ∨
      engine.LoadsAnew env files command id
  | .handleDevReload request => id = request.extensionId
  | .handleDevUnload _ gone => Unloads env files gone id
  | .tick => False

theorem told_handleCommand (env : EngineEnv T ρ σ) (files : Files) (command : ExtensionCommand)
    (engine : ExtensionEngine T ρ σ) : ∃ log,
      Told env (engine.Loses env files (.handleCommand command)) engine
        (engine.handleCommand env files command).2 (engine.handleCommand env files command).1
        log := by
  rw [handleCommand]
  split
  · exact ⟨[], .of_quiet (.refl _) rfl⟩
  case h_2 left hanswer =>
    obtain ⟨⟨log, htold⟩, hnone⟩ := told_answer hanswer
    have hloses : Told env (engine.Loses env files (.handleCommand command)) engine left _ log :=
      htold.mono fun _ => .inr
    obtain ⟨log', hfinished, -⟩ := told_finish hloses hnone fun hsilent _ =>
      .inl ⟨left, hanswer.trans (by rw [hsilent])⟩
    exact ⟨log ++ log', hfinished⟩

/-- What the end of a command leaves of its answer: the effects, with the notices that waited. -/
theorem finish_told (env : EngineEnv T ρ σ) (engine : ExtensionEngine T ρ σ)
    (told : ExtensionUpdate T) :
    effectsOf (engine.finish env (some told)).1 = told.effects ∧
      noticesOf (engine.finish env (some told)).1 = engine.waiting := by
  rw [finish]
  dsimp only
  split_ifs <;> exact ⟨rfl, rfl⟩

theorem tellsAll_handleCommand (hpending : engine.pendingReconcile = none)
    (h : engine.Forwards command) : ∃ log,
      TellsAll env about engine (engine.handleCommand env files command).2
        (engine.handleCommand env files command).1 log := by
  obtain ⟨told, left, log, hanswer, hanswered⟩ := answered_of_forwards env about files h
  obtain ⟨heffects, htells, hleft⟩ := hanswered.all hpending
  obtain ⟨log', hfinished, hquiet⟩ := told_finish hanswered.toTold hanswered.noNotices
    fun hsilent => by cases hsilent
  obtain ⟨rfl, hwaiting⟩ := hquiet hleft
  obtain ⟨hall, hnotices⟩ := finish_told env left told
  rw [List.append_nil] at hfinished
  rw [handleCommand, hanswer]
  refine ⟨log, hfinished, hall.trans heffects, fun hlength => ⟨?_, hwaiting⟩⟩
  exact hnotices.trans (htells.waiting hlength)

/-- Where nothing has been waiting, a snapshot changes nothing. -/
theorem buildSnapshot_of_none (catalogChanged : Bool) (hpending : engine.pendingReconcile = none) :
    (engine.buildSnapshot env catalogChanged).2 = engine := by
  simp only [buildSnapshot, hpending]

theorem tellsAll_tick (hpending : engine.pendingReconcile = none) :
    TellsAll env about engine (engine.tick env).2 (engine.tick env).1 [] := by
  simp only [tick]
  split
  case isTrue hquiet =>
    have hwaiting : engine.waiting = [] := by
      rw [Bool.and_eq_true, List.isEmpty_iff] at hquiet
      exact hquiet.2
    have hleaves : Leaves about engine.waiting [] [] := by
      rw [hwaiting]
      exact leaves_same
    refine ⟨⟨(List.append_nil _).symm, List.nil_sublist _, ?_, ?_⟩, rfl, fun _ => ⟨?_, rfl⟩⟩
    · exact fun _ => ⟨hleaves, Nat.zero_le _⟩
    · exact fun _ hview => absurd hview List.not_mem_nil
    · rw [hwaiting]
      rfl
  · let ticked : ExtensionEngine T ρ σ :=
      { engine with
        session := { engine.session with
          host :=
            (engine.session.host.advanceClock env).2.takePendingNotices.2.takeVisibleChanged.2 }
        scriptRuntime := (env.scripts.tick engine.scriptRuntime).2
        generation := engine.generation + 1 }
    have hsame : (ticked.buildSnapshot env false).2 = ticked := buildSnapshot_of_none false hpending
    have hnone : (ticked.buildSnapshot env false).2.waiting = [] := congrArg waiting hsame
    refine ⟨⟨?_, List.nil_sublist _, fun _ => ?_, ?_⟩, rfl, fun hlength => ⟨?_, hnone⟩⟩
    · exact (congrArg (·.session.host.happened) hsame).trans (List.append_nil _).symm
    · change Leaves about engine.waiting []
        (engine.waiting ++ (ticked.buildSnapshot env false).2.waiting) ∧
          (ticked.buildSnapshot env false).2.waiting.length ≤ _
      rw [hnone, List.append_nil]
      exact ⟨leaves_same, Nat.zero_le _⟩
    · exact fun _ hview => absurd hview List.not_mem_nil
    · exact (queued_nil hlength).symm

/-! ### Calls -/

/-- A call of which all that happens is told. -/
def CallForwards (engine : ExtensionEngine T ρ σ) : EngineCall → Prop
  | .handleCommand command => engine.Forwards command
  | .tick => True
  | _ => False

theorem told_call (env : EngineEnv T ρ σ) (hpending : engine.pendingReconcile = none)
    (files : Files) (call : EngineCall) :
    ∃ log, Told env (engine.Loses env files call) engine (engine.call env files call).2
        (engine.call env files call).1 log ∧
      (engine.CallForwards call →
        TellsAll env (engine.Loses env files call) engine (engine.call env files call).2
          (engine.call env files call).1 log) := by
  cases call with
  | handleCommand command =>
    by_cases hforwards : engine.Forwards command
    · have htold : ∃ log, TellsAll env (engine.Loses env files (.handleCommand command)) engine
          (engine.handleCommand env files command).2 _ log :=
        tellsAll_handleCommand hpending hforwards
      obtain ⟨log, htold⟩ := htold
      exact ⟨log, htold.toTold, fun _ => htold⟩
    · obtain ⟨log, htold⟩ := told_handleCommand env files command engine
      exact ⟨log, htold, fun h => absurd h hforwards⟩
  | handleDevReload request =>
    obtain ⟨⟨log, htold⟩, -⟩ := told_handleDevReload env files request engine
    exact ⟨log, htold, fun h => by cases h⟩
  | handleDevUnload sessionId id =>
    obtain ⟨⟨log, htold⟩, -⟩ := told_handleDevUnload env files sessionId id engine
    exact ⟨log, htold, fun h => by cases h⟩
  | tick => exact ⟨[], (tellsAll_tick hpending).toTold, fun _ => tellsAll_tick hpending⟩

theorem pendingReconcile_handleDevReload (hpending : engine.pendingReconcile = none)
    (request : DevReloadRequest) :
    (engine.handleDevReload env files request).2.pendingReconcile = none := by
  obtain ⟨_, _, runtime, -, heq⟩ | ⟨manifest, module, runtime, -, hswaps⟩ :=
    engine.handleDevReload_cases env files request
  · rw [heq]
    exact hpending
  · obtain ⟨_, _, session, -, heq⟩ | ⟨session, -, heq⟩ := hswaps
    · rw [heq]
      exact hpending
    · rw [heq]
      exact pendingReconcile_buildSnapshot env false _

theorem pendingReconcile_handleDevUnload (hpending : engine.pendingReconcile = none)
    (sessionId : String) (id : ExtensionId) :
    (engine.handleDevUnload env files sessionId id).2.pendingReconcile = none := by
  simp only [handleDevUnload]
  split
  · exact hpending
  · exact pendingReconcile_buildSnapshot env false _

/-- Nothing is left to be put in place when a command has been answered. -/
theorem pendingReconcile_answer (hpending : engine.pendingReconcile = none)
    (h : engine.answer env files command = some (update, engine')) :
    engine'.pendingReconcile = none := by
  by_cases hforwards : engine.Forwards command
  · obtain ⟨told, left, log, hanswer, hanswered⟩ :=
      answered_of_forwards env (fun _ => False) files hforwards
    obtain ⟨rfl, rfl⟩ := Prod.mk.inj (Option.some.inj (hanswer.symm.trans h))
    exact (hanswered.all hpending).2.2
  · cases command with
    | lifecycle expected | input expected | response expected | reconcileInstances expected =>
      rw [answer_eq_none_iff.mpr ⟨expected, rfl, hforwards⟩] at h
      cases h
    | replaceable => exact absurd trivial hforwards
    | sourcesChanged =>
      obtain ⟨-, rfl⟩ := Prod.mk.inj (Option.some.inj h)
      exact pendingReconcile_buildSnapshot env true _
    | devReload request =>
      obtain ⟨-, rfl⟩ := Prod.mk.inj (Option.some.inj h)
      exact pendingReconcile_handleDevReload hpending request
    | devUnload sessionId id =>
      have hleft : _ = engine' := congrArg Prod.snd (Option.some.inj h)
      rw [← hleft]
      exact pendingReconcile_handleDevUnload hpending sessionId id
    | search | recordSearchTimeout | shutdown =>
      obtain ⟨-, rfl⟩ := Prod.mk.inj (Option.some.inj h)
      exact hpending

theorem pendingReconcile_step (hpending : engine.pendingReconcile = none)
    (input : Files × EngineCall) : (engine.step env input).pendingReconcile = none := by
  obtain ⟨files, call⟩ := input
  cases call with
  | handleCommand command =>
    rw [step, ExtensionEngine.call, handleCommand]
    split
    · exact hpending
    case h_2 update left hanswer =>
      have hleft := pendingReconcile_answer hpending hanswer
      rw [finish]
      cases update with
      | none => exact hleft
      | some told =>
        dsimp only
        split_ifs
        · exact pendingReconcile_buildSnapshot env false _
        · exact hleft
  | handleDevReload request => exact pendingReconcile_handleDevReload hpending request
  | handleDevUnload sessionId id => exact pendingReconcile_handleDevUnload hpending sessionId id
  | tick =>
    rw [step, ExtensionEngine.call]
    simp only [tick]
    split
    · exact hpending
    · exact pendingReconcile_buildSnapshot env false _

/-- What a run returns, in order. -/
def updates (env : EngineEnv T ρ σ) (engine : ExtensionEngine T ρ σ)
    (inputs : List (Files × EngineCall)) : List (ExtensionUpdate T) :=
  expand (step env) (fun engine input => (engine.call env input.1 input.2).1.toList) engine inputs

/-- What a run returns against what happens in it. -/
theorem told_run (env : EngineEnv T ρ σ) (engine : ExtensionEngine T ρ σ)
    (hpending : engine.pendingReconcile = none) (inputs : List (Files × EngineCall)) : ∃ log,
      (run (step env) engine inputs).session.host.happened =
        engine.session.host.happened ++ log ∧
      ((engine.updates env inputs).flatMap (·.effects)).Sublist (acceptedIn log) ∧
      (engine.waiting.length ≤ maxPendingNotices →
        ((engine.updates env inputs).flatMap (·.circuitNotices) ++
          (run (step env) engine inputs).waiting).Sublist (engine.waiting ++ raisedIn log)) := by
  induction inputs generalizing engine with
  | nil =>
    refine ⟨[], (List.append_nil _).symm, List.nil_sublist _, fun _ => ?_⟩
    exact (List.append_nil engine.waiting).symm ▸ .refl _
  | cons input inputs ih =>
    obtain ⟨log, htold, -⟩ := told_call env hpending input.1 input.2
    obtain ⟨log', hhappened, heffects, hnotices⟩ :=
      ih (engine.step env input) (pendingReconcile_step hpending input)
    have hreturned : ∀ {α : Type} (f : ExtensionUpdate T → List α),
        (engine.updates env (input :: inputs)).flatMap f =
          (engine.call env input.1 input.2).1.elim [] f ++
            ((engine.step env input).updates env inputs).flatMap f := by
      intro α f
      rw [updates, expand, List.flatMap_append]
      cases (engine.call env input.1 input.2).1 with
      | none => rfl
      | some told => exact congrArg (· ++ _) (List.append_nil (f told))
    refine ⟨log ++ log', ?_, ?_, fun hlength => ?_⟩
    · rw [run_cons, hhappened, ← List.append_assoc]
      exact congrArg (· ++ log') htold.happened
    · rw [hreturned, acceptedIn_append]
      exact htold.effects.append heffects
    · obtain ⟨hleaves, hlength'⟩ := htold.notices hlength
      rw [hreturned, raisedIn_append, ← List.append_assoc, List.append_assoc]
      refine ((hnotices hlength').append_left _).trans ?_
      rw [← List.append_assoc]
      exact hleaves.sublist.append_right _

end ExtensionEngine

/-- What has happened until the engine is there, and has given its first snapshot: no notice waits
that has not been raised, and the snapshot carries every view that has been replaced. -/
theorem told_new {files : Files} {runtime : ρ} {scripts : σ} {engine : ExtensionEngine T ρ σ}
    (hnew : ExtensionEngine.new env files runtime scripts = .ok engine) (catalogChanged : Bool) :
    let first := (engine.buildSnapshot env catalogChanged).2
    first.waiting.Sublist (raisedIn first.session.host.happened) ∧
      first.waiting.length ≤ maxPendingNotices ∧
      ∀ canonical ∈ viewedIn first.session.host.happened,
        ExtensionEngine.Carried env first (engine.buildSnapshot env catalogChanged).1
          canonical := by
  intro first
  obtain ⟨log, hloaded⟩ := ExtensionEngine.shows_reloadAll env files
    (ExtensionEngine.blank files runtime scripts)
  have hengine :
      ((ExtensionEngine.blank files runtime scripts).reloadAll env files).2 = engine := by
    rw [ExtensionEngine.new] at hnew
    split at hnew
    · cases hnew
    case h_2 heq =>
      rw [heq]
      exact Except.ok.inj hnew
  rw [hengine] at hloaded
  obtain ⟨changes, log', haccounts, -⟩ :=
    ExtensionEngine.accounts_buildSnapshot env catalogChanged engine
  have hfirst := hloaded.trans haccounts.grows
  obtain ⟨hleaves, hlength⟩ := hfirst.host.waiting (Nat.zero_le _)
  have hhappened : first.session.host.happened = log ++ log' := hfirst.host.happened
  rw [hhappened]
  exact ⟨hleaves.sublist, hlength, fun canonical hview =>
    ExtensionEngine.carried_buildSnapshot (hfirst.shown canonical hview)⟩

/-- **What the shell is told.** The effects that a run returns have been accepted, each is returned
once, in order and with its extension; the notices that it returns have been raised, each is
returned once; every view that has been replaced in a call is named in its update or carried by its
snapshot. Where there is room, the notices are returned or go on waiting, but those about extensions
that are loaded anew or go, and those that are taken by a command that is answered without an
update. And the update of a command whose events are for the extensions that are loaded, or of a
tick, has all that has been accepted in the call, and all notices that waited or have been raised in
it, as far as the queue has room. -/
theorem effects_told {files : Files} {runtime : ρ} {scripts : σ} {engine : ExtensionEngine T ρ σ}
    (hnew : ExtensionEngine.new env files runtime scripts = .ok engine) (catalogChanged : Bool)
    (inputs : List (Files × EngineCall)) :
    let first := (engine.buildSnapshot env catalogChanged).2
    let last := run (ExtensionEngine.step env) first inputs
    ((first.updates env inputs).flatMap (·.effects)).Sublist
        (acceptedIn last.session.host.happened) ∧
      ((first.updates env inputs).flatMap (·.circuitNotices) ++ last.waiting).Sublist
        (raisedIn last.session.host.happened) ∧
      (∀ canonical ∈ viewedIn first.session.host.happened,
        ExtensionEngine.Carried env first (engine.buildSnapshot env catalogChanged).1 canonical) ∧
      Along (ExtensionEngine.step env)
        (fun engine input => ∃ log,
          ExtensionEngine.Told env (engine.Loses env input.1 input.2) engine
            (engine.step env input) (engine.call env input.1 input.2).1 log ∧
          (engine.CallForwards input.2 →
            ExtensionEngine.TellsAll env (engine.Loses env input.1 input.2) engine
              (engine.step env input) (engine.call env input.1 input.2).1 log))
        first inputs := by
  intro first last
  obtain ⟨hwaiting, hlength, hcarried⟩ := told_new hnew catalogChanged
  have hpending : first.pendingReconcile = none :=
    engine.pendingReconcile_buildSnapshot env catalogChanged
  obtain ⟨log, hhappened, heffects, hnotices⟩ := first.told_run env hpending inputs
  have hlast : last.session.host.happened = first.session.host.happened ++ log := hhappened
  refine ⟨?_, ?_, hcarried, ?_⟩
  · rw [hlast, acceptedIn_append]
    exact heffects.trans (List.sublist_append_right _ _)
  · rw [hlast, raisedIn_append]
    exact (hnotices hlength).trans (hwaiting.append_right _)
  · rw [along_iff]
    intro pre input post _
    have hI : Preserved (ExtensionEngine.step env)
        (fun engine : ExtensionEngine T ρ σ => engine.pendingReconcile = none) :=
      fun _ input hpending => ExtensionEngine.pendingReconcile_step hpending input
    exact ExtensionEngine.told_call env (hI.holds hpending pre) input.1 input.2

/-- An extension is loaded, and it is told of something: the shell gets the notification that it
asks for then. -/
theorem effects_told_started :
    let env := plainEnv fun _ => [.showNotification "Clock" "Tick" none]
    ∃ engine, ExtensionEngine.new env (plainFiles true) () () = .ok engine ∧
      let first := (engine.buildSnapshot env true).2
      let inputs :=
        [(plainFiles true, EngineCall.handleCommand (.lifecycle first.generation .shellStarted)),
          (plainFiles true, .tick)]
      let last := run (ExtensionEngine.step env) first inputs
      ((first.updates env inputs).flatMap (·.effects)).Sublist
          (acceptedIn last.session.host.happened) ∧
        ((first.updates env inputs).flatMap (·.effects)).length = 1 := by
  intro env
  have hnew : ExtensionEngine.new env (plainFiles true) () () = .ok _ := rfl
  exact ⟨_, hnew, (effects_told hnew true _).1, by decide⟩

/-! ### An extension that fails -/

/-- An extension with three widgets. -/
def failingManifest : ExtensionManifest :=
  { plainManifest with
    contributions :=
      ⟨[⟨⟨"bar"⟩, "Bar"⟩, ⟨⟨"clock"⟩, "Clock"⟩, ⟨⟨"date"⟩, "Date"⟩], [], [], [], [], [], [], [], [],
        []⟩ }

/-- Surroundings with a runtime in which no widget can be rendered. -/
def failingEnv : EngineEnv plainPayloads Unit Unit :=
  { plainEnv fun _ => [] with
    runtime :=
      { plainRuntime fun _ => [] with
        view := fun _ _ _ _ => (.error ⟨.trap, "unreachable"⟩, ()) }
    fromToml := fun _ => .ok failingManifest }

/-- The files when the module has been built a number of times. -/
def builtFiles (builds : ℕ) : Files :=
  { plainFiles true with computeFingerprint := fun _ _ => builds }

/-- The circuit of the extension opens while it is loaded, and it is loaded anew before any update
has told of that: two notices have been raised, and one is returned. -/
theorem notice_dropped :
    ∃ engine, ExtensionEngine.new failingEnv (builtFiles 0) () () = .ok engine ∧
      let first := (engine.buildSnapshot failingEnv true).2
      let inputs := [(builtFiles 1, EngineCall.handleCommand .sourcesChanged)]
      let last := run (ExtensionEngine.step failingEnv) first inputs
      (raisedIn last.session.host.happened).length = 2 ∧
        ((first.updates failingEnv inputs).flatMap (·.circuitNotices) ++ last.waiting).length =
          1 := by
  exact ⟨_, rfl, by decide, by decide⟩

end Shilpo.Engine
