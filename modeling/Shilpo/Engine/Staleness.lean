import Shilpo.Engine.Effects

/-!
# Which commands are stale

Commands name the generation that they are for, and the engine passes over those for another; the
shell drops what it works on for an earlier one (`apply_update` of
`shell/runtime/extension_host.rs`). What raises the generation is held here against what has been
replaced or removed.

Each call raises it by a number that is known from the state before (`Moves`). A reload that goes
through, an applied build and the end of a development session raise it; and so does a tick that has
something to report, where nothing has been replaced.
-/

namespace Shilpo.Engine

open Extensions Theory

variable {T : Payloads} {ρ σ : Type} {env : EngineEnv T ρ σ}

/-- A module that was loaded is not there any more. -/
def Happening.Replaces : Happening → Prop
  | .replaced _ | .removed _ => True
  | _ => False

/-- Among what has happened, a module has been replaced or removed. -/
def Replaced (log : List Happening) : Prop := ∃ happening ∈ log, happening.Replaces

@[simp] theorem not_replaced_nil : ¬ Replaced [] := by
  rintro ⟨_, hmem, -⟩
  cases hmem

@[simp] theorem replaced_append (log log' : List Happening) :
    Replaced (log ++ log') ↔ Replaced log ∨ Replaced log' := by
  simp [Replaced, or_and_right, exists_or]

@[simp] theorem not_replaced_raised (notices : List CircuitNotice) :
    ¬ Replaced (notices.map .raised) := by
  rintro ⟨_, hmem, hreplaces⟩
  obtain ⟨_, -, rfl⟩ := List.mem_map.mp hmem
  exact hreplaces

@[simp] theorem not_replaced_accepted (id : ExtensionId)
    (operations : List AuthorizedHostOperation) : ¬ Replaced (operations.map (.accepted id)) := by
  rintro ⟨_, hmem, hreplaces⟩
  obtain ⟨_, -, rfl⟩ := List.mem_map.mp hmem
  exact hreplaces

theorem replaced_removed (ids : List ExtensionId) : Replaced (ids.map .removed) ↔ ids ≠ [] := by
  cases ids with
  | nil => simp
  | cons id ids => exact iff_of_true ⟨_, List.mem_cons_self .., trivial⟩ (List.cons_ne_nil id ids)

/-! ### The host -/

namespace Host

/-- The host goes on to another, and modules are replaced or removed, or not. -/
def Marks (host host' : Host ρ) (replaced : Prop) : Prop :=
  ∃ log, host'.happened = host.happened ++ log ∧ (Replaced log ↔ replaced)

variable {host host' host'' : Host ρ} {replaced replaced' : Prop}

theorem Marks.of_same (h : host'.happened = host.happened) : Marks host host' False :=
  ⟨[], h.trans (List.append_nil _).symm, iff_of_false not_replaced_nil id⟩

theorem Marks.refl (host : Host ρ) : Marks host host False := .of_same rfl

theorem Marks.trans (h : Marks host host' replaced) (h' : Marks host' host'' replaced') :
    Marks host host'' (replaced ∨ replaced') := by
  obtain ⟨log, hhappened, hreplaced⟩ := h
  obtain ⟨log', hhappened', hreplaced'⟩ := h'
  refine ⟨log ++ log', ?_, ?_⟩
  · rw [hhappened', hhappened, List.append_assoc]
  · rw [replaced_append, hreplaced, hreplaced']

/-- Nothing more is replaced. -/
theorem Marks.quietly (h : Marks host host' replaced) (h' : Marks host' host'' False) :
    Marks host host'' replaced := by
  have hboth := h.trans h'
  rwa [or_false] at hboth

theorem Marks.of_not (h : Marks host host' False) (hnot : ¬ replaced) :
    Marks host host' replaced := by
  rwa [iff_false_intro hnot]

theorem marks_call {β : Type} {f : ClockReadings → ExtensionHost ρ → β × ExtensionHost ρ}
    {id : ExtensionId} {resets : β → Bool} {happened : β → List Happening} :
    Marks host (host.call env id f resets happened).2
      (Replaced (happened (host.call env id f resets happened).1)) := by
  refine ⟨_, List.append_assoc .., ?_⟩
  rw [replaced_append, or_iff_left (not_replaced_raised _)]
  exact Iff.rfl

theorem marks_register (env : EngineEnv T ρ σ) (host : Host ρ) (manifest : ExtensionManifest)
    (module : T.Module) (grants : List Capability) :
    Marks host (host.register env manifest module grants).2 False := by
  obtain ⟨log, hhappened, hreplaced⟩ : Marks host (host.register env manifest module grants).2 _ :=
    marks_call
  exact ⟨log, hhappened, hreplaced.trans (iff_of_false not_replaced_nil id)⟩

/-- What has gone well is marked. -/
theorem replaced_of_ok (answer : Except ExtensionHost.Error Unit) {happening : Happening}
    (h : happening.Replaces) :
    Replaced (if answer.toOption.isSome then [happening] else []) ↔ answer = .ok () := by
  cases answer with
  | error err => exact iff_of_false not_replaced_nil fun he => by cases he
  | ok _ => exact iff_of_true ⟨happening, List.mem_singleton.mpr rfl, h⟩ rfl

theorem marks_replace (env : EngineEnv T ρ σ) (host : Host ρ) (manifest : ExtensionManifest)
    (module : T.Module) (grants : List Capability) :
    Marks host (host.replace env manifest module grants).2
      ((host.replace env manifest module grants).1 = .ok ()) := by
  obtain ⟨log, hhappened, hreplaced⟩ : Marks host (host.replace env manifest module grants).2 _ :=
    marks_call
  exact ⟨log, hhappened, hreplaced.trans (replaced_of_ok _ trivial)⟩

theorem marks_unregister (env : EngineEnv T ρ σ) (host : Host ρ) (id : ExtensionId) :
    Marks host (host.unregister env id).2 ((host.unregister env id).1 = .ok ()) := by
  obtain ⟨log, hhappened, hreplaced⟩ : Marks host (host.unregister env id).2 _ := marks_call
  exact ⟨log, hhappened, hreplaced.trans (replaced_of_ok _ trivial)⟩

theorem marks_dispatchEvent (env : EngineEnv T ρ σ) (host : Host ρ) (id : ExtensionId)
    (event : ExtensionEvent) :
    Marks host (host.dispatchEvent env id event).2 False := by
  obtain ⟨log, hhappened, hreplaced⟩ : Marks host (host.dispatchEvent env id event).2 _ :=
    marks_call
  refine ⟨log, hhappened, hreplaced.trans (iff_of_false ?_ fun h => h)⟩
  split
  · exact not_replaced_accepted id _
  · exact not_replaced_nil

theorem marks_renderView (env : EngineEnv T ρ σ) (host : Host ρ) (canonical : CanonicalId) :
    Marks host (host.renderView env canonical).2 False := by
  obtain ⟨log, hhappened, hreplaced⟩ : Marks host (host.renderView env canonical).2 _ := marks_call
  exact ⟨log, hhappened, hreplaced.trans (iff_of_false not_replaced_nil id)⟩

theorem marks_recordCoordinatorTimeout (env : EngineEnv T ρ σ) (host : Host ρ)
    (id : ExtensionId) :
    Marks host (host.recordCoordinatorTimeout env id) False := by
  obtain ⟨log, hhappened, hreplaced⟩ : Marks host (host.recordCoordinatorTimeout env id) _ :=
    marks_call
  exact ⟨log, hhappened, hreplaced.trans (iff_of_false not_replaced_nil fun h => h)⟩

theorem marks_viewed (host : Host ρ) (canonical : CanonicalId) :
    Marks host (host.viewed canonical) False := by
  refine ⟨[.viewed canonical], rfl, iff_of_false ?_ id⟩
  rintro ⟨_, hmem, hreplaces⟩
  obtain rfl := List.mem_singleton.mp hmem
  exact hreplaces

theorem marks_clear (env : EngineEnv T ρ σ) (host : Host ρ) :
    Marks host (host.clear env) (host.inner.registrations.keys ≠ []) := by
  refine ⟨_, rfl, ?_⟩
  have hperm := env.arrange_perm host.inner.registrations.keys
  rw [replaced_removed, ne_eq, ← List.length_eq_zero_iff, hperm.length_eq, List.length_eq_zero_iff]

end Host

/-- Handling events replaces nothing. -/
theorem Handling.marks {session session' : ExtensionSession T ρ} {changes : ExtensionChanges}
    (h : Handling env session changes session') : session.host.Marks session'.host False := by
  induction h with
  | refl session | noted session => exact .refl _
  | @refused session id event _ host h =>
    have hmarks := Host.marks_dispatchEvent env session.host id event
    rwa [h] at hmarks
  | @dispatched session id event _ host h =>
    have hmarks := Host.marks_dispatchEvent env session.host id event
    rwa [h] at hmarks
  | @unrendered session canonical _ host h =>
    have hmarks := Host.marks_renderView env session.host canonical
    rwa [h] at hmarks
  | @rendered session canonical _ host h =>
    have hmarks := Host.marks_renderView env session.host canonical
    rw [h] at hmarks
    exact hmarks.quietly (Host.marks_viewed _ canonical)
  | trans _ _ ih ih' => exact ih.quietly ih'

/-! ### The engine -/

namespace ExtensionEngine

variable {engine engine' engine'' : ExtensionEngine T ρ σ} {files : Files} {n n' : ℕ}
  {replaced replaced' : Prop}

/-- The engine goes on to another, with its generation raised by a number, and modules are replaced
or removed, or not. -/
structure Moves (engine engine' : ExtensionEngine T ρ σ) (n : ℕ) (replaced : Prop) : Prop where
  generation : engine'.generation = engine.generation + n
  host : engine.session.host.Marks engine'.session.host replaced

theorem Moves.refl (engine : ExtensionEngine T ρ σ) : Moves engine engine 0 False := ⟨rfl, .refl _⟩

/-- After this, nothing is done but handling events. -/
theorem Moves.quietly (h : Moves engine engine' n replaced) (h' : Moves engine' engine'' 0 False) :
    Moves engine engine'' n replaced :=
  ⟨h'.generation.trans h.generation, h.host.quietly h'.host⟩

variable {session : ExtensionSession T ρ}

theorem moves_session (h : engine.session.host.Marks session.host replaced) :
    Moves engine { engine with session } 0 replaced := ⟨rfl, h⟩

/-- An update is of the generation that the engine has then. -/
def Dated (update : Option (ExtensionUpdate T)) (engine : ExtensionEngine T ρ σ) : Prop :=
  ∀ told, update = some told → told.generation = engine.generation ∧
    ∀ snapshot, told.snapshot = some snapshot → snapshot.generation = engine.generation

theorem dated_none (engine : ExtensionEngine T ρ σ) : Dated none engine := fun _ h => by cases h

theorem dated_some {told : ExtensionUpdate T} (hgeneration : told.generation = engine.generation)
    (hsnapshot : ∀ snapshot, told.snapshot = some snapshot →
      snapshot.generation = engine.generation) : Dated (some told) engine := by
  rintro _ ⟨⟩
  exact ⟨hgeneration, hsnapshot⟩

theorem moves_buildSnapshot (catalogChanged : Bool) (engine : ExtensionEngine T ρ σ) :
    Moves engine (engine.buildSnapshot env catalogChanged).2 0 False := by
  unfold buildSnapshot
  cases hpending : engine.pendingReconcile with
  | none => exact .refl engine
  | some desired =>
    have hhandles : Handling env engine.session _ _ :=
      ExtensionSession.handling_reconcileInstances desired engine.session
    exact ⟨rfl, hhandles.marks⟩

/-! ### Reloads -/

theorem marks_registerAll (env : EngineEnv T ρ σ) (candidates : List (Candidate T))
    (engine : ExtensionEngine T ρ σ) :
    engine.session.host.Marks (registerAll env candidates engine).session.host False := by
  induction candidates generalizing engine with
  | nil => exact .refl _
  | cons candidate candidates ih =>
    obtain ⟨id, source, module⟩ := candidate
    have hregister : engine.session.host.Marks
        (engine.session.register env source.manifest module source.grants).2.host False := by
      rw [ExtensionSession.register]
      have hmarks := engine.session.host.marks_register env source.manifest module source.grants
      generalize engine.session.host.register env source.manifest module source.grants = answered
        at hmarks
      obtain ⟨_ | _, host⟩ := answered
      · exact hmarks
      · have hrenders : Handling env _ _ _ := ExtensionSession.handling_renderAll
          (rendered source.manifest.id source.manifest.contributions) { engine.session with host }
        exact hmarks.quietly hrenders.marks
    rw [registerAll]
    generalize engine.session.register env source.manifest module source.grants = answered
      at hregister
    obtain ⟨_ | _, session⟩ := answered
    · exact hregister.quietly (ih _)
    · exact hregister.quietly (ih _)

/-- A reload that goes through raises the generation, whatever has been loaded before. -/
theorem moves_reloadAll (engine : ExtensionEngine T ρ σ) (env : EngineEnv T ρ σ) (files : Files) :
    ((∃ sources candidates, Reloads env files engine sources candidates) ∧
      Moves engine (engine.reloadAll env files).2 1
        (engine.session.host.inner.registrations.keys ≠ [])) ∨
    (¬ ∃ sources candidates, Reloads env files engine sources candidates) ∧
      Moves engine (engine.reloadAll env files).2 0 False := by
  obtain ⟨sources, candidates, hreloads, heq⟩ | ⟨hnot, diagnostics, runtime, -, heq⟩ :=
    engine.reloadAll_cases env files
  · refine .inl ⟨⟨sources, candidates, hreloads⟩, ?_⟩
    obtain ⟨runtime, -, hruntime⟩ := validateSources_eq env candidates engine.session.host
    let cleared : ExtensionEngine T ρ σ :=
      { engine.tried env files candidates with
        session := (engine.tried env files candidates).session.clear env
        activeSources := sources
        catalogMtime := files.catalogMtime
        origins := ∅ }
    have hcleared : engine.session.host.Marks cleared.session.host
        (engine.session.host.inner.registrations.keys ≠ []) := by
      have htried : engine.session.host.Marks (engine.tried env files candidates).session.host
          False := by
        refine .of_same ?_
        change (validateSources env candidates engine.session.host).2.happened = _
        rw [hruntime]
        rfl
      have hkeys : (engine.tried env files candidates).session.host.inner.registrations.keys =
          engine.session.host.inner.registrations.keys := by
        change (validateSources env candidates engine.session.host).2.inner.registrations.keys = _
        rw [hruntime]
        rfl
      have hboth := htried.trans
        ((engine.tried env files candidates).session.host.marks_clear env)
      rwa [false_or, hkeys] at hboth
    have hfills := marks_registerAll env candidates cleared
    have hstarts : Handling env (registerAll env candidates cleared).session _ _ :=
      ExtensionSession.handling_dispatchAll
        ((registerAll env candidates cleared).startingEvents env) _
    obtain ⟨_, _, _, hgeneration⟩ := registerAll_eq cleared env candidates
    rw [heq]
    refine ⟨?_, (hcleared.quietly hfills).quietly hstarts.marks⟩
    change (registerAll env candidates cleared).generation + 1 = _
    rw [hgeneration]
    rfl
  · refine .inr ⟨hnot, ?_⟩
    rw [heq]
    exact ⟨rfl, .of_same rfl⟩

/-! ### Development -/

/-- A build that is taken although its extension has not been loaded. -/
def AddsModule (env : EngineEnv T ρ σ) (files : Files) (request : DevReloadRequest)
    (engine : ExtensionEngine T ρ σ) : Prop :=
  ∃ manifest module runtime, Offers env files request engine manifest module runtime ∧
    engine.session.manifests.lookup manifest.id = none ∧
    ((engine.session.host.withRuntime runtime).register env manifest module
      ((files.loadGrants request.extensionId).toOption.getD manifest.capabilities)).1 = .ok ()

/-- A module that is swapped in replaces another, or it is added. -/
theorem marks_swapModule {manifest : ExtensionManifest} {module : T.Module}
    {grants : List Capability} {answer : Except (String × String) Unit}
    (h : engine.swapModule env manifest module grants = (answer, session)) :
    engine.session.host.Marks session.host
        (answer = .ok () ∧ (engine.session.manifests.lookup manifest.id).isSome) ∧
      (engine.session.manifests.lookup manifest.id = none →
        (answer = .ok () ↔
          (engine.session.host.register env manifest module grants).1 = .ok ())) := by
  rw [swapModule] at h
  split at h
  case isTrue hthere =>
    refine ⟨?_, fun hnone => by rw [hnone] at hthere; cases hthere⟩
    split at h
    · obtain ⟨rfl, rfl⟩ := Prod.mk.inj h
      exact (Host.Marks.refl _).of_not fun he => by cases he.1
    · obtain ⟨log, hhappened, hreplaced⟩ :=
        engine.session.host.marks_replace env manifest module grants
      generalize engine.session.host.replace env manifest module grants = answered
        at h hhappened hreplaced
      obtain ⟨_ | _, host⟩ := answered
      · obtain ⟨rfl, rfl⟩ := Prod.mk.inj h
        exact ⟨log, hhappened, hreplaced.trans (iff_of_false (fun he => by cases he)
          fun he => by cases he.1)⟩
      · obtain ⟨rfl, rfl⟩ := Prod.mk.inj h
        exact ⟨log, hhappened, hreplaced.trans (iff_of_true rfl ⟨rfl, hthere⟩)⟩
  case isFalse hnew =>
    have hmarks := engine.session.host.marks_register env manifest module grants
    generalize engine.session.host.register env manifest module grants = answered at h hmarks ⊢
    have hquiet : ∀ answer : Except (String × String) Unit,
        engine.session.host.Marks answered.2
          (answer = .ok () ∧ (engine.session.manifests.lookup manifest.id).isSome) := by
      exact fun _ => hmarks.of_not fun he => hnew he.2
    obtain ⟨_ | _, host⟩ := answered
    · obtain ⟨rfl, rfl⟩ := Prod.mk.inj h
      exact ⟨hquiet _, fun _ => iff_of_false (fun he => by cases he) fun he => by cases he⟩
    · obtain ⟨rfl, rfl⟩ := Prod.mk.inj h
      exact ⟨hquiet _, fun _ => iff_of_true rfl rfl⟩

/-- A module that has been swapped in is adopted: the generation is raised. -/
theorem moves_adopt (env : EngineEnv T ρ σ) (request : DevReloadRequest) (source : ActiveSource)
    (engine : ExtensionEngine T ρ σ) :
    Moves engine (engine.adopt env request source).2 1 False ∧
      Dated (engine.adopt env request source).1.update (engine.adopt env request source).2 := by
  let id := request.extensionId
  let dropped := (dropViews env id
    { engine.session with manifests := engine.session.manifests.insert id source.manifest }).2
  have hrenders : Handling env dropped _ _ :=
    dropped.handling_renderAll (rendered id source.manifest.contributions)
  have hstarted : ∃ changes, Handling env _ changes (startExtension env _ _ _) :=
    handling_startExtension id (startingEvents env engine)
      (dropped.renderAll env (rendered id source.manifest.contributions)).2
  obtain ⟨changes, hstarts⟩ := hstarted
  let started : ExtensionEngine T ρ σ :=
    { engine with
      session := startExtension env id (startingEvents env engine)
        (dropped.renderAll env (rendered id source.manifest.contributions)).2
      activeSources := engine.activeSources.insert id source
      activeDevOverrides := engine.activeDevOverrides.insert id source
      devSessionSequences := engine.devSessionSequences.insert request.sessionId
        request.buildSequence
      generation := engine.generation + 1
      origins := engine.origins.insert id ⟨source, true⟩ }
  have hmoves : Moves engine started 1 False := ⟨rfl, (hrenders.trans hstarts).marks⟩
  refine ⟨hmoves.quietly (started.moves_buildSnapshot false), dated_some rfl ?_⟩
  rintro _ ⟨⟩
  rfl

/-- A call raises the generation where it replaces or removes a module, and only there, if and only
if this condition holds. -/
def Shifts (fits : Prop) (engine : ExtensionEngine T ρ σ)
    (answered : Option (ExtensionUpdate T) × ExtensionEngine T ρ σ) : Prop :=
  ∃ n replaced, Moves engine answered.2 n replaced ∧ Dated answered.1 answered.2 ∧
    ((n ≠ 0 ↔ replaced) ↔ fits)

variable {fits : Prop} {update : Option (ExtensionUpdate T)}

/-- Nothing is raised, and nothing replaced. -/
theorem shifts_of_still (h : Moves engine engine' 0 False) (hdated : Dated update engine')
    (hfits : fits) :
    Shifts fits engine (update, engine') :=
  ⟨0, False, h, hdated, iff_of_true (iff_of_false (fun h => h rfl) id) hfits⟩

/-- The generation is raised. -/
theorem shifts_of_raised (h : Moves engine engine' 1 replaced) (hdated : Dated update engine')
    (hfits : replaced ↔ fits) : Shifts fits engine (update, engine') :=
  ⟨1, replaced, h, hdated, (iff_true_left Nat.one_ne_zero).trans hfits⟩

/-- What becomes of a build that has been tried and found good. -/
theorem handleDevReload_of_offers {request : DevReloadRequest} {manifest : ExtensionManifest}
    {module : T.Module} {runtime : ρ}
    (hoffers : Offers env files request engine manifest module runtime)
    (hswap : (engine.withRuntime runtime).swapModule env manifest module
      ((files.loadGrants request.extensionId).toOption.getD manifest.capabilities) =
        (.ok (), session)) :
    (engine.handleDevReload env files request).1.outcome = "applied" := by
  obtain ⟨bytes, hartifact, hcompile⟩ := hoffers.artifact
  have hvalidated : engine.session.host.validateModule env request.extensionId module manifest
      ((files.loadGrants request.extensionId).toOption.getD manifest.capabilities) =
        (.ok (), engine.session.host.withRuntime runtime) := by
    rw [Host.validateModule, hoffers.validated]
    rfl
  simp only [handleDevReload, hartifact, hcompile, hvalidated]
  rw [withRuntime] at hswap
  rw [hswap]
  rfl

theorem shifts_handleDevReload (env : EngineEnv T ρ σ) (files : Files) (request : DevReloadRequest)
    (engine : ExtensionEngine T ρ σ) :
    Shifts (¬ engine.AddsModule env files request) engine
      ((engine.handleDevReload env files request).1.update,
        (engine.handleDevReload env files request).2) := by
  -- a build that is rejected adds nothing
  have hrejected : (engine.handleDevReload env files request).1.outcome = "rejected" →
      ¬ engine.AddsModule env files request := by
    rintro hrejected ⟨manifest, module, runtime, hoffers, hnone, hregister⟩
    cases hswap : (engine.withRuntime runtime).swapModule env manifest module
        ((files.loadGrants request.extensionId).toOption.getD manifest.capabilities) with
    | mk answer session =>
      obtain rfl := ((marks_swapModule hswap).2 hnone).mpr hregister
      rw [handleDevReload_of_offers hoffers hswap] at hrejected
      exact absurd hrejected (by decide)
  obtain ⟨_, _, runtime, -, heq⟩ | ⟨manifest, module, runtime, hoffers, hswaps⟩ :=
    engine.handleDevReload_cases env files request
  · rw [heq] at hrejected ⊢
    exact shifts_of_still ⟨rfl, .of_same rfl⟩ (dated_none _) (hrejected rfl)
  obtain ⟨_, _, session, hswap, heq⟩ | ⟨session, hswap, heq⟩ := hswaps
  · rw [heq] at hrejected ⊢
    have hmarks : engine.session.host.Marks session.host _ := (marks_swapModule hswap).1
    have hstill : engine.session.host.Marks session.host False := by
      obtain ⟨log, hhappened, hreplaced⟩ := hmarks
      exact ⟨log, hhappened, hreplaced.trans (iff_of_false (fun he => by cases he.1) id)⟩
    exact shifts_of_still (moves_session hstill) (dated_none _) (hrejected rfl)
  · obtain ⟨hmarks, hadded⟩ := marks_swapModule hswap
    obtain ⟨hadopted, hdated⟩ := moves_adopt env request
      ⟨manifest, request.canonicalRoot,
        (files.loadGrants request.extensionId).toOption.getD manifest.capabilities,
        files.computeFingerprint request.canonicalRoot manifest⟩ { engine with session }
    have hmarked : engine.session.host.Marks session.host _ := hmarks
    rw [heq]
    refine shifts_of_raised ⟨hadopted.generation, hmarked.quietly hadopted.host⟩ hdated ?_
    rw [eq_self_iff_true, true_and]
    constructor
    · rintro hthere ⟨manifest', module', runtime', hoffers', hnone, -⟩
      obtain ⟨_, hartifact, -⟩ := hoffers.artifact
      obtain ⟨_, hartifact', -⟩ := hoffers'.artifact
      rw [devArtifact_id hartifact', ← devArtifact_id hartifact] at hnone
      change (engine.session.manifests.lookup manifest.id).isSome at hthere
      rw [hnone] at hthere
      cases hthere
    · intro hnot
      by_contra hnew
      have hnone : engine.session.manifests.lookup manifest.id = none := by
        rwa [Option.not_isSome_iff_eq_none] at hnew
      exact hnot ⟨manifest, module, runtime, hoffers, hnone, (hadded hnone).mp rfl⟩

/-- The end of a development session goes well: where the catalog has the extension, its copy can be
read and compiled and takes the place of what was developed; where it has not, the host gives the
extension up. -/
def UnloadsWell (env : EngineEnv T ρ σ) (files : Files) (engine : ExtensionEngine T ρ σ)
    (id : ExtensionId) : Prop :=
  match ((discoverSources env files).1.toOption.getD ∅).lookup id with
  | some source =>
    ∃ bytes module, files.read (join source.root "extension.wasm") = .ok bytes ∧
      env.runtime.compileModule engine.session.host.inner.runtime bytes = .ok module ∧
      (engine.session.host.replace env source.manifest module source.grants).1 = .ok ()
  | none => (engine.session.host.unregister env id).1 = .ok ()

/-- The copy of the catalog takes the place of what was developed, or it does not. -/
theorem moves_restore (env : EngineEnv T ρ σ) (files : Files) (id : ExtensionId)
    (source : ActiveSource) (engine : ExtensionEngine T ρ σ) :
    Moves engine (engine.restore env files id source).2 0
      (∃ bytes module, files.read (join source.root "extension.wasm") = .ok bytes ∧
        env.runtime.compileModule engine.session.host.inner.runtime bytes = .ok module ∧
        (engine.session.host.replace env source.manifest module source.grants).1 = .ok ()) := by
  rw [restore]
  cases hread : files.read (join source.root "extension.wasm") with
  | error err =>
    refine ⟨rfl, (Host.Marks.refl _).of_not ?_⟩
    rintro ⟨_, _, hread, -⟩
    cases hread
  | ok bytes =>
    cases hcompile : env.runtime.compileModule engine.session.host.inner.runtime bytes with
    | error err =>
      simp only [hcompile]
      refine ⟨rfl, (Host.Marks.refl _).of_not ?_⟩
      rintro ⟨_, _, ⟨⟩, he, -⟩
      rw [hcompile] at he
      cases he
    | ok module =>
      have hiff : (∃ bytes' module', (Except.ok bytes : Except String _) = .ok bytes' ∧
          env.runtime.compileModule engine.session.host.inner.runtime bytes' = .ok module' ∧
          (engine.session.host.replace env source.manifest module' source.grants).1 = .ok ()) ↔
          (engine.session.host.replace env source.manifest module source.grants).1 = .ok () := by
        constructor
        · rintro ⟨_, _, ⟨⟩, he, hok⟩
          obtain rfl := Except.ok.inj (hcompile.symm.trans he)
          exact hok
        · exact fun hok => ⟨bytes, module, rfl, hcompile, hok⟩
      rw [hiff]
      simp only [hcompile]
      have hmarks := engine.session.host.marks_replace env source.manifest module source.grants
      let replacedSession : ExtensionSession T ρ :=
        { engine.session with
          host := (engine.session.host.replace env source.manifest module source.grants).2
          manifests := engine.session.manifests.insert id source.manifest }
      have hrenders : Handling env replacedSession _ _ :=
        replacedSession.handling_renderAll (rendered id source.manifest.contributions)
      exact ⟨rfl, hmarks.quietly hrenders.marks⟩

theorem moves_takeOut (env : EngineEnv T ρ σ) (id : ExtensionId) (engine : ExtensionEngine T ρ σ) :
    Moves engine (engine.takeOut env id) 0
      ((engine.session.host.unregister env id).1 = .ok ()) :=
  ⟨rfl, engine.session.host.marks_unregister env id⟩

theorem shifts_handleDevUnload (env : EngineEnv T ρ σ) (files : Files) (sessionId : String)
    (id : ExtensionId) (engine : ExtensionEngine T ρ σ) :
    Shifts (id ∈ engine.activeDevOverrides → engine.UnloadsWell env files id) engine
      (engine.handleDevUnload env files sessionId id) := by
  simp only [handleDevUnload]
  split
  case isTrue hnot =>
    rw [Option.isNone_iff_eq_none, AList.lookup_eq_none] at hnot
    exact shifts_of_still ⟨rfl, .refl _⟩ (dated_none _) fun hthere => absurd hthere hnot
  case isFalse hthere =>
    rw [Option.isNone_iff_eq_none, AList.lookup_eq_none, not_not] at hthere
    let ended : ExtensionEngine T ρ σ :=
      { engine with
        devSessionSequences := engine.devSessionSequences.erase sessionId
        session := (dropViews env id engine.session).2
        activeDevOverrides := engine.activeDevOverrides.erase id
        diagnostics := engine.diagnostics ++ (discoverSources env files).2 }
    -- whatever becomes of the extension, the generation is raised
    have hraised : ∀ {left : ExtensionEngine T ρ σ} {replaced : Prop} (shown : List CanonicalId),
        Moves ended left 0 replaced → (replaced ↔ engine.UnloadsWell env files id) →
        Shifts (id ∈ engine.activeDevOverrides → engine.UnloadsWell env files id) engine
          (some
            { generation := (({ left with generation := left.generation + 1 } :
                ExtensionEngine T ρ σ).buildSnapshot env false).2.generation
              snapshot := some (({ left with generation := left.generation + 1 } :
                ExtensionEngine T ρ σ).buildSnapshot env false).1
              effects := []
              invalidatedViews := shown
              circuitNotices := [] },
            (({ left with generation := left.generation + 1 } :
              ExtensionEngine T ρ σ).buildSnapshot env false).2) := by
      intro left replaced shown hmoves hwell
      have hleft : Moves engine ({ left with generation := left.generation + 1 } :
          ExtensionEngine T ρ σ) 1 replaced :=
        ⟨congrArg (· + 1) hmoves.generation, hmoves.host⟩
      refine shifts_of_raised (hleft.quietly (moves_buildSnapshot false _)) (dated_some rfl ?_)
        ⟨fun h _ => hwell.mp h, fun h => hwell.mpr (h hthere)⟩
      rintro _ ⟨⟩
      rfl
    cases hsource : ((discoverSources env files).1.toOption.getD ∅).lookup id with
    | some source =>
      refine hraised _ (moves_restore env files id source ended) ?_
      rw [UnloadsWell, hsource]
      exact Iff.rfl
    | none =>
      refine hraised _ (moves_takeOut env id ended) ?_
      rw [UnloadsWell, hsource]
      exact Iff.rfl

/-! ### Ticks -/

/-- A tick has nothing to report: no circuit has changed, and no view of a script. -/
def Quiet (env : EngineEnv T ρ σ) (engine : ExtensionEngine T ρ σ) : Prop :=
  (engine.session.host.advanceClock env).1 = false ∧ engine.session.host.visibleChanged = false ∧
    (env.scripts.tick engine.scriptRuntime).1 = false ∧
      engine.session.host.inner.circuitBreaker.pendingNotices = []

theorem shifts_tick (env : EngineEnv T ρ σ) (engine : ExtensionEngine T ρ σ) :
    Shifts (engine.Quiet env) engine (engine.tick env) := by
  have hquiet : (!(engine.session.host.advanceClock env).1 &&
      !(engine.session.host.advanceClock env).2.takePendingNotices.2.takeVisibleChanged.1 &&
      !(env.scripts.tick engine.scriptRuntime).1 &&
      (engine.session.host.advanceClock env).2.takePendingNotices.1.isEmpty) = true ↔
      engine.Quiet env := by
    change (!(engine.session.host.advanceClock env).1 &&
      !(engine.session.host.visibleChanged || (engine.session.host.advanceClock env).1) &&
      !(env.scripts.tick engine.scriptRuntime).1 &&
      engine.session.host.inner.circuitBreaker.pendingNotices.isEmpty) = true ↔ _
    rw [Quiet]
    simp only [Bool.and_eq_true, Bool.not_eq_true', Bool.or_eq_false_iff, List.isEmpty_iff]
    tauto
  let ticked (n : ℕ) : ExtensionEngine T ρ σ :=
    { engine with
      session := { engine.session with
        host := (engine.session.host.advanceClock env).2.takePendingNotices.2.takeVisibleChanged.2 }
      scriptRuntime := (env.scripts.tick engine.scriptRuntime).2
      generation := engine.generation + n }
  have hticked : ∀ n, Moves engine (ticked n) n False := fun n => ⟨rfl, .of_same rfl⟩
  simp only [tick]
  split
  case isTrue hnothing => exact shifts_of_still (hticked 0) (dated_none _) (hquiet.mp hnothing)
  case isFalse hsomething =>
    refine shifts_of_raised ((hticked 1).quietly (moves_buildSnapshot false (ticked 1)))
      (dated_some rfl ?_) (iff_of_false id fun h => hsomething (hquiet.mpr h))
    rintro _ ⟨⟩
    rfl

/-! ### Commands -/

/-- The update that tells of changes. -/
theorem moves_updateOf (env : EngineEnv T ρ σ) (withSnapshot : Bool) (changes : ExtensionChanges)
    (engine : ExtensionEngine T ρ σ) :
    Moves engine (engine.updateOf env withSnapshot changes).2 0 False ∧
      Dated (some (engine.updateOf env withSnapshot changes).1)
        (engine.updateOf env withSnapshot changes).2 := by
  rw [updateOf]
  split_ifs
  · refine ⟨moves_buildSnapshot false engine, dated_some rfl ?_⟩
    rintro _ ⟨⟩
    rfl
  · exact ⟨.refl engine, dated_some rfl fun _ h => by cases h⟩

/-- A command replaces or removes a module if it raises the generation: a reload that goes through
finds one loaded, a build is not the first of its extension, the end of a development session goes
well. -/
def CommandReplaces (env : EngineEnv T ρ σ) (files : Files) (engine : ExtensionEngine T ρ σ) :
    ExtensionCommand → Prop
  | .sourcesChanged =>
    (∃ sources candidates, Reloads env files engine sources candidates) →
      engine.session.host.inner.registrations.keys ≠ []
  | .devReload request => ¬ engine.AddsModule env files request
  | .devUnload _ id => id ∈ engine.activeDevOverrides → engine.UnloadsWell env files id
  | _ => True

/-- A command whose events are handled, with what has come of them. -/
theorem shifts_handled {command : ExtensionCommand} {changes : ExtensionChanges}
    (h : Handling env engine.session changes session)
    (replaceableEvents : AList fun _ : ReplaceableKind => ReplaceableEvent) (withSnapshot : Bool)
    (hfits : engine.CommandReplaces env files command) :
    Shifts (engine.CommandReplaces env files command) engine
      ((updateOf env withSnapshot changes { engine with session, replaceableEvents }).map some
        fun engine => engine) := by
  obtain ⟨hmoves, hdated⟩ := moves_updateOf env withSnapshot changes
    { engine with session, replaceableEvents }
  have hhandled : Moves engine { engine with session, replaceableEvents } 0 False := ⟨rfl, h.marks⟩
  exact shifts_of_still (hhandled.quietly hmoves) hdated hfits

theorem shifts_answer {command : ExtensionCommand}
    {answered : Option (ExtensionUpdate T) × ExtensionEngine T ρ σ}
    (h : engine.answer env files command = some answered) :
    Shifts (engine.CommandReplaces env files command) engine answered := by
  have hfor : ∀ {expected : ℕ} {rest : Option (ExtensionUpdate T) × ExtensionEngine T ρ σ},
      (if expected ≠ engine.generation then none else some rest) = some answered →
        rest = answered := by
    intro expected rest hif
    split at hif
    · cases hif
    · exact Option.some.inj hif
  cases command with
  | lifecycle expected event =>
    rw [← hfor h]
    exact shifts_handled (ExtensionSession.handling_dispatch event _) engine.replaceableEvents true
      trivial
  | input expected contribution instanceId eventId value =>
    rw [← hfor h]
    exact shifts_handled (ExtensionSession.handling_dispatchToExtension contribution.extensionId
      (.input contribution.text instanceId eventId value) _) engine.replaceableEvents true trivial
  | response expected extensionId event =>
    rw [← hfor h]
    exact shifts_handled (ExtensionSession.handling_dispatchToExtension extensionId event _)
      engine.replaceableEvents true trivial
  | replaceable event =>
    rw [← Option.some.inj h]
    exact shifts_handled (ExtensionSession.handling_dispatch event.event _)
      (engine.replaceableEvents.insert event.kind event) false trivial
  | reconcileInstances expected desired =>
    rw [← hfor h]
    exact shifts_handled (ExtensionSession.handling_reconcileInstances desired _)
      engine.replaceableEvents false trivial
  | sourcesChanged =>
    have hreloads := engine.moves_reloadAll env files
    simp only [answer] at h
    generalize engine.reloadAll env files = reloaded at h hreloads
    obtain ⟨outcome, left⟩ := reloaded
    -- whether the reload has failed is only said in the diagnostics
    have hleft : ∃ diagnostics, answered =
        (some ⟨(({ left with diagnostics } : ExtensionEngine T ρ σ).buildSnapshot env
            true).2.generation,
          some (({ left with diagnostics } : ExtensionEngine T ρ σ).buildSnapshot env true).1,
          [], [], []⟩,
        (({ left with diagnostics } : ExtensionEngine T ρ σ).buildSnapshot env true).2) := by
      cases outcome with
      | error err => exact ⟨_, (Option.some.inj h).symm⟩
      | ok _ => exact ⟨left.diagnostics, (Option.some.inj h).symm⟩
    obtain ⟨diagnostics, rfl⟩ := hleft
    have hsaid : ∀ {n : ℕ} {replaced : Prop}, Moves engine left n replaced →
        Moves engine (({ left with diagnostics } : ExtensionEngine T ρ σ).buildSnapshot env
          true).2 n replaced := by
      intro n replaced hmoves
      have hsame : Moves engine { left with diagnostics } n replaced :=
        ⟨hmoves.generation, hmoves.host⟩
      exact hsame.quietly (moves_buildSnapshot true _)
    have hdated : Dated (some ⟨(({ left with diagnostics } : ExtensionEngine T ρ σ).buildSnapshot
          env true).2.generation,
        some (({ left with diagnostics } : ExtensionEngine T ρ σ).buildSnapshot env true).1,
        [], [], []⟩)
        (({ left with diagnostics } : ExtensionEngine T ρ σ).buildSnapshot env true).2 := by
      refine dated_some rfl ?_
      rintro _ ⟨⟩
      rfl
    obtain ⟨hgoes, hmoves⟩ | ⟨hnot, hmoves⟩ := hreloads
    · exact shifts_of_raised (hsaid hmoves) hdated ⟨fun h _ => h, fun h => h hgoes⟩
    · exact shifts_of_still (hsaid hmoves) hdated fun hgoes => absurd hgoes hnot
  | devReload request =>
    rw [← Option.some.inj h]
    exact shifts_handleDevReload env files request engine
  | devUnload sessionId id =>
    rw [← Option.some.inj h]
    exact shifts_handleDevUnload env files sessionId id engine
  | search | shutdown =>
    rw [← Option.some.inj h]
    exact shifts_of_still ⟨rfl, .refl _⟩ (dated_none _) trivial
  | recordSearchTimeout id =>
    rw [← Option.some.inj h]
    exact shifts_of_still ⟨rfl, engine.session.host.marks_recordCoordinatorTimeout env id⟩
      (dated_none _) trivial

/-- The notices are taken. -/
theorem Shifts.finish (h : Shifts fits engine (update, engine')) :
    Shifts fits engine (engine'.finish env update) := by
  obtain ⟨n, replaced, hmoves, hdated, hfits⟩ := h
  let taken : ExtensionEngine T ρ σ :=
    { engine' with
      session := { engine'.session with
        host := engine'.session.host.takePendingNotices.2.takeVisibleChanged.2 } }
  have htaken : Moves engine taken n replaced :=
    hmoves.quietly ⟨rfl, .of_same rfl⟩
  rw [ExtensionEngine.finish]
  cases update with
  | none => exact ⟨n, replaced, htaken, dated_none _, hfits⟩
  | some told =>
    obtain ⟨hgeneration, hsnapshot⟩ := hdated told rfl
    dsimp only
    split_ifs
    · have hbuilt : Moves taken (taken.buildSnapshot env false).2 0 False :=
        moves_buildSnapshot false taken
      refine ⟨n, replaced, htaken.quietly hbuilt, dated_some ?_ ?_, hfits⟩
      · exact hgeneration.trans hbuilt.generation.symm
      · rintro _ ⟨⟩
        rfl
    · exact ⟨n, replaced, htaken, dated_some hgeneration hsnapshot, hfits⟩

/-- A call replaces or removes a module if it raises the generation. -/
def CallReplaces (env : EngineEnv T ρ σ) (engine : ExtensionEngine T ρ σ)
    (input : Files × EngineCall) : Prop :=
  match input.2 with
  | .handleCommand command => engine.CommandReplaces env input.1 command
  | .handleDevReload request => engine.CommandReplaces env input.1 (.devReload request)
  | .handleDevUnload sessionId id => engine.CommandReplaces env input.1 (.devUnload sessionId id)
  | .tick => engine.Quiet env

theorem shifts_call (env : EngineEnv T ρ σ) (engine : ExtensionEngine T ρ σ)
    (input : Files × EngineCall) :
    Shifts (engine.CallReplaces env input) engine (engine.call env input.1 input.2) := by
  obtain ⟨files, call⟩ := input
  cases call with
  | handleCommand command =>
    rw [ExtensionEngine.call, handleCommand]
    cases hanswer : engine.answer env files command with
    | none =>
      refine shifts_of_still (.refl engine) (dated_none _) ?_
      obtain ⟨expected, hexpected, -⟩ := answer_eq_none_iff.mp hanswer
      cases command with
      | lifecycle | input | response | reconcileInstances => trivial
      | replaceable | sourcesChanged | devReload | devUnload | search | recordSearchTimeout
      | shutdown => cases hexpected
    | some answered => exact (shifts_answer hanswer).finish
  | handleDevReload request => exact shifts_handleDevReload env files request engine
  | handleDevUnload sessionId id => exact shifts_handleDevUnload env files sessionId id engine
  | tick => exact shifts_tick env engine

end ExtensionEngine

/-! ### The shell -/

/-- A request that the shell works on: for which generation, and of which extension. -/
structure TaskKey where
  generation : ℕ
  extensionId : ExtensionId
  requestId : String

/-- `retain_tasks_for_generation`. -/
def retainTasksForGeneration (activeGen : ℕ) (tasks : List TaskKey) : List TaskKey :=
  tasks.filter fun task => activeGen ≤ task.generation

/-- `apply_update`, as far as it is about the requests that are worked on; `currentGen` is the
generation that the shell knows. -/
def applyUpdate (tasks : List TaskKey) (applied : Option ℕ × ExtensionUpdate T) : List TaskKey :=
  let (currentGen, update) := applied
  if currentGen.any (update.generation < ·) then tasks
  else
    match update.snapshot with
    | some snapshot => retainTasksForGeneration snapshot.generation tasks
    | none => tasks

theorem mem_applyUpdate {tasks : List TaskKey} {task : TaskKey}
    {applied : Option ℕ × ExtensionUpdate T} (hmem : task ∈ tasks)
    (hold : ∀ snapshot, applied.2.snapshot = some snapshot →
      snapshot.generation ≤ task.generation) : task ∈ applyUpdate tasks applied := by
  simp only [applyUpdate]
  split
  · exact hmem
  · cases hsnapshot : applied.2.snapshot with
    | none => exact hmem
    | some snapshot =>
      exact List.mem_filter.mpr ⟨hmem, decide_eq_true (hold snapshot hsnapshot)⟩

/-! ### Runs -/

namespace ExtensionEngine

/-- After a run, the commands for the generation that the engine had before are passed over if and
only if a module has been replaced or removed in it; and if none has, the shell has not dropped a
request of that generation, whichever of the updates it has applied. -/
def StaleIffReplaced (env : EngineEnv T ρ σ) (engine : ExtensionEngine T ρ σ)
    (inputs : List (Files × EngineCall)) : Prop :=
  let later := run (step env) engine inputs
  ∃ log, later.session.host.happened = engine.session.host.happened ++ log ∧
    (∀ (files : Files) (command : ExtensionCommand), command.expected = some engine.generation →
      (later.answer env files command = none ↔ Replaced log)) ∧
    (¬ Replaced log → ∀ tasks, ∀ task ∈ tasks, task.generation = engine.generation →
      ∀ applied : List (Option ℕ × ExtensionUpdate T),
        (∀ update ∈ applied, update.2 ∈ engine.updates env inputs) →
        task ∈ run applyUpdate tasks applied)

/-- What a run does to the generation, and of which its snapshots are. -/
theorem moves_run (env : EngineEnv T ρ σ) (engine : ExtensionEngine T ρ σ)
    (inputs : List (Files × EngineCall)) : ∃ n replaced,
      Moves engine (run (step env) engine inputs) n replaced ∧
      (Along (step env) (CallReplaces env) engine inputs → (n ≠ 0 ↔ replaced)) ∧
      ∀ told ∈ engine.updates env inputs, ∀ snapshot, told.snapshot = some snapshot →
        snapshot.generation ≤ engine.generation + n := by
  induction inputs generalizing engine with
  | nil =>
    refine ⟨0, False, .refl engine, fun _ => iff_of_false (fun h => h rfl) id, ?_⟩
    exact fun told hmem => absurd hmem List.not_mem_nil
  | cons input inputs ih =>
    obtain ⟨n, replaced, hmoves, hdated, hfits⟩ := shifts_call env engine input
    obtain ⟨n', replaced', hmoves', hfits', hsnapshots⟩ := ih (engine.step env input)
    have hgeneration : (engine.step env input).generation = engine.generation + n :=
      hmoves.generation
    refine ⟨n + n', replaced ∨ replaced', ⟨?_, hmoves.host.trans hmoves'.host⟩, ?_, ?_⟩
    · rw [run_cons, hmoves'.generation, hgeneration, Nat.add_assoc]
    · rintro ⟨hfirst, hrest⟩
      rw [← hfits.mpr hfirst, ← hfits' hrest]
      omega
    · intro told hmem snapshot hsnapshot
      obtain hmem | hmem := List.mem_append.mp hmem
      · have hfirst := (hdated told (Option.mem_toList.mp hmem)).2 snapshot hsnapshot
        rw [hfirst, hmoves.generation]
        omega
      · have hlater := hsnapshots told hmem snapshot hsnapshot
        rw [hgeneration] at hlater
        omega

/-- **Which commands are stale.** In a run, between any two of its moments, only replaced or removed
modules make commands stale and requests be dropped, if and only if every call that raises the
generation replaces or removes a module. -/
theorem staleIffReplaced_iff (env : EngineEnv T ρ σ) (engine : ExtensionEngine T ρ σ)
    (inputs : List (Files × EngineCall)) :
    (∀ pre mid post, inputs = pre ++ mid ++ post →
      StaleIffReplaced env (run (step env) engine pre) mid) ↔
      Along (step env) (CallReplaces env) engine inputs := by
  have hignored : ∀ (files : Files) (command : ExtensionCommand)
      (earlier later : ExtensionEngine T ρ σ) (n : ℕ),
      command.expected = some earlier.generation → later.generation = earlier.generation + n →
      (later.answer env files command = none ↔ n ≠ 0) := by
    intro files command earlier later n hexpected hgeneration
    rw [answer_eq_none_iff, hexpected, hgeneration]
    constructor
    · rintro ⟨_, ⟨⟩, hne⟩
      omega
    · exact fun hn => ⟨_, rfl, by omega⟩
  constructor
  · intro h
    rw [along_iff]
    rintro pre input post rfl
    obtain ⟨n, replaced, hmoves, -, hfits⟩ := shifts_call env (run (step env) engine pre) input
    obtain ⟨log, hhappened, hstale, -⟩ := h pre [input] post (by simp)
    obtain ⟨log', hhappened', hreplaced⟩ := hmoves.host
    obtain rfl := List.append_cancel_left (hhappened.symm.trans hhappened')
    rw [← hfits, ← hreplaced,
      ← hstale input.1 (.lifecycle (run (step env) engine pre).generation .shellStarted) rfl]
    exact (hignored _ _ _ _ _ rfl hmoves.generation).symm
  · rintro h pre mid post rfl
    rw [along_append, along_append] at h
    obtain ⟨n, replaced, hmoves, hfits, hsnapshots⟩ :=
      moves_run env (run (step env) engine pre) mid
    obtain ⟨log, hhappened, hreplaced⟩ := hmoves.host
    have hraised := hfits h.1.2
    refine ⟨log, hhappened, ?_, ?_⟩
    · intro files command hexpected
      rw [hignored files command _ _ n hexpected hmoves.generation, hraised, hreplaced]
    · intro hnot tasks task hmem hgeneration applied happlied
      have hn : n = 0 := by
        by_contra hne
        exact hnot (hreplaced.mpr (hraised.mp hne))
      induction applied generalizing tasks with
      | nil => exact hmem
      | cons update applied ih =>
        refine ih _ (mem_applyUpdate hmem fun snapshot hsnapshot => ?_)
          fun other hother => happlied other (List.mem_cons_of_mem _ hother)
        have hreturned := happlied update (List.mem_cons_self ..)
        have hold := hsnapshots update.2 hreturned snapshot hsnapshot
        omega

end ExtensionEngine

/-- An extension has been loaded, and a tick tells that its circuit is closed: the start of the
shell is not told to it any more, although nothing has been replaced. -/
theorem not_staleIffReplaced_tick :
    ∃ engine, ExtensionEngine.new (plainEnv fun _ => []) (plainFiles true) () () = .ok engine ∧
      let first := (engine.buildSnapshot (plainEnv fun _ => []) true).2
      ¬ first.StaleIffReplaced (plainEnv fun _ => []) [(plainFiles true, .tick)] := by
  refine ⟨_, rfl, ?_⟩
  intro first
  rintro ⟨log, hhappened, hstale, -⟩
  have hnothing : log = [] :=
    List.append_cancel_left (hhappened.symm.trans (List.append_nil _).symm)
  rw [hnothing] at hstale
  exact not_replaced_nil ((hstale (plainFiles true) (.lifecycle _ .shellStarted) rfl).mp rfl)

end Shilpo.Engine
