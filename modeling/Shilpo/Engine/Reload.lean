import Shilpo.Engine.Engine

/-!
# What a reload can do

A reload loads everything anew (`Reloads`), or it stops before anything has changed but what is said
and what trying modules has done to the runtime (`reloadAll_cases`). A development reload stops
likewise, or is refused by the host, or swaps its module in (`handleDevReload_cases`).
-/

namespace Shilpo.Engine

open Extensions

variable {T : Payloads} {ρ σ : Type} {env : EngineEnv T ρ σ} {files : Files}

/-- The host with another state of its runtime. -/
def Host.withRuntime (host : Host ρ) (runtime : ρ) : Host ρ :=
  { host with inner := { host.inner with runtime } }

/-- The runtime goes on to another state when modules are tried in it. -/
inductive Tries (env : EngineEnv T ρ σ) : ρ → ρ → Prop where
  | refl (runtime : ρ) : Tries env runtime runtime
  | tried (runtime : ρ) {runtime' : ρ} (id : ExtensionId) (module : T.Module)
    (capabilities grants : List Capability)
    (h : Tries env (env.runtime.validateModule runtime id module env.host.runtimeBudget
      capabilities grants).2 runtime') : Tries env runtime runtime'

/-- Modules are tried in the runtime alone. -/
theorem validateSources_eq (env : EngineEnv T ρ σ) (candidates : List (Candidate T))
    (host : Host ρ) :
    ∃ runtime, Tries env host.inner.runtime runtime ∧
      (validateSources env candidates host).2 = host.withRuntime runtime := by
  induction candidates generalizing host with
  | nil => exact ⟨host.inner.runtime, .refl _, rfl⟩
  | cons candidate candidates ih =>
    obtain ⟨runtime, htries, hruntime⟩ := ih (host.validateModule env candidate.id candidate.module
      candidate.source.manifest candidate.source.grants).2
    refine ⟨runtime, .tried _ _ _ _ _ htries, ?_⟩
    rw [validateSources]
    dsimp only
    split <;> exact hruntime

namespace ExtensionEngine

/-- The engine with another state of its runtime. -/
def withRuntime (engine : ExtensionEngine T ρ σ) (runtime : ρ) : ExtensionEngine T ρ σ :=
  { engine with session := { engine.session with host := engine.session.host.withRuntime runtime } }

/-- A reload that goes through: what it finds, and what it loads. -/
structure Reloads (env : EngineEnv T ρ σ) (files : Files) (engine : ExtensionEngine T ρ σ)
    (sources : Sources) (candidates : List (Candidate T)) : Prop where
  discovered : (discoverSources env files).1 = .ok sources
  changed : ¬ (sameSources sources engine.activeSources = true ∧
    engine.catalogMtime = files.catalogMtime)
  compiled : compileSources env files engine.session.host.inner.runtime
    (sourcesInOrder env sources) = (candidates, [])
  validated : (validateSources env candidates engine.session.host).1 = []

/-- The engine when everything has been tried and found good. -/
def tried (env : EngineEnv T ρ σ) (files : Files) (candidates : List (Candidate T))
    (engine : ExtensionEngine T ρ σ) : ExtensionEngine T ρ σ :=
  { engine with
    diagnostics := (discoverSources env files).2
    session := { engine.session with
      host := (validateSources env candidates engine.session.host).2 } }

variable (engine : ExtensionEngine T ρ σ)

/-- Everything is loaded anew, or what was loaded stays. -/
theorem reloadAll_cases (env : EngineEnv T ρ σ) (files : Files) :
    (∃ sources candidates, Reloads env files engine sources candidates ∧
      engine.reloadAll env files =
        (.ok (), (engine.tried env files candidates).activate env files sources candidates)) ∨
    (¬ ∃ sources candidates, Reloads env files engine sources candidates) ∧
      ∃ diagnostics runtime, Tries env engine.session.host.inner.runtime runtime ∧
        (engine.reloadAll env files).2 = { engine.withRuntime runtime with diagnostics } := by
  have hstays : ∀ diagnostics, ∃ diagnostics' runtime,
      Tries env engine.session.host.inner.runtime runtime ∧
      { engine with diagnostics } =
        ({ engine.withRuntime runtime with diagnostics := diagnostics' } : ExtensionEngine T ρ σ) :=
    fun diagnostics => ⟨diagnostics, engine.session.host.inner.runtime, .refl _, rfl⟩
  simp only [reloadAll]
  cases hdiscovered : (discoverSources env files).1 with
  | error err =>
    refine .inr ⟨?_, hstays _⟩
    rintro ⟨sources, candidates, hreloads⟩
    rw [hreloads.discovered] at hdiscovered
    cases hdiscovered
  | ok sources =>
    dsimp only
    split
    case isTrue hsame =>
      rw [Bool.and_eq_true, decide_eq_true_eq] at hsame
      refine .inr ⟨?_, hstays _⟩
      rintro ⟨sources', candidates, hreloads⟩
      obtain rfl := Except.ok.inj (hreloads.discovered.symm.trans hdiscovered)
      exact hreloads.changed hsame
    case isFalse hchanged =>
      rw [Bool.and_eq_true, decide_eq_true_eq] at hchanged
      split
      case isTrue hfailures =>
        refine .inr ⟨?_, hstays _⟩
        rintro ⟨sources', candidates, hreloads⟩
        obtain rfl := Except.ok.inj (hreloads.discovered.symm.trans hdiscovered)
        exact hfailures (congrArg Prod.snd hreloads.compiled)
      case isFalse hcompiled =>
        rw [ne_eq, not_not] at hcompiled
        obtain ⟨runtime, htries, hruntime⟩ := validateSources_eq env
          (compileSources env files engine.session.host.inner.runtime
            (sourcesInOrder env sources)).1 engine.session.host
        split
        case isTrue hfailures =>
          refine .inr ⟨?_, ?_⟩
          · rintro ⟨sources', candidates, hreloads⟩
            obtain rfl := Except.ok.inj (hreloads.discovered.symm.trans hdiscovered)
            obtain rfl := congrArg Prod.fst hreloads.compiled
            exact hfailures hreloads.validated
          · rw [hruntime]
            exact ⟨_, runtime, htries, rfl⟩
        case isFalse hvalidated =>
          rw [ne_eq, not_not] at hvalidated
          exact .inl ⟨sources, _, ⟨hdiscovered, hchanged, Prod.ext rfl hcompiled, hvalidated⟩, rfl⟩

/-- Loading modules changes the session, what is said of it, and where modules are from. -/
theorem registerAll_eq (env : EngineEnv T ρ σ) (candidates : List (Candidate T)) :
    ∃ session diagnostics origins,
      registerAll env candidates engine = { engine with session, diagnostics, origins } := by
  induction candidates generalizing engine with
  | nil => exact ⟨engine.session, engine.diagnostics, engine.origins, rfl⟩
  | cons candidate candidates ih =>
    obtain ⟨id, source, module⟩ := candidate
    rw [registerAll]
    split
    case h_1 err session _ =>
      obtain ⟨session', diagnostics, origins, hrest⟩ := ih
        { engine with
          session
          diagnostics :=
            engine.diagnostics ++ [s!"failed to register extension '{id.text}': {err}"] }
      exact ⟨session', diagnostics, origins, hrest⟩
    case h_2 session _ =>
      obtain ⟨session', diagnostics, origins, hrest⟩ := ih
        { engine with
          session
          origins := engine.origins.insert source.manifest.id ⟨source, false⟩ }
      exact ⟨session', diagnostics, origins, hrest⟩

/-! ### Development -/

/-- A development session's module: it passes the checks and is tried. -/
structure Offers (env : EngineEnv T ρ σ) (files : Files) (request : DevReloadRequest)
    (engine : ExtensionEngine T ρ σ) (manifest : ExtensionManifest) (module : T.Module)
    (runtime : ρ) : Prop where
  artifact : ∃ bytes, engine.devArtifact env files request = .ok (manifest, bytes) ∧
    env.runtime.compileModule engine.session.host.inner.runtime bytes = .ok module
  validated : env.runtime.validateModule engine.session.host.inner.runtime request.extensionId module
    env.host.runtimeBudget manifest.capabilities
    ((files.loadGrants request.extensionId).toOption.getD manifest.capabilities) =
      (.ok (), runtime)

/-- A build is of the extension that its session is about. -/
theorem devArtifact_id {engine : ExtensionEngine T ρ σ} {request : DevReloadRequest} {manifest : ExtensionManifest}
    {bytes : List UInt8} (h : engine.devArtifact env files request = .ok (manifest, bytes)) :
    manifest.id = request.extensionId := by
  simp only [devArtifact, bind, Except.bind, pure, Except.pure, throw, throwThe,
    MonadExceptOf.throw] at h
  repeat' split at h
  all_goals first
    | cases h; done -- a check has failed
    | obtain ⟨rfl, -⟩ := Prod.mk.inj (Except.ok.inj h)
      exact not_not.mp ‹¬ _ ≠ _›

/-- The build stops before the host is asked, or is refused by it, or is swapped in. -/
theorem handleDevReload_cases (env : EngineEnv T ρ σ) (files : Files)
    (request : DevReloadRequest) :
    (∃ code message runtime, Tries env engine.session.host.inner.runtime runtime ∧
      engine.handleDevReload env files request =
        (.rejected request engine.generation code message, engine.withRuntime runtime)) ∨
    ∃ manifest module runtime,
      Offers env files request engine manifest module runtime ∧
      ((∃ code message session,
        (engine.withRuntime runtime).swapModule env manifest module
          ((files.loadGrants request.extensionId).toOption.getD manifest.capabilities) =
            (.error (code, message), session) ∧
        engine.handleDevReload env files request =
          (.rejected request engine.generation code message, { engine with session })) ∨
      ∃ session,
        (engine.withRuntime runtime).swapModule env manifest module
          ((files.loadGrants request.extensionId).toOption.getD manifest.capabilities) =
            (.ok (), session) ∧
        engine.handleDevReload env files request =
          ({ engine with session } : ExtensionEngine T ρ σ).adopt env request
            ⟨manifest, request.canonicalRoot,
              (files.loadGrants request.extensionId).toOption.getD manifest.capabilities,
              files.computeFingerprint request.canonicalRoot manifest⟩) := by
  simp only [handleDevReload]
  cases hartifact : engine.devArtifact env files request with
  | error wrong => exact .inl ⟨wrong.1, wrong.2, engine.session.host.inner.runtime, .refl _, rfl⟩
  | ok artifact =>
    obtain ⟨manifest, bytes⟩ := artifact
    dsimp only
    cases hcompile : env.runtime.compileModule engine.session.host.inner.runtime bytes with
    | error err => exact .inl ⟨_, _, engine.session.host.inner.runtime, .refl _, rfl⟩
    | ok module =>
      dsimp only
      cases hvalidate : engine.session.host.validateModule env request.extensionId module manifest
          ((files.loadGrants request.extensionId).toOption.getD manifest.capabilities) with
      | mk answer host =>
        have hhost : host = engine.session.host.withRuntime host.inner.runtime := by
          have hsnd : _ = host := congrArg Prod.snd hvalidate
          rw [← hsnd]
          rfl
        have hruntime : _ = host.inner.runtime :=
          congrArg (fun answered => answered.2.inner.runtime) hvalidate
        cases answer with
        | error err =>
          refine .inl ⟨"VALIDATION_ERROR", s!"WASM validation failed: {err.message}",
            host.inner.runtime, ?_, ?_⟩
          · rw [← hruntime]
            exact .tried _ _ _ _ _ (.refl _)
          rw [withRuntime, ← hhost]
        | ok answer =>
          have hanswer := congrArg Prod.fst hvalidate
          refine .inr ⟨manifest, module, host.inner.runtime,
            ⟨⟨bytes, hartifact, hcompile⟩, Prod.ext hanswer hruntime⟩, ?_⟩
          rw [withRuntime, ← hhost]
          dsimp only
          cases hswap : ({ engine with session := { engine.session with host } } :
              ExtensionEngine T ρ σ).swapModule env manifest module
              ((files.loadGrants request.extensionId).toOption.getD manifest.capabilities) with
          | mk swapped session =>
            cases swapped with
            | error wrong => exact .inl ⟨wrong.1, wrong.2, session, rfl, rfl⟩
            | ok swapped => exact .inr ⟨session, rfl, rfl⟩

end ExtensionEngine

end Shilpo.Engine
