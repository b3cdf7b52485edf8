import Shilpo.Engine.Reload

/-!
# A bad source and what runs

Before a reload takes anything down, every source has been read, compiled and tried: where that fails,
what runs is left alone, and nothing is remembered that would keep the next reload from trying again
(`Keeps`). A development session's build that is not applied leaves it alone as well. What is
developed is looked at earlier, when the sources are found: a manifest that cannot be read, or is
broken, is passed over there, and the reload goes on without it (`keeps_iff`).
-/

namespace Shilpo.Engine

open Extensions

variable {T : Payloads} {ρ σ : Type} (env : EngineEnv T ρ σ) (files : Files)

/-! ### Failures -/

/-- What is wrong with registrations for development and with the manifests they lead to. -/
def brokenSources : List String :=
  match files.installed with
  | .error _ => []
  | .ok installed =>
    files.developmentRegistrations.2 ++
      (developmentSources env files files.developmentRegistrations.1
        (installedSources env files installed).1).2

namespace ExtensionEngine

variable (engine : ExtensionEngine T ρ σ)

/-- The sources are those that are active, and the catalog has not changed: a reload has nothing to
do. -/
def UpToDate : Prop :=
  ∃ sources, (discoverSources env files).1 = .ok sources ∧
    sameSources sources engine.activeSources = true ∧ engine.catalogMtime = files.catalogMtime

/-- What is wrong with the sources that a reload reads, compiles and tries. -/
def preflightFailures : List String :=
  match (discoverSources env files).1 with
  | .error _ => []
  | .ok sources =>
    if sameSources sources engine.activeSources && engine.catalogMtime = files.catalogMtime then []
    else
      let (candidates, failures) :=
        compileSources env files engine.session.host.inner.runtime (sourcesInOrder env sources)
      if failures ≠ [] then failures
      else (validateSources env candidates engine.session.host).1

/-- The failures to read, compile or validate something that a reload records. -/
def failures : List String := brokenSources env files ++ engine.preflightFailures env files

end ExtensionEngine

variable {env files}

namespace ExtensionEngine

variable {engine : ExtensionEngine T ρ σ}

/-- Nothing is wrong with the sources of a reload that goes through. -/
theorem Reloads.preflightFailures {sources : Sources} {candidates : List (Candidate T)}
    (h : Reloads env files engine sources candidates) : engine.preflightFailures env files = [] := by
  have hchanged := h.changed
  rw [← decide_eq_true_eq (p := engine.catalogMtime = _), ← Bool.and_eq_true] at hchanged
  simp only [ExtensionEngine.preflightFailures, h.discovered, if_neg hchanged, h.compiled, ne_eq,
    not_true_eq_false, if_false]
  exact h.validated

/-- Where something is wrong with the sources, the reload has something to do. -/
theorem not_upToDate (h : engine.preflightFailures env files ≠ []) :
    ¬ engine.UpToDate env files := by
  rintro ⟨sources, hdiscovered, hsame⟩
  rw [← decide_eq_true_eq (p := engine.catalogMtime = _), ← Bool.and_eq_true] at hsame
  refine h ?_
  simp only [preflightFailures, hdiscovered, if_pos hsame]

/-! ### What is left alone -/

/-- What runs is as before: what is loaded, what is shown and where, what is advertised, what is
developed, and the generation. -/
structure Untouched (engine engine' : ExtensionEngine T ρ σ) : Prop where
  registrations : engine'.session.host.inner.registrations =
    engine.session.host.inner.registrations
  manifests : engine'.session.manifests = engine.session.manifests
  runtimeIds : engine'.session.runtimeIds = engine.session.runtimeIds
  views : engine'.session.views = engine.session.views
  instances : engine'.session.instances = engine.session.instances
  activeSources : engine'.activeSources = engine.activeSources
  activeDevOverrides : engine'.activeDevOverrides = engine.activeDevOverrides
  devSessionSequences : engine'.devSessionSequences = engine.devSessionSequences
  generation : engine'.generation = engine.generation

/-- And the circuits are, and what the runtime has loaded. -/
structure Keeps {ι : Type} (loaded : ρ → ι) (engine engine' : ExtensionEngine T ρ σ) : Prop
    extends Untouched engine engine' where
  circuitBreaker : engine'.session.host.inner.circuitBreaker =
    engine.session.host.inner.circuitBreaker
  loaded : loaded engine'.session.host.inner.runtime = loaded engine.session.host.inner.runtime

/-- The next reload tries again: it finds something to do in the same files as before, and wherever
it would have found it before. -/
structure TriesAgain (env : EngineEnv T ρ σ) (files : Files) (engine engine' : ExtensionEngine T ρ σ) :
    Prop where
  again : (∃ err, (engine.reloadAll env files).1 = .error err) ∨
    engine.preflightFailures env files ≠ [] → ¬ engine'.UpToDate env files
  later : ∀ files', engine'.UpToDate env files' ↔ engine.UpToDate env files'

/-- A reload that fails, or records a failure, leaves alone what runs, and the next one tries
again. -/
def KeepsReloaded {ι : Type} (loaded : ρ → ι) (env : EngineEnv T ρ σ) (files : Files)
    (engine : ExtensionEngine T ρ σ) : Prop :=
  (∃ err, (engine.reloadAll env files).1 = .error err) ∨ engine.failures env files ≠ [] →
    Keeps loaded engine (engine.reloadAll env files).2 ∧
      TriesAgain env files engine (engine.reloadAll env files).2

/-- The runtime itself refuses the module of a development session, which has been compiled and
tried. -/
def Refused (env : EngineEnv T ρ σ) (files : Files) (request : DevReloadRequest)
    (engine : ExtensionEngine T ρ σ) : Prop :=
  ∃ manifest module runtime err,
    Offers env files request engine manifest module runtime ∧
    let grants := (files.loadGrants request.extensionId).toOption.getD manifest.capabilities
    ((env.runtime.replace runtime manifest.id module env.host.runtimeBudget manifest.capabilities
        grants).1 = .error err ∨
      (env.runtime.load runtime manifest.id module env.host.runtimeBudget manifest.capabilities
        grants).1 = .error err)

/-- A build that is not applied leaves alone what runs, but for the circuit of its extension where the
runtime refuses the module. -/
def KeepsRejected {ι : Type} (loaded : ρ → ι) (env : EngineEnv T ρ σ) (files : Files)
    (engine : ExtensionEngine T ρ σ) : Prop :=
  ∀ request, (engine.handleDevReload env files request).1.outcome ≠ "applied" →
    Untouched engine (engine.handleDevReload env files request).2 ∧
      (Keeps loaded engine (engine.handleDevReload env files request).2 ∨
        engine.Refused env files request ∧
          ∃ now, (engine.handleDevReload env files request).2.session.host.inner.circuitBreaker =
            (engine.session.host.inner.circuitBreaker.recordFailure now request.extensionId).1)

end ExtensionEngine

theorem Tries.kept {ι : Type} {loaded : ρ → ι} {runtime runtime' : ρ} (h : Tries env runtime runtime')
    (hloaded : ∀ runtime id module capabilities grants,
      loaded (env.runtime.validateModule runtime id module env.host.runtimeBudget capabilities
        grants).2 = loaded runtime) : loaded runtime' = loaded runtime := by
  induction h with
  | refl runtime => rfl
  | tried runtime id module capabilities grants _ ih =>
    exact ih.trans (hloaded runtime id module capabilities grants)

/-! ### A build that is not applied -/

/-- Why the host does not load a module: it does not ask the runtime, or that refuses. -/
theorem register_error {host host' : Host ρ} {manifest : ExtensionManifest} {module : T.Module}
    {grants : List Capability} {err : ExtensionHost.Error}
    (h : host.register env manifest module grants = (.error err, host')) :
    host'.inner = host.inner ∨
      (∃ err, (env.runtime.load host.inner.runtime manifest.id module env.host.runtimeBudget
        manifest.capabilities grants).1 = .error err) ∧
      host'.inner.registrations = host.inner.registrations ∧
      ∃ now, host'.inner.circuitBreaker =
        (host.inner.circuitBreaker.recordFailure now manifest.id).1 := by
  simp only [Host.register, Host.call, ExtensionHost.register] at h
  obtain ⟨hanswer, rfl⟩ := Prod.mk.inj h
  dsimp only at hanswer ⊢
  split
  · exact .inl rfl
  split
  · exact .inl rfl
  split
  · exact .inl rfl
  split
  case h_1 err' runtime hload =>
    exact .inr ⟨⟨err', by rw [hload]⟩, rfl, _, rfl⟩
  case h_2 hmanifest hnew _ hgrants _ runtime hload =>
    rw [hmanifest] at hanswer
    simp only [hnew, hgrants, hload] at hanswer
    cases hanswer

/-- Why the host does not replace a module. -/
theorem replace_error {host host' : Host ρ} {manifest : ExtensionManifest} {module : T.Module}
    {grants : List Capability} {err : ExtensionHost.Error}
    (h : host.replace env manifest module grants = (.error err, host')) :
    host'.inner = host.inner ∨
      (∃ err, (env.runtime.replace host.inner.runtime manifest.id module env.host.runtimeBudget
        manifest.capabilities grants).1 = .error err) ∧
      host'.inner.registrations = host.inner.registrations ∧
      ∃ now, host'.inner.circuitBreaker =
        (host.inner.circuitBreaker.recordFailure now manifest.id).1 := by
  simp only [Host.replace, Host.call, ExtensionHost.replace] at h
  obtain ⟨hanswer, rfl⟩ := Prod.mk.inj h
  dsimp only at hanswer ⊢
  split
  · exact .inl rfl
  split
  · exact .inl rfl
  split
  · exact .inl rfl
  split
  case h_1 err' runtime hreplace =>
    exact .inr ⟨⟨err', by rw [hreplace]⟩, rfl, _, rfl⟩
  case h_2 hmanifest hthere _ hgrants _ runtime hreplace =>
    rw [hmanifest] at hanswer
    simp only [hthere, hgrants, hreplace] at hanswer
    cases hanswer

namespace ExtensionEngine

variable {engine : ExtensionEngine T ρ σ} {ι : Type} {loaded : ρ → ι}

theorem Keeps.withRuntime {runtime : ρ}
    (h : loaded runtime = loaded engine.session.host.inner.runtime) :
    Keeps loaded engine (engine.withRuntime runtime) :=
  ⟨⟨rfl, rfl, rfl, rfl, rfl, rfl, rfl, rfl, rfl⟩, rfl, h⟩

/-- A module that is not swapped in, after it has been tried. -/
theorem swapModule_error {runtime : ρ} {manifest : ExtensionManifest} {module : T.Module}
    {grants : List Capability} {wrong : String × String} {session : ExtensionSession T ρ}
    (hloaded : loaded runtime = loaded engine.session.host.inner.runtime)
    (h : (engine.withRuntime runtime).swapModule env manifest module grants =
      (.error wrong, session)) :
    Untouched engine { engine with session } ∧
      (Keeps loaded engine { engine with session } ∨
        ((∃ err, (env.runtime.replace runtime manifest.id module env.host.runtimeBudget
            manifest.capabilities grants).1 = .error err) ∨
          ∃ err, (env.runtime.load runtime manifest.id module env.host.runtimeBudget
            manifest.capabilities grants).1 = .error err) ∧
        ∃ now, session.host.inner.circuitBreaker =
          (engine.session.host.inner.circuitBreaker.recordFailure now manifest.id).1) := by
  rw [swapModule] at h
  have hsame : ∀ host : Host ρ, host.inner = (engine.session.host.withRuntime runtime).inner →
      Keeps loaded engine { engine with session := { engine.session with host } } := by
    intro host hinner
    refine ⟨⟨?_, rfl, rfl, rfl, rfl, rfl, rfl, rfl, rfl⟩, ?_, ?_⟩
    · exact congrArg (·.registrations) hinner
    · exact congrArg (·.circuitBreaker) hinner
    · exact (congrArg (fun inner => loaded inner.runtime) hinner).trans hloaded
  have hrefused : ∀ host : Host ρ,
      host.inner.registrations = (engine.session.host.withRuntime runtime).inner.registrations →
      Untouched engine { engine with session := { engine.session with host } } :=
    fun host hregistrations => ⟨hregistrations, rfl, rfl, rfl, rfl, rfl, rfl, rfl, rfl⟩
  split at h
  · split at h
    · obtain ⟨-, rfl⟩ := Prod.mk.inj h
      have hkeeps := hsame _ rfl
      exact ⟨hkeeps.toUntouched, .inl hkeeps⟩
    · generalize hreplace : (engine.withRuntime runtime).session.host.replace env manifest module
        grants = answered at h
      obtain ⟨_ | _, host⟩ := answered
      · obtain ⟨-, rfl⟩ := Prod.mk.inj h
        obtain hinner | ⟨hruntime, hregistrations, hbreaker⟩ := replace_error hreplace
        · exact ⟨(hsame host hinner).toUntouched, .inl (hsame host hinner)⟩
        · exact ⟨hrefused host hregistrations, .inr ⟨.inl hruntime, hbreaker⟩⟩
      · cases h
  · generalize hregister : (engine.withRuntime runtime).session.host.register env manifest module
      grants = answered at h
    obtain ⟨_ | _, host⟩ := answered
    · obtain ⟨-, rfl⟩ := Prod.mk.inj h
      obtain hinner | ⟨hruntime, hregistrations, hbreaker⟩ := register_error hregister
      · exact ⟨(hsame host hinner).toUntouched, .inl (hsame host hinner)⟩
      · exact ⟨hrefused host hregistrations, .inr ⟨.inr hruntime, hbreaker⟩⟩
    · cases h

/-- A build that is not applied never touches what runs. -/
theorem keepsRejected (engine : ExtensionEngine T ρ σ) (files : Files)
    (hloaded : ∀ runtime id module capabilities grants,
      loaded (env.runtime.validateModule runtime id module env.host.runtimeBudget capabilities
        grants).2 = loaded runtime) : engine.KeepsRejected loaded env files := by
  intro request hrejected
  obtain ⟨_, _, runtime, htries, heq⟩ | ⟨manifest, module, runtime, hoffers, hswaps⟩ :=
    engine.handleDevReload_cases env files request
  · rw [heq]
    have hkeeps : Keeps loaded engine (engine.withRuntime runtime) :=
      .withRuntime (htries.kept hloaded)
    exact ⟨hkeeps.toUntouched, .inl hkeeps⟩
  · obtain ⟨_, _, session, hswap, heq⟩ | ⟨session, hswap, heq⟩ := hswaps
    · have hruntime : _ = runtime := congrArg Prod.snd hoffers.validated
      have hkept : loaded runtime = loaded engine.session.host.inner.runtime := by
        rw [← hruntime]
        exact hloaded ..
      obtain ⟨huntouched, hkeeps | ⟨⟨err, hrefused⟩ | ⟨err, hrefused⟩, now, hbreaker⟩⟩ :=
        swapModule_error hkept hswap
      · rw [heq]
        exact ⟨huntouched, .inl hkeeps⟩
      all_goals
        obtain ⟨bytes, hartifact, -⟩ := hoffers.artifact
        rw [devArtifact_id hartifact] at hbreaker
        rw [heq]
        refine ⟨huntouched, .inr ⟨⟨manifest, module, runtime, err, hoffers, ?_⟩, now, hbreaker⟩⟩
      · exact .inl hrefused
      · exact .inr hrefused
    · rw [heq] at hrejected
      exact absurd rfl hrejected

/-- Where nothing is loaded anew, what runs is left alone. -/
theorem keeps_of_not_reloads {engine : ExtensionEngine T ρ σ} {files : Files}
    (hloaded : ∀ runtime id module capabilities grants,
      loaded (env.runtime.validateModule runtime id module env.host.runtimeBudget capabilities
        grants).2 = loaded runtime)
    (h : ¬ ∃ sources candidates, Reloads env files engine sources candidates) :
    Keeps loaded engine (engine.reloadAll env files).2 ∧
      TriesAgain env files engine (engine.reloadAll env files).2 := by
  obtain ⟨sources, candidates, hreloads, -⟩ | ⟨-, diagnostics, runtime, htries, heq⟩ :=
    engine.reloadAll_cases env files
  · exact absurd ⟨sources, candidates, hreloads⟩ h
  · have hkeeps : Keeps loaded engine (engine.withRuntime runtime) :=
      .withRuntime (htries.kept hloaded)
    have hlater : ∀ files', (engine.reloadAll env files).2.UpToDate env files' ↔
        engine.UpToDate env files' := by
      intro files'
      rw [heq]
      exact .rfl
    refine ⟨?_, ?_, hlater⟩
    · rw [heq]
      exact ⟨⟨rfl, rfl, rfl, rfl, rfl, rfl, rfl, rfl, rfl⟩, rfl, hkeeps.loaded⟩
    · rw [hlater]
      rintro (⟨err, herr⟩ | hfailures) huptodate
      · obtain ⟨sources, hdiscovered, hsame⟩ := huptodate
        rw [← decide_eq_true_eq (p := engine.catalogMtime = _), ← Bool.and_eq_true] at hsame
        simp only [reloadAll, hdiscovered, if_pos hsame] at herr
        cases herr
      · exact not_upToDate hfailures huptodate

theorem generation_activate {engine : ExtensionEngine T ρ σ} {files : Files} {sources : Sources}
    {candidates : List (Candidate T)} :
    (engine.activate env files sources candidates).generation = engine.generation + 1 := by
  obtain ⟨_, _, _, heq⟩ := registerAll_eq
    { engine with
      session := engine.session.clear env
      activeSources := sources
      catalogMtime := files.catalogMtime
      origins := ∅ } env candidates
  rw [activate, heq]

/-- **A bad source and what runs.** A reload that fails, or records a failure, leaves what runs alone
and lets the next one try again, and so does every build of a development session that is not applied,
if and only if no broken registration or manifest of something developed has been passed over when
everything is loaded anew. -/
theorem keeps_iff (engine : ExtensionEngine T ρ σ) (files : Files)
    (hloaded : ∀ runtime id module capabilities grants,
      loaded (env.runtime.validateModule runtime id module env.host.runtimeBudget capabilities
        grants).2 = loaded runtime) :
    engine.KeepsReloaded loaded env files ∧ engine.KeepsRejected loaded env files ↔
      (brokenSources env files = [] ∨
        ¬ ∃ sources candidates, Reloads env files engine sources candidates) := by
  rw [and_iff_left (keepsRejected engine files hloaded)]
  constructor
  · intro hkeeps
    rw [or_iff_not_imp_left]
    rintro hbroken ⟨sources, candidates, hreloads⟩
    have hfailures : engine.failures env files ≠ [] :=
      fun h => hbroken (List.append_eq_nil_iff.mp h).1
    have hgeneration := (hkeeps (.inr hfailures)).1.generation
    obtain ⟨sources, candidates, -, heq⟩ | ⟨hnot, -⟩ := engine.reloadAll_cases env files
    · rw [heq] at hgeneration
      exact absurd (generation_activate.symm.trans hgeneration) (Nat.succ_ne_self engine.generation)
    · exact hnot ⟨sources, candidates, hreloads⟩
  · rintro (hfound | hnot) hfails
    · by_cases hreloads : ∃ sources candidates, Reloads env files engine sources candidates
      · obtain ⟨sources, candidates, hreloads⟩ := hreloads
        obtain ⟨err, herr⟩ | hfailures := hfails
        · obtain ⟨_, _, -, heq⟩ | ⟨hnot, -⟩ := engine.reloadAll_cases env files
          · rw [heq] at herr
            cases herr
          · exact absurd ⟨sources, candidates, hreloads⟩ hnot
        · rw [failures, hfound, hreloads.preflightFailures] at hfailures
          exact absurd rfl hfailures
      · exact keeps_of_not_reloads hloaded hreloads
    · exact keeps_of_not_reloads hloaded hnot

end ExtensionEngine

/-- Surroundings in which no module can be compiled. -/
def faultyEnv : EngineEnv plainPayloads Unit Unit :=
  { plainEnv fun _ => [] with
    runtime := { plainRuntime fun _ => [] with compileModule := fun _ _ => .error "bad magic" } }

/-- The module of an extension that has been loaded is changed for a bad one: what runs stays. -/
theorem keeps_faulty :
    let engine := ((ExtensionEngine.blank (plainFiles true) () ()).reloadAll
      (plainEnv fun _ => []) (plainFiles true)).2
    let files := { plainFiles true with computeFingerprint := fun _ _ => 1 }
    engine.KeepsReloaded id faultyEnv files ∧ engine.KeepsRejected id faultyEnv files :=
  (ExtensionEngine.keeps_iff _ { plainFiles true with computeFingerprint := fun _ _ => 1 }
    (fun _ _ _ _ _ => rfl)).mpr (.inl rfl)

/-- The files when the extension is developed and its manifest cannot be read. -/
def brokenFiles : Files :=
  { plainFiles true with readToString := fun _ => .error "No such file or directory" }

/-- The extension has been loaded from where it is developed, and its manifest cannot be read any
more: the reload records that, and nothing is loaded afterwards. -/
theorem not_keepsReloaded_broken :
    ∃ engine, ExtensionEngine.new (plainEnv fun _ => []) (plainFiles true) () () = .ok engine ∧
      plainManifest.id ∈ engine.session.host.inner.registrations ∧
      (engine.reloadAll (plainEnv fun _ => []) brokenFiles).2.diagnostics =
        ["failed to read dev manifest at /dev/extension.toml: No such file or directory"] ∧
      plainManifest.id ∉ (engine.reloadAll (plainEnv fun _ => [])
        brokenFiles).2.session.host.inner.registrations ∧
      ¬ engine.KeepsReloaded id (plainEnv fun _ => []) brokenFiles := by
  refine ⟨_, rfl, by decide, by decide, by decide, fun h => ?_⟩
  have hkeeps := (h (.inr (by decide))).1
  have hgeneration := hkeeps.generation
  revert hgeneration
  decide

end Shilpo.Engine
