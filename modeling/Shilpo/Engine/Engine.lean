import Shilpo.Engine.Session

/-!
# The engine of extensions

`ExtensionEngine` of `worker/engine.rs`: it finds the sources of extensions, loads them all at once
(`reloadAll`), swaps in what a development session has built (`handleDevReload`) and takes it out
again (`handleDevUnload`), and answers the commands of the shell (`handleCommand`) and the ticks of
its own clock.

`origins` says from which source the module of an extension has been loaded, and whether by a
development session; nothing reads it.
-/

namespace Shilpo.Engine

open Extensions

/-- Where the module of an extension is from. -/
structure Origin where
  source : ActiveSource
  dev : Bool
  deriving DecidableEq

/-- The engine. -/
structure ExtensionEngine (T : Payloads) (ρ σ : Type) where
  catalogMtime : Option ℕ
  activeSources : Sources
  activeDevOverrides : Sources
  devSessionSequences : AList fun _ : String => ℕ
  session : ExtensionSession T ρ
  scriptRuntime : σ
  generation : ℕ
  diagnostics : List String
  replaceableEvents : AList fun _ : ReplaceableKind => ReplaceableEvent
  pendingReconcile : Option (List ContributionInstance)
  origins : AList fun _ : ExtensionId => Origin

/-- A source that is being loaded. -/
structure Candidate (T : Payloads) where
  id : ExtensionId
  source : ActiveSource
  module : T.Module

section

variable {T : Payloads} {ρ σ : Type} (env : EngineEnv T ρ σ) (files : Files)

/-! ### Sources -/

/-- The sources that are installed, and what is wrong with others. -/
def installedSources : List InstalledExtension → Sources × List String
  | [] => (∅, [])
  | installed :: rest =>
    let manifest := installed.manifest
    let (sources, diagnostics) := installedSources rest
    if env.aboveShilpo manifest.minShilpoVersion then
      (sources, (s!"extension '{manifest.id.text}' requires Shilpo >= " ++
        s!"{manifest.minShilpoVersion.text}, but current is 0.1.0") :: diagnostics)
    else
      ((sources.lookup manifest.id).elim
        (sources.insert manifest.id ⟨manifest, installed.packageDir, installed.grants,
          files.computeFingerprint installed.packageDir manifest⟩) fun _ => sources,
        diagnostics)

/-- What is being developed takes the place of what is installed; and what is wrong with the rest. -/
def developmentSources : List (ExtensionId × String) → Sources → Sources × List String
  | [], sources => (sources, [])
  | (id, root) :: rest, sources =>
    let path := join root "extension.toml"
    match files.readToString path with
    | .error err =>
      let (sources, diagnostics) := developmentSources rest sources
      (sources, s!"failed to read dev manifest at {path}: {err}" :: diagnostics)
    | .ok text =>
      match env.fromToml text with
      | .error err =>
        let (sources, diagnostics) := developmentSources rest sources
        (sources, s!"invalid dev manifest at {path}: {err.text}" :: diagnostics)
      | .ok manifest =>
        developmentSources rest (sources.insert id
          ⟨manifest, root, ((files.loadGrants manifest.id).toOption.getD []),
            files.computeFingerprint root manifest⟩)

/-- `discover_sources`: what is found, and the diagnostics. -/
def discoverSources : Except String Sources × List String :=
  match files.installed with
  | .error err => (.error err, [])
  | .ok installed =>
    let (sources, unsupported) := installedSources env files installed
    let (registrations, diagnostics) := files.developmentRegistrations
    let (sources, broken) := developmentSources env files registrations sources
    (.ok sources, unsupported ++ diagnostics ++ broken)

/-- Two sets of sources are equal. -/
def sameSources (sources sources' : Sources) : Bool := decide (sources.entries.Perm sources'.entries)

/-- The sources in the order in which they are gone through. -/
def sourcesInOrder (sources : Sources) : List (ExtensionId × ActiveSource) :=
  (env.arrange sources.entries).map fun entry => (entry.1, entry.2)

/-! ### Preflight -/

/-- Every source is read and compiled; and what is wrong with some. -/
def compileSources (runtime : ρ) :
    List (ExtensionId × ActiveSource) → List (Candidate T) × List String
  | [] => ([], [])
  | (id, source) :: sources =>
    let (compiled, diagnostics) := compileSources runtime sources
    match files.read (join source.root "extension.wasm") with
    | .error err =>
      (compiled, s!"failed to read extension WASM for '{id.text}': {err}" :: diagnostics)
    | .ok bytes =>
      match env.runtime.compileModule runtime bytes with
      | .error err =>
        (compiled, s!"failed to compile extension module for '{id.text}': {err}" :: diagnostics)
      | .ok module => (⟨id, source, module⟩ :: compiled, diagnostics)

/-- Every module is tried; and what is wrong with some. -/
def validateSources : List (Candidate T) → Host ρ → List String × Host ρ
  | [], host => ([], host)
  | candidate :: candidates, host =>
    let (answer, host) := host.validateModule env candidate.id candidate.module
      candidate.source.manifest candidate.source.grants
    let (diagnostics, host) := validateSources candidates host
    match answer with
    | .error err =>
      (s!"failed to validate extension module for '{candidate.id.text}': {err.message}" ::
        diagnostics, host)
    | .ok () => (diagnostics, host)

end

namespace ExtensionEngine

variable {T : Payloads} {ρ σ : Type} (env : EngineEnv T ρ σ) (files : Files)

/-! ### Snapshots -/

/-- `build_snapshot`. -/
def buildSnapshot (catalogChanged : Bool) (engine : ExtensionEngine T ρ σ) :
    ExtensionSnapshot T × ExtensionEngine T ρ σ :=
  let engine :=
    match engine.pendingReconcile with
    | some desired =>
      { engine with
        pendingReconcile := none
        session := (engine.session.reconcileInstances env desired).2 }
    | none => engine
  let scriptViews := env.scripts.views engine.scriptRuntime
  ({  generation := engine.generation
      sources := engine.activeSources
      views :=
        ((engine.session.views.entries.map fun entry => (entry.1, entry.2)).filter
          fun entry => !scriptViews.any fun view => view.1 = entry.1) ++ scriptViews
      diagnostics := engine.diagnostics ++ env.scripts.diagnostics engine.scriptRuntime
      catalogChangedAt := if catalogChanged then some engine.generation else none
      wasmExtensions := engine.activeSources.keys.map fun id =>
        (id, engine.session.host.inner.circuitBreaker.state id)
      devOverrides := engine.activeDevOverrides.keys }, engine)

/-! ### Reload -/

/-- The modules are registered. -/
def registerAll : List (Candidate T) → ExtensionEngine T ρ σ → ExtensionEngine T ρ σ
  | [], engine => engine
  | ⟨id, source, module⟩ :: candidates, engine =>
    match engine.session.register env source.manifest module source.grants with
    | (.error err, session) =>
      registerAll candidates
        { engine with
          session
          diagnostics :=
            engine.diagnostics ++ [s!"failed to register extension '{id.text}': {err}"] }
    | (.ok (), session) =>
      registerAll candidates
        { engine with
          session
          origins := engine.origins.insert source.manifest.id ⟨source, false⟩ }

/-- The events that a module is told when it has been loaded. -/
def startingEvents (engine : ExtensionEngine T ρ σ) : List ExtensionEvent :=
  .shellStarted :: (env.arrange engine.replaceableEvents.entries).map fun entry => entry.2.event

/-- The second part of `reload_all`: the session is filled anew. -/
def activate (sources : Sources) (candidates : List (Candidate T))
    (engine : ExtensionEngine T ρ σ) : ExtensionEngine T ρ σ :=
  let preserved := (env.arrange engine.session.instances.entries).map fun entry => entry.2
  let engine := registerAll env candidates
    { engine with
      session := engine.session.clear env
      activeSources := sources
      catalogMtime := files.catalogMtime
      origins := ∅ }
  { engine with
    generation := engine.generation + 1
    session := (engine.session.dispatchAll env (engine.startingEvents env)).2
    pendingReconcile := some preserved
    scriptRuntime := env.scripts.reconcile engine.scriptRuntime sources.keys }

/-- `reload_all`. -/
def reloadAll (engine : ExtensionEngine T ρ σ) : Except String Unit × ExtensionEngine T ρ σ :=
  let (discovered, diagnostics) := discoverSources env files
  let engine := { engine with diagnostics }
  match discovered with
  | .error err => (.error err, engine)
  | .ok sources =>
    if sameSources sources engine.activeSources && engine.catalogMtime = files.catalogMtime then
      (.ok (), engine)
    else
      let (candidates, failures) :=
        compileSources env files engine.session.host.inner.runtime (sourcesInOrder env sources)
      if failures ≠ [] then
        (.ok (), { engine with diagnostics := engine.diagnostics ++ failures })
      else
        let (failures, host) := validateSources env candidates engine.session.host
        let engine := { engine with session := { engine.session with host } }
        if failures ≠ [] then
          (.ok (), { engine with diagnostics := engine.diagnostics ++ failures })
        else (.ok (), engine.activate env files sources candidates)

/-- The engine before anything has been loaded. -/
def blank (runtime : ρ) (scripts : σ) : ExtensionEngine T ρ σ where
  catalogMtime := files.catalogMtime
  activeSources := ∅
  activeDevOverrides := ∅
  devSessionSequences := ∅
  session := .new runtime
  scriptRuntime := scripts
  generation := 0
  diagnostics := []
  replaceableEvents := ∅
  pendingReconcile := none
  origins := ∅

/-- `ExtensionEngine::new`. -/
def new (runtime : ρ) (scripts : σ) : Except String (ExtensionEngine T ρ σ) :=
  match (blank files runtime scripts).reloadAll env files with
  | (.error err, _) => .error err
  | (.ok (), engine) => .ok engine

/-! ### Ticks -/

/-- `tick`. -/
def tick (engine : ExtensionEngine T ρ σ) :
    Option (ExtensionUpdate T) × ExtensionEngine T ρ σ :=
  let (circuitTransitioned, host) := engine.session.host.advanceClock env
  let (circuitNotices, host) := host.takePendingNotices
  let (visibleChanged, host) := host.takeVisibleChanged
  let (scriptChanged, scriptRuntime) := env.scripts.tick engine.scriptRuntime
  let engine := { engine with session := { engine.session with host }, scriptRuntime }
  if !circuitTransitioned && !visibleChanged && !scriptChanged && circuitNotices.isEmpty then
    (none, engine)
  else
    let (snapshot, engine) :=
      { engine with generation := engine.generation + 1 }.buildSnapshot env false
    (some
      { generation := engine.generation
        snapshot := some snapshot
        effects := []
        invalidatedViews :=
          if scriptChanged then (env.scripts.views engine.scriptRuntime).map (·.1) else []
        circuitNotices }, engine)

/-! ### Development -/

/-- The views of an extension are dropped; their names. -/
def dropViews (id : ExtensionId) (session : ExtensionSession T ρ) :
    List CanonicalId × ExtensionSession T ρ :=
  (env.arrange (session.views.keys.filter fun canonical => canonical.extensionId = id),
    { session with
      views :=
        ⟨session.views.entries.filter fun entry => entry.1.extensionId ≠ id,
          session.views.nodupKeys.sublist List.filter_sublist⟩ })

/-- The checks of `handle_dev_reload` before a module is compiled: what is wrong, or the manifest and
the bytes. -/
def devArtifact (request : DevReloadRequest) (engine : ExtensionEngine T ρ σ) :
    Except (String × String) (ExtensionManifest × List UInt8) := do
  match engine.devSessionSequences.lookup request.sessionId with
  | some last =>
    if request.buildSequence ≤ last then
      throw ("STALE_BUILD_SEQUENCE",
        s!"stale build sequence {request.buildSequence} <= last accepted {last}")
  | none => pure ()
  if !files.isDir request.canonicalRoot then
    throw ("INVALID_ROOT", s!"source root '{request.canonicalRoot}' is not a directory")
  let artifact ←
    match files.canonicalize request.artifactPath with
    | .ok path => pure path
    | .error err =>
      throw ("ARTIFACT_NOT_FOUND", s!"artifact '{request.artifactPath}' not found: {err}")
  if !(components request.canonicalRoot).isPrefixOf (components artifact) then
    throw ("ARTIFACT_OUTSIDE_ROOT",
      s!"artifact '{artifact}' is outside source root '{request.canonicalRoot}'")
  if !files.isFile artifact then
    throw ("ARTIFACT_NOT_FILE", s!"artifact '{artifact}' is not a regular file")
  let path := join request.canonicalRoot "extension.toml"
  let text ←
    match files.readToString path with
    | .ok text => pure text
    | .error err => throw ("MANIFEST_NOT_FOUND", s!"failed to read manifest at '{path}': {err}")
  let manifest ←
    match env.fromToml text with
    | .ok manifest => pure manifest
    | .error err => throw ("INVALID_MANIFEST", s!"invalid manifest at '{path}': {err.text}")
  if manifest.id ≠ request.extensionId then
    throw ("ID_MISMATCH", s!"manifest declares ID '{manifest.id.text}' but session bound to " ++
      s!"'{request.extensionId.text}'")
  if env.aboveShilpo manifest.minShilpoVersion then
    throw ("UNSUPPORTED_SHILPO_VERSION", s!"extension '{request.extensionId.text}' requires " ++
      s!"Shilpo >= {manifest.minShilpoVersion.text}, current is 0.1.0")
  match files.read artifact with
  | .ok bytes => return (manifest, bytes)
  | .error err => throw ("READ_FAILED", s!"failed to read WASM artifact: {err}")

/-- The module is swapped in, or added: what is wrong, and the session. -/
def swapModule (manifest : ExtensionManifest) (module : T.Module) (grants : List Capability)
    (engine : ExtensionEngine T ρ σ) :
    Except (String × String) Unit × ExtensionSession T ρ :=
  let session := engine.session
  if (session.manifests.lookup manifest.id).isSome then
    if (engine.activeDevOverrides.lookup manifest.id).isNone then
      (.error ("NON_DEV_ACTIVATION",
        s!"extension '{manifest.id.text}' is already active outside a development session"), session)
    else
      match session.host.replace env manifest module grants with
      | (.error err, host) =>
        (.error ("REPLACE_FAILED", s!"failed to replace extension in runtime: {err.text}"),
          { session with host })
      | (.ok (), host) => (.ok (), { session with host })
  else
    match session.host.register env manifest module grants with
    | (.error err, host) =>
      (.error ("REGISTER_FAILED", s!"failed to register extension in runtime: {err.text}"),
        { session with host })
    | (.ok (), host) =>
      (.ok (), { session with host, runtimeIds := session.runtimeIds ++ [manifest.id] })

/-- The extension is told the events that it is told when it has been loaded. -/
def startExtension (id : ExtensionId) :
    List ExtensionEvent → ExtensionSession T ρ → ExtensionSession T ρ
  | [], session => session
  | event :: events, session =>
    startExtension id events (session.dispatchToExtension env id event).2

/-- What is done when the module has been swapped in. -/
def adopt (request : DevReloadRequest) (source : ActiveSource) (engine : ExtensionEngine T ρ σ) :
    DevReloadOutcome T × ExtensionEngine T ρ σ :=
  let id := request.extensionId
  let session :=
    { engine.session with manifests := engine.session.manifests.insert id source.manifest }
  let (dropped, session) := dropViews env id session
  let (shown, session) := session.renderAll env (rendered id source.manifest.contributions)
  let session := startExtension env id (engine.startingEvents env) session
  let (snapshot, engine) :=
    { engine with
      session
      activeSources := engine.activeSources.insert id source
      activeDevOverrides := engine.activeDevOverrides.insert id source
      devSessionSequences := engine.devSessionSequences.insert request.sessionId
        request.buildSequence
      generation := engine.generation + 1
      origins := engine.origins.insert id ⟨source, true⟩ }.buildSnapshot env false
  (.applied request engine.generation "Extension reloaded successfully"
    (some
      { generation := engine.generation
        snapshot := some snapshot
        effects := []
        invalidatedViews := dropped ++ shown
        circuitNotices := [] }), engine)

/-- `handle_dev_reload`. -/
def handleDevReload (request : DevReloadRequest) (engine : ExtensionEngine T ρ σ) :
    DevReloadOutcome T × ExtensionEngine T ρ σ :=
  let rejected (engine : ExtensionEngine T ρ σ) (code message : String) :
      DevReloadOutcome T × ExtensionEngine T ρ σ :=
    (.rejected request engine.generation code message, engine)
  match engine.devArtifact env files request with
  | .error (code, message) => rejected engine code message
  | .ok (manifest, bytes) =>
    match env.runtime.compileModule engine.session.host.inner.runtime bytes with
    | .error err =>
      rejected engine "COMPILE_ERROR" s!"failed to compile WASM component: {err}"
    | .ok module =>
      let grants := (files.loadGrants request.extensionId).toOption.getD manifest.capabilities
      match engine.session.host.validateModule env request.extensionId module manifest grants with
      | (.error err, host) =>
        rejected { engine with session := { engine.session with host } } "VALIDATION_ERROR"
          s!"WASM validation failed: {err.message}"
      | (.ok (), host) =>
        let engine := { engine with session := { engine.session with host } }
        match engine.swapModule env manifest module grants with
        | (.error (code, message), session) => rejected { engine with session } code message
        | (.ok (), session) =>
          { engine with session }.adopt env request
            ⟨manifest, request.canonicalRoot, grants,
              files.computeFingerprint request.canonicalRoot manifest⟩

/-- The copy of the catalog takes the place of what was developed, if it can be read and compiled;
whether the runtime takes it does not matter. -/
def restore (id : ExtensionId) (source : ActiveSource) (engine : ExtensionEngine T ρ σ) :
    List CanonicalId × ExtensionEngine T ρ σ :=
  match files.read (join source.root "extension.wasm") with
  | .error _ => ([], engine)
  | .ok bytes =>
    match env.runtime.compileModule engine.session.host.inner.runtime bytes with
    | .error _ => ([], engine)
    | .ok module =>
      let (answer, host) := engine.session.host.replace env source.manifest module source.grants
      let (shown, session) :=
        { engine.session with
          host
          manifests := engine.session.manifests.insert id source.manifest }.renderAll env
          (rendered id source.manifest.contributions)
      (shown,
        { engine with
          session
          activeSources := engine.activeSources.insert id source
          origins :=
            if answer.toOption.isSome then
              engine.origins.insert source.manifest.id ⟨source, false⟩
            else engine.origins })

/-- The extension is taken out; whether the runtime unloads it does not matter. -/
def takeOut (id : ExtensionId) (engine : ExtensionEngine T ρ σ) : ExtensionEngine T ρ σ :=
  let (answer, host) := engine.session.host.unregister env id
  { engine with
    session :=
      { engine.session with
        host
        manifests := engine.session.manifests.erase id
        runtimeIds := engine.session.runtimeIds.filter (· ≠ id) }
    activeSources := engine.activeSources.erase id
    origins := if answer.toOption.isSome then engine.origins.erase id else engine.origins }

/-- `handle_dev_unload`. -/
def handleDevUnload (sessionId : String) (id : ExtensionId) (engine : ExtensionEngine T ρ σ) :
    Option (ExtensionUpdate T) × ExtensionEngine T ρ σ :=
  let engine :=
    { engine with devSessionSequences := engine.devSessionSequences.erase sessionId }
  if (engine.activeDevOverrides.lookup id).isNone then (none, engine)
  else
    let (discovered, diagnostics) := discoverSources env files
    let (dropped, session) := dropViews env id engine.session
    let engine :=
      { engine with
        session
        activeDevOverrides := engine.activeDevOverrides.erase id
        diagnostics := engine.diagnostics ++ diagnostics }
    let (shown, engine) :=
      match (discovered.toOption.getD ∅).lookup id with
      | some source => engine.restore env files id source
      | none => ([], engine.takeOut env id)
    let (snapshot, engine) :=
      { engine with generation := engine.generation + 1 }.buildSnapshot env false
    (some
      { generation := engine.generation
        snapshot := some snapshot
        effects := []
        invalidatedViews := dropped ++ shown
        circuitNotices := [] }, engine)

/-! ### Commands -/

/-- The update that tells of changes; with a snapshot where views have changed, if asked for. -/
def updateOf (withSnapshot : Bool) (changes : ExtensionChanges) (engine : ExtensionEngine T ρ σ) :
    ExtensionUpdate T × ExtensionEngine T ρ σ :=
  let (snapshot, engine) :=
    if withSnapshot && !changes.invalidatedViews.isEmpty then
      (engine.buildSnapshot env false).map some id
    else (none, engine)
  (⟨engine.generation, snapshot, changes.effects, changes.invalidatedViews, []⟩, engine)

/-- What the commands do, each in its arm of `handle_command`. A command for another generation is
passed over: `none` outside, and nothing is taken afterwards. -/
def answer (command : ExtensionCommand) (engine : ExtensionEngine T ρ σ) :
    Option (Option (ExtensionUpdate T) × ExtensionEngine T ρ σ) :=
  match command with
  | .lifecycle expected event =>
    if expected ≠ engine.generation then none
    else
      let (changes, session) := engine.session.dispatch env event
      some ((updateOf env true changes { engine with session }).map some id)
  | .input expected contribution instanceId eventId value =>
    if expected ≠ engine.generation then none
    else
      let (changes, session) := engine.session.dispatchToExtension env contribution.extensionId
        (.input contribution.text instanceId eventId value)
      some ((updateOf env true changes { engine with session }).map some id)
  | .response expected extensionId event =>
    if expected ≠ engine.generation then none
    else
      let (changes, session) := engine.session.dispatchToExtension env extensionId event
      some ((updateOf env true changes { engine with session }).map some id)
  | .replaceable event =>
    let (changes, session) := engine.session.dispatch env event.event
    some ((updateOf env false changes
      { engine with
        session
        replaceableEvents := engine.replaceableEvents.insert event.kind event }).map some id)
  | .reconcileInstances expected desired =>
    if expected ≠ engine.generation then none
    else
      let (changes, session) := engine.session.reconcileInstances env desired
      some ((updateOf env false changes { engine with session }).map some id)
  | .sourcesChanged =>
    let (answer, engine) := engine.reloadAll env files
    let engine :=
      match answer with
      | .error err =>
        { engine with diagnostics := engine.diagnostics ++ [s!"reload failed: {err}"] }
      | .ok () => engine
    let (snapshot, engine) := engine.buildSnapshot env true
    some (some ⟨engine.generation, some snapshot, [], [], []⟩, engine)
  | .devReload request =>
    let (outcome, engine) := engine.handleDevReload env files request
    some (outcome.update, engine)
  | .devUnload sessionId id => some (engine.handleDevUnload env files sessionId id)
  | .search => some (none, engine)
  | .recordSearchTimeout id =>
    some (none,
      { engine with
        session :=
          { engine.session with host := engine.session.host.recordCoordinatorTimeout env id } })
  | .shutdown =>
    some (none, { engine with scriptRuntime := env.scripts.shutdown engine.scriptRuntime })

/-- The end of `handle_command`: the notices are taken, and an update gets them. -/
def finish (update : Option (ExtensionUpdate T)) (engine : ExtensionEngine T ρ σ) :
    Option (ExtensionUpdate T) × ExtensionEngine T ρ σ :=
  let (circuitNotices, host) := engine.session.host.takePendingNotices
  let (visibleChanged, host) := host.takeVisibleChanged
  let engine := { engine with session := { engine.session with host } }
  match update with
  | none => (none, engine)
  | some update =>
    if (visibleChanged || !circuitNotices.isEmpty) && update.snapshot.isNone then
      let (snapshot, engine) := engine.buildSnapshot env false
      (some { update with snapshot := some snapshot, circuitNotices }, engine)
    else (some { update with circuitNotices }, engine)

/-- `handle_command`. -/
def handleCommand (command : ExtensionCommand) (engine : ExtensionEngine T ρ σ) :
    Option (ExtensionUpdate T) × ExtensionEngine T ρ σ :=
  match engine.answer env files command with
  | none => (none, engine)
  | some (update, engine) => engine.finish env update

end ExtensionEngine

/-! ### Runs -/

/-- A call of the engine. -/
inductive EngineCall where
  | handleCommand (command : ExtensionCommand)
  | handleDevReload (request : DevReloadRequest)
  | handleDevUnload (sessionId : String) (id : ExtensionId)
  | tick

namespace ExtensionEngine

variable {T : Payloads} {ρ σ : Type} (env : EngineEnv T ρ σ)

/-- What a call answers, and what it leaves, with the files as they are in it. -/
def call (files : Files) (engine : ExtensionEngine T ρ σ) :
    EngineCall → Option (ExtensionUpdate T) × ExtensionEngine T ρ σ
  | .handleCommand command => engine.handleCommand env files command
  | .handleDevReload request =>
    let (outcome, engine) := engine.handleDevReload env files request
    (outcome.update, engine)
  | .handleDevUnload sessionId id => engine.handleDevUnload env files sessionId id
  | .tick => engine.tick env

/-- What a call leaves. -/
def step (engine : ExtensionEngine T ρ σ) (input : Files × EngineCall) : ExtensionEngine T ρ σ :=
  (engine.call env input.1 input.2).2

end ExtensionEngine

/-! ### An extension -/

/-- One kind of module, and one view. -/
def plainPayloads : Payloads := ⟨Unit, Unit, Unit, Unit⟩

/-- A runtime in which nothing fails, and whose guests answer events with the same operations. -/
def plainRuntime (operations : ExtensionEvent → List HostOperation) :
    EngineRuntime plainPayloads Unit where
  load _ _ _ _ _ _ := (.ok (), ())
  replace _ _ _ _ _ _ := (.ok (), ())
  unload _ _ := (.ok (), ())
  dispatch _ _ event _ := (.ok (operations event), ())
  view _ _ _ _ := (.ok (some ()), ())
  search _ _ _ _ _ := (.ok [], ())
  compileModule _ _ := .ok ()
  validateModule _ _ _ _ _ _ := (.ok (), ())

/-- An extension with one widget, that may show notifications. -/
def plainManifest : ExtensionManifest where
  id := ⟨"io.test.clock"⟩
  name := "Clock"
  version := ⟨1, 0, 0, [], []⟩
  schemaVersion := 1
  apiVersion := ⟨0, 1, 0, [], []⟩
  minShilpoVersion := ⟨0, 1, 0, [], []⟩
  authors := []
  library := none
  contributions := ⟨[⟨⟨"bar"⟩, "Bar"⟩], [], [], [], [], [], [], [], [], []⟩
  subscriptions := []
  capabilities := [.notificationsShow]

/-- Surroundings with such a runtime, in which no script runs and no time passes. -/
def plainEnv (operations : ExtensionEvent → List HostOperation) :
    EngineEnv plainPayloads Unit Unit where
  host := ⟨fun c => c.toString, fun _ => none, fun _ => .ok (), .default⟩
  runtime := plainRuntime operations
  scripts := ⟨fun s => (false, s), fun s _ => s, id, fun _ => [], fun _ => []⟩
  fromToml _ := .ok plainManifest
  aboveShilpo _ := false
  clock _ := ⟨0, 0⟩
  arrange l := l
  arrange_perm _ := .rfl

/-- The extension is developed in some directory, or it is not. -/
def plainFiles (developed : Bool) : Files where
  installed := .ok []
  developmentRegistrations := (if developed then [(plainManifest.id, "/dev")] else [], [])
  loadGrants _ := .ok [.notificationsShow]
  computeFingerprint _ _ := 0
  catalogMtime := none
  readToString _ := .ok ""
  read _ := .ok [0]
  canonicalize path := .ok path
  isDir _ := true
  isFile _ := true

end Shilpo.Engine
