import Shilpo.Engine.Host

/-!
# The session of the engine

`ExtensionSession` of `worker/engine.rs`: the host, the manifests of what is registered with it, the
views that are shown, and where contributions stand. An event of a contribution goes to its
extension, any other to all, and what may look different afterwards is rendered again.

`ExtensionSession::state`, which is only ever cleared, is left out.
-/

namespace Shilpo.Engine

open Extensions
open Config (JsonValue)

/-- The session. -/
structure ExtensionSession (T : Payloads) (ρ : Type) where
  host : Host ρ
  manifests : AList fun _ : ExtensionId => ExtensionManifest
  runtimeIds : List ExtensionId
  views : AList fun _ : CanonicalId => T.View
  instances : AList fun _ : String => ContributionInstance

/-- The contributions that have views. -/
def rendered (id : ExtensionId) (contributions : Contributions) : List CanonicalId :=
  contributions.barWidgets.map (fun contribution => ⟨id, contribution.id⟩) ++
    contributions.barMenus.map (fun contribution => ⟨id, contribution.id⟩) ++
    contributions.desktopWidgets.map fun contribution => ⟨id, contribution.id⟩

/-- The extension and the instance an event of a contribution is for, if it names one. -/
def located (contributionId : String) (instanceId : Option String) :
    Option (CanonicalId × String) :=
  match CanonicalId.parse contributionId with
  | .ok canonical => some (canonical, instanceId.getD canonical.text)
  | .error _ => none

/-- `f32::EPSILON`. -/
def epsilon : Float32 := 1.1920929e-7

/-- One size is not the other. -/
def sizeDiffers (width width' : Float32) : Bool := epsilon < (width - width').abs

/-- The operation as it is passed on. -/
def applyEffect (id : ExtensionId) (operation : AuthorizedHostOperation) :
    ExtensionId × AuthorizedHostOperation := (id, operation)

namespace ExtensionSession

variable {T : Payloads} {ρ σ : Type} (env : EngineEnv T ρ σ)

/-- `ExtensionSession::new`. -/
def new (runtime : ρ) : ExtensionSession T ρ := ⟨.new runtime, ∅, [], ∅, ∅⟩

/-- `ExtensionSession::clear`. -/
def clear (session : ExtensionSession T ρ) : ExtensionSession T ρ :=
  ⟨session.host.clear env, ∅, [], ∅, ∅⟩

/-- A contribution is rendered; it is named where there is a view to show. -/
def render (canonical : CanonicalId) (session : ExtensionSession T ρ) :
    List CanonicalId × ExtensionSession T ρ :=
  match session.host.renderView env canonical with
  | (.ok (some view), host) =>
    ([canonical],
      { session with host := host.viewed canonical, views := session.views.insert canonical view })
  | (_, host) => ([], { session with host })

/-- Contributions are rendered one after the other. -/
def renderAll : List CanonicalId → ExtensionSession T ρ → List CanonicalId × ExtensionSession T ρ
  | [], session => ([], session)
  | canonical :: canonicals, session =>
    let (names, session) := session.render env canonical
    let (later, session) := renderAll canonicals session
    (names ++ later, session)

/-- `ExtensionSession::register`. -/
def register (manifest : ExtensionManifest) (module : T.Module) (grants : List Capability)
    (session : ExtensionSession T ρ) : Except String Unit × ExtensionSession T ρ :=
  match session.host.register env manifest module grants with
  | (.error err, host) => (.error err.text, { session with host })
  | (.ok (), host) =>
    let (_, session) :=
      { session with host }.renderAll env (rendered manifest.id manifest.contributions)
    (.ok (),
      { session with
        manifests := session.manifests.insert manifest.id manifest
        runtimeIds := session.runtimeIds ++ [manifest.id] })

/-- `refresh_event_views`: what an event may have changed is rendered again, of an input its
contribution, else what is shown of the extension. -/
def refreshEventViews (event : ExtensionEvent) (id : ExtensionId) (session : ExtensionSession T ρ) :
    List CanonicalId × ExtensionSession T ρ :=
  match event with
  | .input contributionId .. =>
    match CanonicalId.parse contributionId with
    | .error _ => ([], session)
    | .ok canonical =>
      if canonical.extensionId ≠ id then ([], session) else session.renderAll env [canonical]
  | _ =>
    session.renderAll env
      (env.arrange (session.views.keys.filter fun canonical => canonical.extensionId = id))

/-- `dispatch_to_extension`. -/
def dispatchToExtension (id : ExtensionId) (event : ExtensionEvent)
    (session : ExtensionSession T ρ) : ExtensionChanges × ExtensionSession T ρ :=
  match session.host.dispatchEvent env id event with
  | (.error _, host) => (.default, { session with host })
  | (.ok result, host) =>
    let (invalidated, session) := { session with host }.refreshEventViews env event id
    (⟨result.accepted.map (applyEffect id), invalidated⟩, session)

/-- Extensions are told of an event one after the other. -/
def dispatchEach (event : ExtensionEvent) :
    List ExtensionId → ExtensionSession T ρ → ExtensionChanges × ExtensionSession T ρ
  | [], session => (.default, session)
  | id :: ids, session =>
    let (changes, session) := session.dispatchToExtension env id event
    let (later, session) := dispatchEach event ids session
    (changes.merge later, session)

/-- Where contributions stand after an event of one. -/
def noteInstance (event : ExtensionEvent) (instances : AList fun _ : String => ContributionInstance) :
    AList fun _ : String => ContributionInstance :=
  match event with
  | .contributionMounted contributionId instanceId width height =>
    match located contributionId instanceId with
    | some (canonical, key) =>
      instances.insert key ⟨key, canonical, none, width, height, .object []⟩
    | none => instances
  | .contributionUnmounted contributionId instanceId =>
    match located contributionId instanceId with
    | some (_, key) => instances.erase key
    | none => instances
  | .contributionResized contributionId instanceId width height =>
    match located contributionId instanceId with
    | some (_, key) =>
      match instances.lookup key with
      | some placed => instances.insert key { placed with width, height }
      | none => instances
    | none => instances
  | .contributionSettingsChanged contributionId instanceId settings =>
    match located contributionId instanceId with
    | some (_, key) =>
      match instances.lookup key with
      | some placed => instances.insert key { placed with settings }
      | none => instances
    | none => instances
  | _ => instances

/-- The contribution that an event names. -/
def namedBy : ExtensionEvent → Option String
  | .contributionMounted contributionId .. | .contributionUnmounted contributionId _
  | .contributionResized contributionId .. | .contributionSettingsChanged contributionId ..
  | .input contributionId .. | .barMenuOpened contributionId _
  | .barMenuClosed contributionId .. => some contributionId
  | _ => none

/-- The extensions that are told of an event. -/
def targetIds (session : ExtensionSession T ρ) (event : ExtensionEvent) : List ExtensionId :=
  match namedBy event with
  | some contributionId =>
    match CanonicalId.parse contributionId with
    | .ok canonical => [canonical.extensionId]
    | .error _ => []
  | none => session.runtimeIds

/-- `ExtensionSession::dispatch`. -/
def dispatch (event : ExtensionEvent) (session : ExtensionSession T ρ) :
    ExtensionChanges × ExtensionSession T ρ :=
  dispatchEach env event (session.targetIds event)
    { session with instances := noteInstance event session.instances }

/-- Events are dispatched one after the other. -/
def dispatchAll :
    List ExtensionEvent → ExtensionSession T ρ → ExtensionChanges × ExtensionSession T ρ
  | [], session => (.default, session)
  | event :: events, session =>
    let (changes, session) := session.dispatch env event
    let (later, session) := dispatchAll events session
    (changes.merge later, session)

/-! ### Instances -/

/-- The event that a contribution is not there any more. -/
def unmounted (placed : ContributionInstance) : ExtensionEvent :=
  .contributionUnmounted placed.contribution.text (some placed.id)

/-- What stands where nothing is wanted is taken away. -/
def unmountEach (desired : AList fun _ : String => ContributionInstance) :
    List String → ExtensionSession T ρ → ExtensionChanges × ExtensionSession T ρ
  | [], session => (.default, session)
  | key :: keys, session =>
    let (changes, session) :=
      match desired.lookup key, session.instances.lookup key with
      | none, some placed => session.dispatch env (unmounted placed)
      | _, _ => (.default, session)
    let (later, session) := unmountEach desired keys session
    (changes.merge later, session)

/-- The size that is wanted is not the one there is. -/
def widthChanged (existing wanted : ContributionInstance) : Bool :=
  sizeDiffers existing.width wanted.width || sizeDiffers existing.height wanted.height

/-- The settings that are wanted are not those there are. -/
def settingsChanged (existing wanted : ContributionInstance) : Bool :=
  existing.settings != wanted.settings

/-- The events that make what stands somewhere, if anything does, what is wanted. -/
def eventsFor (existing : Option ContributionInstance) (wanted : ContributionInstance) :
    List ExtensionEvent :=
  let contributionId := wanted.contribution.text
  match existing with
  | some existing =>
    (if widthChanged existing wanted then
      [.contributionResized contributionId (some wanted.id) wanted.width wanted.height]
    else []) ++
      if settingsChanged existing wanted then
        [.contributionSettingsChanged contributionId (some wanted.id) wanted.settings]
      else []
  | none =>
    [.contributionMounted contributionId (some wanted.id) wanted.width wanted.height,
      .contributionSettingsChanged contributionId (some wanted.id) wanted.settings]

/-- What stands somewhere gets the size and the settings that are wanted. -/
def adjusted (existing wanted : ContributionInstance) : ContributionInstance :=
  { existing with
    width := if widthChanged existing wanted then wanted.width else existing.width
    height := if widthChanged existing wanted then wanted.height else existing.height
    settings := if settingsChanged existing wanted then wanted.settings else existing.settings }

/-- What is wanted is put where it belongs. -/
def placeEach :
    List (Sigma fun _ : String => ContributionInstance) → ExtensionSession T ρ →
      ExtensionChanges × ExtensionSession T ρ
  | [], session => (.default, session)
  | ⟨key, wanted⟩ :: entries, session =>
    let existing := session.instances.lookup key
    let instances :=
      match existing with
      | some placed => session.instances.insert key (adjusted placed wanted)
      | none => session.instances
    let (changes, session) := { session with instances }.dispatchAll env (eventsFor existing wanted)
    let (later, session) := placeEach entries session
    (changes.merge later, session)

/-- `reconcile_instances`. -/
def reconcileInstances (desired : List ContributionInstance) (session : ExtensionSession T ρ) :
    ExtensionChanges × ExtensionSession T ρ :=
  let wanted : AList fun _ : String => ContributionInstance :=
    desired.foldl (fun wanted placed => wanted.insert placed.id placed) ∅
  let (changes, session) :=
    session.unmountEach env wanted (env.arrange session.instances.keys)
  let (later, session) := session.placeEach env (env.arrange wanted.entries)
  (changes.merge later, session)

end ExtensionSession

end Shilpo.Engine
