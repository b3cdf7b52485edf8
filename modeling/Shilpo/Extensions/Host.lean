import Shilpo.Extensions.Manifest

/-!
# The host of extensions

`desktop/ext-runtime/src/adapter.rs` and `effects.rs`: `ExtensionHost` holds what is known
of the registered extensions, calls them through a runtime, asks the circuit breaker before
each call and tells it afterwards how the call went, and lets through the operations that
both the manifest and the grants of an extension allow.

The runtime is any machine that answers the calls of the trait `ExtensionRuntime`. Modules,
views, and what a search asks and finds, only pass through the host and are of any types
(`Payloads`). Parameters too are the parser of the crate `url`, the check of a view against
its limits, and the budget of a call (`HostEnv`). The clock is read anew by each operation
of the breaker: where a call first asks for a permit and then records a failure, the two
readings are in `ClockReadings`.
-/

namespace Shilpo.Extensions

/-! ### Effects -/

/-- What the host looks at of a parsed URL. -/
structure Url where
  scheme : String
  host : Option String
  username : String
  password : Option String
  path : String
  fragment : Option String

/-- A URL that may be requested: over HTTPS, from a host, without credentials or a fragment. -/
def Url.isHttpTarget (url : Url) : Bool :=
  url.scheme = "https" && url.host.any (· ≠ "") && url.username = "" && url.password.isNone &&
    url.fragment.isNone

/-- A request target that has been looked at. -/
structure CanonicalHttpTarget where
  url : Url
  isHttpTarget : url.isHttpTarget = true

/-- The target of a request. -/
def CanonicalHttpTarget.parse (parseUrl : String → Option Url) (rawUrl method : String) :
    Option CanonicalHttpTarget :=
  if method ≠ "GET" then none
  else
    match parseUrl rawUrl with
    | none => none
    | some url => if h : url.isHttpTarget then some ⟨url, h⟩ else none

/-- The operation is a request over the network. -/
def HostOperation.isHttp : HostOperation → Bool
  | .httpRequest .. => true
  | _ => false

/-- An operation that the host may carry out. A request has the URL that has been looked at. -/
inductive AuthorizedHostOperation where
  | nonHttp (operation : HostOperation) (h : operation.isHttp = false)
  | httpRequest (requestId : String) (target : CanonicalHttpTarget)

namespace Capability

/-- Whether the target may be requested. -/
def allowsHttpTarget (capability : Capability) (target : CanonicalHttpTarget) : Bool :=
  match capability with
  | .networkHttp hosts paths =>
    hosts.any (fun pattern => wildcardMatches pattern (target.url.host.getD "")) &&
      (paths.isEmpty || paths.any fun pattern => wildcardMatches pattern target.url.path)
  | _ => false

/-- Whether the operation may be carried out. -/
def allowsOperation (parseUrl : String → Option Url) (capability : Capability)
    (operation : HostOperation) : Bool :=
  match capability, operation with
  | .notificationsShow, .showNotification .. => true
  | .themeSetSource, .setThemeSource _ => true
  | .clipboardWrite, .clipboardWrite _ => true
  | .wallpaperSet sources, .setWallpaper _ source _ _ => sources.contains source
  | .actionsInvoke actions, .invokeAction actionId _ =>
    actions.any fun pattern => wildcardMatches pattern actionId
  | .networkHttp .., .httpRequest _ url method =>
    (CanonicalHttpTarget.parse parseUrl url method).any capability.allowsHttpTarget
  | .locationRead, .locationRead => true
  | _, _ => false

end Capability

/-- What is known of a registered extension. -/
structure Registration where
  manifest : ExtensionManifest
  grants : List Capability

/-- What has become of the operations of an extension. -/
structure DispatchResult where
  accepted : List AuthorizedHostOperation
  rejected : List HostOperation

/-- Nothing was asked for. -/
def DispatchResult.default : DispatchResult := ⟨[], []⟩

/-- An operation that is allowed, or the operation as it is. -/
def authorizeOperation (parseUrl : String → Option Url) (registration : Registration) :
    HostOperation → Except HostOperation AuthorizedHostOperation
  | .httpRequest requestId url method =>
    match CanonicalHttpTarget.parse parseUrl url method with
    | none => .error (.httpRequest requestId url method)
    | some target =>
      if registration.manifest.capabilities.any (·.allowsHttpTarget target) &&
          registration.grants.any (·.allowsHttpTarget target) then
        .ok (.httpRequest requestId target)
      else .error (.httpRequest requestId url method)
  | operation =>
    if registration.manifest.capabilities.any (·.allowsOperation parseUrl operation) &&
        registration.grants.any (·.allowsOperation parseUrl operation) then
      if h : operation.isHttp = false then .ok (.nonHttp operation h) else .error operation
    else .error operation

/-- The operations, one after the other. -/
def authorizeOperations (parseUrl : String → Option Url) (registration : Registration) :
    List HostOperation → DispatchResult
  | [] => .default
  | operation :: operations =>
    let rest := authorizeOperations parseUrl registration operations
    match authorizeOperation parseUrl registration operation with
    | .ok authorized => ⟨authorized :: rest.accepted, rest.rejected⟩
    | .error rejected => ⟨rest.accepted, rejected :: rest.rejected⟩

/-! ### The runtime -/

/-- How a runtime can fail. -/
inductive RuntimeFailureKind where
  | load
  | trap
  | timeout
  | fuelExhausted
  | memoryLimit
  | invalidOutput
  | unavailable
  deriving DecidableEq

/-- A failure of the runtime. -/
structure RuntimeError where
  kind : RuntimeFailureKind
  message : String
  deriving DecidableEq

/-- What a call may use up. -/
structure RuntimeBudget where
  maxMemoryBytes : ℕ
  fuel : ℕ
  deadline : ℕ
  maxHostcallBytes : ℕ
  maxOutputBytes : ℕ

/-- The source's default. -/
def RuntimeBudget.default : RuntimeBudget :=
  ⟨32 * 1024 * 1024, 10000000, 100000000, 1024 * 1024, 1024 * 1024⟩

/-- What only passes through the host. -/
structure Payloads where
  Module : Type
  View : Type
  Request : Type
  Candidate : Type

/-- A runtime with states `ρ`: what its calls answer, and what they leave. -/
structure ExtensionRuntime (T : Payloads) (ρ : Type) where
  load : ρ → ExtensionId → T.Module → RuntimeBudget → List Capability → List Capability →
    Except RuntimeError Unit × ρ
  replace : ρ → ExtensionId → T.Module → RuntimeBudget → List Capability → List Capability →
    Except RuntimeError Unit × ρ
  unload : ρ → ExtensionId → Except RuntimeError Unit × ρ
  dispatch : ρ → ExtensionId → ExtensionEvent → RuntimeBudget →
    Except RuntimeError (List HostOperation) × ρ
  view : ρ → ExtensionId → ContributionId → RuntimeBudget →
    Except RuntimeError (Option T.View) × ρ
  search : ρ → ExtensionId → ContributionId → T.Request → RuntimeBudget →
    Except RuntimeError (List T.Candidate) × ρ

/-- What the host uses beside the runtime. -/
structure HostEnv (T : Payloads) where
  toUppercase : Char → String
  parseUrl : String → Option Url
  validateView : T.View → Except String Unit
  runtimeBudget : RuntimeBudget

/-! ### The host -/

/-- What the clock says when a permit is asked for, and when a failure is recorded. -/
structure ClockReadings where
  asked : ℕ
  recorded : ℕ

/-- The host. -/
structure ExtensionHost (ρ : Type) where
  runtime : ρ
  registrations : AList fun _ : ExtensionId => Registration
  circuitBreaker : CircuitBreaker

namespace ExtensionHost

/-- Why a call has no result: `HostError` with all that the host adds to the breaker's. -/
inductive Error where
  | manifest (err : ManifestError)
  | runtime (err : RuntimeError)
  | view (message : String)
  | alreadyRegistered (id : ExtensionId)
  | notRegistered (id : ExtensionId)
  | unknownContribution (id : CanonicalId)
  | undeclaredGrant (kind : String)
  | disabled (id : ExtensionId)
  deriving DecidableEq

/-- The breaker's error as one of the host. -/
def Error.ofBreaker : HostError → Error
  | .disabled id => .disabled id

variable {T : Payloads} {ρ : Type}

/-- A host without extensions. -/
def new (runtime : ρ) (policy : CircuitBreakerPolicy) : ExtensionHost ρ :=
  ⟨runtime, ∅, .new policy⟩

variable (env : HostEnv T) (machine : ExtensionRuntime T ρ) (host : ExtensionHost ρ)

/-- A permit will not be used. -/
def releaseProbe (id : ExtensionId) : ExtensionHost ρ :=
  { host with circuitBreaker := host.circuitBreaker.releaseProbe id }

/-- A call has succeeded. -/
def recordSuccess (id : ExtensionId) : ExtensionHost ρ :=
  { host with circuitBreaker := host.circuitBreaker.recordSuccess id }

/-- A call has failed. -/
def recordFailure (now : ℕ) (id : ExtensionId) : ExtensionHost ρ :=
  { host with circuitBreaker := (host.circuitBreaker.recordFailure now id).1 }

/-- An extension is there, with this manifest and these grants, and its circuit is closed. -/
def registered (manifest : ExtensionManifest) (grants : List Capability) : ExtensionHost ρ :=
  { host with
    registrations := host.registrations.insert manifest.id ⟨manifest, grants⟩
    circuitBreaker := host.circuitBreaker.reset manifest.id }

/-- An extension is loaded. -/
def register (now : ℕ) (manifest : ExtensionManifest) (module : T.Module)
    (grants : List Capability) : Except Error Unit × ExtensionHost ρ :=
  match manifest.validate env.toUppercase with
  | .error err => (.error (.manifest err), host)
  | .ok () =>
    if (host.registrations.lookup manifest.id).isSome then
      (.error (.alreadyRegistered manifest.id), host)
    else
      match undeclaredGrant manifest.capabilities grants with
      | some grant => (.error (.undeclaredGrant grant.kind.debug), host)
      | none =>
        match machine.load host.runtime manifest.id module env.runtimeBudget
            manifest.capabilities grants with
        | (.error err, runtime) =>
          (.error (.runtime err), { host with runtime }.recordFailure now manifest.id)
        | (.ok (), runtime) => (.ok (), { host with runtime }.registered manifest grants)

/-- An extension is unloaded. -/
def unregister (now : ℕ) (id : ExtensionId) : Except Error Unit × ExtensionHost ρ :=
  if (host.registrations.lookup id).isNone then (.error (.notRegistered id), host)
  else
    match machine.unload host.runtime id with
    | (.error err, runtime) => (.error (.runtime err), { host with runtime }.recordFailure now id)
    | (.ok (), runtime) =>
      (.ok (), ⟨runtime, host.registrations.erase id, host.circuitBreaker.remove id⟩)

/-- An extension gets another manifest, module and grants. -/
def replace (now : ℕ) (manifest : ExtensionManifest) (module : T.Module)
    (grants : List Capability) : Except Error Unit × ExtensionHost ρ :=
  match manifest.validate env.toUppercase with
  | .error err => (.error (.manifest err), host)
  | .ok () =>
    if (host.registrations.lookup manifest.id).isNone then
      (.error (.notRegistered manifest.id), host)
    else
      match undeclaredGrant manifest.capabilities grants with
      | some grant => (.error (.undeclaredGrant grant.kind.debug), host)
      | none =>
        match machine.replace host.runtime manifest.id module env.runtimeBudget
            manifest.capabilities grants with
        | (.error err, runtime) =>
          (.error (.runtime err), { host with runtime }.recordFailure now manifest.id)
        | (.ok (), runtime) => (.ok (), { host with runtime }.registered manifest grants)

/-- The extension may hear of the event: it need not be subscribed to, or it is subscribed to,
declared and granted. -/
def hears (registration : Registration) (event : ExtensionEvent) : Bool :=
  match event.subscriptionKind with
  | some kind =>
    registration.manifest.subscriptions.contains kind &&
      registration.manifest.capabilities.any (·.allowsEvent kind) &&
      registration.grants.any (·.allowsEvent kind)
  | none => true

/-- An input is for a contribution that is declared. -/
def checkInput (id : ExtensionId) (registration : Registration) (event : ExtensionEvent) :
    Except Error Unit :=
  match event with
  | .input contributionId _ _ _ =>
    match ContributionId.new contributionId with
    | .error err => .error (.manifest (.id err))
    | .ok contribution =>
      if registration.manifest.contributions.contains contribution then .ok ()
      else .error (.unknownContribution ⟨id, contribution⟩)
  | _ => .ok ()

/-- A call of an extension begins: a permit is taken, and what is known of the extension looked up.
`granted` is the rest of the call. -/
def enter {α : Type} (clock : ClockReadings) (id : ExtensionId)
    (granted : Registration → ExtensionHost ρ → Except Error α × ExtensionHost ρ) :
    Except Error α × ExtensionHost ρ :=
  match host.circuitBreaker.acquirePermit clock.asked id with
  | (circuitBreaker, .error err) => (.error (.ofBreaker err), { host with circuitBreaker })
  | (circuitBreaker, .ok _) =>
    match host.registrations.lookup id with
    | none => (.error (.notRegistered id), { host with circuitBreaker }.releaseProbe id)
    | some registration => granted registration { host with circuitBreaker }

/-- An extension is told of an event. -/
def dispatchEvent (clock : ClockReadings) (id : ExtensionId) (event : ExtensionEvent) :
    Except Error DispatchResult × ExtensionHost ρ :=
  host.enter clock id fun registration host =>
    if !hears registration event then (.ok .default, host.releaseProbe id)
    else
      match checkInput id registration event with
      | .error err => (.error err, host.releaseProbe id)
      | .ok () =>
        match machine.dispatch host.runtime id event env.runtimeBudget with
        | (.error err, runtime) =>
          (.error (.runtime err), { host with runtime }.recordFailure clock.recorded id)
        | (.ok operations, runtime) =>
          let result := authorizeOperations env.parseUrl registration operations
          if result.rejected.isEmpty then (.ok result, { host with runtime }.recordSuccess id)
          else (.ok result, { host with runtime }.recordFailure clock.recorded id)

/-- A contribution is to be shown. -/
def renderView (clock : ClockReadings) (canonical : CanonicalId) :
    Except Error (Option T.View) × ExtensionHost ρ :=
  let id := canonical.extensionId
  host.enter clock id fun registration host =>
    if !registration.manifest.contributions.contains canonical.contributionId then
      (.error (.unknownContribution canonical), host.releaseProbe id)
    else
      match machine.view host.runtime id canonical.contributionId env.runtimeBudget with
      | (.error err, runtime) =>
        (.error (.runtime err), { host with runtime }.recordFailure clock.recorded id)
      | (.ok view, runtime) =>
        match view.map env.validateView with
        | some (.error err) =>
          (.error (.view err), { host with runtime }.recordFailure clock.recorded id)
        | _ => (.ok view, { host with runtime }.recordSuccess id)

/-- Something is to be found. -/
def search (clock : ClockReadings) (canonical : CanonicalId) (request : T.Request)
    (budget : RuntimeBudget) : Except Error (List T.Candidate) × ExtensionHost ρ :=
  let id := canonical.extensionId
  host.enter clock id fun registration host =>
    if !registration.manifest.contributions.searchProviders.any
        (fun provider => provider.id = canonical.contributionId) then
      (.error (.unknownContribution canonical), host.releaseProbe id)
    else
      match machine.search host.runtime id canonical.contributionId request budget with
      | (.error err, runtime) =>
        (.error (.runtime err), { host with runtime }.recordFailure clock.recorded id)
      | (.ok candidates, runtime) => (.ok candidates, { host with runtime }.recordSuccess id)

/-- All extensions are unloaded, in the order in which the map has their names; whether the
runtime succeeds does not matter. -/
def clear (ids : List ExtensionId) : ExtensionHost ρ :=
  ⟨ids.foldl (fun runtime id => (machine.unload runtime id).2) host.runtime, ∅,
    host.circuitBreaker.clear⟩

end ExtensionHost

/-! ### Calls -/

/-- A call of the host, with what the clock says in it. -/
inductive HostCall (T : Payloads) where
  | register (now : ℕ) (manifest : ExtensionManifest) (module : T.Module)
      (grants : List Capability)
  | unregister (now : ℕ) (id : ExtensionId)
  | replace (now : ℕ) (manifest : ExtensionManifest) (module : T.Module)
      (grants : List Capability)
  | dispatchEvent (clock : ClockReadings) (id : ExtensionId) (event : ExtensionEvent)
  | renderView (clock : ClockReadings) (canonical : CanonicalId)
  | search (clock : ClockReadings) (canonical : CanonicalId) (request : T.Request)
      (budget : RuntimeBudget)
  | recordCoordinatorTimeout (now : ℕ) (id : ExtensionId)
  | resetExtension (id : ExtensionId)
  | clear (ids : List ExtensionId)
  /-- Time passes: `advance_clock` of the breaker. -/
  | advanceClock (now : ℕ)

/-- What a call answers. -/
inductive HostAnswer (T : Payloads) where
  | done (result : Except ExtensionHost.Error Unit)
  | dispatched (result : Except ExtensionHost.Error DispatchResult)
  | viewed (result : Except ExtensionHost.Error (Option T.View))
  | found (result : Except ExtensionHost.Error (List T.Candidate))

namespace ExtensionHost

variable {T : Payloads} {ρ : Type} (env : HostEnv T) (machine : ExtensionRuntime T ρ)

/-- What a call answers, and what it leaves. -/
def call (host : ExtensionHost ρ) : HostCall T → HostAnswer T × ExtensionHost ρ
  | .register now manifest module grants =>
    (host.register env machine now manifest module grants).map .done fun host => host
  | .unregister now id => (host.unregister machine now id).map .done fun host => host
  | .replace now manifest module grants =>
    (host.replace env machine now manifest module grants).map .done fun host => host
  | .dispatchEvent clock id event =>
    (host.dispatchEvent env machine clock id event).map .dispatched fun host => host
  | .renderView clock canonical => (host.renderView env machine clock canonical).map .viewed fun host => host
  | .search clock canonical request budget =>
    (host.search machine clock canonical request budget).map .found fun host => host
  | .recordCoordinatorTimeout now id => (.done (.ok ()), host.recordFailure now id)
  | .resetExtension id =>
    (.done (.ok ()), { host with circuitBreaker := host.circuitBreaker.reset id })
  | .clear ids => (.done (.ok ()), host.clear machine ids)
  | .advanceClock now =>
    (.done (.ok ()), { host with circuitBreaker := (host.circuitBreaker.advanceTime now).1 })

/-- What a call leaves. -/
def step (host : ExtensionHost ρ) (call : HostCall T) : ExtensionHost ρ :=
  (host.call env machine call).2

end ExtensionHost

end Shilpo.Extensions
