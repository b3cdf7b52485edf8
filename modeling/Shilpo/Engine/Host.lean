import Shilpo.Engine.Types

/-!
# The host in the engine

The host of extensions as the engine calls it: each call reads the clock anew, and
`visible_changed` of the circuit breaker, which no decision of the breaker reads, is kept beside it.
A call changes what is visible where it changes what is shown of the circuit, or sets it by hand.

`happened` is the record of a run: the operations that were accepted, the notices that were raised,
the views that were replaced, the modules that were replaced or unloaded. Nothing reads it. The
notices that a call raises are those that it leaves where none were waiting.
-/

namespace Shilpo.Engine

open Extensions

/-- What is shown of a circuit. -/
inductive Shown where
  | closed
  | opened (tripCount retryAt retryDelay : ℕ)
  | halfOpen (tripCount : ℕ)
  | permanentlyDisabled (tripCount : ℕ)
  deriving DecidableEq

/-- What is shown of the circuit of an extension. -/
def shown (breaker : CircuitBreaker) (id : ExtensionId) : Shown :=
  match breaker.state id with
  | none | some (.closed _) => .closed
  | some (.opened tripCount retryAt retryDelay) => .opened tripCount retryAt retryDelay
  | some (.halfOpen tripCount _ _) => .halfOpen tripCount
  | some (.permanentlyDisabled tripCount) => .permanentlyDisabled tripCount

/-- What can happen. -/
inductive Happening where
  | accepted (id : ExtensionId) (operation : AuthorizedHostOperation)
  | viewed (canonical : CanonicalId)
  | raised (notice : CircuitNotice)
  | replaced (id : ExtensionId)
  | removed (id : ExtensionId)

/-- The host, with what is visible of its breaker, the number of calls, and what has happened. -/
structure Host (ρ : Type) where
  inner : ExtensionHost ρ
  visibleChanged : Bool
  calls : ℕ
  happened : List Happening

namespace Host

variable {T : Payloads} {ρ σ : Type} (env : EngineEnv T ρ σ) (host : Host ρ)

/-- `ExtensionHost::new`. -/
def new (runtime : ρ) : Host ρ := ⟨.new runtime .default, false, 0, []⟩

/-- The host with no notices waiting. -/
def drained : ExtensionHost ρ :=
  { host.inner with circuitBreaker := { host.inner.circuitBreaker with pendingNotices := [] } }

/-- A call about one extension. `resets`: it sets the circuit by hand. -/
def call {β : Type} (id : ExtensionId)
    (f : ClockReadings → ExtensionHost ρ → β × ExtensionHost ρ) (resets : β → Bool)
    (happened : β → List Happening) : β × Host ρ :=
  let clock := env.clock host.calls
  let (answer, inner) := f clock host.inner
  let raised := (f clock host.drained).2.circuitBreaker.pendingNotices
  (answer,
    { inner
      visibleChanged := host.visibleChanged || resets answer ||
        shown inner.circuitBreaker id ≠ shown host.inner.circuitBreaker id
      calls := host.calls + 1
      happened := host.happened ++ happened answer ++ raised.map .raised })

/-- `ExtensionHost::register`. -/
def register (manifest : ExtensionManifest) (module : T.Module) (grants : List Capability) :
    Except ExtensionHost.Error Unit × Host ρ :=
  host.call env manifest.id
    (fun clock inner => inner.register env.host env.runtime.toExtensionRuntime clock.recorded
      manifest module grants)
    (fun answer => answer.toOption.isSome) fun _ => []

/-- `ExtensionHost::replace`. -/
def replace (manifest : ExtensionManifest) (module : T.Module) (grants : List Capability) :
    Except ExtensionHost.Error Unit × Host ρ :=
  host.call env manifest.id
    (fun clock inner => inner.replace env.host env.runtime.toExtensionRuntime clock.recorded
      manifest module grants)
    (fun answer => answer.toOption.isSome)
    fun answer => if answer.toOption.isSome then [.replaced manifest.id] else []

/-- `ExtensionHost::unregister`. -/
def unregister (id : ExtensionId) : Except ExtensionHost.Error Unit × Host ρ :=
  host.call env id
    (fun clock inner => inner.unregister env.runtime.toExtensionRuntime clock.recorded id)
    (fun answer => answer.toOption.isSome)
    fun answer => if answer.toOption.isSome then [.removed id] else []

/-- `ExtensionHost::dispatch_event`. -/
def dispatchEvent (id : ExtensionId) (event : ExtensionEvent) :
    Except ExtensionHost.Error DispatchResult × Host ρ :=
  host.call env id
    (fun clock inner => inner.dispatchEvent env.host env.runtime.toExtensionRuntime clock id event)
    (fun _ => false)
    fun answer => match answer with
      | .ok result => result.accepted.map (.accepted id)
      | .error _ => []

/-- `ExtensionHost::render_view`. -/
def renderView (canonical : CanonicalId) :
    Except ExtensionHost.Error (Option T.View) × Host ρ :=
  host.call env canonical.extensionId
    (fun clock inner => inner.renderView env.host env.runtime.toExtensionRuntime clock canonical)
    (fun _ => false) fun _ => []

/-- `ExtensionHost::record_coordinator_timeout`. -/
def recordCoordinatorTimeout (id : ExtensionId) : Host ρ :=
  (host.call env id (fun clock inner => ((), inner.recordFailure clock.recorded id))
    (fun _ => false) fun _ => []).2

/-- `ExtensionHost::clear`. -/
def clear : Host ρ :=
  let ids := env.arrange host.inner.registrations.keys
  { host with
    inner := host.inner.clear env.runtime.toExtensionRuntime ids
    visibleChanged := true
    happened := host.happened ++ ids.map .removed }

/-- `validate_module_with_capabilities` of the runtime. -/
def validateModule (id : ExtensionId) (module : T.Module) (manifest : ExtensionManifest)
    (grants : List Capability) : Except RuntimeError Unit × Host ρ :=
  let (answer, runtime) := env.runtime.validateModule host.inner.runtime id module
    env.host.runtimeBudget manifest.capabilities grants
  (answer, { host with inner := { host.inner with runtime } })

/-- `CircuitBreaker::advance_clock`. -/
def advanceClock : Bool × Host ρ :=
  let (circuitBreaker, transitioned) :=
    host.inner.circuitBreaker.advanceTime (env.clock host.calls).asked
  (transitioned,
    { host with
      inner := { host.inner with circuitBreaker }
      visibleChanged := host.visibleChanged || transitioned
      calls := host.calls + 1 })

/-- `CircuitBreaker::take_pending_notices`. -/
def takePendingNotices : List CircuitNotice × Host ρ :=
  (host.inner.circuitBreaker.pendingNotices, { host with inner := host.drained })

/-- `CircuitBreaker::take_visible_changed`. -/
def takeVisibleChanged : Bool × Host ρ := (host.visibleChanged, { host with visibleChanged := false })

/-- A view of the session has been replaced. -/
def viewed (canonical : CanonicalId) : Host ρ :=
  { host with happened := host.happened ++ [.viewed canonical] }

end Host

end Shilpo.Engine
