import Mathlib

/-!
# What the shell and the extension host say to each other

The messages of `ext-runtime/src/worker/protocol.rs` and `process.rs`, with the constants of the
supervisor. Generations, request ids and times in milliseconds are natural numbers. What the
supervisor passes on without reading it stands as a string or a number: events, JSON values, host
operations, and the rest of a snapshot (`contents`).
-/

namespace Shilpo.ExtensionHost

/-! ### Constants -/

/-- `RETRY_DELAYS`. -/
def retryDelays : List ℕ := [250, 1000, 4000]

/-- `MAX_CRASHES_IN_WINDOW`. -/
def maxCrashesInWindow : ℕ := 3

/-- `ROLLING_WINDOW`. -/
def rollingWindow : ℕ := 60000

/-- `READY_RESET_DURATION`. -/
def readyResetDuration : ℕ := 300000

/-- `MAX_QUEUE_SIZE`. -/
def maxQueueSize : ℕ := 64

/-- The delay before the spawn that follows this many crashes in a row, at least one. -/
def retryDelay (consecutiveCrashes : ℕ) : ℕ :=
  retryDelays.getD (min (consecutiveCrashes - 1) (retryDelays.length - 1)) 0

/-- No delay is shorter than the first. -/
theorem first_le_retryDelay (n : ℕ) : 250 ≤ retryDelay n := by
  have hn : min (n - 1) (retryDelays.length - 1) ≤ 2 := Nat.min_le_right _ _
  unfold retryDelay
  generalize min (n - 1) (retryDelays.length - 1) = i at hn ⊢
  interval_cases i <;> decide

/-! ### From the worker -/

/-- What an extension does at the host, authorized. -/
structure HostEffect where
  extensionId : String
  operation : ℕ
  deriving DecidableEq

/-- A circuit breaker has changed. -/
structure CircuitNotice where
  extensionId : String
  kind : ℕ
  deriving DecidableEq

/-- The extensions as the worker has them. -/
structure ExtensionSnapshot where
  generation : ℕ
  contents : ℕ
  deriving DecidableEq

/-- `ExtensionSnapshot::default`. -/
def ExtensionSnapshot.default : ExtensionSnapshot := ⟨0, 0⟩

/-- What has changed in the worker. -/
structure ExtensionUpdate where
  hostGeneration : ℕ
  generation : ℕ
  snapshot : Option ExtensionSnapshot
  effects : List HostEffect
  invalidatedViews : List String
  circuitNotices : List CircuitNotice
  deriving DecidableEq

/-- What has become of a development reload. -/
structure DevReloadOutcome where
  sessionId : String
  buildSequence : ℕ
  outcome : String
  engineGeneration : ℕ
  diagnosticCode : String
  message : String
  update : Option ExtensionUpdate
  deriving DecidableEq

/-- `DevReloadOutcome::rejected`. -/
def DevReloadOutcome.rejected (sessionId : String) (buildSequence engineGeneration : ℕ)
    (diagnosticCode message : String) : DevReloadOutcome where
  sessionId := sessionId
  buildSequence := buildSequence
  outcome := "rejected"
  engineGeneration := engineGeneration
  diagnosticCode := diagnosticCode
  message := message
  update := none

/-- Why a search has failed in the worker. -/
inductive WorkerSearchError where
  | notRegistered (extensionId : String)
  | unknownContribution (contribution : String)
  | circuitOpen (extensionId : String)
  | disabled (extensionId : String)
  | timeout
  | guest (message : String)
  | other (message : String)
  deriving DecidableEq

/-- What a search has given: the candidates, or why there are none. -/
abbrev SearchResult := WorkerSearchError ⊕ List String

/-- What the worker says. -/
inductive WorkerPayload where
  | update (update : ExtensionUpdate)
  | devReload (outcome : DevReloadOutcome)
  | search (result : SearchResult)
  | shutdownAck
  | fatalError (error : String)
  deriving DecidableEq

/-- A message of the worker. -/
structure WorkerMessage where
  hostGeneration : ℕ
  engineGeneration : ℕ
  requestId : ℕ
  payload : WorkerPayload
  deriving DecidableEq

/-- The update a payload carries. -/
def WorkerPayload.carried : WorkerPayload → Option ExtensionUpdate
  | .update u => some u
  | .devReload outcome => outcome.update
  | .search _ | .shutdownAck | .fatalError _ => none

/-! ### The supervisor's state -/

/-- `SupervisorState`. -/
inductive SupervisorState where
  | starting
  | ready
  | backoff (attempt : ℕ)
  | quarantined
  | stopping
  | stopped
  deriving DecidableEq

/-- The states in which a request is refused at once. -/
def SupervisorState.unavailable : SupervisorState → Bool
  | .quarantined | .stopped | .stopping => true
  | .starting | .ready | .backoff _ => false

end Shilpo.ExtensionHost
