import Mathlib

/-!
# Domain supervision

The types every service domain shares (`desktop/domain/src/lib.rs`): the version of
a published snapshot, the lifecycle its consumers see, and the supervisor that
counts owner failures in a rolling window, backs off and quarantines.

Times are milliseconds and counters are counts, both natural numbers: `u64`
subtraction that saturates is subtraction of naturals, and addition that saturates
is `saturatingAdd`. A counter that a run increments by one stays below `2 ^ 64`
for longer than any run lasts.
-/

namespace Shilpo.Domain

/-! ### Versions -/

/-- The version of a snapshot, ordered by owner generation and then by revision. -/
@[ext]
structure DomainVersion where
  /-- How many times an owner has been started. -/
  ownerGeneration : ℕ
  /-- How many changes this owner has published. -/
  revision : ℕ
  deriving DecidableEq

namespace DomainVersion

/-- The version before any owner. -/
def zero : DomainVersion := ⟨0, 0⟩

/-- The same owner's next revision. -/
def bump (v : DomainVersion) : DomainVersion := ⟨v.ownerGeneration, v.revision + 1⟩

/-- Strict lexicographical order, as the source derives it. -/
instance : LinearOrder DomainVersion :=
  LinearOrder.lift' (fun v => toLex (v.ownerGeneration, v.revision)) fun v w h => by
    have := Prod.mk.inj (toLex.injective h)
    exact DomainVersion.ext this.1 this.2

theorem lt_iff {v w : DomainVersion} : v < w ↔
    v.ownerGeneration < w.ownerGeneration ∨
      v.ownerGeneration = w.ownerGeneration ∧ v.revision < w.revision :=
  Prod.Lex.toLex_lt_toLex

@[simp] theorem lt_bump (v : DomainVersion) : v < v.bump :=
  lt_iff.mpr (.inr ⟨rfl, Nat.lt_succ_self _⟩)

@[simp] theorem ownerGeneration_bump (v : DomainVersion) :
    v.bump.ownerGeneration = v.ownerGeneration :=
  rfl

theorem zero_le (v : DomainVersion) : zero ≤ v := by
  refine not_lt.mp fun h => ?_
  rcases lt_iff.mp h with h | ⟨-, h⟩
  · exact Nat.not_lt_zero _ h
  · exact Nat.not_lt_zero _ h

/-- A new owner's first version is newer than any of the owner before it. -/
theorem lt_next_owner (v : DomainVersion) : v < ⟨v.ownerGeneration + 1, 0⟩ :=
  lt_iff.mpr (.inl (Nat.lt_succ_self _))

end DomainVersion

/-! ### Lifecycle -/

/-- What consumers are told about a domain's owner. -/
inductive DomainLifecycle where
  | unavailable
  | connecting
  | ready
  | reconnecting
  | degraded
  deriving DecidableEq

/-- The lifecycle while an owner starts: `reconnecting` once one has been ready. -/
def startingLifecycle (hadPriorReadiness : Bool) : DomainLifecycle :=
  if hadPriorReadiness then .reconnecting else .connecting

/-- Why a command was cancelled. -/
inductive CancellationReason where
  | shutdown
  | reconnect
  | ownerReplaced
  | superseded
  | user
  | timeout
  deriving DecidableEq

/-! ### The supervisor -/

/-- The delay after the first failure. -/
def initialBackoffMs : ℕ := 250

/-- The longest delay. -/
def maxBackoffMs : ℕ := 30000

/-- How far back failures count. -/
def failureWindowMs : ℕ := 60000

/-- How long an owner must run for its failures to be forgotten. -/
def stableResetMs : ℕ := 300000

/-- How many failures in the window quarantine the owner. -/
def quarantineFailures : ℕ := 5

/-- Addition of `u64` that stops at the largest. -/
def saturatingAdd (a b : ℕ) : ℕ := min (a + b) (2 ^ 64 - 1)

/-- `INITIAL_BACKOFF_MS * 2^(attempt.saturating_sub(1).min(7))`, at most `MAX_BACKOFF_MS`. -/
def reconnectBackoffMs (attempt : ℕ) : ℕ :=
  min (initialBackoffMs * 2 ^ min (attempt - 1) 7) maxBackoffMs

example : reconnectBackoffMs 0 = 250 ∧ reconnectBackoffMs 7 = 16000 ∧
    reconnectBackoffMs 8 = 30000 := by
  decide

/-- The state of supervision. -/
inductive SupervisorState where
  | starting
  | running
  /-- Waiting to try again, at `retryAtMs`. -/
  | backoff (attempt : ℕ) (retryAtMs : ℕ)
  | quarantined
  | stopping
  | stopped
  deriving DecidableEq

/-- The lifecycle after a failure that leaves supervision in `state`. -/
def failedLifecycle (state : SupervisorState) (hadPriorReadiness : Bool) : DomainLifecycle :=
  if state = .quarantined then .unavailable
  else if hadPriorReadiness then .reconnecting
  else .unavailable

/-- Supervision in a `Backoff`. -/
def SupervisorState.isBackoff : SupervisorState → Bool
  | .backoff _ _ => true
  | _ => false

/-- The rolling failure window and the supervision state. -/
structure DomainSupervisor where
  /-- The state. -/
  state : SupervisorState
  /-- The failures that count, oldest first. -/
  failureTimestampsMs : List ℕ
  /-- When the owner last became ready, while it has not failed since. -/
  lastRunningTimestampMs : Option ℕ
  deriving DecidableEq

namespace DomainSupervisor

/-- A supervisor that has seen nothing. -/
def new : DomainSupervisor := ⟨.starting, [], none⟩

/-- The owner is ready. -/
def markRunning (s : DomainSupervisor) (nowMs : ℕ) : DomainSupervisor :=
  { s with state := .running, lastRunningTimestampMs := some nowMs }

/-- A new attempt starts; the failures so far are kept. -/
def markStarting (s : DomainSupervisor) : DomainSupervisor := { s with state := .starting }

/-- The owner failed. The source returns the new `state` as well. -/
def recordFailure (s : DomainSupervisor) (nowMs : ℕ) : DomainSupervisor :=
  let failures := s.failureTimestampsMs.filter (fun ts => nowMs - ts ≤ failureWindowMs) ++ [nowMs]
  let state :=
    if quarantineFailures ≤ failures.length then .quarantined
    else .backoff failures.length (saturatingAdd nowMs (reconnectBackoffMs failures.length))
  ⟨state, failures, none⟩

/-- Time passes: a backoff may end, and a long run clears the failures. -/
def tick (s : DomainSupervisor) (nowMs : ℕ) : DomainSupervisor :=
  match s.state with
  | .backoff _ retryAtMs => if retryAtMs ≤ nowMs then { s with state := .starting } else s
  | .running =>
    match s.lastRunningTimestampMs with
    | some startTs =>
      if stableResetMs ≤ nowMs - startTs then { s with failureTimestampsMs := [] } else s
    | none => s
  | _ => s

/-- Leave quarantine; the flag says whether there was one. -/
def resetQuarantine (s : DomainSupervisor) : DomainSupervisor × Bool :=
  if s.state = .quarantined then (⟨.starting, [], none⟩, true) else (s, false)

/-- The owner is being stopped. -/
def enterStopping (s : DomainSupervisor) : DomainSupervisor :=
  { s with state := .stopping, lastRunningTimestampMs := none }

/-- The owner has stopped for good. -/
def enterStopped (s : DomainSupervisor) : DomainSupervisor :=
  { s with state := .stopped, lastRunningTimestampMs := none }

end DomainSupervisor

/-- A backoff ends in this tick: the supervisor goes from `Backoff` to `Starting`. -/
def DomainSupervisor.restarts (s : DomainSupervisor) (nowMs : ℕ) : Bool :=
  s.state.isBackoff && decide ((s.tick nowMs).state = .starting)

end Shilpo.Domain
