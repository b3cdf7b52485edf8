import Mathlib

/-!
# The circuit breaker of the extension runtime

`desktop/ext-runtime/src/circuit_breaker.rs`: after a number of failures in a row an
extension is not called for a while; then one call at a time is let through as a
probe, until enough have succeeded or one fails; and after a number of such cycles it
is not called any more.

Durations and the readings of the monotonic clock are natural numbers of nanoseconds,
counters are natural numbers; a counter of a run stays below `2 ^ 32` for as long as a
run lasts. A `HashMap` is a list of entries with distinct keys, whose order nothing
looks at. Diagnostics, and the flag that says that the visible state has changed, are
left out: no decision of the breaker reads them.
-/

namespace Shilpo.Extensions

/-- The name of an extension. -/
structure ExtensionId where
  text : String
  deriving DecidableEq

/-! ### Policy -/

/-- When to trip, how long to wait and when to give up. -/
structure CircuitBreakerPolicy where
  failureThreshold : ℕ
  successThreshold : ℕ
  retryDelays : List ℕ
  maxTripCycles : ℕ

/-- A second. -/
def second : ℕ := 1000000000

/-- The source's default. -/
def CircuitBreakerPolicy.default : CircuitBreakerPolicy :=
  ⟨3, 3, [30 * second, 60 * second, 120 * second, 300 * second], 4⟩

/-- How long to wait after the trip with this number: the last delay serves for all later ones. -/
def CircuitBreakerPolicy.retryDelayForTrip (policy : CircuitBreakerPolicy) (tripCount : ℕ) : ℕ :=
  match policy.retryDelays.getLast? with
  | none => 30 * second
  | some last => policy.retryDelays.getD (tripCount - 1) last

/-! ### States and notices -/

/-- The state of one extension's circuit. -/
inductive CircuitState where
  | closed (consecutiveFailures : ℕ)
  | opened (tripCount retryAt retryDelay : ℕ)
  | halfOpen (tripCount consecutiveSuccesses : ℕ) (probeInFlight : Bool)
  | permanentlyDisabled (tripCount : ℕ)
  deriving DecidableEq

/-- What a failure can do to a circuit. -/
inductive TransitionOutcome where
  | opened (tripCount retryDelay : ℕ)
  | permanentlyDisabled (tripCount : ℕ)

/-- What the user is told. -/
inductive CircuitNoticeKind where
  | opened (tripCount retryAfterMs : ℕ)
  | recovered (tripCount : ℕ)
  | permanentlyDisabled (tripCount : ℕ)
  deriving DecidableEq

/-- A notice about an extension. -/
structure CircuitNotice where
  extensionId : ExtensionId
  kind : CircuitNoticeKind
  message : String
  deriving DecidableEq

/-- Leave to call an extension; a probe's permit names it. -/
structure ProbePermit where
  extensionId : Option ExtensionId
  deriving DecidableEq

/-- Why an extension is not called. -/
inductive HostError where
  | disabled (id : ExtensionId)
  deriving DecidableEq

namespace CircuitState

/-- An open circuit becomes half open when its time has come. -/
def lapse (now : ℕ) : CircuitState → CircuitState
  | .opened tripCount retryAt retryDelay =>
    if retryAt ≤ now then .halfOpen tripCount 0 false else .opened tripCount retryAt retryDelay
  | state => state

/-- An open circuit whose time has come. -/
def isDue (now : ℕ) : CircuitState → Bool
  | .opened _ retryAt _ => retryAt ≤ now
  | _ => false

/-- No probe is out any more. -/
def release : CircuitState → CircuitState
  | .halfOpen tripCount consecutiveSuccesses _ => .halfOpen tripCount consecutiveSuccesses false
  | state => state

/-- A call has succeeded; the trips, if the circuit closes again. -/
def succeed (policy : CircuitBreakerPolicy) : CircuitState → CircuitState × Option ℕ
  | .closed _ => (.closed 0, none)
  | .halfOpen tripCount consecutiveSuccesses _ =>
    if policy.successThreshold ≤ consecutiveSuccesses + 1 then (.closed 0, some tripCount)
    else (.halfOpen tripCount (consecutiveSuccesses + 1) false, none)
  | state => (state, none)

/-- The circuit trips for the `tripCount`-th time in a row. -/
def trip (policy : CircuitBreakerPolicy) (now tripCount : ℕ) :
    CircuitState × Option TransitionOutcome :=
  (.opened tripCount (now + policy.retryDelayForTrip tripCount)
      (policy.retryDelayForTrip tripCount),
    some (.opened tripCount (policy.retryDelayForTrip tripCount)))

/-- A call has failed. -/
def fail (policy : CircuitBreakerPolicy) (now : ℕ) :
    CircuitState → CircuitState × Option TransitionOutcome
  | .closed consecutiveFailures =>
    if policy.failureThreshold ≤ consecutiveFailures + 1 then trip policy now 1
    else (.closed (consecutiveFailures + 1), none)
  | .halfOpen tripCount _ _ =>
    if policy.maxTripCycles < tripCount + 1 then
      (.permanentlyDisabled tripCount, some (.permanentlyDisabled tripCount))
    else trip policy now (tripCount + 1)
  | state => (state, none)

/-- A call has failed for an extension without a state. -/
def failFirst (policy : CircuitBreakerPolicy) (now : ℕ) : CircuitState × Option TransitionOutcome :=
  if policy.failureThreshold ≤ 1 then trip policy now 1 else (.closed 1, none)

end CircuitState

/-! ### The breaker -/

/-- How many notices wait at most. -/
def maxPendingNotices : ℕ := 256

/-- The breaker of all extensions. -/
structure CircuitBreaker where
  policy : CircuitBreakerPolicy
  states : AList fun _ : ExtensionId => CircuitState
  pendingNotices : List CircuitNotice

namespace CircuitBreaker

/-- A breaker that has seen nothing. -/
def new (policy : CircuitBreakerPolicy) : CircuitBreaker := ⟨policy, ∅, []⟩

/-- The state of an extension, if it has one. -/
def state (b : CircuitBreaker) (id : ExtensionId) : Option CircuitState := b.states.lookup id

/-- Give an extension a state. -/
def insert (b : CircuitBreaker) (id : ExtensionId) (state : CircuitState) : CircuitBreaker :=
  { b with states := b.states.insert id state }

/-- Queue a notice; when there are too many, the oldest is dropped. -/
def pushNotice (b : CircuitBreaker) (notice : CircuitNotice) : CircuitBreaker :=
  { b with
    pendingNotices :=
      (if b.pendingNotices.length = maxPendingNotices then b.pendingNotices.tail
        else b.pendingNotices) ++ [notice] }

/-- May the extension be called? -/
def acquirePermit (b : CircuitBreaker) (now : ℕ) (id : ExtensionId) :
    CircuitBreaker × Except HostError ProbePermit :=
  match ((b.state id).getD (.closed 0)).lapse now with
  | .closed consecutiveFailures => (b.insert id (.closed consecutiveFailures), .ok ⟨none⟩)
  | .halfOpen tripCount consecutiveSuccesses probeInFlight =>
    if probeInFlight then
      (b.insert id (.halfOpen tripCount consecutiveSuccesses true), .error (.disabled id))
    else (b.insert id (.halfOpen tripCount consecutiveSuccesses true), .ok ⟨some id⟩)
  | state => (b.insert id state, .error (.disabled id))

/-- A probe will not be heard of. -/
def releaseProbe (b : CircuitBreaker) (id : ExtensionId) : CircuitBreaker :=
  match b.state id with
  | some state => b.insert id state.release
  | none => b

/-- The notice that a circuit has closed again. -/
def recoveredNotice (id : ExtensionId) (trips : ℕ) : CircuitNotice :=
  ⟨id, .recovered trips, s!"Extension '{id.text}' recovered after {trips} trip cycle(s)"⟩

/-- A call of the extension has succeeded. -/
def recordSuccess (b : CircuitBreaker) (id : ExtensionId) : CircuitBreaker :=
  match b.state id with
  | some state =>
    match state.succeed b.policy with
    | (state', some trips) => (b.insert id state').pushNotice (recoveredNotice id trips)
    | (state', none) => b.insert id state'
  | none => b.insert id (.closed 0)

/-- The notice of what a failure did. -/
def failureNotice (policy : CircuitBreakerPolicy) (id : ExtensionId) :
    TransitionOutcome → CircuitNotice
  | .opened trips retryDelay =>
    ⟨id, .opened trips (retryDelay / 1000000 % 2 ^ 64),
      s!"Extension '{id.text}' temporarily disabled (trip {trips})"⟩
  | .permanentlyDisabled trips =>
    ⟨id, .permanentlyDisabled trips,
      s!"Extension '{id.text}' permanently disabled for session after " ++
        s!"{policy.maxTripCycles} failed trip cycles"⟩

/-- A call of the extension has failed. The flag says whether that did something to its circuit. -/
def recordFailure (b : CircuitBreaker) (now : ℕ) (id : ExtensionId) : CircuitBreaker × Bool :=
  match (b.state id).elim (CircuitState.failFirst b.policy now) (·.fail b.policy now) with
  | (state, some outcome) =>
    ((b.insert id state).pushNotice (failureNotice b.policy id outcome), true)
  | (state, none) => (b.insert id state, false)

/-- Time passes: open circuits become half open. The flag says whether one did. -/
def advanceTime (b : CircuitBreaker) (now : ℕ) : CircuitBreaker × Bool :=
  ({ b with
      states :=
        ⟨b.states.entries.map (.map id fun _ => (·.lapse now)), b.states.nodupKeys.map₂ _ _⟩ },
    b.states.entries.any fun e => e.2.isDue now)

/-- Close the circuit by hand. -/
def reset (b : CircuitBreaker) (id : ExtensionId) : CircuitBreaker :=
  { b.insert id (.closed 0) with
    pendingNotices := b.pendingNotices.filter fun notice => notice.extensionId ≠ id }

/-- Forget an extension. -/
def remove (b : CircuitBreaker) (id : ExtensionId) : CircuitBreaker :=
  { b with
    states := b.states.erase id
    pendingNotices := b.pendingNotices.filter fun notice => notice.extensionId ≠ id }

/-- Forget all extensions. -/
def clear (b : CircuitBreaker) : CircuitBreaker := { b with states := ∅, pendingNotices := [] }

/-- Take the waiting notices. -/
def takePendingNotices (b : CircuitBreaker) : CircuitBreaker × List CircuitNotice :=
  ({ b with pendingNotices := [] }, b.pendingNotices)

/-! ### Calls -/

end CircuitBreaker

/-- A call of the breaker's API. -/
inductive BreakerOp where
  | acquirePermit (id : ExtensionId)
  | recordSuccess (id : ExtensionId)
  | recordFailure (id : ExtensionId)
  | releaseProbe (id : ExtensionId)
  /-- `advance_time`, with the time it is given, or `advance_clock`, with that of the clock. -/
  | advanceTime
  | reset (id : ExtensionId)
  | remove (id : ExtensionId)
  | clear
  | takePendingNotices
  deriving DecidableEq

/-- A call, and what the clock says. -/
structure BreakerCall where
  now : ℕ
  op : BreakerOp
  deriving DecidableEq

namespace CircuitBreaker

/-- What a call leaves. -/
def step (b : CircuitBreaker) (call : BreakerCall) : CircuitBreaker :=
  match call.op with
  | .acquirePermit id => (b.acquirePermit call.now id).1
  | .recordSuccess id => b.recordSuccess id
  | .recordFailure id => (b.recordFailure call.now id).1
  | .releaseProbe id => b.releaseProbe id
  | .advanceTime => (b.advanceTime call.now).1
  | .reset id => b.reset id
  | .remove id => b.remove id
  | .clear => b.clear
  | .takePendingNotices => b.takePendingNotices.1

@[simp] theorem policy_step (b : CircuitBreaker) (call : BreakerCall) :
    (b.step call).policy = b.policy := by
  unfold step
  split
  · unfold acquirePermit
    split <;> try rfl
    split <;> rfl
  · unfold recordSuccess
    split
    · split <;> rfl
    · rfl
  · unfold recordFailure
    split <;> rfl
  · unfold releaseProbe
    split <;> rfl
  all_goals rfl

end CircuitBreaker

/-! ### One extension -/

/-- What a call is to one extension. -/
inductive CircuitEvent where
  | acquire (now : ℕ)
  | success
  | failure (now : ℕ)
  | release
  | lapse (now : ℕ)
  | reset
  | forget
  /-- It is not about this one. -/
  | none

/-- What the call is to the extension `id`. -/
def BreakerCall.about (call : BreakerCall) (id : ExtensionId) : CircuitEvent :=
  match call.op with
  | .acquirePermit id' => if id' = id then .acquire call.now else .none
  | .recordSuccess id' => if id' = id then .success else .none
  | .recordFailure id' => if id' = id then .failure call.now else .none
  | .releaseProbe id' => if id' = id then .release else .none
  | .advanceTime => .lapse call.now
  | .reset id' => if id' = id then .reset else .none
  | .remove id' => if id' = id then .forget else .none
  | .clear => .forget
  | .takePendingNotices => .none

namespace CircuitState

/-- The circuit lets a call through. -/
def grants : CircuitState → Bool
  | .closed _ | .halfOpen _ _ false => true
  | _ => false

/-- A call let through a half-open circuit is its probe. -/
def letThrough : CircuitState → CircuitState
  | .halfOpen tripCount consecutiveSuccesses _ => .halfOpen tripCount consecutiveSuccesses true
  | state => state

/-- What an event does to a circuit. -/
def next (policy : CircuitBreakerPolicy) (state : Option CircuitState) :
    CircuitEvent → Option CircuitState
  | .acquire now => some ((state.getD (.closed 0)).lapse now).letThrough
  | .success => some (state.elim (.closed 0) fun s => (s.succeed policy).1)
  | .failure now => some (state.elim (failFirst policy now) (·.fail policy now)).1
  | .release => state.map release
  | .lapse now => state.map (·.lapse now)
  | .reset => some (.closed 0)
  | .forget => .none
  | .none => state

end CircuitState

namespace CircuitBreaker

variable (b : CircuitBreaker)

theorem state_insert (id id' : ExtensionId) (s : CircuitState) :
    (b.insert id' s).state id = if id' = id then some s else b.state id := by
  unfold insert state
  split_ifs with h
  · rw [h, AList.lookup_insert]
  · rw [AList.lookup_insert_ne (Ne.symm h)]

@[simp] theorem state_pushNotice (id : ExtensionId) (n : CircuitNotice) :
    (b.pushNotice n).state id = b.state id :=
  rfl

/-- A permit is granted if the circuit, half open if it is due, grants one. -/
theorem acquirePermit_eq (now : ℕ) (id : ExtensionId) :
    (b.acquirePermit now id).1 =
        b.insert id (((b.state id).getD (.closed 0)).lapse now).letThrough ∧
      ((∃ permit, (b.acquirePermit now id).2 = .ok permit) ↔
        (((b.state id).getD (.closed 0)).lapse now).grants = true) := by
  unfold acquirePermit
  generalize ((b.state id).getD (.closed 0)).lapse now = s
  cases s with
  | halfOpen tripCount successes inFlight =>
    cases inFlight <;> simp [CircuitState.letThrough, CircuitState.grants]
  | closed | opened | permanentlyDisabled => simp [CircuitState.letThrough, CircuitState.grants]

theorem state_acquirePermit (now : ℕ) (id id' : ExtensionId) :
    (b.acquirePermit now id').1.state id =
      if id' = id then CircuitState.next b.policy (b.state id) (.acquire now) else b.state id := by
  rw [(b.acquirePermit_eq now id').1, state_insert]
  split_ifs with h
  · rw [h]; rfl
  · rfl

theorem state_recordSuccess (id id' : ExtensionId) :
    (b.recordSuccess id').state id =
      if id' = id then CircuitState.next b.policy (b.state id) .success else b.state id := by
  unfold recordSuccess
  cases hs : b.state id' with
  | none =>
    simp only [state_insert]
    split_ifs with h
    · subst h; simp [CircuitState.next, hs]
    · rfl
  | some s =>
    dsimp only
    split <;> rename_i he <;> simp only [state_pushNotice, state_insert] <;> split_ifs with h
    · subst h; simp [CircuitState.next, hs, he]
    · rfl
    · subst h; simp [CircuitState.next, hs, he]
    · rfl

theorem state_recordFailure (now : ℕ) (id id' : ExtensionId) :
    (b.recordFailure now id').1.state id =
      if id' = id then CircuitState.next b.policy (b.state id) (.failure now) else b.state id := by
  unfold recordFailure
  split <;> rename_i he <;> simp only [state_pushNotice, state_insert] <;> split_ifs with h
  · subst h; simp [CircuitState.next, he]
  · rfl
  · subst h; simp [CircuitState.next, he]
  · rfl

theorem state_releaseProbe (id id' : ExtensionId) :
    (b.releaseProbe id').state id =
      if id' = id then CircuitState.next b.policy (b.state id) .release else b.state id := by
  unfold releaseProbe
  cases hs : b.state id' with
  | none =>
    split_ifs with h
    · subst h; simp [CircuitState.next, hs]
    · rfl
  | some s =>
    simp only [state_insert]
    split_ifs with h
    · subst h; simp [CircuitState.next, hs]
    · rfl

theorem state_advanceTime (now : ℕ) (id : ExtensionId) :
    (b.advanceTime now).1.state id = (b.state id).map (·.lapse now) :=
  List.dlookup_map₂ id

theorem state_remove (id id' : ExtensionId) :
    (b.remove id').state id = if id' = id then none else b.state id := by
  unfold remove state
  split_ifs with h
  · rw [h, AList.lookup_erase]
  · rw [AList.lookup_erase_ne (Ne.symm h)]

/-- **Circuits do not touch each other.** A call does to an extension's circuit what it is to it. -/
theorem state_step (call : BreakerCall) (id : ExtensionId) :
    (b.step call).state id = CircuitState.next b.policy (b.state id) (call.about id) := by
  obtain ⟨now, op⟩ := call
  unfold step BreakerCall.about
  cases op with
  | acquirePermit id' => dsimp only; rw [state_acquirePermit]; split_ifs <;> rfl
  | recordSuccess id' => dsimp only; rw [state_recordSuccess]; split_ifs <;> rfl
  | recordFailure id' => dsimp only; rw [state_recordFailure]; split_ifs <;> rfl
  | releaseProbe id' => dsimp only; rw [state_releaseProbe]; split_ifs <;> rfl
  | advanceTime => exact b.state_advanceTime now id
  | reset id' => exact (b.state_insert id id' (.closed 0)).trans (by dsimp only; split_ifs <;> rfl)
  | remove id' => dsimp only; rw [state_remove]; split_ifs <;> rfl
  | clear => rfl
  | takePendingNotices => rfl

end CircuitBreaker

end Shilpo.Extensions
