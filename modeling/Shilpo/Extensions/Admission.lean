import Shilpo.Extensions.CircuitBreaker
import Shilpo.Theory.Runs

/-!
# What the circuit breaker lets through

The circuit of an extension over a whole run of calls about any extensions, the clock
not going back. `consecutiveTrips` counts the trips of an extension from the history
of the run; the state keeps the same count (`trips_eq`), so that the waiting time of
each trip is the one the policy has for it. An open circuit stays open until its time,
a probe out stays the only one until it is heard of, and an extension given up stays
so (`admission`).
-/

namespace Shilpo.Extensions

open Theory

/-- The clock does not go back. -/
def MonotonicClock (calls : List BreakerCall) : Prop :=
  (calls.map BreakerCall.now).Pairwise (· ≤ ·)

instance (calls : List BreakerCall) : Decidable (MonotonicClock calls) :=
  inferInstanceAs (Decidable (List.Pairwise _ _))

/-- The call makes the breaker forget the trips of `id`: its reset or removal, or that of all. -/
def BreakerCall.forgets (call : BreakerCall) (id : ExtensionId) : Bool :=
  match call.op with
  | .reset id' | .remove id' => id' = id
  | .clear => true
  | _ => false

/-- The call records or releases a permit of `id`. -/
def BreakerCall.settles (call : BreakerCall) (id : ExtensionId) : Bool :=
  match call.op with
  | .recordSuccess id' | .recordFailure id' | .releaseProbe id' => id' = id
  | _ => false

namespace CircuitState

/-- Closed, as an extension without a state is. -/
@[simp] def isClosed : Option CircuitState → Bool
  | none | some (.closed _) => true
  | _ => false

/-- Open. -/
@[simp] def isOpened : Option CircuitState → Bool
  | some (.opened _ _ _) => true
  | _ => false

/-- The trips since the circuit was closed, as its state has them. -/
@[simp] def trips : Option CircuitState → ℕ
  | none | some (.closed _) => 0
  | some (.opened tripCount _ _) | some (.halfOpen tripCount _ _)
  | some (.permanentlyDisabled tripCount) => tripCount

end CircuitState

namespace CircuitBreaker

/-- The breaker after the calls. -/
def after (policy : CircuitBreakerPolicy) (calls : List BreakerCall) : CircuitBreaker :=
  run step (new policy) calls

variable (policy : CircuitBreakerPolicy)

theorem after_append (calls calls' : List BreakerCall) :
    after policy (calls ++ calls') = run step (after policy calls) calls' :=
  run_append ..

theorem policy_run (b : CircuitBreaker) (calls : List BreakerCall) :
    (run step b calls).policy = b.policy := by
  induction calls generalizing b with
  | nil => rfl
  | cons call calls ih => rw [run_cons, ih, policy_step]

@[simp] theorem policy_after (calls : List BreakerCall) :
    (after policy calls).policy = policy :=
  policy_run ..

variable {b : CircuitBreaker}

/-- A state that none of the calls changes stays. -/
theorem state_run {id : ExtensionId} {s : CircuitState} (h : b.state id = some s)
    {calls : List BreakerCall}
    (hstay : ∀ call ∈ calls, CircuitState.next b.policy (some s) (call.about id) = some s) :
    (run step b calls).state id = some s := by
  induction calls generalizing b with
  | nil => exact h
  | cons call calls ih =>
    rw [List.forall_mem_cons] at hstay
    refine ih ?_ ?_
    · rw [state_step, h]
      exact hstay.1
    · rw [policy_step]
      exact hstay.2

/-! ### Counting trips -/

/-- One call, and the count of the trips of `id`: none while its circuit is closed, and one more
when it opens. -/
def countTrips (id : ExtensionId) (p : CircuitBreaker × ℕ) (call : BreakerCall) :
    CircuitBreaker × ℕ :=
  (p.1.step call,
    if CircuitState.isClosed ((p.1.step call).state id) then 0
    else if CircuitState.isOpened ((p.1.step call).state id) &&
      !CircuitState.isOpened (p.1.state id) then p.2 + 1
    else p.2)

/-- How many times in a row the circuit of `id` has tripped, since it was last closed, reset or
removed. -/
def consecutiveTrips (policy : CircuitBreakerPolicy) (id : ExtensionId)
    (calls : List BreakerCall) : ℕ :=
  (run (countTrips id) (new policy, 0) calls).2

/-- The count goes on with the state. -/
theorem trips_next (s : Option CircuitState) (e : CircuitEvent) :
    CircuitState.trips (CircuitState.next policy s e) =
      if CircuitState.isClosed (CircuitState.next policy s e) then 0
      else if CircuitState.isOpened (CircuitState.next policy s e) && !CircuitState.isOpened s then
        CircuitState.trips s + 1
      else CircuitState.trips s := by
  cases e with
  | acquire now =>
    rcases s with _ | _ | ⟨tripCount, retryAt, retryDelay⟩ | _ | _
    case some.opened =>
      by_cases h : retryAt ≤ now <;>
        simp [CircuitState.next, CircuitState.lapse, CircuitState.letThrough, h]
    all_goals simp [CircuitState.next, CircuitState.lapse, CircuitState.letThrough]
  | lapse now =>
    rcases s with _ | _ | ⟨tripCount, retryAt, retryDelay⟩ | _ | _
    case some.opened =>
      by_cases h : retryAt ≤ now <;> simp [CircuitState.next, CircuitState.lapse, h]
    all_goals simp [CircuitState.next, CircuitState.lapse]
  | success =>
    rcases s with _ | _ | _ | ⟨tripCount, successes, inFlight⟩ | _
    case some.halfOpen =>
      by_cases h : policy.successThreshold ≤ successes + 1 <;>
        simp [CircuitState.next, CircuitState.succeed, h]
    all_goals simp [CircuitState.next, CircuitState.succeed]
  | failure now =>
    rcases s with _ | ⟨failures⟩ | _ | ⟨tripCount, successes, inFlight⟩ | _
    case none =>
      by_cases h : policy.failureThreshold ≤ 1 <;>
        simp [CircuitState.next, CircuitState.failFirst, CircuitState.trip, h]
    case some.closed =>
      by_cases h : policy.failureThreshold ≤ failures + 1 <;>
        simp [CircuitState.next, CircuitState.fail, CircuitState.trip, h]
    case some.halfOpen =>
      by_cases h : policy.maxTripCycles ≤ tripCount <;>
        simp [CircuitState.next, CircuitState.fail, CircuitState.trip, h]
    all_goals simp [CircuitState.next, CircuitState.fail]
  | release =>
    rcases s with _ | _ | _ | _ | _ <;> simp [CircuitState.next, CircuitState.release]
  | reset | forget => rfl
  | none => rcases s with _ | _ | _ | _ | _ <;> simp [CircuitState.next]

/-- **The state counts the trips.** -/
theorem trips_eq (id : ExtensionId) (calls : List BreakerCall) :
    CircuitState.trips ((after policy calls).state id) = consecutiveTrips policy id calls := by
  have hinv : Preserved (countTrips id) fun p => CircuitState.trips (p.1.state id) = p.2 := by
    intro p call hp
    simp only [countTrips, state_step]
    rw [trips_next, hp]
  have hfst : ∀ p : CircuitBreaker × ℕ, (run (countTrips id) p calls).1 = run step p.1 calls := by
    induction calls with
    | nil => exact fun _ => rfl
    | cons call calls ih => exact fun p => ih _
  have hrun := hinv.holds (s := (new policy, 0)) rfl calls
  rw [hfst] at hrun
  exact hrun

/-! ### How long a state lasts -/

variable {id : ExtensionId}

/-- An extension is called now, if it asks. -/
def Granted (b : CircuitBreaker) (now : ℕ) (id : ExtensionId) : Prop :=
  ∃ permit, (b.acquirePermit now id).2 = .ok permit

theorem granted_iff {now : ℕ} :
    b.Granted now id ↔ (((b.state id).getD (.closed 0)).lapse now).grants = true :=
  (b.acquirePermit_eq now id).2

variable {call : BreakerCall}

/-- An open circuit stays so until its time. -/
theorem next_opened {policy : CircuitBreakerPolicy} {tripCount retryAt retryDelay : ℕ}
    (hcall : call.forgets id = false) (hbefore : call.now < retryAt) :
    CircuitState.next policy (some (.opened tripCount retryAt retryDelay)) (call.about id) =
      some (.opened tripCount retryAt retryDelay) := by
  obtain ⟨now, op⟩ := call
  have hlapse : (CircuitState.opened tripCount retryAt retryDelay).lapse now =
      .opened tripCount retryAt retryDelay :=
    if_neg (not_le.mpr hbefore)
  cases op <;> simp only [BreakerCall.about] <;> (try split_ifs) <;>
    simp_all [BreakerCall.forgets, CircuitState.next, CircuitState.letThrough, CircuitState.succeed,
      CircuitState.fail, CircuitState.release]

/-- A circuit with a probe out stays so until that is heard of. -/
theorem next_probing {policy : CircuitBreakerPolicy} {tripCount successes : ℕ}
    (hcall : call.forgets id = false) (hsettle : call.settles id = false) :
    CircuitState.next policy (some (.halfOpen tripCount successes true)) (call.about id) =
      some (.halfOpen tripCount successes true) := by
  obtain ⟨now, op⟩ := call
  cases op <;> simp only [BreakerCall.about] <;> (try split_ifs) <;>
    simp_all [BreakerCall.forgets, BreakerCall.settles, CircuitState.next, CircuitState.lapse,
      CircuitState.letThrough]

/-- An extension given up stays so. -/
theorem next_permanentlyDisabled {policy : CircuitBreakerPolicy} {tripCount : ℕ}
    (hcall : call.forgets id = false) :
    CircuitState.next policy (some (.permanentlyDisabled tripCount)) (call.about id) =
      some (.permanentlyDisabled tripCount) := by
  obtain ⟨now, op⟩ := call
  cases op <;> simp only [BreakerCall.about] <;> (try split_ifs) <;>
    simp_all [BreakerCall.forgets, CircuitState.next, CircuitState.lapse, CircuitState.letThrough,
      CircuitState.succeed, CircuitState.fail, CircuitState.release]

/-! ### Main results -/

/-- The circuit of `id` trips, when a failure is recorded for it. -/
def Trips (b : CircuitBreaker) (now : ℕ) (id : ExtensionId) : Prop :=
  CircuitState.isOpened (b.state id) = false ∧
    CircuitState.isOpened ((b.recordFailure now id).1.state id) = true

/-- A circuit that trips waits for as long as the policy has it for the count of its trips. -/
theorem state_of_trips {now : ℕ} (h : b.Trips now id) :
    ∃ k, (b.recordFailure now id).1.state id =
      some (.opened k (now + b.policy.retryDelayForTrip k) (b.policy.retryDelayForTrip k)) := by
  obtain ⟨hbefore, hafter⟩ := h
  rw [state_recordFailure, if_pos rfl] at hafter ⊢
  simp only [CircuitState.next] at hafter ⊢
  generalize b.state id = s at hbefore hafter ⊢
  rcases s with _ | ⟨failures⟩ | _ | ⟨tripCount, successes, inFlight⟩ | _
  · simp only [Option.elim_none, CircuitState.failFirst] at hafter ⊢
    split_ifs at hafter ⊢
    · exact ⟨1, rfl⟩
    · cases hafter
  · simp only [Option.elim_some, CircuitState.fail] at hafter ⊢
    split_ifs at hafter ⊢
    · exact ⟨1, rfl⟩
    · cases hafter
  · cases hbefore
  · simp only [Option.elim_some, CircuitState.fail] at hafter ⊢
    split_ifs at hafter ⊢
    · cases hafter
    · exact ⟨tripCount + 1, rfl⟩
  · cases hafter

/-- **Admission.** In every run whose clock does not go back: after a trip, the `k`-th in a row,
the extension is not called for the delay that the policy has for `k`; after a probe has been let
through, no second is until one is recorded or released; and after a failure of the half-open
circuit at the last trip of the policy, the extension is not called again; in each case unless it
is reset or removed, or all are, in between. -/
theorem admission {policy : CircuitBreakerPolicy} {calls : List BreakerCall}
    (hclock : MonotonicClock calls) (id : ExtensionId) :
    (∀ pre t mid t' post,
      calls = pre ++ ⟨t, .recordFailure id⟩ :: (mid ++ ⟨t', .acquirePermit id⟩ :: post) →
      (after policy pre).Trips t id → (∀ call ∈ mid, call.forgets id = false) →
      (after policy (pre ++ ⟨t, .recordFailure id⟩ :: mid)).Granted t' id →
        t + policy.retryDelayForTrip
          (consecutiveTrips policy id (pre ++ [⟨t, .recordFailure id⟩])) ≤ t') ∧
    (∀ pre t mid t' post,
      calls = pre ++ ⟨t, .acquirePermit id⟩ :: (mid ++ ⟨t', .acquirePermit id⟩ :: post) →
      ((after policy pre).acquirePermit t id).2 = .ok ⟨some id⟩ →
      (∀ call ∈ mid, call.forgets id = false ∧ call.settles id = false) →
        ¬ (after policy (pre ++ ⟨t, .acquirePermit id⟩ :: mid)).Granted t' id) ∧
    ∀ pre t mid t' post,
      calls = pre ++ ⟨t, .recordFailure id⟩ :: (mid ++ ⟨t', .acquirePermit id⟩ :: post) →
      (∃ trips successes inFlight,
        (after policy pre).state id = some (.halfOpen trips successes inFlight)) →
      consecutiveTrips policy id pre = max 1 policy.maxTripCycles →
      (∀ call ∈ mid, call.forgets id = false) →
        ¬ (after policy (pre ++ ⟨t, .recordFailure id⟩ :: mid)).Granted t' id := by
  refine ⟨?_, ?_, ?_⟩
  · rintro pre t mid t' post rfl htrips hmid hgranted
    obtain ⟨k, hk⟩ := state_of_trips htrips
    rw [policy_after] at hk
    have hstate : (after policy (pre ++ [⟨t, .recordFailure id⟩])).state id =
        some (.opened k (t + policy.retryDelayForTrip k) (policy.retryDelayForTrip k)) := by
      rw [after_append]
      exact hk
    have hcount := trips_eq policy id (pre ++ [⟨t, .recordFailure id⟩])
    rw [hstate, CircuitState.trips] at hcount
    rw [← hcount]
    by_contra hearly
    -- all the calls in between come before the time of the open circuit
    have hbefore : ∀ call ∈ mid, call.now < t + policy.retryDelayForTrip k := by
      intro call hcall
      simp only [MonotonicClock, List.map_append, List.map_cons, List.pairwise_append,
        List.pairwise_cons] at hclock
      have hle := hclock.2.1.2.2.2 call.now (List.mem_map_of_mem hcall) t' (by simp)
      omega
    rw [List.append_cons, after_append, granted_iff,
      state_run hstate fun call hcall => by
        rw [policy_after]
        exact next_opened (hmid call hcall) (hbefore call hcall)] at hgranted
    simp [CircuitState.lapse, hearly, CircuitState.grants] at hgranted
  · rintro pre t mid t' post - hprobe hmid hgranted
    have hstate : ∃ trips successes, (after policy (pre ++ [⟨t, .acquirePermit id⟩])).state id =
        some (.halfOpen trips successes true) := by
      rw [after_append]
      generalize after policy pre = b at hprobe
      rw [run_cons, run_nil, step]
      dsimp only
      rw [(b.acquirePermit_eq t id).1, state_insert, if_pos rfl]
      unfold acquirePermit at hprobe
      generalize ((b.state id).getD (.closed 0)).lapse t = s at hprobe
      cases s with
      | halfOpen trips successes inFlight => exact ⟨trips, successes, rfl⟩
      | closed _ => simp at hprobe
      | opened _ _ _ => simp at hprobe
      | permanentlyDisabled _ => simp at hprobe
    obtain ⟨trips, successes, hstate⟩ := hstate
    rw [List.append_cons, after_append, granted_iff,
      state_run hstate fun call hcall => next_probing (hmid call hcall).1 (hmid call hcall).2]
      at hgranted
    simp [CircuitState.lapse, CircuitState.grants] at hgranted
  · rintro pre t mid t' post - ⟨trips, successes, inFlight, hhalf⟩ hlast hmid hgranted
    have hcount := trips_eq policy id pre
    rw [hhalf, CircuitState.trips, hlast] at hcount
    have hstate : (after policy (pre ++ [⟨t, .recordFailure id⟩])).state id =
        some (.permanentlyDisabled trips) := by
      rw [after_append, run_cons, run_nil, step]
      dsimp only
      rw [state_recordFailure, if_pos rfl, hhalf, policy_after]
      have hmore : policy.maxTripCycles ≤ trips := by omega
      simp [CircuitState.next, CircuitState.fail, hmore]
    rw [List.append_cons, after_append, granted_iff,
      state_run hstate fun call hcall => next_permanentlyDisabled (hmid call hcall)] at hgranted
    simp [CircuitState.lapse, CircuitState.grants] at hgranted

/-- An extension. -/
def weather : ExtensionId := ⟨"io.github.test.weather"⟩

/-- It fails three times, which trips its circuit. -/
def threeFailures : List BreakerCall :=
  [⟨0, .recordFailure weather⟩, ⟨0, .recordFailure weather⟩, ⟨0, .recordFailure weather⟩]

/-- A second later it is not called. -/
theorem admission_weather : ¬ (after .default threeFailures).Granted second weather := by
  have hclock : MonotonicClock (threeFailures ++ [⟨second, .acquirePermit weather⟩]) := by decide
  intro hgranted
  have hwait := (@admission .default _ hclock weather).1 (threeFailures.take 2) 0 [] second
    [] rfl ⟨rfl, rfl⟩ (by simp) hgranted
  revert hwait
  decide

/-- Reset by hand, it is called at once, though its first trip was to last half a minute. -/
theorem granted_after_reset :
    (after .default (threeFailures.take 2)).Trips 0 weather ∧
      consecutiveTrips .default weather threeFailures = 1 ∧
      (after .default (threeFailures ++ [⟨1, .reset weather⟩])).Granted 2 weather ∧
      2 < 0 + CircuitBreakerPolicy.default.retryDelayForTrip 1 :=
  ⟨⟨rfl, rfl⟩, rfl, ⟨⟨none⟩, rfl⟩, by decide⟩

end CircuitBreaker

end Shilpo.Extensions
