import Shilpo.Extensions.Admission
import Shilpo.Extensions.Host

/-!
# Permits are settled

Each call of an extension takes a permit of the circuit breaker, and on each of its ways out
records how it went or releases the permit (`Entered`). So between the calls of the host no
probe is out, whatever the runtime answers, and a half-open extension is let through at its
next call (`permits_settled`). It is given up only when a failure is recorded for it in the
last trip cycle that the policy allows. The failed call need not be its probe: the
coordinator's timeouts count, and so do failures to load, replace or unload it.
-/

namespace Shilpo.Extensions

open Theory

namespace CircuitState

/-- A probe is out. -/
def inFlight : Option CircuitState → Bool
  | some (.halfOpen _ _ true) => true
  | _ => false

/-- Given up. -/
def isGivenUp : Option CircuitState → Bool
  | some (.permanentlyDisabled _) => true
  | _ => false

/-- Half open in the last trip cycle that the policy allows. -/
def isLastChance (policy : CircuitBreakerPolicy) : Option CircuitState → Bool
  | some (.halfOpen tripCount _ _) => policy.maxTripCycles < tripCount + 1
  | _ => false

variable {policy : CircuitBreakerPolicy} {s : Option CircuitState} {now : ℕ}

/-- What is recorded or released is not out. -/
theorem inFlight_next_success : inFlight (next policy s .success) = false := by
  rcases s with _ | _ | _ | ⟨tripCount, successes, out⟩ | _
  case some.halfOpen =>
    simp only [next, Option.elim_some, succeed]
    split_ifs <;> rfl
  all_goals rfl

theorem inFlight_next_failure : inFlight (next policy s (.failure now)) = false := by
  rcases s with _ | ⟨failures⟩ | _ | ⟨tripCount, successes, out⟩ | _
  case none =>
    simp only [next, Option.elim_none, failFirst]
    split_ifs <;> rfl
  case some.closed =>
    simp only [next, Option.elim_some, CircuitState.fail]
    split_ifs <;> rfl
  case some.halfOpen =>
    simp only [next, Option.elim_some, CircuitState.fail]
    split_ifs <;> rfl
  all_goals rfl

theorem inFlight_next_release : inFlight (next policy s .release) = false := by
  rcases s with _ | _ | _ | _ | _ <;> rfl

/-- Without a permit being asked for, no probe gets out. -/
theorem inFlight_next {e : CircuitEvent} (he : ∀ now, e ≠ .acquire now)
    (h : inFlight s = false) : inFlight (next policy s e) = false := by
  cases e with
  | acquire now => exact absurd rfl (he now)
  | success => exact inFlight_next_success
  | failure now => exact inFlight_next_failure
  | release => exact inFlight_next_release
  | lapse now =>
    rcases s with _ | _ | ⟨tripCount, retryAt, retryDelay⟩ | _ | _
    case some.opened =>
      simp only [next, Option.map_some, lapse]
      split_ifs <;> rfl
    all_goals exact h
  | reset => rfl
  | forget => rfl
  | none => exact h

/-- Once a circuit has been asked, a probe is out only if one was before or is let through. -/
theorem inFlight_next_acquire (h : inFlight s = false)
    (hgrants : ((s.getD (.closed 0)).lapse now).grants = false) :
    inFlight (next policy s (.acquire now)) = false := by
  rcases s with _ | _ | ⟨tripCount, retryAt, retryDelay⟩ | ⟨tripCount, successes, out⟩ | _
  case some.opened =>
    simp only [next, Option.getD_some, lapse] at hgrants ⊢
    split_ifs at hgrants ⊢
    · cases hgrants
    · rfl
  case some.halfOpen =>
    cases out with
    | false => cases hgrants
    | true => cases h
  all_goals rfl

/-- Only a failure at the last chance makes an extension be given up. -/
theorem isGivenUp_next_failure (h : isGivenUp (next policy s (.failure now)) = true) :
    isGivenUp s = true ∨ isLastChance policy s = true := by
  rcases s with _ | ⟨failures⟩ | _ | ⟨tripCount, successes, out⟩ | _
  case none =>
    simp only [next, Option.elim_none, failFirst] at h
    split_ifs at h <;> cases h
  case some.closed =>
    simp only [next, Option.elim_some, CircuitState.fail] at h
    split_ifs at h <;> cases h
  case some.opened => exact .inl h
  case some.halfOpen =>
    simp only [next, Option.elim_some, CircuitState.fail] at h
    split_ifs at h with hlast
    · exact .inr (decide_eq_true hlast)
    · cases h
  case some.permanentlyDisabled => exact .inl rfl

/-- Without a failure, an extension is not given up. -/
theorem isGivenUp_next {e : CircuitEvent} (he : ∀ now, e ≠ .failure now)
    (h : isGivenUp (next policy s e) = true) : isGivenUp s = true := by
  cases e with
  | acquire now =>
    rcases s with _ | _ | ⟨tripCount, retryAt, retryDelay⟩ | _ | _
    case some.opened =>
      simp only [next, Option.getD_some, lapse] at h
      split_ifs at h <;> cases h
    all_goals exact h
  | success =>
    rcases s with _ | _ | _ | ⟨tripCount, successes, out⟩ | _
    case some.halfOpen =>
      simp only [next, Option.elim_some, succeed] at h
      split_ifs at h <;> cases h
    all_goals exact h
  | failure now => exact absurd rfl (he now)
  | release => rcases s with _ | _ | _ | _ | _ <;> exact h
  | lapse now =>
    rcases s with _ | _ | ⟨tripCount, retryAt, retryDelay⟩ | _ | _
    case some.opened =>
      simp only [next, Option.map_some, lapse] at h
      split_ifs at h <;> cases h
    all_goals exact h
  | reset => cases h
  | forget => cases h
  | none => exact h

/-- At its last chance after it has been asked, it was so before, open circuits being due. -/
theorem isLastChance_next_acquire
    (h : isLastChance policy (next policy s (.acquire now)) = true) :
    isLastChance policy (s.map (·.lapse now)) = true := by
  rcases s with _ | _ | ⟨tripCount, retryAt, retryDelay⟩ | _ | _
  case some.opened =>
    simp only [next, Option.getD_some, Option.map_some, lapse] at h ⊢
    split_ifs at h ⊢
    · exact h
    · cases h
  all_goals exact h

theorem isLastChance_map_lapse (h : isLastChance policy s = true) :
    isLastChance policy (s.map (·.lapse now)) = true := by
  rcases s with _ | _ | _ | _ | _ <;> first | exact h | cases h

/-- An extension that has not been given up and has no probe out is let through, at once or after
some time. -/
theorem grants_or_isGivenUp (h : inFlight s = false) :
    isGivenUp s = true ∨ ∃ t, ∀ now, t ≤ now → ((s.getD (.closed 0)).lapse now).grants = true := by
  rcases s with _ | _ | ⟨tripCount, retryAt, retryDelay⟩ | ⟨tripCount, successes, out⟩ | _
  case some.opened =>
    refine .inr ⟨retryAt, fun now hdue => ?_⟩
    simp only [Option.getD_some, lapse, if_pos hdue]
    rfl
  case some.halfOpen =>
    cases out with
    | false => exact .inr ⟨0, fun _ _ => rfl⟩
    | true => cases h
  case some.permanentlyDisabled => exact .inl rfl
  all_goals exact .inr ⟨0, fun _ _ => rfl⟩

end CircuitState

/-- The operation neither takes a permit nor settles one. -/
def BreakerOp.isManaging : BreakerOp → Bool
  | .advanceTime | .reset _ | .remove _ | .clear => true
  | _ => false

/-- What a managing operation is to an extension is neither a call nor a failure. -/
theorem BreakerCall.about_of_isManaging {call : BreakerCall} (h : call.op.isManaging = true)
    (id : ExtensionId) : ∀ now, call.about id ≠ .acquire now ∧ call.about id ≠ .failure now := by
  obtain ⟨now, op⟩ := call
  intro now'
  cases op with
  | reset id' | remove id' =>
    simp only [about]
    constructor <;> intro habout <;> split_ifs at habout
  | advanceTime | clear =>
    constructor <;> intro habout <;> cases habout
  | _ => cases h

/-! ### Answers -/

namespace HostAnswer

variable {T : Payloads}

/-- The error that a call answers. -/
def error? : HostAnswer T → Option ExtensionHost.Error
  | .done (.error err) | .dispatched (.error err) | .viewed (.error err) | .found (.error err) =>
    some err
  | _ => none

/-- The breaker has refused the call. -/
def refused (answer : HostAnswer T) : Bool :=
  match answer.error? with
  | some (.disabled _) => true
  | _ => false

/-- The runtime has failed, or the extension has done what it may not. -/
def failed : HostAnswer T → Bool
  | .done (.error (.runtime _)) | .dispatched (.error (.runtime _))
  | .viewed (.error (.runtime _)) | .viewed (.error (.view _)) | .found (.error (.runtime _)) =>
    true
  | .dispatched (.ok result) => !result.rejected.isEmpty
  | _ => false

end HostAnswer

namespace HostCall

variable {T : Payloads}

/-- The extension that a call is about, if it is about one. -/
def id : HostCall T → Option ExtensionId
  | .register _ manifest _ _ | .replace _ manifest _ _ => some manifest.id
  | .unregister _ id | .dispatchEvent _ id _ | .recordCoordinatorTimeout _ id
  | .resetExtension id => some id
  | .renderView _ canonical | .search _ canonical _ _ => some canonical.extensionId
  | .clear _ | .advanceClock _ => none

/-- The call takes a permit; what the clock says. -/
def entry? : HostCall T → Option ClockReadings
  | .dispatchEvent clock _ _ | .renderView clock _ | .search clock _ _ _ => some clock
  | _ => none

/-- The coordinator reports a timeout. -/
def isTimeout : HostCall T → Bool
  | .recordCoordinatorTimeout .. => true
  | _ => false

/-- What the clock says when a call starts; a call that does not look has nothing to do with it. -/
def now : HostCall T → ℕ
  | .register now _ _ _ | .replace now _ _ _ | .unregister now _
  | .recordCoordinatorTimeout now _ | .advanceClock now => now
  | .dispatchEvent clock _ _ | .renderView clock _ | .search clock _ _ _ => clock.asked
  | .resetExtension _ | .clear _ => 0

theorem now_of_entry? (call : HostCall T) {clock : ClockReadings} (h : call.entry? = some clock) :
    call.now = clock.asked := by
  cases call <;> cases h <;> rfl

end HostCall

/-! ### Ways out -/

namespace ExtensionHost

variable {T : Payloads} {ρ : Type} (env : HostEnv T) (machine : ExtensionRuntime T ρ)
  (host : ExtensionHost ρ)

/-- The breaker after it has been asked for a permit. -/
def asked (clock : ClockReadings) (id : ExtensionId) : CircuitBreaker :=
  (host.circuitBreaker.acquirePermit clock.asked id).1

/-- How a call that takes a permit can end: what it answers, and the host it leaves. -/
inductive Entered (clock : ClockReadings) (id : ExtensionId) :
    HostAnswer T → ExtensionHost ρ → Prop where
  | refused (answer : HostAnswer T) (hgranted : ¬ host.circuitBreaker.Granted clock.asked id)
    (hrefused : answer.refused = true) :
    Entered clock id answer { host with circuitBreaker := host.asked clock id }
  | released (answer : HostAnswer T) (hgranted : host.circuitBreaker.Granted clock.asked id)
    (hrefused : answer.refused = false) :
    Entered clock id answer
      { host with circuitBreaker := (host.asked clock id).releaseProbe id }
  | succeeded (answer : HostAnswer T) (runtime : ρ)
    (hgranted : host.circuitBreaker.Granted clock.asked id) (hrefused : answer.refused = false) :
    Entered clock id answer
      ⟨runtime, host.registrations, (host.asked clock id).recordSuccess id⟩
  | failed (answer : HostAnswer T) (runtime : ρ)
    (hgranted : host.circuitBreaker.Granted clock.asked id) (hrefused : answer.refused = false)
    (hfailed : answer.failed = true) :
    Entered clock id answer
      ⟨runtime, host.registrations, ((host.asked clock id).recordFailure clock.recorded id).1⟩

variable {id : ExtensionId}

/-- A call that takes a permit ends as its rest does for the host with the permit. -/
theorem entered_enter {α : Type} {clock : ClockReadings} {answer : Except Error α → HostAnswer T}
    {granted : Registration → ExtensionHost ρ → Except Error α × ExtensionHost ρ}
    (herror : ∀ err, (answer (.error err)).error? = some err)
    (h : ∀ registration, host.registrations.lookup id = some registration →
      host.circuitBreaker.Granted clock.asked id →
      Entered host clock id
        (answer (granted registration { host with circuitBreaker := host.asked clock id }).1)
        (granted registration { host with circuitBreaker := host.asked clock id }).2) :
    Entered host clock id (answer (host.enter clock id granted).1)
      (host.enter clock id granted).2 := by
  unfold asked CircuitBreaker.Granted at h
  unfold enter
  cases hpermit : host.circuitBreaker.acquirePermit clock.asked id with
  | mk circuitBreaker permit =>
    have hasked : circuitBreaker = host.asked clock id := by rw [asked, hpermit]
    rw [hpermit] at h
    cases permit with
    | ok permit =>
      have hgranted : host.circuitBreaker.Granted clock.asked id := ⟨permit, by rw [hpermit]⟩
      cases hregistration : host.registrations.lookup id with
      | none =>
        dsimp only
        rw [hasked]
        exact .released _ hgranted (by rw [HostAnswer.refused, herror])
      | some registration => exact h registration hregistration ⟨permit, rfl⟩
    | error err =>
      have hnot : ¬ host.circuitBreaker.Granted clock.asked id := by
        rintro ⟨permit, hok⟩
        rw [hpermit] at hok
        cases hok
      dsimp only
      rw [hasked]
      refine .refused _ hnot ?_
      rw [HostAnswer.refused, herror]
      cases err with
      | disabled id' => rfl

variable {clock : ClockReadings}

omit env machine host in
theorem refused_of_checkInput {registration : Registration} {event : ExtensionEvent} {err : Error}
    (h : checkInput id registration event = .error err) :
    (HostAnswer.dispatched (T := T) (.error err)).refused = false := by
  unfold checkInput at h
  split at h
  · split at h
    · cases h
      rfl
    · split at h
      · cases h
      · cases h
        rfl
  · cases h

theorem entered_dispatchEvent {event : ExtensionEvent} :
    Entered host clock id
      (.dispatched (T := T) (host.dispatchEvent env machine clock id event).1)
      (host.dispatchEvent env machine clock id event).2 := by
  refine entered_enter host (fun _ => rfl) fun registration _ hgranted => ?_
  dsimp only
  split
  · exact .released _ hgranted rfl
  · split
    case h_1 err herr => exact .released _ hgranted (refused_of_checkInput herr)
    case h_2 =>
      split
      · exact .failed _ _ hgranted rfl rfl
      · split
        · exact .succeeded _ _ hgranted rfl
        case isFalse hrejected =>
          exact .failed _ _ hgranted rfl (by simpa [HostAnswer.failed] using hrejected)

theorem entered_renderView {canonical : CanonicalId} :
    Entered host clock canonical.extensionId (.viewed (host.renderView env machine clock canonical).1)
      (host.renderView env machine clock canonical).2 := by
  refine entered_enter host (fun _ => rfl) fun registration _ hgranted => ?_
  dsimp only
  split
  · exact .released _ hgranted rfl
  · split
    · exact .failed _ _ hgranted rfl rfl
    · split
      · exact .failed _ _ hgranted rfl rfl
      · exact .succeeded _ _ hgranted rfl

theorem entered_search {canonical : CanonicalId} {request : T.Request} {budget : RuntimeBudget} :
    Entered host clock canonical.extensionId
      (.found (host.search machine clock canonical request budget).1)
      (host.search machine clock canonical request budget).2 := by
  refine entered_enter host (fun _ => rfl) fun registration _ hgranted => ?_
  dsimp only
  split
  · exact .released _ hgranted rfl
  · split
    · exact .failed _ _ hgranted rfl rfl
    · exact .succeeded _ _ hgranted rfl

/-! ### Steps -/

/-- What a call can do to the host. -/
inductive Called (call : HostCall T) : HostAnswer T → ExtensionHost ρ → Prop where
  | entered {clock : ClockReadings} {id : ExtensionId} {answer : HostAnswer T}
    {next : ExtensionHost ρ} (hclock : call.entry? = some clock) (hid : call.id = some id)
    (h : Entered host clock id answer next) : Called call answer next
  | failed {id : ExtensionId} {answer : HostAnswer T} (runtime : ρ) (hid : call.id = some id)
    (hrefused : answer.refused = false) (hfailed : answer.failed = true ∨ call.isTimeout = true) :
    Called call answer
      ⟨runtime, host.registrations, (host.circuitBreaker.recordFailure call.now id).1⟩
  | unchanged {answer : HostAnswer T} (hrefused : answer.refused = false) : Called call answer host
  | managed {answer : HostAnswer T} (runtime : ρ)
    (registrations : AList fun _ : ExtensionId => Registration) (op : BreakerOp)
    (hrefused : answer.refused = false) (hop : op.isManaging = true) :
    Called call answer ⟨runtime, registrations, host.circuitBreaker.step ⟨call.now, op⟩⟩

theorem called (call : HostCall T) :
    Called host call (host.call env machine call).1 (host.step env machine call) := by
  cases call with
  | register now manifest module grants =>
    change Called host _ (.done (host.register env machine now manifest module grants).1)
      (host.register env machine now manifest module grants).2
    unfold register
    split
    · exact .unchanged rfl
    · split_ifs
      · exact .unchanged rfl
      · split
        · exact .unchanged rfl
        · split
          · exact .failed _ rfl rfl (.inl rfl)
          · exact .managed _ _ (.reset manifest.id) rfl rfl
  | unregister now id =>
    change Called host _ (.done (host.unregister machine now id).1)
      (host.unregister machine now id).2
    unfold unregister
    split_ifs
    · exact .unchanged rfl
    · split
      · exact .failed _ rfl rfl (.inl rfl)
      · exact .managed _ _ (.remove id) rfl rfl
  | replace now manifest module grants =>
    change Called host _ (.done (host.replace env machine now manifest module grants).1)
      (host.replace env machine now manifest module grants).2
    unfold replace
    split
    · exact .unchanged rfl
    · split_ifs
      · exact .unchanged rfl
      · split
        · exact .unchanged rfl
        · split
          · exact .failed _ rfl rfl (.inl rfl)
          · exact .managed _ _ (.reset manifest.id) rfl rfl
  | dispatchEvent clock id event =>
    exact .entered rfl rfl (host.entered_dispatchEvent env machine)
  | renderView clock canonical => exact .entered rfl rfl (host.entered_renderView env machine)
  | search clock canonical request budget => exact .entered rfl rfl (host.entered_search machine)
  | recordCoordinatorTimeout now id => exact .failed _ rfl rfl (.inr rfl)
  | resetExtension id => exact .managed _ _ (.reset id) rfl rfl
  | clear ids => exact .managed _ _ .clear rfl rfl
  | advanceClock now => exact .managed _ _ .advanceTime rfl rfl

/-! ### What is kept -/

/-- No probe is out. -/
def Settled : Prop := ∀ id, CircuitState.inFlight (host.circuitBreaker.state id) = false

variable {host}

variable {answer : HostAnswer T} {next : ExtensionHost ρ}

/-- A call that took a permit has settled it. -/
theorem Settled.entered (h : host.Settled) (hentered : Entered host clock id answer next) :
    next.Settled := by
  have hothers : ∀ id', id' ≠ id →
      CircuitState.inFlight ((host.asked clock id).state id') = false := by
    intro id' hid
    rw [asked, CircuitBreaker.state_acquirePermit, if_neg hid.symm]
    exact h id'
  intro id'
  cases hentered with
  | refused hgranted _ =>
    by_cases hid : id = id'
    · subst hid
      change CircuitState.inFlight ((host.asked clock id).state id) = false
      rw [asked, CircuitBreaker.state_acquirePermit, if_pos rfl]
      rw [CircuitBreaker.granted_iff, Bool.not_eq_true] at hgranted
      exact CircuitState.inFlight_next_acquire (h id) hgranted
    · exact hothers id' (Ne.symm hid)
  | released _ _ =>
    dsimp only
    rw [CircuitBreaker.state_releaseProbe]
    split_ifs with hid
    · exact CircuitState.inFlight_next_release
    · exact hothers id' (Ne.symm hid)
  | succeeded _ _ _ =>
    dsimp only
    rw [CircuitBreaker.state_recordSuccess]
    split_ifs with hid
    · exact CircuitState.inFlight_next_success
    · exact hothers id' (Ne.symm hid)
  | failed _ _ _ _ =>
    dsimp only
    rw [CircuitBreaker.state_recordFailure]
    split_ifs with hid
    · exact CircuitState.inFlight_next_failure
    · exact hothers id' (Ne.symm hid)

theorem preserved_settled : Preserved (step env machine) Settled := by
  intro host call h id
  have hcalled := host.called env machine call
  generalize (host.call env machine call).1 = answer at hcalled
  generalize host.step env machine call = next at hcalled ⊢
  cases hcalled with
  | entered _ _ hentered => exact h.entered hentered id
  | failed runtime _ _ _ =>
    dsimp only
    rw [CircuitBreaker.state_recordFailure]
    split_ifs
    · exact CircuitState.inFlight_next_failure
    · exact h id
  | unchanged _ => exact h id
  | managed runtime registrations op _ hop =>
    dsimp only
    rw [CircuitBreaker.state_step]
    exact CircuitState.inFlight_next
      (fun now => (BreakerCall.about_of_isManaging hop id now).1) (h id)

/-! ### Main results -/

/-- The circuit is half open, or open and due. -/
def HalfOpen (host : ExtensionHost ρ) (now : ℕ) (id : ExtensionId) : Prop :=
  ∃ tripCount successes out, (host.circuitBreaker.state id).map (·.lapse now) =
    some (.halfOpen tripCount successes out)

/-- The call lets `id` be given up: a failure is recorded for it at its last chance. -/
def MissesLastChance (host : ExtensionHost ρ) (call : HostCall T) (failure : Prop)
    (id : ExtensionId) : Prop :=
  call.id = some id ∧ failure ∧
    CircuitState.isLastChance host.circuitBreaker.policy
      ((host.circuitBreaker.state id).map (·.lapse call.now)) = true

/-- What is promised of a call, where `failure` says which answers to which calls are failures
that count. -/
structure PermitKept (failure : HostCall T → HostAnswer T → Prop) (host : ExtensionHost ρ)
    (call : HostCall T) : Prop where
  halfOpen : ∀ clock id, call.entry? = some clock → call.id = some id →
    host.HalfOpen clock.asked id → (host.call env machine call).1.refused = false
  refused : (host.call env machine call).1.refused = true →
    (host.step env machine call).runtime = host.runtime
  givenUp : ∀ id,
    CircuitState.isGivenUp ((host.step env machine call).circuitBreaker.state id) = true →
      CircuitState.isGivenUp (host.circuitBreaker.state id) = true ∨
      host.MissesLastChance call (failure call (host.call env machine call).1) id

/-- The failures that count: those of the call, and timeouts that the coordinator reports. -/
def Fails (call : HostCall T) (answer : HostAnswer T) : Prop :=
  answer.failed = true ∨ call.isTimeout = true

variable {call : HostCall T}

theorem refused_eq_false (hcalled : Called host call answer next)
    (hclock : call.entry? = some clock) (hid : call.id = some id)
    (hgranted : host.circuitBreaker.Granted clock.asked id) : answer.refused = false := by
  cases hcalled with
  | entered hclock' hid' hentered =>
    obtain rfl := Option.some.inj (hclock.symm.trans hclock')
    obtain rfl := Option.some.inj (hid.symm.trans hid')
    cases hentered with
    | refused hnot _ => exact absurd hgranted hnot
    | released _ hrefused => exact hrefused
    | succeeded _ _ hrefused => exact hrefused
    | failed _ _ hrefused _ => exact hrefused
  | failed _ _ hrefused _ => exact hrefused
  | unchanged hrefused => exact hrefused
  | managed _ _ _ hrefused _ => exact hrefused

/-- A half-open extension without a probe out gets a permit. -/
theorem HalfOpen.granted (h : host.Settled) {now : ℕ} (hhalfOpen : host.HalfOpen now id) :
    host.circuitBreaker.Granted now id := by
  obtain ⟨tripCount, successes, out, hstate⟩ := hhalfOpen
  have hout : CircuitState.inFlight ((host.circuitBreaker.state id).map (·.lapse now)) = false :=
    @CircuitState.inFlight_next host.circuitBreaker.policy _ (.lapse now) (fun _ h => by cases h) (h id)
  rw [hstate] at hout
  rw [CircuitBreaker.granted_iff]
  cases hs : host.circuitBreaker.state id with
  | none =>
    rw [hs] at hstate
    cases hstate
  | some c =>
    rw [hs] at hstate
    have hlapse : c.lapse now = .halfOpen tripCount successes out := Option.some.inj hstate
    rw [Option.getD_some, hlapse]
    cases out with
    | false => rfl
    | true => cases hout

/-- A call that is refused has not got to the runtime. -/
theorem runtime_of_refused (hcalled : Called host call answer next) (h : answer.refused = true) :
    next.runtime = host.runtime := by
  cases hcalled with
  | entered _ _ hentered =>
    cases hentered with
    | refused _ _ => rfl
    | released _ _ => rfl
    | succeeded _ _ hrefused => exact absurd h (by rw [hrefused]; exact Bool.false_ne_true)
    | failed _ _ hrefused _ => exact absurd h (by rw [hrefused]; exact Bool.false_ne_true)
  | failed _ _ hrefused _ => exact absurd h (by rw [hrefused]; exact Bool.false_ne_true)
  | unchanged _ => rfl
  | managed _ _ _ hrefused _ => exact absurd h (by rw [hrefused]; exact Bool.false_ne_true)

/-- In a call that took a permit, it is given up by a failure of that call. -/
theorem Entered.givenUp {id id' : ExtensionId} (hentered : Entered host clock id answer next)
    (h : CircuitState.isGivenUp (next.circuitBreaker.state id') = true) :
    CircuitState.isGivenUp (host.circuitBreaker.state id') = true ∨
      id = id' ∧ answer.failed = true ∧
        CircuitState.isLastChance host.circuitBreaker.policy
          ((host.circuitBreaker.state id').map (·.lapse clock.asked)) = true := by
  have hasked : CircuitState.isGivenUp ((host.asked clock id).state id') = true →
      CircuitState.isGivenUp (host.circuitBreaker.state id') = true := by
    intro hasked
    rw [asked, CircuitBreaker.state_acquirePermit] at hasked
    split_ifs at hasked
    · exact CircuitState.isGivenUp_next (fun _ h => by cases h) hasked
    · exact hasked
  cases hentered with
  | refused _ _ => exact .inl (hasked h)
  | released _ _ =>
    dsimp only at h
    rw [CircuitBreaker.state_releaseProbe] at h
    split_ifs at h
    · exact .inl (hasked (CircuitState.isGivenUp_next (fun _ h => by cases h) h))
    · exact .inl (hasked h)
  | succeeded _ _ _ =>
    dsimp only at h
    rw [CircuitBreaker.state_recordSuccess] at h
    split_ifs at h
    · exact .inl (hasked (CircuitState.isGivenUp_next (fun _ h => by cases h) h))
    · exact .inl (hasked h)
  | failed _ _ _ hfailed =>
    dsimp only at h
    rw [CircuitBreaker.state_recordFailure] at h
    split_ifs at h with hid
    · subst hid
      obtain h | h := CircuitState.isGivenUp_next_failure h
      · exact .inl (hasked h)
      · refine .inr ⟨rfl, hfailed, ?_⟩
        have hpolicy : (host.asked clock id).policy = host.circuitBreaker.policy :=
          host.circuitBreaker.policy_step ⟨clock.asked, .acquirePermit id⟩
        rw [hpolicy, asked, CircuitBreaker.state_acquirePermit, if_pos rfl] at h
        exact CircuitState.isLastChance_next_acquire h
    · exact .inl (hasked h)

/-- An extension is given up by a failure at its last chance. -/
theorem givenUp_of_called (hcalled : Called host call answer next)
    (h : CircuitState.isGivenUp (next.circuitBreaker.state id) = true) :
    CircuitState.isGivenUp (host.circuitBreaker.state id) = true ∨
      host.MissesLastChance call (Fails call answer) id := by
  cases hcalled with
  | entered hclock hid hentered =>
    obtain h | ⟨rfl, hfailed, hlast⟩ := hentered.givenUp h
    · exact .inl h
    · refine .inr ⟨hid, .inl hfailed, ?_⟩
      rw [call.now_of_entry? hclock]
      exact hlast
  | @failed id' _ runtime hid _ hfailed =>
    dsimp only at h
    rw [CircuitBreaker.state_recordFailure] at h
    split_ifs at h with hid'
    · subst hid'
      obtain h | h := CircuitState.isGivenUp_next_failure h
      · exact .inl h
      · exact .inr ⟨hid, hfailed, CircuitState.isLastChance_map_lapse h⟩
    · exact .inl h
  | unchanged _ => exact .inl h
  | managed runtime registrations op _ hop =>
    dsimp only at h
    rw [CircuitBreaker.state_step] at h
    exact .inl (CircuitState.isGivenUp_next
      (fun now => (BreakerCall.about_of_isManaging hop id now).2) h)

theorem permitKept (h : host.Settled) (call : HostCall T) :
    PermitKept env machine Fails host call where
  halfOpen _ _ hclock hid hhalfOpen :=
    refused_eq_false (host.called env machine call) hclock hid (hhalfOpen.granted h)
  refused := runtime_of_refused (host.called env machine call)
  givenUp _ := givenUp_of_called (host.called env machine call)

/-- No probe is out, and each extension has been given up or is let through from some time on. -/
structure Recovers (host : ExtensionHost ρ) : Prop where
  settled : host.Settled
  letThrough : ∀ id, CircuitState.isGivenUp (host.circuitBreaker.state id) = true ∨
    ∃ t, ∀ call clock, call.entry? = some clock → call.id = some id → t ≤ clock.asked →
      (host.call env machine call).1.refused = false

theorem Settled.recovers (h : host.Settled) : Recovers env machine host := by
  refine ⟨h, fun id => ?_⟩
  obtain hgivenUp | ⟨t, hgrants⟩ := CircuitState.grants_or_isGivenUp (h id)
  · exact .inl hgivenUp
  · refine .inr ⟨t, fun call clock hclock hid htime => ?_⟩
    exact refused_eq_false (host.called env machine call) hclock hid
      (CircuitBreaker.granted_iff.mpr (hgrants clock.asked htime))

/-- **Permits are settled.** In every run of a new host with any runtime: after each call no probe
is out, and an extension that has not been given up is let through again from some time on; a
half-open one is let through at once, a call that the breaker refuses does not reach the runtime,
and an extension is given up only when, in the last trip cycle that the policy allows, a call of
it fails or the coordinator reports a timeout. -/
theorem permits_settled (runtime : ρ) (policy : CircuitBreakerPolicy) (calls : List (HostCall T)) :
    Always (step env machine) (Recovers env machine) (new runtime policy) calls ∧
      Along (step env machine) (PermitKept env machine Fails) (new runtime policy) calls := by
  have hnew : (new runtime policy).Settled := fun _ => rfl
  have hsettled := fun before => (preserved_settled env machine).holds hnew before
  exact ⟨(always_iff _ _).mpr fun before _ _ => (hsettled before).recovers env machine,
    (along_iff _ _).mpr fun before call _ _ => permitKept env machine (hsettled before) call⟩

/-- The failures of probes: of calls that take a permit. -/
def FailsProbe (call : HostCall T) (answer : HostAnswer T) : Prop :=
  answer.failed = true ∧ call.entry?.isSome = true

/-- Nothing passes through. -/
def noPayloads : Payloads := ⟨Unit, Unit, Unit, Unit⟩

/-- Nothing is wrong with a view, and no URL is one. -/
def noEnv : HostEnv noPayloads := ⟨String.singleton, fun _ => none, fun _ => .ok (), .default⟩

/-- A runtime that does nothing, and does it well. -/
def idleMachine : ExtensionRuntime noPayloads Unit where
  load _ _ _ _ _ _ := (.ok (), ())
  replace _ _ _ _ _ _ := (.ok (), ())
  unload _ _ := (.ok (), ())
  dispatch _ _ _ _ := (.ok [], ())
  view _ _ _ _ := (.ok none, ())
  search _ _ _ _ _ := (.ok [], ())

/-- The coordinator reports a timeout whenever the circuit has become half open. -/
def timeouts : List (HostCall noPayloads) :=
  let timeout (seconds : ℕ) := HostCall.recordCoordinatorTimeout (seconds * second)
    CircuitBreaker.weather
  let advance (seconds : ℕ) := HostCall.advanceClock (seconds * second)
  [timeout 0, timeout 0, timeout 0, advance 30, timeout 30, advance 90, timeout 90, advance 210,
    timeout 210, advance 510]

/-- With one more the extension is given up, and was never called. -/
theorem given_up_without_probe :
    ¬ Along (step noEnv idleMachine) (PermitKept noEnv idleMachine FailsProbe) (new () .default)
      (timeouts ++ [HostCall.recordCoordinatorTimeout (510 * second) CircuitBreaker.weather]) := by
  intro h
  have hlast := ((along_iff _ _).mp h timeouts _ [] rfl).givenUp CircuitBreaker.weather (by decide)
  obtain hbefore | ⟨-, hprobe, -⟩ := hlast
  · exact absurd hbefore (by decide)
  · exact absurd hprobe.2 Bool.false_ne_true

end ExtensionHost

end Shilpo.Extensions
