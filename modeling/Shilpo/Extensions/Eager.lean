import Shilpo.Extensions.Admission

/-!
# Opening a circuit late or early

`acquire_permit` makes an open circuit half open when its time has come; `advance_clock`
does so for all extensions, and the worker calls it whenever it likes. Where callers keep
to permits (`Disciplined`: a permit is settled before the next is asked for, and nothing
is recorded without one) it does not matter how often: **`advance_clock_invisible`**, extra
calls of `advance_clock` at any points change no permit and no notice.

The run with the extra calls may be ahead of the one without: a circuit that is open and
due in the one is half open in the other (`Ahead`). No permit is out for such a circuit,
so that nothing is recorded for it before it is asked for again, and that makes it half
open in both (`Simulates.step`).
-/

namespace Shilpo.Extensions

open Theory

/-- The second run is the first with extra calls of `advance_clock`. -/
inductive Inserted : List BreakerCall → List BreakerCall → Prop where
  | nil : Inserted [] []
  | keep (call : BreakerCall) {calls calls' : List BreakerCall} (h : Inserted calls calls') :
    Inserted (call :: calls) (call :: calls')
  | advance (now : ℕ) {calls calls' : List BreakerCall} (h : Inserted calls calls') :
    Inserted calls (⟨now, .advanceTime⟩ :: calls')

variable {call : BreakerCall} {id : ExtensionId}

theorem BreakerCall.now_of_about {t : ℕ} (h : call.about id = .acquire t) : t = call.now := by
  obtain ⟨now, op⟩ := call
  cases op <;> simp only [about] at h <;> (try split_ifs at h) <;> simp_all

theorem BreakerCall.op_of_about (h : call.about id = .success ∨ ∃ t, call.about id = .failure t) :
    call.op = .recordSuccess id ∨ call.op = .recordFailure id := by
  obtain ⟨now, op⟩ := call
  cases op <;> simp only [about] at h <;> (try split_ifs at h) <;> simp_all

theorem BreakerCall.failure_of_about {t : ℕ} (h : call.about id = .failure t) :
    call.op = .recordFailure id ∧ t = call.now := by
  obtain ⟨now, op⟩ := call
  cases op <;> simp only [about] at h <;> (try split_ifs at h) <;> simp_all

namespace CircuitBreaker

/-! ### Permits -/

/-- A call, and the extensions for which a permit is out. -/
def hold (p : CircuitBreaker × (ExtensionId → Bool)) (call : BreakerCall) :
    CircuitBreaker × (ExtensionId → Bool) :=
  (p.1.step call,
    match call.op with
    | .acquirePermit id =>
      match (p.1.acquirePermit call.now id).2 with
      | .ok _ => Function.update p.2 id true
      | .error _ => p.2
    | .recordSuccess id | .recordFailure id | .releaseProbe id => Function.update p.2 id false
    | _ => p.2)

variable {call : BreakerCall} {id : ExtensionId}

/-- A permit that is out was out before, or it has just been granted. -/
theorem held_of_hold {p : CircuitBreaker × (ExtensionId → Bool)} (h : (hold p call).2 id = true) :
    p.2 id = true ∨ call.op = .acquirePermit id ∧ p.1.Granted call.now id := by
  obtain ⟨now, op⟩ := call
  cases op with
  | acquirePermit id' =>
    cases hpermit : (p.1.acquirePermit now id').2 with
    | ok permit =>
      simp only [hold, hpermit] at h
      by_cases hid : id = id'
      · subst hid
        exact .inr ⟨rfl, permit, hpermit⟩
      · rw [Function.update_of_ne hid] at h
        exact .inl h
    | error err =>
      simp only [hold, hpermit] at h
      exact .inl h
  | recordSuccess id' | recordFailure id' | releaseProbe id' =>
    by_cases hid : id = id'
    · simp [hold, hid] at h
    · simp only [hold] at h
      rw [Function.update_of_ne hid] at h
      exact .inl h
  | advanceTime | reset id' | remove id' | clear | takePendingNotices => exact .inl h

/-- No permit is asked for while one is out, and nothing is recorded without one. -/
def Keeps (p : CircuitBreaker × (ExtensionId → Bool)) (call : BreakerCall) : Prop :=
  match call.op with
  | .acquirePermit id => p.2 id = false
  | .recordSuccess id | .recordFailure id => p.2 id = true
  | _ => True

instance : ∀ p call, Decidable (Keeps p call)
  | p, ⟨_, .acquirePermit id⟩ => inferInstanceAs (Decidable (p.2 id = false))
  | p, ⟨_, .recordSuccess id⟩ => inferInstanceAs (Decidable (p.2 id = true))
  | p, ⟨_, .recordFailure id⟩ => inferInstanceAs (Decidable (p.2 id = true))
  | _, ⟨_, .releaseProbe _⟩ | _, ⟨_, .advanceTime⟩ | _, ⟨_, .reset _⟩ | _, ⟨_, .remove _⟩
  | _, ⟨_, .clear⟩ | _, ⟨_, .takePendingNotices⟩ => .isTrue trivial

/-- Every call of the run keeps to permits. -/
def Disciplined (policy : CircuitBreakerPolicy) (calls : List BreakerCall) : Prop :=
  Along hold Keeps (new policy, fun _ => false) calls

instance (policy : CircuitBreakerPolicy) (calls : List BreakerCall) :
    Decidable (Disciplined policy calls) :=
  inferInstanceAs (Decidable (Along ..))

/-- What a caller sees at a call, unless it only advances the clock: the answer to its request
for a permit, and the notices that wait. -/
def observe (b : CircuitBreaker) (call : BreakerCall) :
    List (Option (Except HostError ProbePermit) × List CircuitNotice) :=
  match call.op with
  | .advanceTime => []
  | .acquirePermit id => [(some (b.acquirePermit call.now id).2, b.pendingNotices)]
  | _ => [(none, b.pendingNotices)]

/-! ### Running ahead -/

/-- The second circuit is the first, or it is half open already and the first is still open. -/
def Ahead (now : ℕ) (s e : Option CircuitState) : Prop :=
  e = s ∨ ∃ tripCount retryAt retryDelay, s = some (.opened tripCount retryAt retryDelay) ∧
    retryAt ≤ now ∧ e = some (.halfOpen tripCount 0 false)

theorem Ahead.refl (now : ℕ) (s : Option CircuitState) : Ahead now s s := .inl rfl

theorem Ahead.later {now later : ℕ} {s e : Option CircuitState} (h : Ahead now s e)
    (hle : now ≤ later) : Ahead later s e := by
  obtain rfl | ⟨tripCount, retryAt, retryDelay, rfl, hdue, rfl⟩ := h
  · exact .refl ..
  · exact .inr ⟨tripCount, retryAt, retryDelay, rfl, hdue.trans hle, rfl⟩

/-- A circuit that is not open is the same in both. -/
theorem Ahead.eq {now : ℕ} {s e : Option CircuitState} (h : Ahead now s e)
    (hs : CircuitState.isOpened s = false) : e = s := by
  obtain rfl | ⟨tripCount, retryAt, retryDelay, rfl, -, rfl⟩ := h
  · rfl
  · cases hs

/-- An extra call brings the second circuit ahead. -/
theorem Ahead.lapse {now later : ℕ} {s e : Option CircuitState} (h : Ahead now s e)
    (hle : now ≤ later) : Ahead later s (e.map (·.lapse later)) := by
  obtain rfl | ⟨tripCount, retryAt, retryDelay, rfl, hdue, rfl⟩ := h
  · rcases e with _ | _ | ⟨tripCount, retryAt, retryDelay⟩ | _ | _
    case some.opened =>
      rw [Option.map_some, CircuitState.lapse]
      split_ifs with hdue
      · exact .inr ⟨tripCount, retryAt, retryDelay, rfl, hdue, rfl⟩
      · exact .refl ..
    all_goals exact .refl ..
  · exact .inr ⟨tripCount, retryAt, retryDelay, rfl, hdue.trans hle, rfl⟩

/-- A circuit asked for a permit is the same in both, half open if it is due. -/
theorem Ahead.acquire {now later : ℕ} {s e : Option CircuitState} (h : Ahead now s e)
    (hle : now ≤ later) :
    (e.getD (.closed 0)).lapse later = (s.getD (.closed 0)).lapse later := by
  obtain rfl | ⟨tripCount, retryAt, retryDelay, rfl, hdue, rfl⟩ := h
  · rfl
  · have hdue' : retryAt ≤ later := hdue.trans hle
    simp [CircuitState.lapse, hdue']

/-- An event of one circuit in both runs, where nothing is recorded for an open one. -/
theorem Ahead.next {now : ℕ} {s e : Option CircuitState} (h : Ahead now s e)
    (policy : CircuitBreakerPolicy) {event : CircuitEvent}
    (hlater : ∀ t, event = .acquire t → now ≤ t)
    (hrecord : (event = .success ∨ ∃ t, event = .failure t) → CircuitState.isOpened s = false) :
    Ahead now (CircuitState.next policy s event) (CircuitState.next policy e event) := by
  cases event with
  | acquire t =>
    left
    rw [CircuitState.next, CircuitState.next, h.acquire (hlater t rfl)]
  | success => rw [h.eq (hrecord (.inl rfl))]; exact .refl ..
  | failure t => rw [h.eq (hrecord (.inr ⟨t, rfl⟩))]; exact .refl ..
  | release =>
    obtain rfl | ⟨tripCount, retryAt, retryDelay, rfl, hdue, rfl⟩ := h
    · exact .refl ..
    · exact .inr ⟨tripCount, retryAt, retryDelay, rfl, hdue, rfl⟩
  | lapse t =>
    obtain rfl | ⟨tripCount, retryAt, retryDelay, rfl, hdue, rfl⟩ := h
    · exact .refl ..
    · simp only [CircuitState.next, Option.map_some, CircuitState.lapse]
      split_ifs
      · exact .refl ..
      · exact .inr ⟨tripCount, retryAt, retryDelay, rfl, hdue, rfl⟩
  | reset | forget => exact .refl ..
  | none => exact h

/-! ### Each call -/

/-- Only a failure opens a circuit. -/
theorem opened_of_next {policy : CircuitBreakerPolicy} {s : Option CircuitState}
    {event : CircuitEvent} (h : CircuitState.isOpened (CircuitState.next policy s event) = true) :
    (∃ t, event = .failure t) ∨
      CircuitState.isOpened s = true ∧
        ∀ t, event = .acquire t → ((s.getD (.closed 0)).lapse t).grants = false := by
  cases event with
  | failure t => exact .inl ⟨t, rfl⟩
  | acquire t =>
    right
    rcases s with _ | _ | ⟨tripCount, retryAt, retryDelay⟩ | _ | _ <;>
      simp [CircuitState.next, CircuitState.lapse, CircuitState.letThrough] at h ⊢
    split_ifs at h ⊢
    simp_all [CircuitState.grants]
  | success =>
    rcases s with _ | _ | _ | ⟨tripCount, successes, inFlight⟩ | _ <;>
      simp [CircuitState.next, CircuitState.succeed] at h ⊢
    split_ifs at h
  | release =>
    rcases s with _ | _ | _ | _ | _ <;> simp_all [CircuitState.next, CircuitState.release]
  | lapse t =>
    rcases s with _ | _ | _ | _ | _ <;> simp_all [CircuitState.next, CircuitState.lapse]
  | reset | forget => simp [CircuitState.next] at h
  | none => exact .inr ⟨h, fun t ht => by cases ht⟩

/-- The answer to a request depends on the circuit asked for only. -/
theorem permit_congr {b e : CircuitBreaker} {now : ℕ}
    (h : ((e.state id).getD (.closed 0)).lapse now = ((b.state id).getD (.closed 0)).lapse now) :
    (e.acquirePermit now id).2 = (b.acquirePermit now id).2 := by
  unfold acquirePermit
  rw [h]
  generalize ((b.state id).getD (.closed 0)).lapse now = s
  cases s with
  | halfOpen _ _ inFlight => cases inFlight <;> rfl
  | closed | opened | permanentlyDisabled => rfl

theorem pushNotice_congr {b e : CircuitBreaker} (h : e.pendingNotices = b.pendingNotices)
    (notice : CircuitNotice) :
    (e.pushNotice notice).pendingNotices = (b.pushNotice notice).pendingNotices := by
  unfold pushNotice
  dsimp only
  rw [h]

/-- The notices after a call depend on the circuit it records for only. -/
theorem pendingNotices_congr {b e : CircuitBreaker} (hpolicy : e.policy = b.policy)
    (hnotices : e.pendingNotices = b.pendingNotices)
    (hstate : ∀ id, call.op = .recordSuccess id ∨ call.op = .recordFailure id →
      e.state id = b.state id) :
    (e.step call).pendingNotices = (b.step call).pendingNotices := by
  obtain ⟨now, op⟩ := call
  cases op with
  | acquirePermit id =>
    simp only [step, (acquirePermit_eq _ now id).1]
    exact hnotices
  | recordSuccess id =>
    simp only [step, recordSuccess, hstate id (.inl rfl), hpolicy]
    split
    · split
      · exact pushNotice_congr hnotices _
      · exact hnotices
    · exact hnotices
  | recordFailure id =>
    simp only [step, recordFailure, hstate id (.inr rfl), hpolicy]
    split
    · exact pushNotice_congr hnotices _
    · exact hnotices
  | releaseProbe id =>
    simp only [step, releaseProbe]
    split <;> split <;> exact hnotices
  | advanceTime => exact hnotices
  | reset id | remove id => simp only [step, reset, remove, hnotices]
  | clear | takePendingNotices => rfl

/-- The second breaker has run ahead of the first at most, and no permit is out for an open
circuit of the first. -/
structure Simulates (now : ℕ) (p : CircuitBreaker × (ExtensionId → Bool)) (e : CircuitBreaker) :
    Prop where
  policy : e.policy = p.1.policy
  notices : e.pendingNotices = p.1.pendingNotices
  states : ∀ id, Ahead now (p.1.state id) (e.state id)
  idle : ∀ id, CircuitState.isOpened (p.1.state id) = true → p.2 id = false

variable {now : ℕ} {p : CircuitBreaker × (ExtensionId → Bool)} {e : CircuitBreaker}

/-- An extra call of `advance_clock` changes nothing that is seen. -/
theorem Simulates.advance (h : Simulates now p e) {later : ℕ} (hle : now ≤ later) :
    Simulates later p (e.step ⟨later, .advanceTime⟩) where
  policy := h.policy
  notices := h.notices
  states := by
    intro id
    rw [state_step]
    exact (h.states id).lapse hle
  idle := h.idle

/-- What is recorded for an open circuit is recorded without a permit. -/
theorem Simulates.isOpened_eq (h : Simulates now p e) (hkeeps : Keeps p call)
    (hop : call.op = .recordSuccess id ∨ call.op = .recordFailure id) :
    CircuitState.isOpened (p.1.state id) = false := by
  have hheld : p.2 id = true := by
    obtain hop | hop := hop <;> simpa only [Keeps, hop] using hkeeps
  by_contra hopen
  rw [Bool.not_eq_false] at hopen
  rw [h.idle id hopen] at hheld
  cases hheld

/-- A call that keeps to permits is the same in both runs. -/
theorem Simulates.step (h : Simulates now p e) (hle : now ≤ call.now) (hkeeps : Keeps p call) :
    Simulates call.now (hold p call) (e.step call) ∧ e.observe call = p.1.observe call := by
  have hahead := fun id => (h.states id).later hle
  refine ⟨⟨?_, ?_, ?_, ?_⟩, ?_⟩
  · rw [policy_step, h.policy]
    exact (policy_step _ _).symm
  · refine pendingNotices_congr h.policy h.notices fun id hop => ?_
    exact (h.states id).eq (h.isOpened_eq hkeeps hop)
  · intro id
    show Ahead _ ((p.1.step call).state id) _
    rw [state_step, state_step, h.policy]
    refine (hahead id).next _ ?_ ?_
    · intro t ht
      rw [BreakerCall.now_of_about ht]
    · exact fun hrecord => h.isOpened_eq hkeeps (BreakerCall.op_of_about hrecord)
  · intro id hopen
    -- only a failure opens a circuit, and that settles its permit
    have hnext : CircuitState.isOpened
        (CircuitState.next p.1.policy (p.1.state id) (call.about id)) = true := by
      rw [← state_step]
      exact hopen
    by_contra hheld
    rw [Bool.not_eq_false] at hheld
    obtain ⟨t, ht⟩ | ⟨hbefore, hgrants⟩ := opened_of_next hnext
    · obtain ⟨hop, -⟩ := BreakerCall.failure_of_about ht
      simp [hold, hop] at hheld
    · obtain hout | ⟨hop, hgranted⟩ := held_of_hold hheld
      · rw [h.idle id hbefore] at hout
        cases hout
      · rw [granted_iff, hgrants call.now (by simp [BreakerCall.about, hop])] at hgranted
        cases hgranted
  · obtain ⟨now', op⟩ := call
    cases op with
    | acquirePermit id =>
      simp only [observe]
      rw [h.notices, permit_congr ((h.states id).acquire hle)]
    | _ => simp only [observe, h.notices]

/-! ### The whole run -/

theorem Simulates.run (h : Simulates now p e) {calls calls' : List BreakerCall}
    (hins : Inserted calls calls') (hclock : MonotonicClock calls')
    (hle : ∀ call ∈ calls', now ≤ call.now) (hkeeps : Along hold Keeps p calls) :
    expand CircuitBreaker.step observe e calls' = expand CircuitBreaker.step observe p.1 calls ∧
      (Theory.run CircuitBreaker.step e calls').pendingNotices =
        (Theory.run CircuitBreaker.step p.1 calls).pendingNotices := by
  induction hins generalizing now p e with
  | nil => exact ⟨rfl, h.notices⟩
  | keep call hins ih =>
    obtain ⟨hstep, hseen⟩ := h.step (hle _ List.mem_cons_self) hkeeps.1
    obtain ⟨hfirst, hclock⟩ := List.pairwise_cons.mp hclock
    obtain ⟨hrest, hnotices⟩ := ih hstep hclock
      (fun call' hc => hfirst _ (List.mem_map_of_mem hc)) hkeeps.2
    refine ⟨?_, hnotices⟩
    rw [expand, expand, hseen, hrest]
    rfl
  | advance now' hins ih =>
    obtain ⟨hfirst, hclock⟩ := List.pairwise_cons.mp hclock
    exact ih (h.advance (hle _ List.mem_cons_self)) hclock
      (fun call' hc => hfirst _ (List.mem_map_of_mem hc)) hkeeps

/-- **Advancing the clock is not seen.** In a run whose callers keep to permits, extra calls of
`advance_clock` at any points change no answer to a request for a permit and no notice that waits
at any call or in the end. -/
theorem advance_clock_invisible {policy : CircuitBreakerPolicy} {calls calls' : List BreakerCall}
    (hkeeps : Disciplined policy calls) (hins : Inserted calls calls')
    (hclock : MonotonicClock calls') :
    expand step observe (new policy) calls' = expand step observe (new policy) calls ∧
      (after policy calls').pendingNotices = (after policy calls).pendingNotices := by
  have hstart : Simulates 0 (new policy, fun _ => false) (new policy) :=
    ⟨rfl, rfl, fun _ => .refl .., fun _ _ => rfl⟩
  exact hstart.run hins hclock (fun _ _ => Nat.zero_le _) hkeeps

/-- One failure trips the circuit, which lets a probe through after a second. -/
def impatient : CircuitBreakerPolicy := ⟨1, 1, [second], 4⟩

/-- A call that fails, a request that comes too early and a probe. -/
def probeAgain : List BreakerCall :=
  [⟨0, .acquirePermit weather⟩, ⟨1, .recordFailure weather⟩, ⟨2, .acquirePermit weather⟩,
    ⟨2 * second, .acquirePermit weather⟩, ⟨2 * second, .recordSuccess weather⟩]

/-- The circuit of the probe is half open before it is asked for. -/
theorem advance_clock_invisible_probeAgain :
    expand step observe (new impatient)
        (probeAgain.take 3 ++ ⟨2 * second, .advanceTime⟩ :: probeAgain.drop 3) =
      expand step observe (new impatient) probeAgain :=
  (@advance_clock_invisible impatient _ _ (by decide)
    (.keep _ (.keep _ (.keep _ (.advance _ (.keep _ (.keep _ .nil)))))) (by decide)).1

end CircuitBreaker

end Shilpo.Extensions
