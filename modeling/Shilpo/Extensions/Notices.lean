import Shilpo.Extensions.Host
import Shilpo.Theory.Newest

/-!
# Notices that wait

What a call does to the circuits does not depend on the notices that wait; it puts its own behind
them, and the queue keeps the newest (`Adds`).
-/

namespace Shilpo.Extensions

open Theory

namespace CircuitBreaker

variable (b : CircuitBreaker) (l : List CircuitNotice) (id : ExtensionId)

/-- The breaker with these notices waiting. -/
def withNotices (pendingNotices : List CircuitNotice) : CircuitBreaker := { b with pendingNotices }

@[simp] theorem state_withNotices : (b.withNotices l).state id = b.state id := rfl

@[simp] theorem policy_withNotices : (b.withNotices l).policy = b.policy := rfl

theorem acquirePermit_withNotices (now : ℕ) :
    (b.withNotices l).acquirePermit now id =
      ((b.acquirePermit now id).1.withNotices l, (b.acquirePermit now id).2) := by
  simp only [acquirePermit, state_withNotices]
  cases ((b.state id).getD (.closed 0)).lapse now with
  | halfOpen tripCount consecutiveSuccesses probeInFlight => cases probeInFlight <;> rfl
  | closed | opened | permanentlyDisabled => rfl

theorem releaseProbe_withNotices :
    (b.withNotices l).releaseProbe id = (b.releaseProbe id).withNotices l := by
  simp only [releaseProbe, state_withNotices]
  cases b.state id <;> rfl

theorem acquirePermit_pendingNotices (now : ℕ) :
    (b.acquirePermit now id).1.pendingNotices = b.pendingNotices := by
  rw [acquirePermit]
  split
  · rfl
  · split <;> rfl
  · rfl

theorem releaseProbe_pendingNotices : (b.releaseProbe id).pendingNotices = b.pendingNotices := by
  rw [releaseProbe]
  split <;> rfl

variable {b l}

theorem pushNotice_withNotices (hb : b.pendingNotices = []) (hl : l.length ≤ maxPendingNotices)
    (notice : CircuitNotice) :
    (b.withNotices l).pushNotice notice =
      (b.pushNotice notice).withNotices
        (queued maxPendingNotices l (b.pushNotice notice).pendingNotices) := by
  have hone : (b.pushNotice notice).pendingNotices = [notice] := by
    rw [pushNotice, hb]
    rfl
  rw [hone, queued_singleton (by decide) hl]
  rfl

theorem withNotices_queued_nil (hl : l.length ≤ maxPendingNotices) (hb : b.pendingNotices = []) :
    b.withNotices (queued maxPendingNotices l b.pendingNotices) = b.withNotices l := by
  rw [hb, queued_nil hl]

theorem recordSuccess_withNotices (hb : b.pendingNotices = [])
    (hl : l.length ≤ maxPendingNotices) :
    (b.withNotices l).recordSuccess id =
      (b.recordSuccess id).withNotices
        (queued maxPendingNotices l (b.recordSuccess id).pendingNotices) := by
  simp only [recordSuccess, state_withNotices, policy_withNotices]
  cases b.state id with
  | none => exact (withNotices_queued_nil (b := b.insert id _) hl hb).symm
  | some state =>
    dsimp only
    obtain ⟨state', _ | trips⟩ := state.succeed b.policy
    · exact (withNotices_queued_nil (b := b.insert id state') hl hb).symm
    · exact pushNotice_withNotices (b := b.insert id state') hb hl _

theorem recordFailure_withNotices (hb : b.pendingNotices = [])
    (hl : l.length ≤ maxPendingNotices) (now : ℕ) :
    ((b.withNotices l).recordFailure now id).1 =
      (b.recordFailure now id).1.withNotices
        (queued maxPendingNotices l (b.recordFailure now id).1.pendingNotices) := by
  simp only [recordFailure, state_withNotices, policy_withNotices]
  obtain ⟨state, _ | outcome⟩ :=
    (b.state id).elim (CircuitState.failFirst b.policy now) (·.fail b.policy now)
  · exact (withNotices_queued_nil (b := b.insert id state) hl hb).symm
  · exact pushNotice_withNotices (b := b.insert id state) hb hl _

end CircuitBreaker

/-- What becomes of the notices that wait, with others that are raised: none waits in the end that
has not been one of them, and where there is room, all wait that are about other extensions. -/
structure Leaves (about : ExtensionId → Prop) (waiting raised left : List CircuitNotice) :
    Prop where
  sublist : left.Sublist (waiting ++ raised)
  others : (waiting ++ raised).length ≤ maxPendingNotices → ∀ id, ¬ about id →
    left.filter (·.extensionId = id) = (waiting ++ raised).filter (·.extensionId = id)

section

variable {about about' : ExtensionId → Prop}
  {waiting raised raised' left left' : List CircuitNotice}

theorem Leaves.trans (h : Leaves about waiting raised left) (h' : Leaves about left raised' left') :
    Leaves about waiting (raised ++ raised') left' where
  sublist := by
    rw [← List.append_assoc]
    exact h'.sublist.trans (h.sublist.append_right _)
  others hroom id hid := by
    rw [← List.append_assoc, List.length_append] at hroom
    have hleft := h.sublist.length_le
    rw [h'.others (by rw [List.length_append]; omega) id hid, List.filter_append,
      h.others (by omega) id hid, ← List.filter_append, List.append_assoc]

theorem Leaves.mono (h : Leaves about waiting raised left) (habout : ∀ id, about id → about' id) :
    Leaves about' waiting raised left :=
  ⟨h.sublist, fun hroom id hid => h.others hroom id fun hold => hid (habout id hold)⟩

/-- The notices that have waited are taken out, and others come to wait. -/
theorem Leaves.append (h : Leaves about waiting raised left) (h' : Leaves about [] raised' left') :
    Leaves about waiting (raised ++ raised') (left ++ left') where
  sublist := by
    rw [← List.append_assoc]
    exact h.sublist.append h'.sublist
  others hroom id hid := by
    rw [← List.append_assoc, List.length_append] at hroom
    have hleft := h.others (by omega) id hid
    have hleft' := h'.others (by rw [List.nil_append]; omega) id hid
    rw [← List.append_assoc, List.filter_append, List.filter_append _ raised', hleft, hleft',
      List.nil_append]

theorem leaves_queued : Leaves about waiting raised (queued maxPendingNotices waiting raised) :=
  ⟨queued_sublist, fun hroom _ _ => by rw [queued_of_room hroom]⟩

theorem leaves_same : Leaves about waiting [] waiting where
  sublist := List.sublist_append_left _ _
  others _ _ _ := by rw [List.append_nil]

theorem leaves_dropped (id : ExtensionId) :
    Leaves (· = id) waiting [] (waiting.filter fun notice => notice.extensionId ≠ id) where
  sublist := List.filter_sublist.trans (List.sublist_append_left _ _)
  others _ other hother := by
    rw [List.append_nil, List.filter_filter]
    refine List.filter_congr fun notice _ => ?_
    by_cases hid : notice.extensionId = other
    · simp [hid, hother]
    · simp [hid]

end

namespace ExtensionHost

variable {T : Payloads} {ρ α : Type} {env : HostEnv T} {machine : ExtensionRuntime T ρ}

/-- The host with these notices waiting. -/
def withNotices (host : ExtensionHost ρ) (notices : List CircuitNotice) : ExtensionHost ρ :=
  { host with circuitBreaker := host.circuitBreaker.withNotices notices }

@[simp] theorem registrations_withNotices (host : ExtensionHost ρ) (notices : List CircuitNotice) :
    (host.withNotices notices).registrations = host.registrations := rfl

@[simp] theorem runtime_withNotices (host : ExtensionHost ρ) (notices : List CircuitNotice) :
    (host.withNotices notices).runtime = host.runtime := rfl

@[simp] theorem pendingNotices_withNotices (host : ExtensionHost ρ)
    (notices : List CircuitNotice) :
    (host.withNotices notices).circuitBreaker.pendingNotices = notices := rfl

/-- A call that does the same whatever notices wait, and puts its own behind them. -/
def Adds (call : ExtensionHost ρ → α × ExtensionHost ρ) : Prop :=
  ∀ host notices, host.circuitBreaker.pendingNotices = [] → notices.length ≤ maxPendingNotices →
    call (host.withNotices notices) =
      ((call host).1,
        (call host).2.withNotices
          (queued maxPendingNotices notices (call host).2.circuitBreaker.pendingNotices))

section

variable (host : ExtensionHost ρ) {notices : List CircuitNotice}

theorem releaseProbe_adds (hhost : host.circuitBreaker.pendingNotices = [])
    (hnotices : notices.length ≤ maxPendingNotices) (id : ExtensionId) :
    (host.withNotices notices).releaseProbe id =
      (host.releaseProbe id).withNotices
        (queued maxPendingNotices notices
          (host.releaseProbe id).circuitBreaker.pendingNotices) := by
  have hnone : (host.releaseProbe id).circuitBreaker.pendingNotices = [] :=
    (host.circuitBreaker.releaseProbe_pendingNotices id).trans hhost
  rw [hnone, queued_nil hnotices, releaseProbe, releaseProbe, withNotices, withNotices]
  simp only [CircuitBreaker.releaseProbe_withNotices]

theorem recordSuccess_adds (hhost : host.circuitBreaker.pendingNotices = [])
    (hnotices : notices.length ≤ maxPendingNotices) (id : ExtensionId) :
    (host.withNotices notices).recordSuccess id =
      (host.recordSuccess id).withNotices
        (queued maxPendingNotices notices
          (host.recordSuccess id).circuitBreaker.pendingNotices) := by
  have hbreaker := CircuitBreaker.recordSuccess_withNotices id hhost hnotices
  rw [recordSuccess, recordSuccess, withNotices, withNotices]
  simp only [hbreaker]

theorem recordFailure_adds (hhost : host.circuitBreaker.pendingNotices = [])
    (hnotices : notices.length ≤ maxPendingNotices) (now : ℕ) (id : ExtensionId) :
    (host.withNotices notices).recordFailure now id =
      (host.recordFailure now id).withNotices
        (queued maxPendingNotices notices
          (host.recordFailure now id).circuitBreaker.pendingNotices) := by
  have hbreaker := CircuitBreaker.recordFailure_withNotices id hhost hnotices now
  rw [recordFailure, recordFailure, withNotices, withNotices]
  simp only [hbreaker]

end

theorem adds_recordFailure (now : ℕ) (id : ExtensionId) :
    Adds fun host : ExtensionHost ρ => ((), host.recordFailure now id) :=
  fun host _ hhost hnotices => Prod.ext rfl (recordFailure_adds host hhost hnotices now id)

/-- A call that begins with a permit adds notices as its rest does. -/
theorem adds_enter {clock : ClockReadings} {id : ExtensionId}
    {granted : Registration → ExtensionHost ρ → Except Error α × ExtensionHost ρ}
    (h : ∀ registration, Adds (granted registration)) :
    Adds fun host : ExtensionHost ρ => host.enter clock id granted := by
  intro host notices hhost hnotices
  have hpermit : (host.withNotices notices).circuitBreaker.acquirePermit clock.asked id =
      ((host.circuitBreaker.acquirePermit clock.asked id).1.withNotices notices,
        (host.circuitBreaker.acquirePermit clock.asked id).2) :=
    host.circuitBreaker.acquirePermit_withNotices notices id clock.asked
  have hsame := host.circuitBreaker.acquirePermit_pendingNotices id clock.asked
  rw [hhost] at hsame
  simp only [enter, hpermit]
  generalize host.circuitBreaker.acquirePermit clock.asked id = permit at hsame
  obtain ⟨circuitBreaker, err | permit⟩ := permit
  · change circuitBreaker.pendingNotices = [] at hsame
    simp only [hsame, queued_nil hnotices]
    rfl
  · change circuitBreaker.pendingNotices = [] at hsame
    simp only [registrations_withNotices, runtime_withNotices]
    cases host.registrations.lookup id with
    | none =>
      exact Prod.ext rfl (releaseProbe_adds { host with circuitBreaker } hsame hnotices id)
    | some registration => exact h registration { host with circuitBreaker } notices hsame hnotices

/-- Telling a guest of an event adds notices. -/
theorem adds_dispatchEvent (clock : ClockReadings) (id : ExtensionId) (event : ExtensionEvent) :
    Adds fun host : ExtensionHost ρ => host.dispatchEvent env machine clock id event := by
  refine adds_enter fun registration host notices hhost hnotices => ?_
  dsimp only
  split_ifs
  · exact Prod.ext rfl (releaseProbe_adds host hhost hnotices id)
  · cases checkInput id registration event with
    | error err => exact Prod.ext rfl (releaseProbe_adds host hhost hnotices id)
    | ok _ =>
      simp only [runtime_withNotices]
      generalize machine.dispatch host.runtime id event env.runtimeBudget = answered
      obtain ⟨err | operations, runtime⟩ := answered
      · exact Prod.ext rfl
          (recordFailure_adds { host with runtime } hhost hnotices clock.recorded id)
      · dsimp only
        split_ifs
        · exact Prod.ext rfl (recordSuccess_adds { host with runtime } hhost hnotices id)
        · exact Prod.ext rfl
            (recordFailure_adds { host with runtime } hhost hnotices clock.recorded id)

/-- Rendering a contribution adds notices. -/
theorem adds_renderView (clock : ClockReadings) (canonical : CanonicalId) :
    Adds fun host : ExtensionHost ρ => host.renderView env machine clock canonical := by
  simp only [renderView]
  refine adds_enter fun registration host notices hhost hnotices => ?_
  split_ifs
  · exact Prod.ext rfl (releaseProbe_adds host hhost hnotices canonical.extensionId)
  · simp only [runtime_withNotices]
    generalize machine.view host.runtime canonical.extensionId canonical.contributionId
      env.runtimeBudget = answered
    obtain ⟨err | view, runtime⟩ := answered
    · exact Prod.ext rfl (recordFailure_adds { host with runtime } hhost hnotices
        clock.recorded canonical.extensionId)
    · dsimp only
      split
      · exact Prod.ext rfl (recordFailure_adds { host with runtime } hhost hnotices
          clock.recorded canonical.extensionId)
      · exact Prod.ext rfl (recordSuccess_adds { host with runtime } hhost hnotices
          canonical.extensionId)

/-! ### Loading -/

/-- A call that may drop the notices about an extension. -/
def AddsSome (id : ExtensionId) (call : ExtensionHost ρ → α × ExtensionHost ρ) : Prop :=
  ∀ host, host.circuitBreaker.pendingNotices.length ≤ maxPendingNotices →
    Leaves (· = id) host.circuitBreaker.pendingNotices
        (call (host.withNotices [])).2.circuitBreaker.pendingNotices
        (call host).2.circuitBreaker.pendingNotices ∧
      (call host).2.circuitBreaker.pendingNotices.length ≤ maxPendingNotices

theorem leaves_recordFailure {host : ExtensionHost ρ}
    (hlength : host.circuitBreaker.pendingNotices.length ≤ maxPendingNotices) (now : ℕ)
    (id : ExtensionId) (runtime : ρ) :
    Leaves (· = id) host.circuitBreaker.pendingNotices
        ({ host.withNotices [] with runtime }.recordFailure now id).circuitBreaker.pendingNotices
        ({ host with runtime }.recordFailure now id).circuitBreaker.pendingNotices ∧
      ({ host with runtime }.recordFailure now id).circuitBreaker.pendingNotices.length ≤
        maxPendingNotices := by
  have hfails := recordFailure_adds { host.withNotices [] with runtime } rfl hlength now id
  have hhost : ExtensionHost.withNotices { host.withNotices [] with runtime }
    host.circuitBreaker.pendingNotices = { host with runtime } := rfl
  rw [hhost] at hfails
  rw [hfails, pendingNotices_withNotices]
  exact ⟨leaves_queued, length_queued_le⟩

theorem addsSome_register (now : ℕ) (manifest : ExtensionManifest) (module : T.Module)
    (grants : List Capability) :
    AddsSome manifest.id fun host : ExtensionHost ρ =>
      host.register env machine now manifest module grants := by
  intro host hlength
  simp only [register, registrations_withNotices, runtime_withNotices]
  split
  · exact ⟨leaves_same, hlength⟩
  obtain hthere | hthere := Bool.eq_false_or_eq_true (host.registrations.lookup manifest.id).isSome
  · simp only [hthere, if_true]
    exact ⟨leaves_same, hlength⟩
  simp only [hthere, Bool.false_eq_true, if_false]
  split
  · exact ⟨leaves_same, hlength⟩
  split
  case h_1 err runtime _ => exact leaves_recordFailure hlength now manifest.id runtime
  case h_2 => exact ⟨leaves_dropped manifest.id, (List.length_filter_le _ _).trans hlength⟩

theorem addsSome_replace (now : ℕ) (manifest : ExtensionManifest) (module : T.Module)
    (grants : List Capability) :
    AddsSome manifest.id fun host : ExtensionHost ρ =>
      host.replace env machine now manifest module grants := by
  intro host hlength
  simp only [replace, registrations_withNotices, runtime_withNotices]
  split
  · exact ⟨leaves_same, hlength⟩
  obtain hthere | hthere := Bool.eq_false_or_eq_true (host.registrations.lookup manifest.id).isNone
  · simp only [hthere, if_true]
    exact ⟨leaves_same, hlength⟩
  simp only [hthere, Bool.false_eq_true, if_false]
  split
  · exact ⟨leaves_same, hlength⟩
  split
  case h_1 err runtime _ => exact leaves_recordFailure hlength now manifest.id runtime
  case h_2 => exact ⟨leaves_dropped manifest.id, (List.length_filter_le _ _).trans hlength⟩

theorem addsSome_unregister (now : ℕ) (id : ExtensionId) :
    AddsSome id fun host : ExtensionHost ρ => host.unregister machine now id := by
  intro host hlength
  simp only [unregister, registrations_withNotices, runtime_withNotices]
  obtain hthere | hthere := Bool.eq_false_or_eq_true (host.registrations.lookup id).isNone
  · simp only [hthere, if_true]
    exact ⟨leaves_same, hlength⟩
  simp only [hthere, Bool.false_eq_true, if_false]
  split
  case h_1 err runtime _ => exact leaves_recordFailure hlength now id runtime
  case h_2 => exact ⟨leaves_dropped id, (List.length_filter_le _ _).trans hlength⟩

end ExtensionHost

end Shilpo.Extensions
