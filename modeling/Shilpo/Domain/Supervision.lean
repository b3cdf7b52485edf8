import Shilpo.Domain.Supervisor
import Shilpo.Theory.Runs

/-!
# Runs of a supervisor

What `DomainSupervisor` does over a whole sequence of calls. The failure window is a
pruned list of timestamps, which restarts keep and which a long run or a reset of the
quarantine empties. Over calls at non-decreasing times it is as good as the history:
what `record_failure` decides depends only on the failures since the last reset
(`failure_policy`). The same list is why quarantine is not sticky: it is judged again
from the window at each failure, however old what filled it is
(`sticky_iff_along`).
-/

namespace Shilpo.Domain

open Theory

/-- A call of the supervisor's API. -/
inductive SupervisorOp where
  | markStarting
  | markRunning (nowMs : ℕ)
  | recordFailure (nowMs : ℕ)
  | tick (nowMs : ℕ)
  | resetQuarantine
  | enterStopping
  | enterStopped
  deriving DecidableEq

namespace SupervisorOp

/-- The time the call is given, where it is given one. -/
def time? : SupervisorOp → Option ℕ
  | .markRunning nowMs | .recordFailure nowMs | .tick nowMs => some nowMs
  | _ => none

/-- The failure the call records. -/
def failure? : SupervisorOp → Option ℕ
  | .recordFailure nowMs => some nowMs
  | _ => none

/-- The calls that take a supervisor out of quarantine explicitly: a reset, a restart or a stop. -/
def isExplicitExit : SupervisorOp → Bool
  | .resetQuarantine | .markStarting | .enterStopping | .enterStopped => true
  | .markRunning _ | .recordFailure _ | .tick _ => false

end SupervisorOp

/-- The times of the calls do not decrease. -/
def NonDecreasing (ops : List SupervisorOp) : Prop :=
  (ops.filterMap SupervisorOp.time?).Pairwise (· ≤ ·)

instance (ops : List SupervisorOp) : Decidable (NonDecreasing ops) :=
  inferInstanceAs (Decidable (List.Pairwise _ _))

namespace DomainSupervisor

/-- One call. -/
def step (s : DomainSupervisor) : SupervisorOp → DomainSupervisor
  | .markStarting => s.markStarting
  | .markRunning nowMs => s.markRunning nowMs
  | .recordFailure nowMs => s.recordFailure nowMs
  | .tick nowMs => s.tick nowMs
  | .resetQuarantine => s.resetQuarantine.1
  | .enterStopping => s.enterStopping
  | .enterStopped => s.enterStopped

/-- The supervisor after the calls `ops`. -/
def after (ops : List SupervisorOp) : DomainSupervisor := run step new ops

@[simp] theorem after_nil : after [] = new := rfl

theorem after_append (ops ops' : List SupervisorOp) :
    after (ops ++ ops') = run step (after ops) ops' :=
  run_append ..

theorem after_snoc (ops : List SupervisorOp) (op : SupervisorOp) :
    after (ops ++ [op]) = (after ops).step op :=
  after_append ..

/-! ### Resets -/

/-- A tick at `nowMs` finds that the owner has been running for long enough. -/
def StableReset (s : DomainSupervisor) (nowMs : ℕ) : Prop :=
  s.state = .running ∧ ∃ ts ∈ s.lastRunningTimestampMs, ts + stableResetMs ≤ nowMs

/-- The call forgets the failures so far: a stable reset, or the reset of a quarantine. -/
def Resets (s : DomainSupervisor) : SupervisorOp → Prop
  | .tick nowMs => s.StableReset nowMs
  | .resetQuarantine => s.state = .quarantined
  | _ => False

/-- What a tick does to the failures. -/
theorem tick_failures (s : DomainSupervisor) (nowMs : ℕ) :
    s.StableReset nowMs ∧ (s.tick nowMs).failureTimestampsMs = [] ∨
      ¬ s.StableReset nowMs ∧ (s.tick nowMs).failureTimestampsMs = s.failureTimestampsMs := by
  obtain ⟨state, failures, last⟩ := s
  cases state with
  | running =>
    cases last with
    | none => exact .inr ⟨by simp [StableReset], rfl⟩
    | some ts =>
      by_cases h : stableResetMs ≤ nowMs - ts
      · refine .inl ⟨⟨rfl, ts, rfl, ?_⟩, by simp [tick, h]⟩
        unfold stableResetMs at h ⊢
        omega
      · refine .inr ⟨?_, by simp [tick, h]⟩
        rintro ⟨-, ts', hts, hle⟩
        cases hts
        omega
  | backoff attempt retryAtMs =>
    refine .inr ⟨by simp [StableReset], ?_⟩
    simp only [tick]
    split_ifs <;> rfl
  | starting | quarantined | stopping | stopped => exact .inr ⟨by simp [StableReset], rfl⟩

variable {op : SupervisorOp} {s : DomainSupervisor}

/-- A reset leaves no failures. -/
theorem step_resets (h : s.Resets op) :
    (s.step op).failureTimestampsMs = [] := by
  cases op with
  | tick nowMs =>
    rcases s.tick_failures nowMs with ⟨-, hf⟩ | ⟨hn, -⟩
    · exact hf
    · exact absurd h hn
  | resetQuarantine =>
    have hq : s.state = .quarantined := h
    simp [step, resetQuarantine, hq]
  | markStarting | markRunning _ | recordFailure _ | enterStopping | enterStopped => exact h.elim

/-- The failures that still count at `nowMs`. -/
def recent (nowMs : ℕ) (failures : List ℕ) : List ℕ :=
  failures.filter fun ts => nowMs - ts ≤ failureWindowMs

/-- Any other call keeps the failures, but for those too old to count, and adds its own. -/
theorem step_not_resets (h : ¬ s.Resets op) :
    (s.step op).failureTimestampsMs =
      match op with
      | .recordFailure nowMs => recent nowMs s.failureTimestampsMs ++ [nowMs]
      | _ => s.failureTimestampsMs := by
  cases op with
  | tick nowMs =>
    rcases s.tick_failures nowMs with ⟨hy, -⟩ | ⟨-, hf⟩
    · exact absurd hy h
    · exact hf
  | resetQuarantine =>
    have hq : s.state ≠ .quarantined := h
    simp [step, resetQuarantine, hq]
  | markStarting | markRunning _ | recordFailure _ | enterStopping | enterStopped => rfl

/-- The failures that count, but for those that will not count later, do not count later. -/
theorem recent_recent {nowMs laterMs : ℕ} (h : nowMs ≤ laterMs) (failures : List ℕ) :
    recent laterMs (recent nowMs failures) = recent laterMs failures := by
  unfold recent
  rw [List.filter_filter]
  refine List.filter_congr fun ts _ => ?_
  rw [← Bool.decide_and, decide_eq_decide]
  omega

/-- **The window and the history agree on what counts.** From an empty window, and as long as
variable {nowMs : ℕ} {ops : List SupervisorOp}

nothing resets it, the window has every failure recorded that counts at a later time. -/
theorem recent_failures (hs : s.failureTimestampsMs = [])
    (h : Along step (fun s op => ¬ s.Resets op) s ops)
    (hnow : ∀ t ∈ ops.filterMap SupervisorOp.time?, t ≤ nowMs) :
    recent nowMs (run step s ops).failureTimestampsMs =
      recent nowMs (ops.filterMap SupervisorOp.failure?) := by
  induction ops using List.reverseRecOn with
  | nil => rw [run_nil, hs]; rfl
  | append_singleton ops op ih =>
    obtain ⟨hops, hop, -⟩ := (along_append s ops [op]).mp h
    rw [List.filterMap_append, List.forall_mem_append] at hnow
    have ih := ih hops hnow.1
    rw [run_append, run_cons, run_nil, step_not_resets hop, List.filterMap_append]
    cases op with
    | recordFailure failedMs =>
      have hle : failedMs ≤ nowMs := hnow.2 failedMs (by simp [SupervisorOp.time?])
      simp only [recent, List.filter_append] at ih ⊢
      rw [← recent, recent, ← ih]
      congr 1
      exact recent_recent hle _
    | markStarting | markRunning _ | tick _ | resetQuarantine | enterStopping | enterStopped =>
      rwa [List.filterMap_cons_none rfl, List.filterMap_nil, List.append_nil]

/-! ### History -/

/-- A call that leaves the owner running started it, or found it running and changed nothing. -/
theorem step_running (h : (s.step op).state = .running) :
    (∃ ts, op = .markRunning ts ∧ (s.step op).lastRunningTimestampMs = some ts) ∨
      (∀ ts, op ≠ .markRunning ts) ∧ s.state = .running ∧
        (s.step op).lastRunningTimestampMs = s.lastRunningTimestampMs := by
  obtain ⟨state, failures, last⟩ := s
  cases op with
  | markRunning ts => exact .inl ⟨ts, rfl, rfl⟩
  | recordFailure nowMs =>
    simp only [step, recordFailure] at h
    split_ifs at h
  | tick nowMs =>
    refine .inr ⟨by simp, ?_⟩
    cases state with
    | running =>
      refine ⟨rfl, ?_⟩
      cases last with
      | none => rfl
      | some ts => simp only [step, tick]; split_ifs <;> rfl
    | backoff attempt retryAtMs => simp only [step, tick] at h; split_ifs at h
    | starting | quarantined | stopping | stopped => cases h
  | resetQuarantine =>
    refine .inr ⟨by simp, ?_⟩
    simp only [step, resetQuarantine] at h ⊢
    split_ifs at h ⊢ with hq
    exact ⟨h, rfl⟩
  | markStarting | enterStopping | enterStopped => cases h

/-- After `ops` the owner is running, and has been without interruption since it was marked so
at `ts`. -/
def RunningSince (ops : List SupervisorOp) (ts : ℕ) : Prop :=
  ∃ before since, ops = before ++ SupervisorOp.markRunning ts :: since ∧
    (∀ t, .markRunning t ∉ since) ∧
    Always step (fun s => s.state = .running) (after (before ++ [SupervisorOp.markRunning ts]))
      since

/-- What the supervisor remembers of it. -/
theorem runningSince_iff {ts : ℕ} :
    RunningSince ops ts ↔
      (after ops).state = .running ∧ (after ops).lastRunningTimestampMs = some ts := by
  induction ops using List.reverseRecOn with
  | nil =>
    constructor
    · rintro ⟨before, since, h, -⟩
      cases before <;> cases h
    · rintro ⟨h, -⟩
      cases h
  | append_singleton ops op ih =>
    constructor
    · rintro ⟨before, since, hsplit, hnone, hrun⟩
      rcases snoc_eq_append_cons hsplit with ⟨rfl, rfl, rfl⟩ | ⟨since, rfl, rfl⟩
      · rw [after_snoc]
        exact ⟨rfl, rfl⟩
      · have hrun' := (always_iff _ _).mp hrun
        have hprev := ih.mp ⟨before, since, rfl, fun t ht => hnone t (by simp [ht]),
          (always_iff _ _).mpr fun pre post hp => hrun' pre (post ++ [op]) (by simp [hp])⟩
        have hlast : (after ((before ++ SupervisorOp.markRunning ts :: since) ++ [op])).state =
            .running := by
          rw [List.append_assoc, List.cons_append, List.append_cons, after_append]
          exact hrun' (since ++ [op]) [] (by simp)
        rw [after_snoc] at hlast ⊢
        rcases step_running hlast with ⟨t, rfl, -⟩ | ⟨-, -, hts⟩
        · exact absurd (by simp) (hnone t)
        · exact ⟨hlast, hts.trans hprev.2⟩
    · rintro ⟨hstate, hts⟩
      rw [after_snoc] at hstate hts
      rcases step_running hstate with ⟨t, rfl, ht⟩ | ⟨hop, hrun, hsame⟩
      · obtain rfl : t = ts := Option.some_inj.mp (ht.symm.trans hts)
        refine ⟨ops, [], rfl, by simp, ?_⟩
        rw [Always, after_snoc]
        exact hstate
      · obtain ⟨before, since, rfl, hnone, hall⟩ := ih.mpr ⟨hrun, hsame.symm.trans hts⟩
        refine ⟨before, since ++ [op], by simp, ?_, ?_⟩
        · intro t ht
          rcases List.mem_append.mp ht with ht | ht
          · exact hnone t ht
          · exact hop t (List.mem_singleton.mp ht).symm
        · rw [always_iff] at hall ⊢
          intro pre post hp
          rcases post.eq_nil_or_concat with rfl | ⟨post, op', rfl⟩
          · rw [List.append_nil] at hp
            rw [← hp, ← after_append, List.append_assoc, List.singleton_append,
              ← List.cons_append, ← List.append_assoc, after_snoc]
            exact hstate
          · have hp' : since ++ [op] = (pre ++ post) ++ [op'] := by simpa using hp
            obtain ⟨rfl, -⟩ := List.append_inj' hp' rfl
            exact hall pre post rfl

/-- Of the calls `ops` so far, this next one forgets the failures: a tick that finds the owner has
been running for `STABLE_RESET_MS`, or the reset of a quarantine. -/
def ResetsAt (ops : List SupervisorOp) : SupervisorOp → Prop
  | .tick nowMs => ∃ ts, RunningSince ops ts ∧ ts + stableResetMs ≤ nowMs
  | .resetQuarantine => (after ops).state = .quarantined
  | _ => False

theorem resetsAt_iff :
    ResetsAt ops op ↔ (after ops).Resets op := by
  cases op with
  | tick nowMs =>
    simp only [ResetsAt, Resets, StableReset, runningSince_iff, Option.mem_def]
    constructor
    · rintro ⟨ts, ⟨hrun, hts⟩, hle⟩
      exact ⟨hrun, ts, hts, hle⟩
    · rintro ⟨hrun, ts, hts, hle⟩
      exact ⟨ts, ⟨hrun, hts⟩, hle⟩
  | resetQuarantine => exact Iff.rfl
  | markStarting | markRunning _ | recordFailure _ | enterStopping | enterStopped => exact Iff.rfl

/-- `since` are the calls of `ops` after the last that forgot the failures. -/
def SinceReset (ops since : List SupervisorOp) : Prop :=
  ∃ before, ops = before ++ since ∧
    (before = [] ∨ ∃ earlier op, before = earlier ++ [op] ∧ ResetsAt earlier op) ∧
    ∀ mid op later, since = mid ++ op :: later → ¬ ResetsAt (before ++ mid) op

theorem exists_sinceReset (ops : List SupervisorOp) : ∃ since, SinceReset ops since := by
  induction ops using List.reverseRecOn with
  | nil => exact ⟨[], [], rfl, .inl rfl, by simp⟩
  | append_singleton ops op ih =>
    by_cases hop : ResetsAt ops op
    · exact ⟨[], ops ++ [op], by simp, .inr ⟨ops, op, rfl, hop⟩, by simp⟩
    · obtain ⟨since, before, rfl, hbefore, hsince⟩ := ih
      refine ⟨since ++ [op], before, by simp, hbefore, ?_⟩
      intro mid op' later hsplit
      rcases snoc_eq_append_cons hsplit with ⟨-, rfl, rfl⟩ | ⟨later, -, rfl⟩
      · exact hop
      · exact hsince mid op' later rfl

/-- Every failure since the last reset that counts at a later time is in the window. -/
theorem recent_sinceReset {ops since : List SupervisorOp} (h : SinceReset ops since)
    (hnow : ∀ t ∈ ops.filterMap SupervisorOp.time?, t ≤ nowMs) :
    recent nowMs (after ops).failureTimestampsMs =
      recent nowMs (since.filterMap SupervisorOp.failure?) := by
  obtain ⟨before, rfl, hbefore, hsince⟩ := h
  rw [after_append]
  refine recent_failures ?_ ?_ ?_
  · rcases hbefore with rfl | ⟨earlier, op, rfl, hop⟩
    · rfl
    · rw [after_snoc]
      exact step_resets (resetsAt_iff.mp hop)
  · rw [along_iff]
    intro mid op later hsplit
    rw [← after_append, ← resetsAt_iff]
    exact hsince mid op later hsplit
  · intro t ht
    exact hnow t (by rw [List.filterMap_append]; exact List.mem_append_right _ ht)

/-! ### The failure policy -/

/-- How many failures were recorded by `ops` in the window that ends at `nowMs`. -/
def failuresWithin (nowMs : ℕ) (ops : List SupervisorOp) : ℕ :=
  (ops.filterMap SupervisorOp.failure?).countP fun ts => nowMs - failureWindowMs ≤ ts ∧ ts ≤ nowMs

/-- The state after a failure at `nowMs` that is the `attempt`-th to count. -/
def failureState (attempt nowMs : ℕ) : SupervisorState :=
  if quarantineFailures ≤ attempt then .quarantined
  else .backoff attempt
    (saturatingAdd nowMs (min maxBackoffMs (initialBackoffMs * 2 ^ (attempt - 1))))

/-- The cap on the exponent never shows: the delay is at its largest there. -/
theorem reconnectBackoffMs_eq (attempt : ℕ) :
    reconnectBackoffMs attempt = min maxBackoffMs (initialBackoffMs * 2 ^ (attempt - 1)) := by
  unfold reconnectBackoffMs
  rw [min_comm]
  rcases le_total (attempt - 1) 7 with h | h
  · rw [min_eq_left h]
  · rw [min_eq_right h]
    have hpow : 2 ^ 7 ≤ 2 ^ (attempt - 1) := Nat.pow_le_pow_right (by omega) h
    unfold maxBackoffMs initialBackoffMs
    omega

theorem recordFailure_state (s : DomainSupervisor) (nowMs : ℕ) :
    (s.recordFailure nowMs).state =
      failureState ((recent nowMs s.failureTimestampsMs).length + 1) nowMs := by
  simp only [recordFailure, failureState, ← reconnectBackoffMs_eq, List.length_append,
    List.length_singleton, recent]

theorem length_recent (hnow : ∀ t ∈ ops.filterMap SupervisorOp.time?, t ≤ nowMs) :
    (recent nowMs (ops.filterMap SupervisorOp.failure?)).length = failuresWithin nowMs ops := by
  rw [recent, failuresWithin, ← List.countP_eq_length_filter]
  refine List.countP_congr fun ts hts => ?_
  obtain ⟨op, hop, hf⟩ := List.mem_filterMap.mp hts
  have hle : ts ≤ nowMs := by
    refine hnow ts (List.mem_filterMap.mpr ⟨op, hop, ?_⟩)
    cases op with
    | recordFailure => exact hf
    | markStarting | markRunning _ | tick _ | resetQuarantine | enterStopping | enterStopped =>
      cases hf
  simp only [decide_eq_true_eq]
  omega

/-- **The failure policy.** In calls at non-decreasing times, each failure is judged by how many
failures, itself included, were recorded in the window that ends with it since the last reset; a
tick ends a backoff exactly when it is due; and a tick that empties the window finds that the
owner has been running without interruption for `STABLE_RESET_MS`. -/
theorem failure_policy {ops : List SupervisorOp} (h : NonDecreasing ops) :
    (∀ pre nowMs post, ops = pre ++ SupervisorOp.recordFailure nowMs :: post →
      (∃ since, SinceReset pre since) ∧ ∀ since, SinceReset pre since →
        (after (pre ++ [SupervisorOp.recordFailure nowMs])).state =
          failureState (failuresWithin nowMs since + 1) nowMs) ∧
    ∀ pre nowMs post, ops = pre ++ SupervisorOp.tick nowMs :: post →
      (∀ attempt retryAtMs, (after pre).state = .backoff attempt retryAtMs →
        ((after (pre ++ [SupervisorOp.tick nowMs])).state.isBackoff = false ↔ retryAtMs ≤ nowMs)) ∧
      ((after pre).failureTimestampsMs ≠ [] →
        (after (pre ++ [SupervisorOp.tick nowMs])).failureTimestampsMs = [] →
          ∃ ts, RunningSince pre ts ∧ ts + stableResetMs ≤ nowMs) := by
  constructor
  · rintro pre nowMs post rfl
    have hnow : ∀ t ∈ pre.filterMap SupervisorOp.time?, t ≤ nowMs := by
      rw [NonDecreasing, List.filterMap_append, List.pairwise_append] at h
      exact fun t ht => h.2.2 t ht nowMs (by simp [SupervisorOp.time?])
    refine ⟨exists_sinceReset pre, ?_⟩
    intro since hsince
    rw [after_snoc, step, recordFailure_state, recent_sinceReset hsince hnow, length_recent]
    obtain ⟨before, rfl, -⟩ := hsince
    intro t ht
    exact hnow t (by rw [List.filterMap_append]; exact List.mem_append_right _ ht)
  · rintro pre nowMs post -
    rw [after_snoc]
    constructor
    · intro attempt retryAtMs hb
      simp only [step, tick, hb]
      split_ifs with hdue
      · simpa [SupervisorState.isBackoff] using hdue
      · simpa [SupervisorState.isBackoff, hb] using hdue
    · intro hne hempty
      rcases (after pre).tick_failures nowMs with ⟨hreset, -⟩ | ⟨-, hsame⟩
      · exact (resetsAt_iff : ResetsAt pre (.tick nowMs) ↔ _).mpr hreset
      · exact absurd (hsame.symm.trans hempty) hne

/-- A failure so late that its retry would be due after the last time is retried at the last
time. -/
theorem retry_saturates :
    (after [.recordFailure (2 ^ 64 - 1)]).state ≠
      .backoff 1 (2 ^ 64 - 1 + min maxBackoffMs (initialBackoffMs * 2 ^ (1 - 1))) := by
  decide

/-- A restart keeps the failures: the third in the window waits a second. -/
theorem failure_policy_restart :
    (after [.recordFailure 1000, .recordFailure 2000, .markStarting, .recordFailure 3000]).state =
      failureState (failuresWithin 3000 [.recordFailure 1000, .recordFailure 2000, .markStarting] +
        1) 3000 := by
  have hops : NonDecreasing [.recordFailure 1000, .recordFailure 2000, .markStarting,
      .recordFailure 3000] := by
    decide
  refine ((failure_policy hops).1 [.recordFailure 1000, .recordFailure 2000, .markStarting] 3000 []
    rfl).2 _ ⟨[], rfl, .inl rfl, ?_⟩
  intro mid op later hsplit
  have hop : op ∈ [SupervisorOp.recordFailure 1000, .recordFailure 2000, .markStarting] := by
    rw [hsplit]
    simp
  fin_cases hop <;> exact id

/-! ### Quarantine -/

/-- Quarantine holds: whenever the supervisor is in quarantine, it is still there after any calls
that do not take it out explicitly. -/
def Sticky (s : DomainSupervisor) (ops : List SupervisorOp) : Prop :=
  ∀ pre mid post, ops = pre ++ mid ++ post → (run step s pre).state = .quarantined →
    (∀ op ∈ mid, op.isExplicitExit = false) → (run step s (pre ++ mid)).state = .quarantined

/-- The call cannot take the supervisor out of quarantine by itself: in quarantine the owner is
not marked running, and a failure finds four others that still count. -/
def KeepsQuarantine (s : DomainSupervisor) (op : SupervisorOp) : Prop :=
  s.state = .quarantined →
    match op with
    | .markRunning _ => False
    | .recordFailure nowMs => quarantineFailures ≤ (recent nowMs s.failureTimestampsMs).length + 1
    | _ => True

theorem step_quarantined (hs : s.state = .quarantined) (hop : op.isExplicitExit = false) :
    (s.step op).state = .quarantined ↔ s.KeepsQuarantine op := by
  simp only [KeepsQuarantine, hs, true_imp_iff]
  cases op with
  | markRunning nowMs => simp [step, markRunning]
  | recordFailure nowMs =>
    rw [step, recordFailure_state, failureState]
    split_ifs with h <;> simp [h]
  | tick nowMs => simp [step, tick, hs]
  | markStarting | resetQuarantine | enterStopping | enterStopped => cases hop

theorem keepsQuarantine_of_exit (hop : op.isExplicitExit = true) (s : DomainSupervisor) :
    s.KeepsQuarantine op := by
  intro _
  cases op with
  | markRunning | recordFailure | tick => cases hop
  | markStarting | resetQuarantine | enterStopping | enterStopped => trivial

/-- **When quarantine holds.** A run keeps to its quarantines exactly when no call of it takes the
supervisor out by itself. -/
theorem sticky_iff_along (ops : List SupervisorOp) :
    Sticky new ops ↔ Along step KeepsQuarantine new ops := by
  generalize new = s
  rw [along_iff]
  constructor
  · rintro h pre op post rfl hq
    cases hop : op.isExplicitExit with
    | true => exact keepsQuarantine_of_exit hop _ hq
    | false =>
      refine (step_quarantined hq hop).mp ?_ hq
      have := h pre [op] post (by simp) hq (by simpa using hop)
      rwa [run_append] at this
  · rintro h pre mid post rfl hq hmid
    induction mid using List.reverseRecOn generalizing post with
    | nil => rwa [List.append_nil]
    | append_singleton mid op ih =>
      rw [List.forall_mem_append, List.forall_mem_singleton] at hmid
      have hmidq := ih (op :: post) (fun p o t hp => h p o t (by simpa using hp)) hmid.1
      rw [← List.append_assoc, run_append, run_cons, run_nil]
      exact (step_quarantined hmidq hmid.2).mpr (h (pre ++ mid) op post (by simp))

/-- Five failures at once, and one long after. -/
def lateFailure : List SupervisorOp :=
  [.recordFailure 0, .recordFailure 1, .recordFailure 2, .recordFailure 3, .recordFailure 4,
    .recordFailure 100000]

/-- The fifth failure quarantines the owner, and the sixth schedules a retry. -/
theorem quarantine_lapses : NonDecreasing lateFailure ∧ ¬ Sticky new lateFailure := by
  refine ⟨by decide, ?_⟩
  rw [Sticky]
  intro h
  have hlast := h (lateFailure.take 5) (lateFailure.drop 5) [] rfl (by decide) (by decide)
  revert hlast
  decide

end DomainSupervisor

end Shilpo.Domain
