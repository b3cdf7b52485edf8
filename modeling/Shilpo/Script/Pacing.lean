import Shilpo.Script.Reconciliation
import Shilpo.Theory.Runs

/-!
# When scripts are run again

The calls of the manager, taken apart into what they do for one bundle, and what is seen of it then:
how many failures in a row, until when the last one lets the bundle wait, when its task was started
last, and whether its circuit has tripped. No task is started too early as long as no poll fails
whose backoff is longer than what is left of its interval: when a poll has ended, the time of the
next one is set in any case, over that of the backoff (`paced_of_patient`).
-/

namespace Shilpo.Script

open Config (PathBuf)
open Extensions Theory

variable {View : Type}

/-! ### Small steps -/

/-- What a call of the manager does next. -/
inductive PaceAct where
  /-- An event of a task, in the tick at a time, and the time at which a record is looked at. -/
  | handle (id : ExtensionId) (now : ℕ) (event : TaskEvent × ℕ)
  | schedule (id : ExtensionId) (now : ℕ)
  | note (diagnostics : List String)
  | prune (disk : Disk) (id : ExtensionId)
  | consider (active : List ExtensionId) (now : ℕ) (id : ExtensionId)
      (entries : List (ScriptManifest × PathBuf))
  | shutdown

/-- The time at which it is done, if it reads the clock. -/
def PaceAct.now : PaceAct → Option ℕ
  | .handle _ now _ | .schedule _ now | .consider _ now _ _ => some now
  | _ => none

namespace ScriptRuntime

variable (decoders : Decoders View) (rt : ScriptRuntime View)

def paceStep : PaceAct → ScriptRuntime View
  | .handle id now event => rt.handleEvent decoders id now event
  | .schedule id now => rt.schedule id now
  | .note diagnostics => { rt with sourceDiagnostics := diagnostics }
  | .prune disk id => rt.prune disk disk.scan id
  | .consider active now id entries => rt.consider active now id entries
  | .shutdown => rt.shutdown

/-- A tick's turn for one bundle. -/
def visitActs (tick : Tick) (id : ExtensionId) : List PaceAct :=
  let events :=
    match rt.bundles.lookup id with
    | some state => if state.task.isSome then tick.received id else []
    | none => []
  events.map (.handle id tick.now) ++ [PaceAct.schedule id tick.now]

/-- A tick. -/
def tickActs (tick : Tick) : List PaceAct :=
  expand (fun rt id => rt.visit decoders tick id) (fun rt id => rt.visitActs tick id) rt
    rt.bundles.keys

/-- A reconciliation, before its tick. -/
def adoptActs (active : List ExtensionId) (disk : Disk) (now : ℕ) : List PaceAct :=
  PaceAct.note disk.scan.diagnostics :: rt.bundles.keys.map (.prune disk) ++
    disk.scan.candidates.entries.map fun entry => PaceAct.consider active now entry.1 entry.2

def opActs : ScriptOp → List PaceAct
  | .reconcile active disk now tick =>
    rt.adoptActs active disk now ++ (rt.adopt active disk now).tickActs decoders tick
  | .tick tick => rt.tickActs decoders tick
  | .shutdown => [.shutdown]

theorem visit_eq_run (tick : Tick) (id : ExtensionId) :
    rt.visit decoders tick id = run (paceStep decoders) rt (rt.visitActs tick id) := by
  simp only [visit, visitActs, run_append]
  rw [run_map]
  rfl

theorem tick_eq_run (tick : Tick) :
    rt.tick decoders tick = run (paceStep decoders) rt (rt.tickActs decoders tick) :=
  (run_expand (fun rt id => rt.visit_eq_run decoders tick id) rt rt.bundles.keys).symm

theorem adopt_eq_run (active : List ExtensionId) (disk : Disk) (now : ℕ) :
    rt.adopt active disk now = run (paceStep decoders) rt (rt.adoptActs active disk now) := by
  simp only [adopt, adoptActs, List.cons_append, run_cons, run_append]
  rw [run_map, run_map]
  rfl

/-- The calls do what their small steps do. -/
theorem step_eq_run (op : ScriptOp) :
    rt.step decoders op = run (paceStep decoders) rt (rt.opActs decoders op) := by
  cases op with
  | reconcile active disk now tick =>
    rw [opActs, run_append, ← adopt_eq_run, ← tick_eq_run]
    rfl
  | tick tick => exact rt.tick_eq_run decoders tick
  | shutdown => rfl

end ScriptRuntime

/-! ### What is seen of a bundle -/

/-- The event of a task that polls. -/
def TaskEvent.isPoll : TaskEvent → Bool
  | .pollFinished _ => true
  | _ => false

/-- What an event tells of a bundle. -/
inductive Verdict where
  | accepted
  | failed (time : ℕ)
  | nothing
  deriving DecidableEq

/-- When a failure is observed. -/
def Verdict.failure : Verdict → Option ℕ
  | failed time => some time
  | _ => none

namespace ScriptRuntime

variable (decoders : Decoders View) (rt : ScriptRuntime View)

/-- A record that is accepted, or a failure and when it is observed. -/
def verdict (id : ExtensionId) (now : ℕ) (event : TaskEvent × ℕ) : Verdict :=
  match event.1.outcome decoders.lossy with
  | .record bytes =>
    match rt.bundles.lookup id with
    | some state =>
      match decoders.record state.manifest bytes with
      | .ok _ => .accepted
      | .error _ => .failed event.2
    | none => .nothing
  | .failure _ => .failed now
  | .nothing => .nothing

end ScriptRuntime

/-- What is seen of the bundle with an id. -/
structure Watch where
  /-- The failures since a record was accepted, or the bundle was installed. -/
  failures : ℕ
  /-- Until when the last of these lets it wait. -/
  owed : ℕ
  lastStart : Option ℕ
  tripped : Bool

namespace Watch

def new : Watch := ⟨0, 0, none, false⟩

def judge (watch : Watch) : Verdict → Watch
  | .accepted => { watch with failures := 0, owed := 0 }
  | .failed time =>
    { watch with
      failures := watch.failures + 1
      owed := time + failureBackoff (watch.failures + 1) }
  | .nothing => watch

end Watch

/-- The manager, the time, and what has been seen. -/
structure WatchedRuntime (View : Type) where
  runtime : ScriptRuntime View
  clock : ℕ
  watch : ExtensionId → Watch

namespace WatchedRuntime

variable (decoders : Decoders View) (s : WatchedRuntime View)

def new : WatchedRuntime View := ⟨.new, 0, fun _ => .new⟩

/-- What is seen of a bundle in a step. What is installed or removed is seen anew. -/
def observe (act : PaceAct) (id : ExtensionId) : Watch :=
  let watch := s.watch id
  let later := s.runtime.paceStep decoders act
  match act with
  | .handle handled now event =>
    if id = handled then
      { watch.judge (s.runtime.verdict decoders id now event) with
        tripped := watch.tripped || isTripped later.breaker id }
    else watch
  | .schedule scheduled now =>
    if id = scheduled ∧ s.runtime.shouldStart id now then { watch with lastStart := some now }
    else watch
  | _ => if later.source id = s.runtime.source id then watch else .new

def step (s : WatchedRuntime View) (act : PaceAct) : WatchedRuntime View where
  runtime := s.runtime.paceStep decoders act
  clock := act.now.getD s.clock
  watch := s.observe decoders act

/-- The clock does not go back, and an event is one of a bundle's task, and of those that a task of
its mode sends. -/
def Possible (act : PaceAct) : Prop :=
  (∀ now ∈ act.now, s.clock ≤ now) ∧
    match act with
    | .handle id _ event => ∃ state ∈ s.runtime.bundles.lookup id,
      (event.1.isPoll = true ↔ state.manifest.runtime.mode = .poll)
    | _ => True

/-- A task is only started when its bundle has waited long enough, after its last failure and after
its last poll, and while its circuit has not tripped since it was installed. -/
def Paced (act : PaceAct) : Prop :=
  match act with
  | .schedule id now => s.runtime.shouldStart id now = true →
    (s.watch id).owed ≤ now ∧
    (∀ state ∈ s.runtime.bundles.lookup id, state.manifest.runtime.mode = .poll →
      ∀ last ∈ (s.watch id).lastStart, last + state.interval ≤ now) ∧
    isTripped s.runtime.breaker id = false ∧ (s.watch id).tripped = false
  | _ => True

/-- A poll that fails trips the circuit, or none is due yet, and the backoff is over when the
interval is. -/
def Patient (act : PaceAct) : Prop :=
  match act with
  | .handle id now event => ∀ state ∈ s.runtime.bundles.lookup id, event.1.isPoll = true →
    ∀ time ∈ (s.runtime.verdict decoders id now event).failure,
      isTripped (s.runtime.breaker.recordFailure time id).1 id = true ∨
        state.pendingPoll = false ∧
          time + failureBackoff (state.failureCount + 1) ≤ now + state.interval
  | _ => True

instance : ∀ act, Decidable (s.Possible act)
  | .handle .. => inferInstanceAs (Decidable (_ ∧ _))
  | .schedule .. | .note _ | .prune .. | .consider .. | .shutdown =>
    inferInstanceAs (Decidable (_ ∧ True))

instance : ∀ act, Decidable (s.Paced act)
  | .schedule .. => inferInstanceAs (Decidable (_ → _))
  | .handle .. | .note _ | .prune .. | .consider .. | .shutdown => .isTrue trivial

instance : ∀ act, Decidable (s.Patient decoders act)
  | .handle .. => inferInstanceAs (Decidable (∀ _ ∈ _, _))
  | .schedule .. | .note _ | .prune .. | .consider .. | .shutdown => .isTrue trivial

end WatchedRuntime

/-! ### Circuits -/

section

variable {breaker : CircuitBreaker} {id id' : ExtensionId} {time : ℕ}

theorem isTripped_iff : isTripped breaker id = true ↔
    (∃ trips retryAt delay, breaker.state id = some (.opened trips retryAt delay)) ∨
      ∃ trips, breaker.state id = some (.permanentlyDisabled trips) := by
  rw [isTripped]
  split <;> simp_all

/-- The circuits of others stay. -/
theorem isTripped_congr {later : CircuitBreaker} (h : later.state id = breaker.state id) :
    isTripped later id = isTripped breaker id := by
  rw [isTripped, isTripped, h]

/-- A circuit that has tripped does not close by what a task sends. -/
theorem isTripped_recordFailure_of_isTripped (h : isTripped breaker id = true) :
    isTripped (breaker.recordFailure time id').1 id = true := by
  by_cases hid : id' = id
  · rw [isTripped_iff] at h ⊢
    rw [CircuitBreaker.state_recordFailure, if_pos hid]
    obtain ⟨trips, retryAt, delay, hstate⟩ | ⟨trips, hstate⟩ := h
    · exact .inl ⟨trips, retryAt, delay, by rw [hstate]; rfl⟩
    · exact .inr ⟨trips, by rw [hstate]; rfl⟩
  · rwa [isTripped_congr]
    rw [CircuitBreaker.state_recordFailure, if_neg hid]

theorem isTripped_recordSuccess_of_isTripped (h : isTripped breaker id = true) :
    isTripped (breaker.recordSuccess id') id = true := by
  by_cases hid : id' = id
  · rw [isTripped_iff] at h ⊢
    rw [CircuitBreaker.state_recordSuccess, if_pos hid]
    obtain ⟨trips, retryAt, delay, hstate⟩ | ⟨trips, hstate⟩ := h
    · exact .inl ⟨trips, retryAt, delay, by rw [hstate]; rfl⟩
    · exact .inr ⟨trips, by rw [hstate]; rfl⟩
  · rwa [isTripped_congr]
    rw [CircuitBreaker.state_recordSuccess, if_neg hid]

theorem isTripped_reset_of_ne (hne : id ≠ id') :
    isTripped (breaker.reset id') id = isTripped breaker id := by
  refine isTripped_congr ?_
  exact (CircuitBreaker.state_insert breaker id id' (.closed 0)).trans (if_neg (Ne.symm hne))

end

/-! ### What an event does -/

namespace Verdict

/-- The failures in a row, as the manager counts them. -/
def failureCount (count : ℕ) : Verdict → ℕ
  | accepted => 0
  | failed _ => min (count + 1) (2 ^ 32 - 1)
  | nothing => count

/-- What is left of the time of the next task until it is scheduled. -/
def nextRun (state : ScriptBundleState View) : Verdict → ℕ
  | failed time => time + failureBackoff (min (state.failureCount + 1) (2 ^ 32 - 1))
  | _ => state.nextRun

def breaker (breaker : CircuitBreaker) (id : ExtensionId) : Verdict → CircuitBreaker
  | accepted => breaker.recordSuccess id
  | failed time => (breaker.recordFailure time id).1
  | nothing => breaker

end Verdict

/-- A verdict does not change the circuits of others. -/
theorem isTripped_breaker_of_ne {breaker : CircuitBreaker} {id id' : ExtensionId} (hne : id' ≠ id)
    (verdict : Verdict) : isTripped (verdict.breaker breaker id) id' = isTripped breaker id' := by
  refine isTripped_congr ?_
  cases verdict with
  | accepted => exact (breaker.state_recordSuccess id' id).trans (if_neg (Ne.symm hne))
  | failed time => exact (breaker.state_recordFailure time id' id).trans (if_neg (Ne.symm hne))
  | nothing => rfl

namespace ScriptRuntime

variable {decoders : Decoders View} {rt : ScriptRuntime View}

variable {state : ScriptBundleState View}

theorem lookup_modify_self {id : ExtensionId} (hstate : rt.bundles.lookup id = some state)
    (f : ScriptBundleState View → ScriptBundleState View) :
    (rt.modify id f).bundles.lookup id = some (f state) := by
  simp only [modify, hstate]
  exact AList.lookup_insert _

theorem lookup_modify_of_ne {id id' : ExtensionId} (hne : id' ≠ id)
    (f : ScriptBundleState View → ScriptBundleState View) :
    (rt.modify id f).bundles.lookup id' = rt.bundles.lookup id' := by
  simp only [modify]
  cases rt.bundles.lookup id with
  | none => rfl
  | some state => exact AList.lookup_insert_ne hne

theorem breaker_modify (rt : ScriptRuntime View) (id : ExtensionId)
    (f : ScriptBundleState View → ScriptBundleState View) :
    (rt.modify id f).breaker = rt.breaker := by
  simp only [modify]
  split <;> rfl

/-- An event has been counted: of the bundle only what the verdict says has changed. -/
structure Counted (rt : ScriptRuntime View) (id : ExtensionId) (state : ScriptBundleState View)
    (verdict : Verdict) (after : ScriptRuntime View) : Prop where
  own : ∃ later, after.bundles.lookup id = some later ∧ later.source = state.source ∧
    later.pendingPoll = state.pendingPoll ∧
    later.failureCount = verdict.failureCount state.failureCount ∧
    later.nextRun = verdict.nextRun state
  others : ∀ id', id' ≠ id → after.bundles.lookup id' = rt.bundles.lookup id'
  breaker : after.breaker = verdict.breaker rt.breaker id

theorem counted_countFailure {id : ExtensionId} (hstate : rt.bundles.lookup id = some state)
    (message : String) (time : ℕ) :
    Counted rt id state (.failed time) (rt.countFailure id message time).1 where
  own := ⟨_, lookup_modify_self hstate _, rfl, rfl, rfl, rfl⟩
  others id' hne := lookup_modify_of_ne hne _
  breaker := by
    simp only [countFailure, breaker_modify]
    rfl

theorem counted_count (decoders : Decoders View) {id : ExtensionId}
    (hstate : rt.bundles.lookup id = some state) (now : ℕ) (event : TaskEvent × ℕ) :
    Counted rt id state (rt.verdict decoders id now event)
      (rt.count decoders id now event.2 (event.1.outcome decoders.lossy)).1 := by
  rw [verdict]
  cases event.1.outcome decoders.lossy with
  | nothing => exact ⟨⟨state, hstate, rfl, rfl, rfl, rfl⟩, fun _ _ => rfl, rfl⟩
  | failure message => exact counted_countFailure hstate message now
  | record bytes =>
    simp only [count, countRecord, hstate]
    cases decoders.record state.manifest bytes with
    | error error => exact counted_countFailure hstate error event.2
    | ok accepted =>
      exact ⟨⟨_, lookup_modify_self hstate _, rfl, rfl, rfl, rfl⟩,
        fun id' hne => lookup_modify_of_ne hne _, rfl⟩

/-- A bundle after an event. -/
structure Handled (rt : ScriptRuntime View) (id : ExtensionId) (state : ScriptBundleState View)
    (verdict : Verdict) (now : ℕ) (event : TaskEvent) (after : ScriptRuntime View) : Prop where
  own : ∃ later, after.bundles.lookup id = some later ∧ later.source = state.source ∧
    later.failureCount = verdict.failureCount state.failureCount ∧
    (event.isPoll = true →
      later.pendingPoll = false ∧
      later.nextRun = if state.pendingPoll then now else now + state.interval) ∧
    (event.isPoll = false → later.pendingPoll = state.pendingPoll ∧
      later.nextRun = verdict.nextRun state)
  others : ∀ id', id' ≠ id → after.bundles.lookup id' = rt.bundles.lookup id'
  breaker : after.breaker = verdict.breaker rt.breaker id

/-- Of the bundle only the task has changed. -/
structure Detached (rt : ScriptRuntime View) (id : ExtensionId) (state : ScriptBundleState View)
    (after : ScriptRuntime View) : Prop where
  own : ∃ task, after.bundles.lookup id = some { state with task }
  others : ∀ id', id' ≠ id → after.bundles.lookup id' = rt.bundles.lookup id'
  breaker : after.breaker = rt.breaker

theorem detached_ite {id : ExtensionId} (hstate : rt.bundles.lookup id = some state) (c : Bool) :
    Detached rt id state (if c then rt.modify id ({ · with task := none }) else rt) := by
  cases c with
  | true =>
    exact ⟨⟨none, lookup_modify_self hstate _⟩, fun id' hne => lookup_modify_of_ne hne _,
      breaker_modify _ _ _⟩
  | false => exact ⟨⟨state.task, hstate⟩, fun _ _ => rfl, rfl⟩

theorem verdict_detached (decoders : Decoders View) {id : ExtensionId} {after : ScriptRuntime View}
    (hstate : rt.bundles.lookup id = some state) (h : Detached rt id state after) (now : ℕ)
    (event : TaskEvent × ℕ) :
    after.verdict decoders id now event = rt.verdict decoders id now event := by
  obtain ⟨task, hown⟩ := h.own
  simp only [verdict, hstate, hown]

theorem counted_of_detached (decoders : Decoders View) {id : ExtensionId}
    {finished : ScriptRuntime View} (hstate : rt.bundles.lookup id = some state)
    (h : Detached rt id state finished) (now : ℕ) (event : TaskEvent × ℕ) :
    Counted rt id state (rt.verdict decoders id now event)
      (finished.count decoders id now event.2 (event.1.outcome decoders.lossy)).1 := by
  have hverdict := verdict_detached decoders hstate h now event
  obtain ⟨⟨task, hown⟩, hothers, hbreaker⟩ := h
  obtain ⟨hcounted, hcountOthers, hcountBreaker⟩ :=
    counted_count decoders hown now event
  rw [hverdict] at hcounted hcountBreaker
  exact ⟨hcounted, fun id' hne => (hcountOthers id' hne).trans (hothers id' hne),
    hcountBreaker.trans (by rw [hbreaker])⟩

/-- After the event of a poll its next time is set, whatever there was. -/
theorem handled_settle {id : ExtensionId} {verdict : Verdict} {counted stopped : ScriptRuntime View}
    (hcounted : Counted rt id state verdict counted)
    (hstopped : ∀ later, counted.bundles.lookup id = some later → Detached counted id later stopped)
    (now : ℕ) (event : TaskEvent) :
    Handled rt id state verdict now event (stopped.settle id now event) := by
  obtain ⟨⟨later, hlater, hsource, hpending, hfailures, hnext⟩, hcountOthers, hcountBreaker⟩ :=
    hcounted
  obtain ⟨⟨task, hown⟩, hothers, hbreaker⟩ := hstopped later hlater
  have hinterval : later.interval = state.interval := by
    have hmanifest : later.manifest = state.manifest := congrArg Prod.fst hsource
    rw [ScriptBundleState.interval, ScriptBundleState.interval, hmanifest]
  cases event with
  | pollFinished result =>
    refine ⟨⟨_, lookup_modify_self hown _, hsource, hfailures, fun _ => ⟨rfl, ?_⟩, fun h => ?_⟩,
      fun id' hne => ?_, ?_⟩
    · show (if later.pendingPoll then now else now + later.interval) = _
      rw [hpending, hinterval]
    · cases h
    · exact (lookup_modify_of_ne hne _).trans ((hothers id' hne).trans (hcountOthers id' hne))
    · exact (breaker_modify _ _ _).trans (hbreaker.trans hcountBreaker)
  | streamRecord | streamStopped =>
    refine ⟨⟨_, hown, hsource, hfailures, (fun h => by cases h),
      fun _ => ⟨hpending, hnext⟩⟩, fun id' hne => (hothers id' hne).trans (hcountOthers id' hne),
      hbreaker.trans hcountBreaker⟩

theorem handled_handleEvent (decoders : Decoders View) {id : ExtensionId}
    (hstate : rt.bundles.lookup id = some state) (now : ℕ) (event : TaskEvent × ℕ) :
    Handled rt id state (rt.verdict decoders id now event) now event.1
      (rt.handleEvent decoders id now event) := by
  have hfinish := detached_ite hstate event.1.isFinal
  have hcounted := counted_of_detached decoders hstate hfinish now event
  exact handled_settle hcounted (fun later hlater => detached_ite hlater _) now event.1

/-! ### What a reconciliation does -/

/-- A bundle is left alone, or it is gone or installed at a time. -/
structure Installed (rt after : ScriptRuntime View) (now : Option ℕ) (id : ExtensionId) : Prop where
  same : after.source id = rt.source id → after.bundles.lookup id = rt.bundles.lookup id ∧
    isTripped after.breaker id = isTripped rt.breaker id
  other : after.source id ≠ rt.source id → ∀ state, after.bundles.lookup id = some state →
    state.failureCount = 0 ∧ state.pendingPoll = false ∧ now = some state.nextRun

section

variable {after : ScriptRuntime View} {id : ExtensionId}

theorem installed_of_same (hlookup : after.bundles.lookup id = rt.bundles.lookup id)
    (htripped : isTripped after.breaker id = isTripped rt.breaker id) (now : Option ℕ) :
    Installed rt after now id where
  same _ := ⟨hlookup, htripped⟩
  other hne := absurd (by rw [source, source, hlookup]) hne

theorem installed_of_none (hnone : after.bundles.lookup id = none)
    (htripped : rt.bundles.lookup id = none →
      isTripped after.breaker id = isTripped rt.breaker id) (now : Option ℕ) :
    Installed rt after now id where
  same heq := by
    have hbefore : rt.bundles.lookup id = none := by
      rw [source, source, hnone] at heq
      exact Option.map_eq_none_iff.mp heq.symm
    exact ⟨hnone.trans hbefore.symm, htripped hbefore⟩
  other _ state hstate := by
    rw [hnone] at hstate
    cases hstate

/-- The bundle starts anew. -/
theorem installed_of_new {now : ℕ} {state : ScriptBundleState View}
    (hne : rt.source id ≠ some state.source) (hlookup : after.bundles.lookup id = some state)
    (hfailures : state.failureCount = 0) (hpending : state.pendingPoll = false)
    (hnext : state.nextRun = now) : Installed rt after (some now) id where
  same heq := by
    rw [source, hlookup] at heq
    exact absurd heq.symm hne
  other _ found hfound := by
    obtain rfl := Option.some.inj (hlookup.symm.trans hfound)
    exact ⟨hfailures, hpending, by rw [hnext]⟩

end

theorem installed_prune (disk : Disk) (id : ExtensionId) (now : Option ℕ) (id' : ExtensionId) :
    Installed rt (rt.prune disk disk.scan id) now id' := by
  rw [prune]
  split_ifs with hgone
  · by_cases hid : id' = id
    · subst hid
      refine installed_of_none (AList.lookup_erase _ _) (fun hnone => ?_) now
      rw [isGone, hnone] at hgone
      cases hgone
    · exact installed_of_same (AList.lookup_erase_ne hid) (isTripped_reset_of_ne hid) now
  · exact installed_of_same rfl rfl now

theorem installed_replace (now : ℕ) (id : ExtensionId) (manifest : ScriptManifest)
    (root : PathBuf) (id' : ExtensionId) :
    Installed rt (rt.replace id manifest root now) (some now) id' := by
  rw [replace]
  cases hlookup : rt.bundles.lookup id with
  | none =>
    by_cases hid : id' = id
    · subst hid
      refine installed_of_new ?_ (AList.lookup_insert _) rfl rfl rfl
      rw [source, hlookup]
      exact Option.some_ne_none _ |>.symm
    · refine installed_of_same ?_ ?_ _
      · exact AList.lookup_insert_ne hid
      · rfl
  | some state =>
    simp only
    split_ifs with hsame
    · exact installed_of_same rfl rfl _
    · by_cases hid : id' = id
      · subst hid
        refine installed_of_new ?_ (AList.lookup_insert _) rfl rfl rfl
        rw [source, hlookup]
        intro heq
        have hsource : (state.manifest, state.bundleRoot) = (manifest, root) := Option.some.inj heq
        exact hsame (Prod.mk.inj hsource)
      · exact installed_of_same (AList.lookup_insert_ne hid) (isTripped_reset_of_ne hid) _

theorem installed_consider (active : List ExtensionId) (now : ℕ) (id : ExtensionId)
    (entries : List (ScriptManifest × PathBuf)) (id' : ExtensionId) :
    Installed rt (rt.consider active now id entries) (some now) id' := by
  simp only [consider]
  split_ifs with hactive
  · by_cases hid : id' = id
    · subst hid
      refine installed_of_none ?_ (fun _ => ?_) _
      · exact AList.lookup_erase _ _
      · rfl
    · refine installed_of_same ?_ ?_ _
      · exact AList.lookup_erase_ne hid
      · rfl
  · split
    · exact installed_replace now id _ _ id'
    · refine installed_of_same ?_ ?_ _ <;> rfl

theorem installed_shutdown (now : Option ℕ) (id : ExtensionId) :
    Installed rt rt.shutdown now id := by
  refine installed_of_none ?_ (fun _ => ?_) now
  · exact AList.lookup_empty _
  · rfl

end ScriptRuntime

/-! ### The invariant -/

namespace WatchedRuntime

/-- What the manager's own state says of what has been seen of a bundle. -/
structure BundleInv (clock : ℕ) (watch : Watch) (tripped : Bool)
    (state : ScriptBundleState View) : Prop where
  failures : state.failureCount = min watch.failures (2 ^ 32 - 1)
  owed : watch.owed ≤ state.nextRun ∨ tripped = true
  soon : state.manifest.runtime.mode = .poll → state.nextRun ≤ clock + state.interval
  pending : state.manifest.runtime.mode = .poll → state.pendingPoll = true →
    state.nextRun ≤ clock ∧ state.task.isSome = true
  last : state.manifest.runtime.mode = .poll → ∀ last ∈ watch.lastStart,
    last ≤ clock ∧ last + state.interval ≤ state.nextRun

structure Inv (s : WatchedRuntime View) : Prop where
  bundle : ∀ id state, s.runtime.bundles.lookup id = some state →
    BundleInv s.clock (s.watch id) (isTripped s.runtime.breaker id) state
  tripped : ∀ id, (s.watch id).tripped = true → isTripped s.runtime.breaker id = true

variable {s : WatchedRuntime View}

theorem inv_new : (new : WatchedRuntime View).Inv := by
  refine ⟨fun id state h => ?_, fun id h => by cases h⟩
  simp [new, ScriptRuntime.new] at h

theorem paced_of_inv (h : s.Inv) (act : PaceAct) : s.Paced act := by
  cases act with
  | schedule id now =>
    intro hstart
    rw [ScriptRuntime.shouldStart] at hstart
    cases hstate : s.runtime.bundles.lookup id with
    | none => simp [hstate] at hstart
    | some state =>
      simp only [hstate, Bool.and_eq_true, Bool.not_eq_true', decide_eq_true_eq] at hstart
      obtain ⟨⟨-, hdue⟩, hclosed⟩ := hstart
      obtain ⟨-, howed, -, -, hlast⟩ := h.bundle id state hstate
      refine ⟨?_, ?_, hclosed, ?_⟩
      · obtain howed | htripped := howed
        · exact howed.trans hdue
        · rw [hclosed] at htripped
          cases htripped
      · intro found hfound hmode last hmem
        obtain rfl := Option.some.inj hfound
        exact (hlast hmode last hmem).2.trans hdue
      · by_contra htripped
        rw [h.tripped id (Bool.eq_true_of_not_eq_false htripped)] at hclosed
        cases hclosed
  | _ => trivial

theorem failureBackoff_of_le {n : ℕ} (h : 3 ≤ n) : failureBackoff n = 4 * second := by
  rw [failureBackoff.eq_3]
  · omega
  · omega

/-- The count stops far beyond the last backoff. -/
theorem failureBackoff_count {count failures cap : ℕ} (hcap : 3 ≤ cap)
    (h : count = min failures cap) :
    failureBackoff (count + 1) = failureBackoff (failures + 1) ∧
      failureBackoff (min (count + 1) cap) = failureBackoff (failures + 1) := by
  by_cases hfailures : failures + 1 ≤ cap
  · rw [h, min_eq_left (by omega), min_eq_left hfailures]
    exact ⟨rfl, rfl⟩
  · rw [failureBackoff_of_le (by omega), failureBackoff_of_le (by omega),
      failureBackoff_of_le (by omega)]
    exact ⟨rfl, rfl⟩

variable {watch : Watch}

/-- Each failure is counted, up to the cap. -/
theorem failureCount_judge {count cap : ℕ} (h : count = min watch.failures cap) :
    min (count + 1) cap = min (watch.failures + 1) cap := by
  omega

theorem three_le_cap : 3 ≤ 2 ^ 32 - 1 := by norm_num

variable {state : ScriptBundleState View} {tripped : Bool}

/-- Later the invariant still holds. -/
theorem BundleInv.later {clock clock' : ℕ} (h : BundleInv clock watch tripped state)
    (hclock : clock ≤ clock') : BundleInv clock' watch tripped state := by
  obtain ⟨hfailures, howed, hsoon, hpending, hlast⟩ := h
  refine ⟨hfailures, howed, fun hmode => ?_, fun hmode hpoll => ?_, fun hmode last hmem => ?_⟩
  · have := hsoon hmode
    omega
  · obtain ⟨hdue, htask⟩ := hpending hmode hpoll
    exact ⟨hdue.trans hclock, htask⟩
  · obtain ⟨hbefore, hinterval⟩ := hlast hmode last hmem
    exact ⟨hbefore.trans hclock, hinterval⟩

/-- Whether a trip has been seen does not matter to the bundle. -/
theorem BundleInv.retag {clock : ℕ} (h : BundleInv clock watch tripped state) (seen : Bool) :
    BundleInv clock { watch with tripped := seen } tripped state :=
  ⟨h.failures, h.owed, h.soon, h.pending, h.last⟩

variable {clock now : ℕ}

/-- What a failure or a record leaves of a bundle that is not polled. -/
theorem BundleInv.stream {tripped tripped' : Bool} {state later : ScriptBundleState View}
    {verdict : Verdict} (h : BundleInv clock watch tripped state)
    (htripped : tripped = true → tripped' = true) (hmode : state.manifest.runtime.mode ≠ .poll)
    (hsource : later.source = state.source)
    (hfailures : later.failureCount = verdict.failureCount state.failureCount)
    (hnext : later.nextRun = verdict.nextRun state) :
    BundleInv now (watch.judge verdict) tripped' later := by
  have hmode' : later.manifest.runtime.mode ≠ .poll := by
    have hmanifest : later.manifest = state.manifest := congrArg Prod.fst hsource
    rwa [hmanifest]
  refine ⟨?_, ?_, fun h => absurd h hmode', fun h => absurd h hmode', fun h => absurd h hmode'⟩
  · rw [hfailures]
    cases verdict with
    | accepted => rfl
    | failed time => exact failureCount_judge h.failures
    | nothing => exact h.failures
  · rw [hnext]
    cases verdict with
    | accepted => exact .inl (Nat.zero_le _)
    | failed time =>
      refine .inl (le_of_eq ?_)
      exact congrArg (time + ·) (failureBackoff_count three_le_cap h.failures).2.symm
    | nothing => exact h.owed.imp id htripped

/-- What a poll leaves of its bundle. -/
theorem BundleInv.poll {tripped tripped' : Bool} {state later : ScriptBundleState View}
    {verdict : Verdict} (h : BundleInv clock watch tripped state) (hclock : clock ≤ now)
    (htripped : tripped = true → tripped' = true) (hmode : state.manifest.runtime.mode = .poll)
    (hpatient : ∀ time, verdict = .failed time → tripped' = true ∨ state.pendingPoll = false ∧
      time + failureBackoff (state.failureCount + 1) ≤ now + state.interval)
    (hsource : later.source = state.source)
    (hfailures : later.failureCount = verdict.failureCount state.failureCount)
    (hpending : later.pendingPoll = false)
    (hnext : later.nextRun = if state.pendingPoll then now else now + state.interval) :
    BundleInv now (watch.judge verdict) tripped' later := by
  have hinterval : later.interval = state.interval := by
    have hmanifest : later.manifest = state.manifest := congrArg Prod.fst hsource
    rw [ScriptBundleState.interval, ScriptBundleState.interval, hmanifest]
  have hlastStart : (watch.judge verdict).lastStart = watch.lastStart := by
    cases verdict <;> rfl
  -- the time of the next poll is not before the old one, where that has come
  have hkept : state.nextRun ≤ later.nextRun := by
    rw [hnext]
    split_ifs with hpoll
    · exact (h.pending hmode hpoll).1.trans hclock
    · have := h.soon hmode
      omega
  refine ⟨?_, ?_, fun _ => ?_, fun _ hpoll => ?_, fun _ last hmem => ?_⟩
  · rw [hfailures]
    cases verdict with
    | accepted => rfl
    | failed time => exact failureCount_judge h.failures
    | nothing => exact h.failures
  · cases verdict with
    | accepted => exact .inl (Nat.zero_le _)
    | failed time =>
      obtain htripped' | ⟨hpoll, hover⟩ := hpatient time rfl
      · exact .inr htripped'
      · rw [(failureBackoff_count three_le_cap h.failures).1] at hover
        rw [hnext, hpoll]
        exact .inl hover
    | nothing => exact h.owed.imp (·.trans hkept) htripped
  · rw [hnext, hinterval]
    split_ifs
    · exact Nat.le_add_right _ _
    · exact le_rfl
  · rw [hpending] at hpoll
    cases hpoll
  · rw [hlastStart] at hmem
    obtain ⟨hbefore, hover⟩ := h.last hmode last hmem
    rw [hinterval]
    exact ⟨hbefore.trans hclock, hover.trans hkept⟩

variable {decoders : Decoders View}

theorem Inv.handle (h : s.Inv) {id : ExtensionId} {now : ℕ} {event : TaskEvent × ℕ}
    (hpossible : s.Possible (.handle id now event))
    (hpatient : s.Patient decoders (.handle id now event)) :
    (s.step decoders (.handle id now event)).Inv := by
  obtain ⟨hclock, state, hstate, hmode⟩ := hpossible
  have hnow : s.clock ≤ now := hclock now rfl
  obtain ⟨⟨later, hlater, hsource, hfailures, hpoll, hstream⟩, hothers, hbreaker⟩ :=
    ScriptRuntime.handled_handleEvent decoders hstate now event
  have hkept : ∀ id', isTripped s.runtime.breaker id' = true →
      isTripped (s.runtime.handleEvent decoders id now event).breaker id' = true := by
    intro id' htripped
    rw [hbreaker]
    cases s.runtime.verdict decoders id now event with
    | accepted => exact isTripped_recordSuccess_of_isTripped htripped
    | failed time => exact isTripped_recordFailure_of_isTripped htripped
    | nothing => exact htripped
  refine ⟨fun id' found hfound => ?_, fun id' htripped => ?_⟩
  · by_cases hid : id' = id
    · subst hid
      obtain rfl := Option.some.inj (hlater.symm.trans hfound)
      have hinv := h.bundle id' state hstate
      have hwatch : (s.step decoders (.handle id' now event)).watch id' =
          { (s.watch id').judge (s.runtime.verdict decoders id' now event) with
            tripped := (s.watch id').tripped || isTripped
              (s.runtime.handleEvent decoders id' now event).breaker id' } := if_pos rfl
      rw [hwatch]
      refine BundleInv.retag ?_ _
      by_cases hpolled : event.1.isPoll = true
      · obtain ⟨hpending, hnext⟩ := hpoll hpolled
        refine hinv.poll hnow (hkept id') (hmode.mp hpolled) (fun time htime => ?_) hsource
          hfailures hpending hnext
        obtain htrips | hroom := hpatient state hstate hpolled time (by rw [htime]; rfl)
        · refine .inl ?_
          show isTripped (s.runtime.handleEvent decoders id' now event).breaker id' = true
          rw [hbreaker, htime]
          exact htrips
        · exact .inr hroom
      · exact (hinv.stream (hkept id') (fun hm => hpolled (hmode.mpr hm)) hsource hfailures
          (hstream (Bool.eq_false_iff.mpr hpolled)).2).later hnow
    · have hwatch : (s.step decoders (.handle id now event)).watch id' = s.watch id' := if_neg hid
      have hsame : isTripped (s.runtime.handleEvent decoders id now event).breaker id' =
          isTripped s.runtime.breaker id' := by
        rw [hbreaker]
        exact isTripped_breaker_of_ne hid _
      rw [hwatch]
      exact hsame.symm ▸ (h.bundle id' found ((hothers id' hid).symm.trans hfound)).later hnow
  · by_cases hid : id' = id
    · subst hid
      have hseen : ((s.watch id').tripped || isTripped
          (s.runtime.handleEvent decoders id' now event).breaker id') = true := by
        have hwatch := htripped
        simp only [step, observe, if_true] at hwatch
        exact hwatch
      obtain hbefore | hnow := Bool.or_eq_true_iff.mp hseen
      · exact hkept id' (h.tripped id' hbefore)
      · exact hnow
    · have hwatch : (s.step decoders (.handle id now event)).watch id' = s.watch id' := if_neg hid
      rw [hwatch] at htripped
      exact hkept id' (h.tripped id' htripped)

/-- A task that is started. -/
theorem BundleInv.start (h : BundleInv clock watch false state) (hdue : state.nextRun ≤ now)
    (hidle : state.task = none) (task : ℕ) :
    BundleInv now { watch with lastStart := some now } false
      { state with
        task := some task
        nextRun :=
          match state.manifest.runtime.mode with
          | .poll => now + state.interval
          | .stream => now } := by
  have howed : watch.owed ≤ now := (h.owed.resolve_right Bool.false_ne_true).trans hdue
  refine ⟨h.failures, .inl ?_, fun hmode => ?_, fun hmode hpoll => ?_, fun hmode last hmem => ?_⟩
  · show watch.owed ≤ match state.manifest.runtime.mode with
      | .poll => now + state.interval
      | .stream => now
    split
    · exact howed.trans (Nat.le_add_right _ _)
    · exact howed
  · have hm : state.manifest.runtime.mode = .poll := hmode
    simp only [hm]
    exact le_rfl
  · have htask := (h.pending hmode hpoll).2
    rw [hidle] at htask
    cases htask
  · have hm : state.manifest.runtime.mode = .poll := hmode
    obtain rfl := Option.some.inj hmem
    simp only [hm]
    exact ⟨le_rfl, le_rfl⟩

/-- A poll that is due while one is running. -/
theorem BundleInv.note (h : BundleInv clock watch tripped state) (hclock : clock ≤ now) :
    BundleInv now watch tripped
      (if state.task.isSome ∧ state.manifest.runtime.mode = .poll ∧ state.nextRun ≤ now then
        { state with pendingPoll := true }
      else state) := by
  obtain ⟨hfailures, howed, hsoon, hpending, hlast⟩ := h.later hclock
  split_ifs with hnote
  · exact ⟨hfailures, howed, hsoon, fun _ _ => ⟨hnote.2.2, hnote.1⟩, hlast⟩
  · exact ⟨hfailures, howed, hsoon, hpending, hlast⟩

theorem Inv.schedule (h : s.Inv) {id : ExtensionId} {now : ℕ}
    (hpossible : s.Possible (.schedule id now)) : (s.step decoders (.schedule id now)).Inv := by
  have hnow : s.clock ≤ now := hpossible.1 now rfl
  have hbreaker : (s.runtime.schedule id now).breaker = s.runtime.breaker := by
    simp only [ScriptRuntime.schedule]
    split
    · exact ScriptRuntime.breaker_modify _ _ _
    · exact ScriptRuntime.breaker_modify _ _ _
  have hothers : ∀ id', id' ≠ id →
      (s.runtime.schedule id now).bundles.lookup id' = s.runtime.bundles.lookup id' := by
    intro id' hne
    simp only [ScriptRuntime.schedule]
    split
    · exact ScriptRuntime.lookup_modify_of_ne hne _
    · exact ScriptRuntime.lookup_modify_of_ne hne _
  refine ⟨fun id' found hfound => ?_, fun id' htripped => ?_⟩
  · show BundleInv now (s.observe decoders (.schedule id now) id')
      (isTripped (s.runtime.schedule id now).breaker id') found
    have hfound' : (s.runtime.schedule id now).bundles.lookup id' = some found := hfound
    rw [hbreaker]
    simp only [observe]
    by_cases hid : id' = id
    · subst hid
      by_cases hstart : s.runtime.shouldStart id' now = true
      · rw [if_pos ⟨rfl, hstart⟩]
        rw [ScriptRuntime.schedule, if_pos hstart] at hfound'
        rw [ScriptRuntime.shouldStart] at hstart
        cases hstate : s.runtime.bundles.lookup id' with
        | none => simp [hstate] at hstart
        | some state =>
          simp only [hstate, Bool.and_eq_true, Bool.not_eq_true', decide_eq_true_eq,
            Option.isNone_iff_eq_none] at hstart
          obtain ⟨⟨hidle, hdue⟩, hclosed⟩ := hstart
          have hinv := h.bundle id' state hstate
          rw [hclosed] at hinv ⊢
          obtain rfl := Option.some.inj
            ((ScriptRuntime.lookup_modify_self hstate _).symm.trans hfound')
          exact hinv.start hdue hidle _
      · rw [if_neg fun hs => hstart hs.2]
        rw [ScriptRuntime.schedule, if_neg hstart] at hfound'
        cases hstate : s.runtime.bundles.lookup id' with
        | none =>
          rw [ScriptRuntime.notePoll, ScriptRuntime.modify, hstate] at hfound'
          rw [hstate] at hfound'
          cases hfound'
        | some state =>
          obtain rfl := Option.some.inj
            ((ScriptRuntime.lookup_modify_self hstate _).symm.trans hfound')
          exact (h.bundle id' state hstate).note hnow
    · rw [if_neg fun hs => hid hs.1]
      exact (h.bundle id' found ((hothers id' hid).symm.trans hfound')).later hnow
  · show isTripped (s.runtime.schedule id now).breaker id' = true
    rw [hbreaker]
    refine h.tripped id' ?_
    have hseen : (s.observe decoders (.schedule id now) id').tripped = true := htripped
    simp only [observe] at hseen
    split at hseen <;> exact hseen

/-- What is installed is seen anew. -/
theorem Inv.install (h : s.Inv) {after : ScriptRuntime View} {clock : ℕ} (now : Option ℕ)
    (hclock : s.clock ≤ clock) (hnow : ∀ time ∈ now, time = clock)
    (hinstalled : ∀ id, s.runtime.Installed after now id) :
    Inv ⟨after, clock, fun id => if after.source id = s.runtime.source id then s.watch id else .new⟩
    := by
  refine ⟨fun id state hstate => ?_, fun id htripped => ?_⟩
  · by_cases hsame : after.source id = s.runtime.source id
    · obtain ⟨hlookup, htripped⟩ := (hinstalled id).same hsame
      simp only [if_pos hsame, htripped]
      exact (h.bundle id state (hlookup.symm.trans hstate)).later hclock
    · obtain ⟨hfailures, hpending, htime⟩ := (hinstalled id).other hsame state hstate
      have hnext : state.nextRun = clock := hnow _ htime
      simp only [if_neg hsame]
      refine ⟨hfailures, .inl (Nat.zero_le _), fun _ => ?_, fun _ hpoll => ?_,
        fun _ last hmem => by cases hmem⟩
      · rw [hnext]
        exact Nat.le_add_right _ _
      · rw [hpending] at hpoll
        cases hpoll
  · by_cases hsame : after.source id = s.runtime.source id
    · simp only [if_pos hsame] at htripped
      rw [((hinstalled id).same hsame).2]
      exact h.tripped id htripped
    · simp only [if_neg hsame] at htripped
      cases htripped

theorem inv_step (h : s.Inv) (act : PaceAct) (hpossible : s.Possible act)
    (hpatient : s.Patient decoders act) : (s.step decoders act).Inv := by
  cases act with
  | handle id now event => exact h.handle hpossible hpatient
  | schedule id now => exact h.schedule hpossible
  | note diagnostics =>
    refine h.install none le_rfl (fun _ hn => by cases hn) fun id => ?_
    refine ScriptRuntime.installed_of_same ?_ ?_ none <;> rfl
  | prune disk id =>
    exact h.install none le_rfl (fun _ hn => by cases hn) fun id' =>
      ScriptRuntime.installed_prune disk id none id'
  | consider active now id entries =>
    exact h.install (some now) (hpossible.1 now rfl) (fun _ hn => (Option.some.inj hn).symm)
      fun id' => ScriptRuntime.installed_consider active now id entries id'
  | shutdown =>
    exact h.install none le_rfl (fun _ hn => by cases hn) fun id =>
      ScriptRuntime.installed_shutdown none id

end WatchedRuntime

/-! ### Main result -/

/-- The small steps of calls. -/
def actsOf (decoders : Decoders View) (ops : List ScriptOp) : List PaceAct :=
  expand (ScriptRuntime.step decoders) (ScriptRuntime.opActs decoders) .new ops

theorem runtime_run (decoders : Decoders View) (s : WatchedRuntime View) (acts : List PaceAct) :
    (run (WatchedRuntime.step decoders) s acts).runtime =
      run (ScriptRuntime.paceStep decoders) s.runtime acts := by
  induction acts generalizing s with
  | nil => rfl
  | cons act acts ih => exact ih (s.step decoders act)

/-- **No script is run again too early** as long as no poll fails whose backoff is longer than what
is left of its interval. -/
theorem paced_of_patient (decoders : Decoders View) (ops : List ScriptOp)
    (hpossible : Along (WatchedRuntime.step decoders) WatchedRuntime.Possible .new
      (actsOf decoders ops))
    (hpatient : Along (WatchedRuntime.step decoders) (WatchedRuntime.Patient decoders) .new
      (actsOf decoders ops)) :
    (run (WatchedRuntime.step decoders) .new (actsOf decoders ops)).runtime =
        run (ScriptRuntime.step decoders) .new ops ∧
      Along (WatchedRuntime.step decoders) WatchedRuntime.Paced .new (actsOf decoders ops) := by
  constructor
  · rw [runtime_run]
    exact run_expand (fun rt op => ScriptRuntime.step_eq_run decoders rt op) .new ops
  · have hboth : Along (WatchedRuntime.step decoders)
        (fun s act => s.Possible act ∧ s.Patient decoders act) .new (actsOf decoders ops) :=
      (along_iff _ _).mpr fun pre act post hsplit =>
        ⟨(along_iff _ _).mp hpossible pre act post hsplit,
          (along_iff _ _).mp hpatient pre act post hsplit⟩
    have hstep : ∀ (s : WatchedRuntime View) act, s.Inv →
        s.Possible act ∧ s.Patient decoders act → (s.step decoders act).Inv :=
      fun s act h hact => WatchedRuntime.inv_step h act hact.1 hact.2
    have hpaced : ∀ (s : WatchedRuntime View) act, s.Inv →
        s.Possible act ∧ s.Patient decoders act → s.Paced act :=
      fun s act h _ => WatchedRuntime.paced_of_inv h act
    exact Along.imp hstep hpaced WatchedRuntime.inv_new hboth

/-! ### Runs -/

/-- A script that is polled each second. -/
def polledScript : ScriptManifest where
  schemaVersion := 1
  id := ⟨"local.net.cpu"⟩
  name := "CPU"
  version := ⟨0, 1, 0, [], []⟩
  runtime := ⟨.poll, "run.sh", [], some 1000, 999⟩
  contributions := ⟨[⟨⟨"cpu"⟩, "CPU", none⟩]⟩

/-- The script is installed, and its poll fails at a time after a tick at another. -/
def failsLate (tick late : ℕ) : List ScriptOp :=
  [.reconcile [] (oneBundle polledScript) 0 ⟨0, fun _ => []⟩,
    .tick ⟨milliseconds tick, fun _ => []⟩,
    .tick ⟨milliseconds late, fun _ => [(.pollFinished (.error .timeout), milliseconds late)]⟩]

/-- A poll that fails before the next one is due. -/
theorem paced_failsLate :
    Along (WatchedRuntime.step blind) WatchedRuntime.Paced .new
      (actsOf blind (failsLate 500 900)) :=
  (paced_of_patient blind (failsLate 500 900) (by decide +kernel) (by decide +kernel)).2

/-- When the next one is due already, it is started at once. -/
theorem not_paced_failsLate :
    ¬ Along (WatchedRuntime.step blind) WatchedRuntime.Paced .new
      (actsOf blind (failsLate 1000 1100)) := by
  decide +kernel

end Shilpo.Script
