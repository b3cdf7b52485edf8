import Shilpo.Theme.Commands
import Shilpo.Theory.Handed

/-!
# The persistence executor, step by step

`PersistenceExecutor` of `desktop/theme-daemon/src/executors.rs`, with every lock, send and write a
step of its own. The daemon hands states to it, one after the other; a worker takes what waits
together, and writes the newest, up to three times. Those that wait look at the durable revision,
and at one slot for an error, which any batch may fill: so a state can be reported as lost although
it has not been written yet, and an orderly end although nothing has been written
(`persistence_lies`). Where a batch is given up only if nothing newer has been handed in, nobody
waits for what has not been handed in, and the executor is shut down while there is room and after
a write that has succeeded, what it tells is true (`persistence_tells_truth`).
-/

namespace Shilpo.Theme

open Theory

variable {Palettes : Type}

/-! ### The executor -/

namespace PersistenceExecutor

variable (executor : PersistenceExecutor Palettes)

/-- The second half of `enqueue`: a request is sent. -/
def send (request : PersistenceRequest Palettes) :
    PersistenceExecutor Palettes × Except String Unit :=
  if executor.isClosed then (executor, .error "service is offline or mailbox closed")
  else if persistenceMailboxCapacity ≤ executor.requests.length then
    ({ executor with overloads := executor.overloads + 1 }, .error "mailbox is at capacity")
  else ({ executor with requests := executor.requests ++ [request] }, .ok ())

end PersistenceExecutor

/-- What the worker is doing. -/
inductive PersistenceWorker (Palettes : Type) where
  | idle
  /-- It takes what waits; `latest` is the newest state so far. -/
  | collecting (latest : Option (DaemonState Palettes))
  | writing (state : DaemonState Palettes) (attempt : ℕ)
  /-- A revision is durable; the slot for the error has to be cleared. -/
  | succeeded (revision : ℕ)
  /-- The durable revision has to be raised. -/
  | cleared (revision : ℕ)
  /-- A revision has been given up; the error has to be told. -/
  | failed (error : String) (revision : ℕ)
  | answering

/-- Of two states the newer, the first if there is none. -/
def newer : Option (DaemonState Palettes) → PersistenceRequest Palettes →
    Option (DaemonState Palettes)
  | none, .persist state => some state
  | some latest, .persist state =>
    some (if latest.theme.revision < state.theme.revision then state else latest)
  | latest, .flush => latest

/-- Someone who waits for a revision; the durable revision is looked at, then the error. -/
structure DurableWaiter where
  revision : ℕ
  polls : ℕ
  atError : Bool

def durablePolls : ℕ := 200

/-- The executor, its worker and the file, and those that wait. Of what has been, `received` are the
requests that the worker has taken, `answered` of which it has answered; `given` is the newest
revision that has been handed in, `written` tells if anything has been written, `unwritten` if the
last state has been given up, and `failures` are the revisions that have been. -/
structure Persistence (Palettes : Type) where
  executor : PersistenceExecutor Palettes
  worker : PersistenceWorker Palettes
  file : Option (DaemonState Palettes)
  enqueuing : Option (DaemonState Palettes)
  waiters : List DurableWaiter
  /-- For each `shutdown_with_deadline`, how many requests have been accepted before its own. -/
  closers : List ℕ
  received : List (PersistenceRequest Palettes)
  answered : ℕ
  given : ℕ
  written : Bool
  unwritten : Bool
  failures : List ℕ

/-- What happens next. -/
inductive PersistenceStep (Palettes : Type) where
  /-- `enqueue` begins, and clears the slot for the error. -/
  | enqueue (state : DaemonState Palettes)
  | send
  | wait (revision : ℕ)
  | poll (index : ℕ)
  | shutdown
  /-- One that shuts down looks for its answer, at the end of its time or before. -/
  | await (index : ℕ) (elapsed : Bool)
  /-- The worker goes on; if it writes, with this outcome. -/
  | work (outcome : Except String Unit)

/-- What is returned. -/
inductive PersistenceEvent where
  | waited (revision : ℕ) (result : Except String ℕ)
  | timedOut (revision : ℕ)
  /-- `shutdown_with_deadline` returns; so many requests had been accepted before. -/
  | shutDown (accepted : ℕ) (flushed : Bool)
  deriving DecidableEq

namespace Persistence

variable (persistence : Persistence Palettes)

/-- Nothing has been handed in since the daemon has read its state from the file. -/
def start (file : Option (DaemonState Palettes)) : Persistence Palettes where
  executor := ⟨[], false, none, 0, none, 0⟩
  worker := .idle
  file := file
  enqueuing := none
  waiters := []
  closers := []
  received := []
  answered := 0
  given := (file.map (·.theme.revision)).getD 0
  written := false
  unwritten := false
  failures := []

/-- How many requests have been accepted. -/
def accepted : ℕ := persistence.received.length + persistence.executor.requests.length

/-- The worker takes the oldest request. -/
def receive (request : PersistenceRequest Palettes) (rest : List (PersistenceRequest Palettes))
    (latest : Option (DaemonState Palettes)) : Persistence Palettes :=
  { persistence with
    executor := { persistence.executor with requests := rest },
    received := persistence.received ++ [request], worker := .collecting (newer latest request) }

/-- A state is written, or not; after three attempts it is given up. -/
def write (state : DaemonState Palettes) (attempt : ℕ) :
    Except String Unit → Persistence Palettes
  | .ok () =>
    { persistence with
      executor := { persistence.executor with writing := none }, file := some state,
      worker := .succeeded state.theme.revision, written := true, unwritten := false }
  | .error error =>
    if attempt < 2 then { persistence with worker := .writing state (attempt + 1) }
    else
      { persistence with
        executor := { persistence.executor with writing := none },
        worker := .failed error state.theme.revision, unwritten := true }

/-- The next step of the worker. -/
def work (outcome : Except String Unit) : Persistence Palettes :=
  match persistence.worker, persistence.executor.requests with
  | .idle, [] => persistence
  | .idle, request :: rest => persistence.receive request rest none
  | .collecting latest, request :: rest => persistence.receive request rest latest
  | .collecting (some state), [] =>
    { persistence with
      executor := { persistence.executor with writing := some state }, worker := .writing state 0 }
  | .collecting none, [] =>
    { persistence with worker := .succeeded persistence.executor.durableRevision }
  | .writing state attempt, _ => persistence.write state attempt outcome
  | .succeeded revision, _ =>
    { persistence with
      executor := { persistence.executor with lastError := none }, worker := .cleared revision }
  | .cleared revision, _ =>
    { persistence with
      executor := { persistence.executor with
        durableRevision := max persistence.executor.durableRevision revision },
      worker := .answering }
  | .failed error revision, _ =>
    { persistence with
      executor := { persistence.executor with lastError := some s!"Persistence failed: {error}" },
      worker := .answering, failures := persistence.failures ++ [revision] }
  | .answering, _ =>
    { persistence with worker := .idle, answered := persistence.received.length }

/-- One look at the durable revision, or at the error. -/
def poll (index : ℕ) (waiter : DurableWaiter) : Persistence Palettes × List PersistenceEvent :=
  let ended := { persistence with waiters := persistence.waiters.eraseIdx index }
  let goOn (next : DurableWaiter) :=
    { persistence with waiters := persistence.waiters.set index next }
  if !waiter.atError then
    if waiter.revision ≤ persistence.executor.durableRevision then
      (ended, [.waited waiter.revision (.ok persistence.executor.durableRevision)])
    else (goOn { waiter with atError := true }, [])
  else
    match persistence.executor.lastError with
    | some error => (ended, [.waited waiter.revision (.error error)])
    | none =>
      if waiter.polls + 1 < durablePolls then
        (goOn { waiter with polls := waiter.polls + 1, atError := false }, [])
      else (ended, [.timedOut waiter.revision])

/-- The daemon hands in states whose revisions do not decrease, one after the other. -/
def handle : PersistenceStep Palettes → Persistence Palettes × List PersistenceEvent
  | .enqueue state =>
    if persistence.enqueuing.isNone ∧ persistence.given ≤ state.theme.revision then
      ({ persistence with
          executor := { persistence.executor with lastError := none },
          enqueuing := some state, given := state.theme.revision }, [])
    else (persistence, [])
  | .send =>
    match persistence.enqueuing with
    | none => (persistence, [])
    | some state =>
      ({ persistence with
          executor := (persistence.executor.send (.persist state)).1, enqueuing := none }, [])
  | .wait revision =>
    ({ persistence with waiters := persistence.waiters ++ [⟨revision, 0, false⟩] }, [])
  | .poll index =>
    match persistence.waiters[index]? with
    | none => (persistence, [])
    | some waiter => persistence.poll index waiter
  | .shutdown =>
    let (executor, sent) := persistence.executor.send .flush
    match sent with
    | .ok () =>
      ({ persistence with
          executor, closers := persistence.closers ++ [persistence.accepted] }, [])
    -- the overloads are not counted here
    | .error _ => (persistence, [.shutDown persistence.accepted true])
  | .await index elapsed =>
    match persistence.closers[index]? with
    | none => (persistence, [])
    | some accepted =>
      let ended := { persistence with closers := persistence.closers.eraseIdx index }
      if accepted < persistence.answered then (ended, [.shutDown accepted true])
      else if elapsed then (ended, [.shutDown accepted false])
      else (persistence, [])
  | .work outcome => (persistence.work outcome, [])

def next (step : PersistenceStep Palettes) : Persistence Palettes := (persistence.handle step).1

def events (step : PersistenceStep Palettes) : List PersistenceEvent :=
  (persistence.handle step).2

/-! ### What is promised -/

/-- A state of this revision, or a newer one, is in the file. -/
def Covers (revision : ℕ) : Prop := ∃ state ∈ persistence.file, revision ≤ state.theme.revision

/-- What is durable does not go back, and is what is in the file when a batch has been written; a
revision is reported as durable only if it is, and as failed only if it has; and the executor is
shut down only if all that it had accepted is in the file. -/
structure Tells (step : PersistenceStep Palettes) : Prop where
  durable : persistence.executor.durableRevision ≤ (persistence.next step).executor.durableRevision
  file : ∀ state ∈ persistence.file, (persistence.next step).Covers state.theme.revision
  batch : ∀ revision outcome, persistence.worker = .cleared revision → step = .work outcome →
    persistence.written = true → ∃ state ∈ (persistence.next step).file,
      state.theme.revision = (persistence.next step).executor.durableRevision
  waited : ∀ revision durable, .waited revision (.ok durable) ∈ persistence.events step →
    persistence.Covers revision
  failed : ∀ revision error, .waited revision (.error error) ∈ persistence.events step →
    ∃ failure ∈ persistence.failures, revision ≤ failure
  shutDown : ∀ accepted, .shutDown accepted true ∈ persistence.events step →
    ∀ state, .persist state ∈
      (persistence.received ++ persistence.executor.requests).take accepted →
        persistence.Covers state.theme.revision

/-! ### What keeps it -/

/-- A state is given up only if nothing newer has been handed in; only what has been handed in is
waited for; and the executor is shut down while there is room, and the answer comes after a write
that has succeeded. -/
def Orderly : PersistenceStep Palettes → Prop
  | .work _ => ∀ error revision, persistence.worker = .failed error revision →
    persistence.given ≤ revision
  | .wait revision => revision ≤ persistence.given ∧ (revision = 0 → persistence.file.isSome = true)
  | .shutdown => persistence.executor.accepts = true
  | .await index _ => ∀ accepted ∈ persistence.closers[index]?, accepted < persistence.answered →
    persistence.unwritten = false
  | _ => True

end Persistence

/-! ### What is always so -/

/-- The state that the worker has taken, and not written or given up. -/
def PersistenceWorker.state : PersistenceWorker Palettes → Option (DaemonState Palettes)
  | .collecting latest => latest
  | .writing state _ => some state
  | _ => none

/-- The revision that the worker is about to report as durable. -/
def PersistenceWorker.revision : PersistenceWorker Palettes → ℕ
  | .succeeded revision | .cleared revision => revision
  | _ => 0

/-- The revisions of the states among some requests. -/
def revisions (requests : List (PersistenceRequest Palettes)) : List ℕ :=
  requests.filterMap fun
    | .persist state => some state.theme.revision
    | .flush => none

@[simp] theorem revisions_nil : revisions ([] : List (PersistenceRequest Palettes)) = [] := rfl

@[simp] theorem revisions_persist (state : DaemonState Palettes)
    (requests : List (PersistenceRequest Palettes)) :
    revisions (.persist state :: requests) = state.theme.revision :: revisions requests := rfl

@[simp] theorem revisions_flush (requests : List (PersistenceRequest Palettes)) :
    revisions (.flush :: requests) = revisions requests := rfl

@[simp] theorem revisions_append (requests others : List (PersistenceRequest Palettes)) :
    revisions (requests ++ others) = revisions requests ++ revisions others :=
  List.filterMap_append

theorem mem_revisions {requests : List (PersistenceRequest Palettes)}
    {state : DaemonState Palettes} (h : .persist state ∈ requests) :
    state.theme.revision ∈ revisions requests :=
  List.mem_filterMap.mpr ⟨.persist state, h, rfl⟩

theorem revisions_take_subset (requests : List (PersistenceRequest Palettes)) (count : ℕ) :
    revisions (requests.take count) ⊆ revisions requests :=
  ((List.take_sublist count requests).filterMap _).subset

namespace Persistence

variable (persistence : Persistence Palettes)

/-- The revisions that are in the file, or have been taken. -/
def settled : List ℕ :=
  (persistence.file.map (·.theme.revision)).toList ++ revisions persistence.received

/-- The revisions that wait, or are being handed in. -/
def later : List ℕ :=
  revisions persistence.executor.requests ++
    (persistence.enqueuing.map (·.theme.revision)).toList

/-- The revisions that the worker still has before it. -/
def chain : List ℕ :=
  (persistence.worker.state.map (·.theme.revision)).toList ++ persistence.later

/-- The revision that is reported as durable, or is about to be. -/
def reported : ℕ := max persistence.executor.durableRevision persistence.worker.revision

/-- The revisions are in order; what has been reported is in the file; and so is what the worker has
answered for, unless it has been given up. -/
structure Kept : Prop where
  handed : Handed (· ≤ ·) persistence.settled persistence.chain (some persistence.given)
  written : persistence.written = true →
    ∃ state ∈ persistence.file, state.theme.revision = persistence.reported
  nothing : persistence.written = false → persistence.reported = 0
  answered : persistence.answered ≤ persistence.received.length
  taken : persistence.unwritten = false →
    ∀ revision ∈ revisions (persistence.received.take persistence.answered),
      persistence.Covers revision
  done : persistence.unwritten = false → persistence.worker.state = none →
    ∀ revision ∈ revisions persistence.received, persistence.Covers revision

variable {persistence}

/-- What is durable is in the file. -/
theorem Kept.covers_durable (h : persistence.Kept)
    (hpos : 0 < persistence.executor.durableRevision) :
    persistence.Covers persistence.executor.durableRevision := by
  have hle : persistence.executor.durableRevision ≤ persistence.reported := le_max_left _ _
  cases hwritten : persistence.written with
  | false =>
    have hzero := h.nothing hwritten
    omega
  | true =>
    obtain ⟨state, hfile, hrevision⟩ := h.written hwritten
    exact ⟨state, hfile, hrevision ▸ hle⟩

variable {state : DaemonState Palettes}

theorem Kept.durable_le (h : persistence.Kept) (hstate : persistence.worker.state = some state) :
    persistence.executor.durableRevision ≤ state.theme.revision := by
  rcases Nat.eq_zero_or_pos persistence.executor.durableRevision with hzero | hpos
  · exact hzero ▸ Nat.zero_le _
  · obtain ⟨old, hfile, hle⟩ := h.covers_durable hpos
    refine hle.trans (h.handed.below _ ?_ _ ?_)
    · exact List.mem_append_left _ (Option.mem_toList.mpr (Option.mem_map_of_mem _ hfile))
    · rw [chain, hstate]
      exact List.mem_cons_self

theorem kept_start (file : Option (DaemonState Palettes)) : (start file).Kept where
  handed := by
    refine ⟨List.Pairwise.nil, (fun _ _ _ hmem => by cases hmem), fun revision hmem => ?_⟩
    cases file with
    | none => cases hmem
    | some state => exact ⟨_, rfl, (List.mem_singleton.mp hmem).le⟩
  written := by rintro ⟨⟩
  nothing _ := rfl
  answered := le_rfl
  taken _ _ hmem := by cases hmem
  done _ _ _ hmem := by cases hmem

/-- The state that is taken is the newest so far. -/
theorem newer_revision {latest : Option (DaemonState Palettes)}
    (h : ∀ old ∈ latest, old.theme.revision ≤ state.theme.revision) :
    (newer latest (.persist state)).map (·.theme.revision) = some state.theme.revision := by
  cases latest with
  | none => rfl
  | some old =>
    have hle := h old rfl
    simp only [newer, Option.map_some, Option.some.injEq]
    split_ifs with hlt
    · rfl
    · omega

theorem Kept.receive (h : persistence.Kept) {latest : Option (DaemonState Palettes)}
    {request : PersistenceRequest Palettes} {rest : List (PersistenceRequest Palettes)}
    (hstate : persistence.worker.state = latest) (hrevision : persistence.worker.revision = 0)
    (hrequests : persistence.executor.requests = request :: rest) :
    (persistence.receive request rest latest).Kept := by
  have hreported : (persistence.receive request rest latest).reported = persistence.reported := by
    rw [reported, reported, hrevision]
    rfl
  have htake : (persistence.received ++ [request]).take persistence.answered =
      persistence.received.take persistence.answered :=
    List.take_append_of_le_length h.answered
  refine ⟨?_, hreported ▸ h.written, hreported ▸ h.nothing, ?_, fun hunwritten => ?_, ?_⟩
  · have hhanded := h.handed
    rw [chain, later, hstate, hrequests] at hhanded
    cases request with
    | flush =>
      have hsettled : (persistence.receive .flush rest latest).settled = persistence.settled := by
        simp only [settled, Persistence.receive, revisions_append, revisions_flush, revisions_nil,
          List.append_nil]
      rw [hsettled]
      simpa [chain, later, Persistence.receive, PersistenceWorker.state, newer] using hhanded
    | persist state =>
      have hold : ∀ old ∈ latest, old.theme.revision ≤ state.theme.revision := by
        rintro old rfl
        exact (List.pairwise_cons.mp hhanded.sorted).1 _ List.mem_cons_self
      have hchain : (persistence.receive (.persist state) rest latest).chain =
          state.theme.revision :: (revisions rest ++
            (persistence.enqueuing.map (·.theme.revision)).toList) := by
        rw [chain, Persistence.receive, PersistenceWorker.state, newer_revision hold]
        rfl
      have hsettled : (persistence.receive (.persist state) rest latest).settled =
          persistence.settled ++ [state.theme.revision] := by
        simp [settled, Persistence.receive]
      rw [hchain, hsettled]
      refine (hhanded.sublist ?_).settle
      exact List.sublist_append_right _ _
  · exact h.answered.trans (by simp [Persistence.receive])
  · intro revision hmem
    rw [Persistence.receive, htake] at hmem
    exact h.taken hunwritten revision hmem
  · intro hunwritten hnone revision hmem
    cases request with
    | flush =>
      refine h.done hunwritten (hstate.trans ?_) revision ?_
      · cases latest <;> [rfl; cases hnone]
      · simpa [Persistence.receive] using hmem
    | persist state => cases latest <;> cases hnone

theorem Kept.write (h : persistence.Kept) {attempt : ℕ}
    (hworker : persistence.worker = .writing state attempt) (outcome : Except String Unit) :
    (persistence.write state attempt outcome).Kept := by
  have hstate : persistence.worker.state = some state := by rw [hworker]; rfl
  have hhanded := h.handed
  rw [chain, hstate] at hhanded
  change Handed _ _ (state.theme.revision :: persistence.later) _ at hhanded
  have hreceived : ∀ revision ∈ revisions persistence.received,
      revision ≤ state.theme.revision := by
    intro revision hmem
    exact hhanded.below revision (List.mem_append_right _ hmem) _ List.mem_cons_self
  cases outcome with
  | ok =>
    refine ⟨?_, fun _ => ⟨state, rfl, ?_⟩, (fun hfalse => by cases hfalse), h.answered, ?_, ?_⟩
    · refine (hhanded.settle.sublist (List.sublist_cons_self _ _)).of_subset ?_
      intro revision hmem
      rcases List.mem_append.mp hmem with hmem | hmem
      · exact List.mem_append_right _ hmem
      · exact List.mem_append_left _ (List.mem_append_right _ hmem)
    · exact (max_eq_right (h.durable_le hstate)).symm
    · intro _ revision hmem
      exact ⟨state, rfl, hreceived revision (revisions_take_subset _ _ hmem)⟩
    · exact fun _ _ revision hmem => ⟨state, rfl, hreceived revision hmem⟩
  | error error =>
    have hreported : persistence.reported = max persistence.executor.durableRevision 0 := by
      rw [reported, hworker]
      rfl
    have hwritten := h.written
    have hnothing := h.nothing
    rw [hreported] at hwritten hnothing
    simp only [Persistence.write]
    split_ifs
    · exact ⟨hhanded, hwritten, hnothing, h.answered, h.taken, (fun _ hnone => by cases hnone)⟩
    · exact ⟨hhanded.sublist (List.sublist_cons_self _ _), hwritten, hnothing, h.answered,
        (fun hfalse => by cases hfalse), fun hfalse => by cases hfalse⟩

/-- A worker that has nothing to write goes on, and reports what it did. -/
theorem Kept.goOn (h : persistence.Kept) {worker : PersistenceWorker Palettes}
    {executor : PersistenceExecutor Palettes} {failures : List ℕ}
    (hrequests : executor.requests = persistence.executor.requests)
    (hstate : worker.state = persistence.worker.state)
    (hreported : max executor.durableRevision worker.revision = persistence.reported) :
    ({ persistence with executor, worker, failures } : Persistence Palettes).Kept := by
  have hchain : ({ persistence with executor, worker, failures } : Persistence Palettes).chain =
      persistence.chain := by
    rw [chain, chain, later, later, ← hstate, ← hrequests]
  have hreported' : ({ persistence with
      executor, worker, failures } : Persistence Palettes).reported = persistence.reported :=
    hreported
  refine ⟨hchain ▸ h.handed, hreported' ▸ h.written, hreported' ▸ h.nothing, h.answered,
    h.taken, ?_⟩
  exact fun hunwritten hnone => h.done hunwritten (hstate ▸ hnone)

theorem Kept.work (h : persistence.Kept) (outcome : Except String Unit) :
    (persistence.work outcome).Kept := by
  unfold Persistence.work
  split
  · exact h
  · rename_i hworker hrequests
    exact h.receive (hworker ▸ rfl) (hworker ▸ rfl) hrequests
  · rename_i hworker hrequests
    exact h.receive (hworker ▸ rfl) (hworker ▸ rfl) hrequests
  · rename_i state hworker hrequests
    refine h.goOn rfl (hworker ▸ rfl) ?_
    rw [reported, hworker]
    rfl
  · rename_i hworker hrequests
    refine h.goOn rfl (hworker ▸ rfl) ?_
    rw [reported, hworker]
    exact (max_self _).trans (max_eq_left (Nat.zero_le _)).symm
  · rename_i hworker
    exact h.write hworker outcome
  · rename_i hworker
    refine h.goOn rfl (hworker ▸ rfl) ?_
    rw [reported, hworker]
    rfl
  · rename_i hworker
    refine h.goOn rfl (hworker ▸ rfl) ?_
    rw [reported, hworker]
    exact max_eq_left (Nat.zero_le _)
  · rename_i hworker
    refine h.goOn rfl (hworker ▸ rfl) ?_
    rw [reported, hworker]
    rfl
  · rename_i hworker
    have hnone : persistence.worker.state = none := by rw [hworker]; rfl
    have hreported : persistence.reported = max persistence.executor.durableRevision 0 := by
      rw [reported, hworker]
      rfl
    have hhanded := h.handed
    have hwritten := h.written
    have hnothing := h.nothing
    rw [chain, hnone] at hhanded
    rw [hreported] at hwritten hnothing
    refine ⟨hhanded, hwritten, hnothing, le_rfl, fun hunwritten revision hmem => ?_, ?_⟩
    · rw [List.take_length] at hmem
      exact h.done hunwritten hnone revision hmem
    · exact fun hunwritten _ => h.done hunwritten hnone

/-- A request that has been sent waits behind the others, or has been refused. -/
theorem send_cases (executor : PersistenceExecutor Palettes)
    (request : PersistenceRequest Palettes) :
    (executor.send request).1.durableRevision = executor.durableRevision ∧
      (executor.send request).1.lastError = executor.lastError ∧
      ((executor.send request).1.requests = executor.requests ++ [request] ∨
        (executor.send request).1.requests = executor.requests) := by
  unfold PersistenceExecutor.send
  split_ifs
  · exact ⟨rfl, rfl, .inr rfl⟩
  · exact ⟨rfl, rfl, .inr rfl⟩
  · exact ⟨rfl, rfl, .inl rfl⟩

/-- A look changes nothing but those that wait. -/
theorem poll_fst (index : ℕ) (waiter : DurableWaiter) :
    ∃ waiters, (persistence.poll index waiter).1 = { persistence with waiters } ∧
      (waiters = persistence.waiters.eraseIdx index ∨
        ∃ next : DurableWaiter, next.revision = waiter.revision ∧
          waiters = persistence.waiters.set index next) := by
  unfold Persistence.poll
  dsimp only
  split
  · split
    · exact ⟨_, rfl, .inl rfl⟩
    · exact ⟨_, rfl, .inr ⟨{ waiter with atError := true }, rfl, rfl⟩⟩
  · split
    · exact ⟨_, rfl, .inl rfl⟩
    · split
      · refine ⟨_, rfl, .inr ⟨⟨waiter.revision, waiter.polls + 1, false⟩, rfl, rfl⟩⟩
      · exact ⟨_, rfl, .inl rfl⟩

/-- A request that is not a state is sent. -/
theorem Kept.flush (h : persistence.Kept) {executor : PersistenceExecutor Palettes}
    {closers : List ℕ} (hdurable : executor.durableRevision = persistence.executor.durableRevision)
    (hrequests : revisions executor.requests = revisions persistence.executor.requests) :
    ({ persistence with executor, closers } : Persistence Palettes).Kept := by
  have hchain : ({ persistence with executor, closers } : Persistence Palettes).chain =
      persistence.chain := by
    rw [chain, chain, later, later, ← hrequests]
  have hreported : ({ persistence with executor, closers } : Persistence Palettes).reported =
      persistence.reported := by
    rw [reported, reported, ← hdurable]
  exact ⟨hchain ▸ h.handed, hreported ▸ h.written, hreported ▸ h.nothing, h.answered, h.taken,
    h.done⟩

/-- The state that is being handed in is sent. -/
theorem Kept.sent (h : persistence.Kept) {executor : PersistenceExecutor Palettes}
    (henqueuing : persistence.enqueuing = some state)
    (hdurable : executor.durableRevision = persistence.executor.durableRevision)
    (hrequests :
      executor.requests = persistence.executor.requests ++ [PersistenceRequest.persist state] ∨
      executor.requests = persistence.executor.requests) :
    ({ persistence with executor, enqueuing := none } : Persistence Palettes).Kept := by
  have hreported : ({ persistence with
      executor, enqueuing := none } : Persistence Palettes).reported = persistence.reported := by
    rw [reported, reported, ← hdurable]
  refine ⟨h.handed.sublist ?_, hreported ▸ h.written, hreported ▸ h.nothing, h.answered,
    h.taken, h.done⟩
  rw [chain, chain, later, later, henqueuing]
  refine (List.Sublist.refl _).append ?_
  rcases hrequests with hrequests | hrequests
  · simp [hrequests]
  · simp [hrequests]

theorem Kept.next (h : persistence.Kept) (step : PersistenceStep Palettes) :
    (persistence.next step).Kept := by
  cases step with
  | enqueue state =>
    simp only [Persistence.next, handle]
    split_ifs with henqueue
    · obtain ⟨hnone, hgiven⟩ := henqueue
      have hhanded : Handed (· ≤ ·) persistence.settled
          (persistence.chain ++ [state.theme.revision]) (some state.theme.revision) :=
        h.handed.push fun last hlast => Option.some.inj hlast ▸ hgiven
      refine ⟨?_, h.written, h.nothing, h.answered, h.taken, h.done⟩
      rw [chain, later, Option.isNone_iff_eq_none.mp hnone] at hhanded
      simpa [chain, later, settled] using hhanded
    · exact h
  | send =>
    simp only [Persistence.next, handle]
    split
    · exact h
    · rename_i state henqueuing
      exact h.sent henqueuing (send_cases _ _).1 (send_cases _ _).2.2
  | wait revision => exact ⟨h.handed, h.written, h.nothing, h.answered, h.taken, h.done⟩
  | poll index =>
    simp only [Persistence.next, handle]
    split
    · exact h
    · obtain ⟨waiters, hpoll, -⟩ := persistence.poll_fst index ‹_›
      rw [hpoll]
      exact ⟨h.handed, h.written, h.nothing, h.answered, h.taken, h.done⟩
  | shutdown =>
    obtain ⟨hdurable, -, hrequests⟩ := send_cases persistence.executor .flush
    simp only [Persistence.next, handle]
    split
    · refine h.flush hdurable ?_
      rcases hrequests with hrequests | hrequests
      · simp [hrequests]
      · rw [hrequests]
    · exact h
  | await index elapsed =>
    have hclosers : ∀ closers, ({ persistence with closers } : Persistence Palettes).Kept :=
      fun _ => ⟨h.handed, h.written, h.nothing, h.answered, h.taken, h.done⟩
    simp only [Persistence.next, handle]
    split
    · exact h
    · split_ifs
      · exact hclosers _
      · exact hclosers _
      · exact h
  | work outcome => exact h.work outcome

/-! ### Where the run is orderly -/

variable (persistence)

/-- The error in the slot is that of a revision as new as any that has been handed in, and nobody
waits for one that has not been. -/
structure InOrder : Prop where
  errors : persistence.executor.lastError.isSome = true →
    ∃ failure ∈ persistence.failures, persistence.given ≤ failure
  waiters : ∀ waiter ∈ persistence.waiters, waiter.revision ≤ persistence.given ∧
    (waiter.revision = 0 → persistence.file.isSome = true)

variable {persistence}

theorem InOrder.poll (h : persistence.InOrder) {index : ℕ} {waiter : DurableWaiter}
    (hwaiter : persistence.waiters[index]? = some waiter) :
    (persistence.poll index waiter).1.InOrder := by
  obtain ⟨waiters, hpoll, rfl | ⟨next, hnext, rfl⟩⟩ := persistence.poll_fst index waiter
  · rw [hpoll]
    exact ⟨h.errors, fun other hmem => h.waiters other (List.mem_of_mem_eraseIdx hmem)⟩
  · rw [hpoll]
    refine ⟨h.errors, fun other hmem => ?_⟩
    rcases List.mem_or_eq_of_mem_set hmem with hmem | rfl
    · exact h.waiters other hmem
    · rw [hnext]
      exact h.waiters waiter (List.mem_of_getElem? hwaiter)

theorem InOrder.work (h : persistence.InOrder) (outcome : Except String Unit)
    (horderly : persistence.Orderly (.work outcome)) : (persistence.work outcome).InOrder := by
  have hfile : ∀ {file : Option (DaemonState Palettes)},
      (persistence.file.isSome = true → file.isSome = true) →
      ∀ waiter ∈ persistence.waiters, waiter.revision ≤ persistence.given ∧
        (waiter.revision = 0 → file.isSome = true) :=
    fun hsome waiter hmem =>
      ⟨(h.waiters waiter hmem).1, fun hzero => hsome ((h.waiters waiter hmem).2 hzero)⟩
  unfold Persistence.work
  split
  · exact h
  · exact ⟨h.errors, h.waiters⟩
  · exact ⟨h.errors, h.waiters⟩
  · exact ⟨h.errors, h.waiters⟩
  · exact ⟨h.errors, h.waiters⟩
  · cases outcome with
    | ok => exact ⟨h.errors, hfile fun _ => rfl⟩
    | error error =>
      simp only [Persistence.write]
      split_ifs
      · exact ⟨h.errors, h.waiters⟩
      · exact ⟨h.errors, h.waiters⟩
  · exact ⟨(fun hsome => by cases hsome), h.waiters⟩
  · exact ⟨h.errors, h.waiters⟩
  · rename_i error revision hworker
    refine ⟨fun _ => ⟨revision, ?_, horderly error revision hworker⟩, h.waiters⟩
    exact List.mem_append_right _ (List.mem_singleton_self _)
  · exact ⟨h.errors, h.waiters⟩

variable {step : PersistenceStep Palettes}

theorem InOrder.next (h : persistence.InOrder) (horderly : persistence.Orderly step) :
    (persistence.next step).InOrder := by
  cases step with
  | enqueue state =>
    simp only [Persistence.next, handle]
    split_ifs with henqueue
    · refine ⟨(fun hsome => by cases hsome), fun waiter hmem => ?_⟩
      obtain ⟨hle, hzero⟩ := h.waiters waiter hmem
      exact ⟨hle.trans henqueue.2, hzero⟩
    · exact h
  | send =>
    simp only [Persistence.next, handle]
    split
    · exact h
    · rename_i state _
      obtain ⟨-, herror, -⟩ := send_cases persistence.executor (.persist state)
      refine ⟨fun hsome => h.errors ?_, h.waiters⟩
      rw [← herror]
      exact hsome
  | wait revision =>
    refine ⟨h.errors, fun waiter hmem => ?_⟩
    rcases List.mem_append.mp hmem with hmem | hmem
    · exact h.waiters waiter hmem
    · obtain rfl := List.mem_singleton.mp hmem
      exact horderly
  | poll index =>
    simp only [Persistence.next, handle]
    split
    · exact h
    · rename_i waiter hwaiter
      exact h.poll hwaiter
  | shutdown =>
    obtain ⟨-, herror, -⟩ := send_cases persistence.executor .flush
    simp only [Persistence.next, handle]
    split
    · refine ⟨fun hsome => h.errors ?_, h.waiters⟩
      rw [← herror]
      exact hsome
    · exact h
  | await index elapsed =>
    simp only [Persistence.next, handle]
    split
    · exact h
    · split_ifs
      · exact ⟨h.errors, h.waiters⟩
      · exact ⟨h.errors, h.waiters⟩
      · exact h
  | work outcome => exact h.work outcome horderly

/-! ### One step -/

/-- The durable revision, and the file, do not go back. -/
theorem Kept.forward (h : persistence.Kept) (step : PersistenceStep Palettes) :
    persistence.executor.durableRevision ≤ (persistence.next step).executor.durableRevision ∧
      ∀ state ∈ persistence.file, (persistence.next step).Covers state.theme.revision := by
  have hsame : ∀ {next : Persistence Palettes},
      next.executor.durableRevision = persistence.executor.durableRevision →
      next.file = persistence.file →
      persistence.executor.durableRevision ≤ next.executor.durableRevision ∧
        ∀ state ∈ persistence.file, next.Covers state.theme.revision :=
    fun hdurable hfile =>
      ⟨hdurable.ge, fun state hstate => ⟨state, hfile ▸ hstate, le_rfl⟩⟩
  cases step with
  | enqueue state =>
    simp only [Persistence.next, handle]
    split_ifs
    · exact hsame rfl rfl
    · exact hsame rfl rfl
  | send =>
    simp only [Persistence.next, handle]
    split
    · exact hsame rfl rfl
    · exact hsame (send_cases _ _).1 rfl
  | wait revision => exact hsame rfl rfl
  | poll index =>
    simp only [Persistence.next, handle]
    split
    · exact hsame rfl rfl
    · obtain ⟨waiters, hpoll, -⟩ := persistence.poll_fst index ‹_›
      exact hpoll ▸ hsame rfl rfl
  | shutdown =>
    simp only [Persistence.next, handle]
    split
    · exact hsame (send_cases _ _).1 rfl
    · exact hsame rfl rfl
  | await index elapsed =>
    simp only [Persistence.next, handle]
    split
    · exact hsame rfl rfl
    · split_ifs
      · exact hsame rfl rfl
      · exact hsame rfl rfl
      · exact hsame rfl rfl
  | work outcome =>
    simp only [Persistence.next, handle, Persistence.work]
    split
    · exact hsame rfl rfl
    · exact hsame rfl rfl
    · exact hsame rfl rfl
    · exact hsame rfl rfl
    · exact hsame rfl rfl
    · rename_i state attempt hworker
      cases outcome with
      | ok =>
        refine ⟨le_rfl, fun old hold => ⟨state, rfl, h.handed.below _ ?_ _ ?_⟩⟩
        · exact List.mem_append_left _ (Option.mem_toList.mpr (Option.mem_map_of_mem _ hold))
        · rw [chain, hworker]
          exact List.mem_cons_self
      | error error =>
        simp only [Persistence.write]
        split_ifs
        · exact hsame rfl rfl
        · exact hsame rfl rfl
    · exact hsame rfl rfl
    · exact ⟨le_max_left _ _, fun state hstate => ⟨state, hstate, le_rfl⟩⟩
    · exact hsame rfl rfl
    · exact hsame rfl rfl

/-- Only a look at the revision, or at the error, ends a wait. -/
theorem waited_cases {revision : ℕ} {result : Except String ℕ}
    (h : .waited revision result ∈ persistence.events step) :
    ∃ waiter ∈ persistence.waiters, waiter.revision = revision ∧
      (result = .ok persistence.executor.durableRevision ∧
          revision ≤ persistence.executor.durableRevision ∨
        ∃ error, result = .error error ∧ persistence.executor.lastError = some error) := by
  cases step with
  | poll index =>
    simp only [events, handle] at h
    split at h
    · cases h
    · rename_i waiter hwaiter
      refine ⟨waiter, List.mem_of_getElem? hwaiter, ?_⟩
      simp only [Persistence.poll] at h
      split at h
      · split at h
        · rename_i hle
          obtain ⟨rfl, rfl⟩ : revision = waiter.revision ∧ result = .ok _ := by simpa using h
          exact ⟨rfl, .inl ⟨rfl, hle⟩⟩
        · cases h
      · split at h
        · rename_i error hlast
          obtain ⟨rfl, rfl⟩ : revision = waiter.revision ∧ result = .error error := by
            simpa using h
          exact ⟨rfl, .inr ⟨error, rfl, hlast⟩⟩
        · split at h
          · cases h
          · simp at h
  | enqueue state =>
    simp only [events, handle] at h
    split_ifs at h <;> cases h
  | send =>
    simp only [events, handle] at h
    split at h <;> cases h
  | wait revision => cases h
  | shutdown =>
    simp only [events, handle] at h
    split at h
    · cases h
    · simp at h
  | await index elapsed =>
    simp only [events, handle] at h
    split at h
    · cases h
    · split_ifs at h <;> simp at h
  | work outcome => cases h

/-- The executor has been shut down after the answer, or as there was no room. -/
theorem shutDown_cases {accepted : ℕ} (h : .shutDown accepted true ∈ persistence.events step) :
    (step = .shutdown ∧ persistence.executor.accepts = false) ∨
      ∃ index elapsed, step = .await index elapsed ∧
        persistence.closers[index]? = some accepted ∧ accepted < persistence.answered := by
  cases step with
  | shutdown =>
    refine .inl ⟨rfl, ?_⟩
    simp only [events, handle, PersistenceExecutor.send] at h
    unfold PersistenceExecutor.accepts
    split_ifs at h with hclosed hfull
    · rw [hclosed]
      rfl
    · simp [hfull]
    · cases h
  | await index elapsed =>
    simp only [events, handle] at h
    split at h
    · cases h
    · rename_i before hcloser
      split_ifs at h with hanswered
      · obtain rfl : accepted = before := by simpa using h
        exact .inr ⟨index, elapsed, rfl, hcloser, hanswered⟩
      · simp at h
      · cases h
  | poll index =>
    simp only [events, handle] at h
    split at h
    · cases h
    · simp only [Persistence.poll] at h
      split at h
      · split at h
        · simp at h
        · cases h
      · split at h
        · simp at h
        · split at h
          · cases h
          · simp at h
  | enqueue state =>
    simp only [events, handle] at h
    split_ifs at h <;> cases h
  | send =>
    simp only [events, handle] at h
    split at h <;> cases h
  | wait revision => cases h
  | work outcome => cases h

/-- **A step that is orderly tells the truth.** -/
theorem tells (hkept : persistence.Kept) (hinOrder : persistence.InOrder)
    (horderly : persistence.Orderly step) :
    persistence.Tells step where
  durable := (hkept.forward step).1
  file := (hkept.forward step).2
  batch revision outcome hworker hstep hwritten := by
    subst hstep
    obtain ⟨state, hfile, hrevision⟩ := hkept.written hwritten
    refine ⟨state, ?_, ?_⟩
    · simpa only [Persistence.next, handle, Persistence.work, hworker] using hfile
    · rw [hrevision, reported, hworker]
      simp only [Persistence.next, handle, Persistence.work, hworker,
        PersistenceWorker.revision]
  waited revision durable hevent := by
    obtain ⟨waiter, hwaiter, rfl, hresult⟩ := waited_cases hevent
    have hle : waiter.revision ≤ persistence.executor.durableRevision := by
      rcases hresult with ⟨-, hle⟩ | ⟨error, herror, -⟩
      · exact hle
      · cases herror
    rcases Nat.eq_zero_or_pos waiter.revision with hzero | hpos
    · obtain ⟨state, hfile⟩ :=
        Option.isSome_iff_exists.mp ((hinOrder.waiters waiter hwaiter).2 hzero)
      exact ⟨state, hfile, hzero ▸ Nat.zero_le _⟩
    · obtain ⟨state, hfile, hdurable⟩ := hkept.covers_durable (hpos.trans_le hle)
      exact ⟨state, hfile, hle.trans hdurable⟩
  failed revision error hevent := by
    obtain ⟨waiter, hwaiter, rfl, hresult⟩ := waited_cases hevent
    rcases hresult with ⟨hok, -⟩ | ⟨other, -, hlast⟩
    · cases hok
    · obtain ⟨failure, hmem, hgiven⟩ := hinOrder.errors (by rw [hlast]; rfl)
      exact ⟨failure, hmem, (hinOrder.waiters waiter hwaiter).1.trans hgiven⟩
  shutDown accepted hevent state hstate := by
    rcases shutDown_cases hevent with ⟨rfl, hrefused⟩ | ⟨index, elapsed, rfl, hcloser, hanswered⟩
    · rw [show persistence.executor.accepts = true from horderly] at hrefused
      cases hrefused
    · refine hkept.taken (horderly accepted hcloser hanswered) _ (mem_revisions ?_)
      have hle := hkept.answered
      rw [List.take_append_of_le_length (by omega)] at hstate
      exact List.take_subset_take_left _ hanswered.le hstate

end Persistence

/-! ### Runs -/

/-- **The executor tells the truth** in every run that is orderly. -/
theorem persistence_tells_truth (file : Option (DaemonState Palettes))
    (steps : List (PersistenceStep Palettes)) :
    Along Persistence.next Persistence.Orderly (.start file) steps →
      Along Persistence.next Persistence.Tells (.start file) steps := by
  refine Along.imp (I := fun persistence => persistence.Kept ∧ persistence.InOrder)
    (fun persistence step h horderly => ⟨h.1.next step, h.2.next horderly⟩)
    (fun persistence step h horderly => Persistence.tells h.1 h.2 horderly) ?_
  exact ⟨Persistence.kept_start file, (fun hsome => by cases hsome), fun _ hmem => by cases hmem⟩

namespace Sample

def newerState : DaemonState Unit := { state with theme := { state.theme with revision := 2 } }

/-- A state is given up while a newer one waits. -/
def givenUp : List (PersistenceStep Unit) :=
  [.enqueue state, .send, .work (.ok ()), .work (.ok ()), .enqueue newerState, .send, .wait 2,
    .work (.error "disk"), .work (.error "disk"), .work (.error "disk"), .work (.ok ()), .poll 0,
    .poll 0]

/-- A state is written. -/
def writtenOnce : List (PersistenceStep Unit) :=
  [.enqueue state, .send, .wait 1, .work (.ok ()), .work (.ok ()), .work (.ok ()), .work (.ok ()),
    .work (.ok ()), .work (.ok ()), .poll 0]

end Sample

/-- A run in which one state is written is orderly. -/
theorem persistence_tells_truth_once :
    Along Persistence.next Persistence.Tells (.start none) Sample.writtenOnce := by
  refine persistence_tells_truth none Sample.writtenOnce ?_
  exact ⟨trivial, trivial, ⟨by decide, by decide⟩, (fun _ _ h => by cases h),
    (fun _ _ h => by cases h), (fun _ _ h => by cases h), (fun _ _ h => by cases h),
    (fun _ _ h => by cases h), (fun _ _ h => by cases h), trivial, trivial⟩

/-- A revision is reported as lost, though only an older one has been. -/
theorem persistence_lies :
    ¬ Along Persistence.next Persistence.Tells (.start none) Sample.givenUp := by
  intro h
  have htells := (along_append (Persistence.start none) (Sample.givenUp.take 12) [.poll 0]).mp h
  obtain ⟨failure, hfailure, hle⟩ :=
    htells.2.1.failed 2 "Persistence failed: disk" (by decide +kernel)
  have hold : failure ≤ 1 := by
    revert failure
    decide +kernel
  omega

end Shilpo.Theme
