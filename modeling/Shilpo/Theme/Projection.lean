import Shilpo.Theme.Commands
import Shilpo.Theory.Handed

/-!
# The adapter executor, step by step

`AdapterExecutor` of `desktop/theme-daemon/src/executors.rs`, with every lock, send and call of the
desktop a step of its own. A request sets the status to pending, and is sent; the worker takes what
waits, has the desktop set the newest mode, up to three times, and publishes what came of it. It does
not look if something newer has been requested meanwhile, and a full mailbox refuses the newest: so
what is applied is not what has been requested (`projection_stale`). The status is right exactly
where nothing newer is requested before it is published, and requests that are to be answered do not
pass an applied one by; and the desktop has the newest mode in the end unless it has been refused
(`projection_converges`).
-/

namespace Shilpo.Theme

open Theory

/-- A mode, and the revision that it belongs to. -/
abbrev ModeRequest := ℕ × ThemeMode

/-- What is requested later is not older, and of one revision there is one mode. -/
def ModeRequest.Precedes (request other : ModeRequest) : Prop :=
  request.1 ≤ other.1 ∧ (request.1 = other.1 → request = other)

instance : IsPreorder ModeRequest ModeRequest.Precedes where
  refl request := ⟨le_rfl, fun _ => rfl⟩
  trans request other last h hlast := by
    refine ⟨h.1.trans hlast.1, fun heq => ?_⟩
    have hother : request.1 = other.1 := le_antisymm h.1 (heq ▸ hlast.1)
    rw [h.2 hother]
    exact hlast.2 (hother ▸ heq)

instance (request other : ModeRequest) : Decidable (request.Precedes other) :=
  inferInstanceAs (Decidable (_ ∧ _))

/-! ### The executor -/

/-- What the worker is doing. -/
inductive AdapterWorker where
  | idle
  /-- It takes what waits; `request` is the newest so far. -/
  | draining (request : ModeRequest)
  /-- The status has to be set. -/
  | marking (request : ModeRequest)
  | attempting (request : ModeRequest) (attempts : ℕ)
  /-- The desktop has been set; the revision has to be noted. -/
  | applied (request : ModeRequest)
  | publishing (status : ProjectionStatus) (request : ModeRequest)
  | answering
  deriving DecidableEq

/-- How far a `project` has come. -/
inductive ProjectCall where
  | none
  /-- The status has to be set. -/
  | begun (request : ModeRequest)
  /-- The request has to be sent. -/
  | announced (request : ModeRequest)
  deriving DecidableEq

/-- The executor and its worker. Of what has been, `requested` is the newest request, `refused` tells
if it has been, `lastCall` is what the desktop was told last, and `lastSuccess` what it has done. -/
structure Projection where
  executor : AdapterExecutor
  lastAppliedRevision : ℕ
  worker : AdapterWorker
  call : ProjectCall
  requested : Option ModeRequest
  refused : Bool
  lastCall : Option ModeRequest
  lastSuccess : Option ModeRequest

/-- What happens next. -/
inductive ProjectionStep where
  /-- `project` begins, and notes what is the latest. -/
  | project (request : ModeRequest)
  /-- It sets the status, and then sends. -/
  | goOn
  | projectWithReply (request : ModeRequest)
  /-- The worker goes on; if it calls the desktop, with this outcome. -/
  | work (outcome : Except String Unit)

def maxAttempts : ℕ := 3

namespace AdapterExecutor

variable (executor : AdapterExecutor)

/-- The last part of `project`: a request is sent; it may be refused. -/
def send (request : ModeRequest) : AdapterExecutor × Bool :=
  if executor.isClosed then (executor, false)
  else if adapterMailboxCapacity ≤ executor.requests.length then
    ({ executor with overloads := executor.overloads + 1 }, false)
  else ({ executor with requests := executor.requests ++ [request] }, true)

end AdapterExecutor

namespace Projection

variable (projection : Projection)

def start : Projection where
  executor := ⟨[], false, none, .applied, 0⟩
  lastAppliedRevision := 0
  worker := .idle
  call := .none
  requested := none
  refused := false
  lastCall := none
  lastSuccess := none

/-- The newest request; also one that has just begun. -/
def newest : Option ModeRequest :=
  match projection.call with
  | .begun request => some request
  | _ => projection.requested

/-- A request may be made: the one before has been sent, and is not newer. -/
def Admits (request : ModeRequest) : Prop :=
  projection.call = .none ∧ ∀ before ∈ projection.requested, before.Precedes request

instance (request : ModeRequest) : Decidable (projection.Admits request) :=
  inferInstanceAs (Decidable (_ ∧ _))

def send (request : ModeRequest) : Projection :=
  let (executor, accepted) := projection.executor.send request
  { projection with
    executor, call := .none, requested := some request, refused := !accepted }

/-- The worker takes the oldest request; it keeps the newer one. -/
def receive (request : ModeRequest) (rest : List ModeRequest) : Projection :=
  { projection with
    executor := { projection.executor with requests := rest }, worker := .draining request }

/-- The desktop has been called. -/
def attempt (request : ModeRequest) (attempts : ℕ) : Except String Unit → Projection
  | .ok () =>
    { projection with
      worker := .applied request, lastCall := some request, lastSuccess := some request }
  | .error error =>
    if attempts + 1 < maxAttempts then
      { projection with worker := .attempting request (attempts + 1), lastCall := some request }
    else
      { projection with
        worker := .publishing (.degraded error) request, lastCall := some request }

def work (outcome : Except String Unit) : Projection :=
  match projection.worker, projection.executor.requests with
  | .idle, [] => projection
  | .idle, request :: rest => projection.receive request rest
  | .draining request, next :: rest =>
    projection.receive (if request.1 < next.1 then next else request) rest
  | .draining request, [] => { projection with worker := .marking request }
  | .marking request, _ =>
    { projection with
      executor := { projection.executor with projectionStatus := .pending },
      worker := .attempting request 0 }
  | .attempting request attempts, _ => projection.attempt request attempts outcome
  | .applied request, _ =>
    { projection with
      lastAppliedRevision := request.1, worker := .publishing .applied request }
  | .publishing status _, _ =>
    { projection with
      executor := { projection.executor with projectionStatus := status }, worker := .answering }
  | .answering, _ => { projection with worker := .idle }

/-- Requests are made one after the other. -/
def next : ProjectionStep → Projection
  | .project request =>
    if projection.Admits request then
      { projection with
        executor := { projection.executor with latest := some request }, call := .begun request }
    else projection
  | .goOn =>
    match projection.call with
    | .none => projection
    | .begun request =>
      { projection with
        executor := { projection.executor with projectionStatus := .pending },
        call := .announced request, requested := some request }
    | .announced request => projection.send request
  | .projectWithReply request =>
    if projection.Admits request then projection.send request else projection
  | .work outcome => projection.work outcome

/-! ### What is promised -/

/-- The revision that has been applied does not go back. -/
def Advances (step : ProjectionStep) : Prop :=
  projection.lastAppliedRevision ≤ (projection.next step).lastAppliedRevision

/-- If the status is applied, what has been requested last is what the desktop has done last. -/
def TellsApplied : Prop :=
  projection.executor.projectionStatus = .applied →
    ∀ request ∈ projection.requested, ∃ done ∈ projection.lastSuccess, done.1 = request.1

/-- If there is nothing to do, the desktop has been told what has been requested last, or the status
says that something is wrong. -/
def Converged : Prop :=
  projection.worker = .idle → projection.executor.requests = [] → projection.call = .none →
    (∃ error, projection.executor.projectionStatus = .degraded error) ∨
      ∀ request ∈ projection.requested, ∃ told ∈ projection.lastCall, told.2 = request.2

/-! ### What keeps it -/

/-- When it is published that something has been applied, nothing newer has been requested; and a
request that is to be answered does not come while the status is applied, unless it is for what the
desktop has done. -/
def Timely : ProjectionStep → Prop
  | .work _ => ∀ request, projection.worker = .publishing .applied request →
    ∀ newest ∈ projection.requested, newest.1 = request.1
  | .projectWithReply request =>
    projection.Admits request → projection.executor.projectionStatus = .applied →
      ∃ done ∈ projection.lastSuccess, done.1 = request.1
  | _ => True

/-! ### The order of the requests -/

/-- The request that the worker has taken, and has not made of the desktop yet. -/
def held : Option ModeRequest :=
  match projection.worker with
  | .draining request | .marking request | .attempting request _ => some request
  | _ => none

/-- What the worker still has before it. -/
def waiting : List ModeRequest := projection.held.toList ++ projection.executor.requests

/-- The request that is being made. -/
def making : Option ModeRequest :=
  match projection.call with
  | .begun request | .announced request => some request
  | .none => none

/-- The requests are in order; the revision that is noted is at most that of what the desktop has
done, and of what it is about to be noted for; and the newest request waits, or is what the desktop
was told last, unless it has been refused, or has not been sent yet. -/
structure Kept : Prop where
  handed : Handed ModeRequest.Precedes projection.lastSuccess.toList
    (projection.waiting ++ projection.making.toList) projection.newest
  noted : ∀ done ∈ projection.lastSuccess, projection.lastAppliedRevision ≤ done.1
  nothing : projection.lastSuccess = none → projection.lastAppliedRevision = 0
  announced : ∀ request, projection.call = .announced request →
    projection.requested = some request
  unnoted : ∀ request, projection.worker = .applied request ∨
    projection.worker = .publishing .applied request → projection.lastSuccess = some request
  pending : ∀ request, (∃ attempts, projection.worker = .attempting request attempts) ∨
    projection.worker = .applied request ∨ (∃ status, projection.worker = .publishing status request) →
      projection.executor.projectionStatus = .pending
  reaches : projection.refused = false → (∀ request, projection.call ≠ .announced request) →
    ∀ request ∈ projection.requested, projection.waiting.getLast? = some request ∨
      projection.waiting = [] ∧ projection.lastCall = some request

variable {projection}

theorem kept_start : start.Kept where
  handed := ⟨List.Pairwise.nil, (fun _ hmem => by cases hmem), fun _ hmem => by cases hmem⟩
  noted _ hdone := by cases hdone
  nothing _ := rfl
  announced _ hcall := by cases hcall
  unnoted _ hworker := by rcases hworker with hworker | hworker <;> cases hworker
  pending _ hworker := by
    rcases hworker with ⟨_, hworker⟩ | hworker | ⟨_, hworker⟩ <;> cases hworker
  reaches _ _ _ hrequest := by cases hrequest

/-- A request is sent behind the others, or refused. -/
theorem send_cases (executor : AdapterExecutor) (request : ModeRequest) :
    (executor.send request).1.projectionStatus = executor.projectionStatus ∧
      ((executor.send request).2 = true ∧
          (executor.send request).1.requests = executor.requests ++ [request] ∨
        (executor.send request).2 = false ∧
          (executor.send request).1.requests = executor.requests) := by
  unfold AdapterExecutor.send
  split_ifs
  · exact ⟨rfl, .inr ⟨rfl, rfl⟩⟩
  · exact ⟨rfl, .inr ⟨rfl, rfl⟩⟩
  · exact ⟨rfl, .inl ⟨rfl, rfl⟩⟩

variable {request : ModeRequest}

/-- A request is sent; it is in order behind those that wait. -/
theorem Kept.send (h : projection.Kept)
    (hhanded : Handed ModeRequest.Precedes projection.lastSuccess.toList
      (projection.waiting ++ [request]) (some request)) :
    (projection.send request).Kept := by
  obtain ⟨hstatus, hsent⟩ := send_cases projection.executor request
  have hwaiting : (projection.send request).waiting =
      projection.held.toList ++ (projection.executor.send request).1.requests := rfl
  refine ⟨?_, h.noted, h.nothing, (fun _ hcall => by cases hcall), h.unnoted, ?_, ?_⟩
  · have hsublist : ((projection.send request).waiting ++ []).Sublist
        (projection.waiting ++ [request]) := by
      rw [List.append_nil, hwaiting, waiting, List.append_assoc]
      refine (List.Sublist.refl _).append ?_
      rcases hsent with ⟨-, hrequests⟩ | ⟨-, hrequests⟩
      · rw [hrequests]
      · rw [hrequests]
        exact List.sublist_append_left _ _
    exact hhanded.sublist hsublist
  · intro other hworker
    exact hstatus.trans (h.pending other hworker)
  · intro hrefused _ other hother
    obtain rfl := Option.some.inj hother
    rcases hsent with ⟨-, hrequests⟩ | ⟨hfalse, -⟩
    · refine .inl ?_
      rw [hwaiting, hrequests, ← List.append_assoc]
      exact List.getLast?_concat
    · rw [show (projection.send request).refused = !(projection.executor.send request).2 from rfl,
        hfalse] at hrefused
      cases hrefused

/-- The worker takes a request from the head of what waits; it may pass over an older one. -/
theorem Kept.receive (h : projection.Kept) {before rest : List ModeRequest}
    (hwaiting : projection.waiting = before ++ request :: rest) :
    (projection.receive request rest).Kept := by
  have hafter : (projection.receive request rest).waiting = request :: rest := rfl
  refine ⟨h.handed.sublist ?_, h.noted, h.nothing, h.announced, ?_, ?_, ?_⟩
  · rw [hafter, hwaiting]
    exact (List.sublist_append_right _ _).append (List.Sublist.refl _)
  · rintro other (hworker | hworker) <;> cases hworker
  · rintro other (⟨_, hworker⟩ | hworker | ⟨_, hworker⟩) <;> cases hworker
  · intro hrefused hcall other hother
    refine .inl ?_
    rcases h.reaches hrefused hcall other hother with hlast | ⟨hnil, -⟩
    · rw [hwaiting, List.getLast?_append] at hlast
      rw [hafter]
      simpa using hlast
    · rw [hwaiting] at hnil
      simp at hnil

/-- Of two requests that wait the worker keeps the later. -/
theorem Kept.keeps_later (h : projection.Kept) {request next : ModeRequest}
    {rest : List ModeRequest} (hwaiting : projection.waiting = request :: next :: rest) :
    (if request.1 < next.1 then next else request) = next := by
  have hsorted := h.handed.sorted
  rw [hwaiting] at hsorted
  obtain ⟨hle, hsame⟩ := (List.pairwise_cons.mp hsorted).1 next List.mem_cons_self
  split_ifs with hlt
  · rfl
  · exact hsame (by omega)

/-- The desktop has been called, and the request is not before the worker any more. -/
theorem Kept.called (h : projection.Kept) (hheld : projection.held = some request)
    {worker : AdapterWorker}
    (hdone : worker = .applied request ∨ ∃ error, worker = .publishing (.degraded error) request)
    {lastSuccess : Option ModeRequest} (hsuccess : lastSuccess = some request ∨
      lastSuccess = projection.lastSuccess ∧ worker ≠ .applied request)
    (hpending : projection.executor.projectionStatus = .pending) :
    ({ projection with
      worker, lastSuccess, lastCall := some request } : Projection).Kept := by
  have hwaiting : projection.waiting = request :: projection.executor.requests := by
    rw [waiting, hheld]
    rfl
  have hafter : ({ projection with
      worker, lastSuccess, lastCall := some request } : Projection).waiting =
        projection.executor.requests := by
    rcases hdone with rfl | ⟨error, rfl⟩ <;> rfl
  have hhanded := h.handed
  rw [hwaiting, List.cons_append] at hhanded
  have hnoted : projection.lastAppliedRevision ≤ request.1 := by
    cases hlast : projection.lastSuccess with
    | none => exact h.nothing hlast ▸ Nat.zero_le _
    | some done =>
      refine (h.noted done hlast).trans ?_
      exact (hhanded.below done (by rw [hlast]; exact List.mem_singleton_self _) request
        List.mem_cons_self).1
  refine ⟨?_, ?_, ?_, h.announced, ?_, fun _ _ => hpending, ?_⟩
  · rw [hafter]
    refine (hhanded.settle.sublist (List.sublist_cons_self _ _)).of_subset ?_
    rcases hsuccess with rfl | ⟨rfl, -⟩
    · exact List.subset_append_right _ _
    · exact List.subset_append_left _ _
  · rcases hsuccess with rfl | ⟨rfl, -⟩
    · rintro done hdone'
      obtain rfl := Option.some.inj hdone'
      exact hnoted
    · exact h.noted
  · rcases hsuccess with rfl | ⟨rfl, -⟩
    · rintro ⟨⟩
    · exact h.nothing
  · rintro other (hworker | hworker)
    · change worker = .applied other at hworker
      rcases hdone with rfl | ⟨error, rfl⟩
      · cases hworker
        rcases hsuccess with rfl | ⟨-, hne⟩
        · rfl
        · exact absurd rfl hne
      · cases hworker
    · change worker = .publishing .applied other at hworker
      rcases hdone with rfl | ⟨error, rfl⟩ <;> cases hworker
  · intro hrefused hcall other hother
    rw [hafter]
    rcases h.reaches hrefused hcall other hother with hlast | ⟨hnil, -⟩
    · rw [hwaiting] at hlast
      cases hrequests : projection.executor.requests with
      | nil =>
        rw [hrequests] at hlast
        exact .inr ⟨rfl, hlast⟩
      | cons first rest =>
        rw [hrequests, List.getLast?_cons_cons] at hlast
        exact .inl hlast
    · rw [hwaiting] at hnil
      cases hnil

theorem Kept.attempt (h : projection.Kept) {attempts : ℕ}
    (hworker : projection.worker = .attempting request attempts) (outcome : Except String Unit) :
    (projection.attempt request attempts outcome).Kept := by
  have hheld : projection.held = some request := by rw [held, hworker]
  have hpending := h.pending request (.inl ⟨attempts, hworker⟩)
  cases outcome with
  | ok => exact h.called hheld (.inl rfl) (.inl rfl) hpending
  | error error =>
    simp only [Projection.attempt]
    split_ifs
    · have hwaiting : projection.waiting = request :: projection.executor.requests := by
        rw [waiting, hheld]
        rfl
      have hhanded := h.handed
      rw [hwaiting] at hhanded
      refine ⟨hhanded, h.noted, h.nothing, h.announced, ?_, fun _ _ => hpending, ?_⟩
      · rintro other (hother | hother) <;> cases hother
      · intro hrefused hcall other hother
        rcases h.reaches hrefused hcall other hother with hlast | ⟨hnil, -⟩
        · rw [hwaiting] at hlast
          exact .inl hlast
        · rw [hwaiting] at hnil
          cases hnil
    · exact h.called hheld (.inr ⟨error, rfl⟩) (.inr ⟨rfl, fun heq => by cases heq⟩) hpending

/-- The worker goes on; what waits is the same. -/
theorem Kept.goOn (h : projection.Kept) {worker : AdapterWorker} {executor : AdapterExecutor}
    {lastAppliedRevision : ℕ}
    (hwaiting : ({ projection with worker, executor, lastAppliedRevision } : Projection).waiting =
      projection.waiting)
    (hnoted : lastAppliedRevision = projection.lastAppliedRevision ∨
      ∃ done ∈ projection.lastSuccess, lastAppliedRevision = done.1)
    (hunnoted : ∀ request, worker = .applied request ∨ worker = .publishing .applied request →
      projection.lastSuccess = some request)
    (hpending : ∀ request, (∃ attempts, worker = .attempting request attempts) ∨
      worker = .applied request ∨ (∃ status, worker = .publishing status request) →
        executor.projectionStatus = .pending) :
    ({ projection with worker, executor, lastAppliedRevision } : Projection).Kept := by
  refine ⟨hwaiting ▸ h.handed, fun done hdone => ?_, fun hnone => ?_, h.announced, hunnoted,
    hpending, hwaiting ▸ h.reaches⟩
  · rcases hnoted with rfl | ⟨other, hother, rfl⟩
    · exact h.noted done hdone
    · exact (Option.some.inj (hother.symm.trans hdone) ▸ le_rfl)
  · rcases hnoted with rfl | ⟨other, hother, rfl⟩
    · exact h.nothing hnone
    · rw [hnone] at hother
      cases hother

theorem Kept.work (h : projection.Kept) (outcome : Except String Unit) :
    (projection.work outcome).Kept := by
  unfold Projection.work
  split
  · exact h
  · rename_i request rest hworker hrequests
    have hwaiting : projection.waiting = [] ++ request :: rest := by
      rw [waiting, held, hworker, hrequests]
      rfl
    exact h.receive hwaiting
  · rename_i request next rest hworker hrequests
    have hwaiting : projection.waiting = request :: next :: rest := by
      rw [waiting, held, hworker, hrequests]
      rfl
    rw [h.keeps_later hwaiting]
    rw [← List.singleton_append] at hwaiting
    exact h.receive hwaiting
  · rename_i request hworker hrequests
    refine h.goOn ?_ (.inl rfl) ?_ ?_
    · rw [waiting, waiting, held, held, hworker]
    · rintro other (hother | hother) <;> cases hother
    · rintro other (⟨_, hother⟩ | hother | ⟨_, hother⟩) <;> cases hother
  · rename_i request hworker
    refine h.goOn ?_ (.inl rfl) ?_ fun _ _ => rfl
    · rw [waiting, waiting, held, held, hworker]
    · rintro other (hother | hother) <;> cases hother
  · rename_i hworker
    exact h.attempt hworker outcome
  · rename_i request hworker
    have hsuccess := h.unnoted request (.inl hworker)
    refine h.goOn ?_ (.inr ⟨request, hsuccess, rfl⟩) ?_ fun _ _ => ?_
    · rw [waiting, waiting, held, held, hworker]
    · rintro other (hother | hother) <;> cases hother
      exact hsuccess
    · exact h.pending request (.inr (.inl hworker))
  · rename_i status request hworker
    refine h.goOn ?_ (.inl rfl) ?_ ?_
    · rw [waiting, waiting, held, held, hworker]
    · rintro other (hother | hother) <;> cases hother
    · rintro other (⟨_, hother⟩ | hother | ⟨_, hother⟩) <;> cases hother
  · rename_i hworker
    refine h.goOn ?_ (.inl rfl) ?_ ?_
    · rw [waiting, waiting, held, held, hworker]
    · rintro other (hother | hother) <;> cases hother
    · rintro other (⟨_, hother⟩ | hother | ⟨_, hother⟩) <;> cases hother

theorem Kept.next (h : projection.Kept) (step : ProjectionStep) : (projection.next step).Kept := by
  cases step with
  | project request =>
    simp only [Projection.next]
    split_ifs with hadmits
    · obtain ⟨hnone, hprecedes⟩ := hadmits
      have hhanded := h.handed
      rw [newest, making, hnone, Option.toList_none, List.append_nil] at hhanded
      exact ⟨hhanded.push hprecedes, h.noted, h.nothing, (fun _ hcall => by cases hcall),
        h.unnoted, h.pending, fun hrefused _ => h.reaches hrefused fun _ hcall => by
          rw [hnone] at hcall; cases hcall⟩
    · exact h
  | goOn =>
    simp only [Projection.next]
    split
    · exact h
    · rename_i request hcall
      have hhanded := h.handed
      rw [newest, making, hcall] at hhanded
      refine ⟨hhanded, h.noted, h.nothing, ?_, h.unnoted, fun _ _ => rfl, ?_⟩
      · intro other hother
        cases hother
        rfl
      · exact fun _ hcalls => absurd rfl (hcalls request)
    · rename_i request hcall
      have hhanded := h.handed
      rw [newest, making, hcall, h.announced request hcall] at hhanded
      exact h.send hhanded
  | projectWithReply request =>
    simp only [Projection.next]
    split_ifs with hadmits
    · obtain ⟨hnone, hprecedes⟩ := hadmits
      have hhanded := h.handed
      rw [newest, making, hnone, Option.toList_none, List.append_nil] at hhanded
      exact h.send (hhanded.push hprecedes)
    · exact h
  | work outcome => exact h.work outcome

/-! ### One step -/

theorem Kept.advances (h : projection.Kept) (step : ProjectionStep) :
    projection.Advances step := by
  unfold Advances
  cases step with
  | project request =>
    simp only [Projection.next]
    split_ifs <;> exact le_rfl
  | goOn =>
    simp only [Projection.next]
    split <;> exact le_rfl
  | projectWithReply request =>
    simp only [Projection.next]
    split_ifs <;> exact le_rfl
  | work outcome =>
    simp only [Projection.next, Projection.work]
    split
    · exact le_rfl
    · exact le_rfl
    · exact le_rfl
    · exact le_rfl
    · exact le_rfl
    · cases outcome with
      | ok => exact le_rfl
      | error =>
        simp only [Projection.attempt]
        split_ifs <;> exact le_rfl
    · rename_i request hworker
      exact h.noted request (h.unnoted request (.inl hworker))
    · exact le_rfl
    · exact le_rfl

/-- **A step keeps the status right** exactly if it is timely. -/
theorem Kept.tellsApplied_iff (h : projection.Kept) (htells : projection.TellsApplied)
    (step : ProjectionStep) :
    (projection.next step).TellsApplied ↔ projection.Timely step := by
  cases step with
  | project request =>
    simp only [Projection.next]
    refine iff_of_true ?_ trivial
    split_ifs <;> exact htells
  | goOn =>
    simp only [Projection.next]
    refine iff_of_true ?_ trivial
    split
    · exact htells
    · intro happlied
      cases happlied
    · rename_i request hcall
      intro happlied other hother
      obtain rfl := Option.some.inj hother
      have hstatus := (send_cases projection.executor request).1
      exact htells (hstatus.symm.trans happlied) request (h.announced request hcall)
  | projectWithReply request =>
    have hstatus := (send_cases projection.executor request).1
    simp only [Projection.next, Timely]
    split_ifs with hadmits
    · constructor
      · intro hsent _ happlied
        exact hsent (hstatus.trans happlied) request rfl
      · intro hdone happlied other hother
        obtain rfl := Option.some.inj hother
        exact hdone hadmits (hstatus.symm.trans happlied)
    · exact iff_of_true htells fun hadmits' => absurd hadmits' hadmits
  | work outcome =>
    have hother : ∀ status : ProjectionStatus, status ≠ .applied →
        (∀ request, projection.worker ≠ .publishing .applied request) → ∀ {next : Projection},
        next.executor.projectionStatus = status →
          (next.TellsApplied ↔ projection.Timely (.work outcome)) := by
      intro status hstatus hworker next hnext
      refine iff_of_true (fun happlied => absurd (hnext.symm.trans happlied) hstatus) ?_
      exact fun request hpublishing => absurd hpublishing (hworker request)
    have hsame : (∀ request, projection.worker ≠ .publishing .applied request) →
        ∀ {next : Projection},
        next.executor.projectionStatus = projection.executor.projectionStatus →
        next.requested = projection.requested → next.lastSuccess = projection.lastSuccess →
          (next.TellsApplied ↔ projection.Timely (.work outcome)) := by
      intro hworker next hstatus hrequested hsuccess
      refine iff_of_true ?_ fun request hpublishing => absurd hpublishing (hworker request)
      unfold TellsApplied
      rw [hstatus, hrequested, hsuccess]
      exact htells
    simp only [Projection.next, Projection.work]
    split
    · rename_i hworker _
      exact hsame (fun _ heq => by rw [hworker] at heq; cases heq) rfl rfl rfl
    · rename_i hworker _
      exact hsame (fun _ heq => by rw [hworker] at heq; cases heq) rfl rfl rfl
    · rename_i hworker _
      exact hsame (fun _ heq => by rw [hworker] at heq; cases heq) rfl rfl rfl
    · rename_i hworker _
      exact hsame (fun _ heq => by rw [hworker] at heq; cases heq) rfl rfl rfl
    · rename_i hworker
      exact hother .pending (fun heq => by cases heq)
        (fun _ heq => by rw [hworker] at heq; cases heq) rfl
    · rename_i request attempts hworker
      refine hother .pending (fun heq => by cases heq)
        (fun _ heq => by rw [hworker] at heq; cases heq) ?_
      have hpending := h.pending request (.inl ⟨attempts, hworker⟩)
      cases outcome with
      | ok => exact hpending
      | error =>
        simp only [Projection.attempt]
        split_ifs <;> exact hpending
    · rename_i hworker
      exact hsame (fun _ heq => by rw [hworker] at heq; cases heq) rfl rfl rfl
    · rename_i status request hworker
      cases status with
      | applied =>
        have hsuccess := h.unnoted request (.inr hworker)
        constructor
        · intro hpublished other hother' newest hnewest
          rw [hworker] at hother'
          cases hother'
          obtain ⟨done, hdone, heq⟩ := hpublished rfl newest hnewest
          rw [← heq, ← Option.some.inj (hsuccess.symm.trans hdone)]
        · intro htimely _ newest hnewest
          exact ⟨request, hsuccess, (htimely request hworker newest hnewest).symm⟩
      | pending =>
        exact hother .pending (fun heq => by cases heq)
          (fun _ heq => by rw [hworker] at heq; cases heq) rfl
      | degraded error =>
        exact hother (.degraded error) (fun heq => by cases heq)
          (fun _ heq => by rw [hworker] at heq; cases heq) rfl
    · rename_i hworker
      exact hsame (fun _ heq => by rw [hworker] at heq; cases heq) rfl rfl rfl

/-- What has not been refused is what the desktop has been told in the end. -/
theorem Kept.converged (h : projection.Kept) (hrefused : projection.refused = false) :
    projection.Converged := by
  intro hidle hrequests hcall
  refine .inr fun request hrequest => ?_
  have hwaiting : projection.waiting = [] := by
    rw [waiting, held, hidle, hrequests]
    rfl
  rcases h.reaches hrefused (fun _ heq => by rw [hcall] at heq; cases heq) request hrequest with
    hlast | ⟨-, hlast⟩
  · rw [hwaiting] at hlast
    cases hlast
  · exact ⟨request, hlast, rfl⟩

end Projection

/-! ### Runs -/

/-- **The executor in every run**: what is noted as applied does not go back; the status is right
all the way exactly if the run is timely; and when there is nothing to do the desktop has been told
the newest mode, unless that has been refused. -/
theorem projection_converges (steps : List ProjectionStep) :
    Along Projection.next Projection.Advances .start steps ∧
    (Always Projection.next Projection.TellsApplied .start steps ↔
      Along Projection.next Projection.Timely .start steps) ∧
    Always Projection.next (fun projection => projection.refused = false → projection.Converged)
      .start steps := by
  have hkept : Preserved Projection.next Projection.Kept := fun _ step h => h.next step
  refine ⟨?_, ?_, ?_⟩
  · rw [along_iff]
    intro before step _ _
    exact (hkept.holds Projection.kept_start before).advances step
  · exact always_iff_along hkept (fun _ step h htells => h.tellsApplied_iff htells step)
      Projection.kept_start (fun _ _ hrequest => by cases hrequest) steps
  · rw [always_iff]
    intro before _ _
    exact (hkept.holds Projection.kept_start before).converged

namespace Sample

/-- A request by `project`. -/
def projected (request : ModeRequest) : List ProjectionStep := [.project request, .goOn, .goOn]

/-- A second mode is requested before it is published that the first has been applied. -/
def appliedLate : List ProjectionStep :=
  projected (1, .dark) ++ List.replicate 5 (ProjectionStep.work (.ok ())) ++
    [ProjectionStep.project (2, .light), .goOn, .work (.ok ())]

/-- A mode is requested while as many wait as may. -/
def crowded : List ProjectionStep :=
  projected (1, .dark) ++ List.replicate 3 (ProjectionStep.work (.ok ())) ++
    (List.range 8).flatMap (fun revision => projected (revision + 2, .dark)) ++
    projected (10, .light) ++ List.replicate 20 (ProjectionStep.work (.ok ()))

end Sample

/-- The status says that the first mode has been applied, as the second waits; and the desktop is
left with an old mode. -/
theorem projection_stale :
    ¬ Always Projection.next Projection.TellsApplied .start Sample.appliedLate ∧
      ¬ Always Projection.next Projection.Converged .start Sample.crowded := by
  constructor
  · intro h
    have hlast := (always_iff _ _).mp h Sample.appliedLate [] (List.append_nil _).symm
    obtain ⟨done, hdone, heq⟩ := hlast (by decide +kernel) (2, .light) (by decide +kernel)
    have hsuccess : (run Projection.next .start Sample.appliedLate).lastSuccess =
        some (1, .dark) := by
      decide +kernel
    rw [hsuccess] at hdone
    cases hdone
    cases heq
  · intro h
    have hlast := (always_iff _ _).mp h Sample.crowded [] (List.append_nil _).symm
    have hstatus : (run Projection.next .start Sample.crowded).executor.projectionStatus =
        .applied := by
      decide +kernel
    have htold : (run Projection.next .start Sample.crowded).lastCall = some (9, .dark) := by
      decide +kernel
    rcases hlast (by decide +kernel) (by decide +kernel) (by decide +kernel) with
      ⟨error, hdegraded⟩ | hconverged
    · rw [hstatus] at hdegraded
      cases hdegraded
    · obtain ⟨told, hcall, heq⟩ := hconverged (10, .light) (by decide +kernel)
      rw [htold] at hcall
      cases hcall
      cases heq

end Shilpo.Theme
