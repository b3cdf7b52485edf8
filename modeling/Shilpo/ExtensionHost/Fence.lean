import Shilpo.ExtensionHost.Supervisor

/-!
# The generation fence

Which messages of a child are accepted. A message is valid when it is of the current host generation
and no engine generation above its own has been accepted from the same child (`Valid`). What is
promised of each message that is read (`Judged`): a valid one takes effect (`TakesEffect`), any
other changes nothing, and a first message of the current host generation makes the supervisor
ready.

The code compares engine generations with the last one accepted from any child, so that a new child,
whose generations begin anew, is refused where the one before had gone further; and it passes over
the outcome of a reload reported as timed out, and over the update of such an outcome when it comes
first, and drops an update for which the channel has no room. `judged_iff` says that there is
nothing else.
-/

namespace Shilpo.ExtensionHost

open Shilpo.Theory

namespace Supervisor

/-! ### What is promised -/

/-- The message the step reads. -/
def reads (s : Supervisor) (i : LoopInput) : Option WorkerMessage :=
  match i.event, s.phase with
  | .readInitial (.message m) _, .awaiting => if s.stopSignal then none else some m
  | .read (.message m), .reading => some m
  | _, _ => none

/-- The message is of this host generation, and its engine generation is not below one accepted
from the same child. -/
def Valid (s : Supervisor) (m : WorkerMessage) : Prop :=
  m.hostGeneration = s.hostGeneration ∧ ∀ g ∈ s.acceptedHere, g ≤ m.engineGeneration

instance (s : Supervisor) (m : WorkerMessage) : Decidable (s.Valid m) :=
  inferInstanceAs (Decidable (_ ∧ ∀ g ∈ s.acceptedHere, g ≤ m.engineGeneration))

/-- Who waits for the reply that a message is; before the pump there is nobody. -/
def waiting (s : Supervisor) (m : WorkerMessage) : List ℕ :=
  match s.phase, m.payload with
  | .reading, .devReload _ => s.pendingReplies
  | .reading, .search _ => s.pendingSearchReplies
  | _, _ => []

/-- The message is accepted, its snapshot published, its update forwarded, its reply resolved. -/
structure TakesEffect (s s' : Supervisor) (m : WorkerMessage) : Prop where
  accepted : s'.accepted = s.accepted ++ [m]
  snapshot : ∀ u ∈ m.payload.carried, s'.snapshot = u.snapshot.getD s.snapshot
  update : ∀ u ∈ m.payload.carried, s'.updates.map (·.update) =
    s.updates.map (·.update) ++ [{ u with hostGeneration := s.hostGeneration }]
  reply : m.requestId ∈ s.waiting m → s'.replies = s.replies ++ [(m.requestId, m.payload)]

/-- The message changes nothing. -/
structure Dropped (s s' : Supervisor) : Prop where
  state : s'.state = s.state
  accepted : s'.accepted = s.accepted
  snapshot : s'.snapshot = s.snapshot
  updates : s'.updates = s.updates
  replies : s'.replies = s.replies

/-- What is promised of the message a step reads. -/
structure Judged (s s' : Supervisor) (m : WorkerMessage) : Prop where
  valid : s.Valid m → TakesEffect s s' m
  invalid : ¬ s.Valid m → Dropped s s'
  first : s.phase = .awaiting → m.hostGeneration = s.hostGeneration → s'.state = .ready

/-- So it is with the message the step reads. -/
def JudgesWell (s : Supervisor) (i : LoopInput) : Prop :=
  ∀ m ∈ s.reads i, Judged (s.wait i.elapsed) (s.next i) m

/-! ### When it is kept -/

/-- A valid message is not below what earlier children have reached, is not an outcome the code
passes over, and finds room for its update. -/
def Passes (s : Supervisor) (m : WorkerMessage) : Prop :=
  s.Valid m →
    s.lastAcceptedEngineGen ≤ m.engineGeneration ∧
    (m.payload.carried.isSome → s.updates.length < maxQueueSize) ∧
    (s.phase = .awaiting → ∀ outcome, m.payload = .devReload outcome → outcome.update = none) ∧
    (s.phase = .reading → s.cancelled m = false)

/-- So it is with the message the step reads. -/
def Agrees (s : Supervisor) (i : LoopInput) : Prop := ∀ m ∈ s.reads i, (s.wait i.elapsed).Passes m

/-- What was accepted from the current child is at most the last accepted, and nothing is before
its first message. -/
structure Fenced (s : Supervisor) : Prop where
  below : ∀ g ∈ s.acceptedHere, g ≤ s.lastAcceptedEngineGen
  fresh : s.phase = .handshaking ∨ s.phase = .awaiting → s.acceptedHere = []

variable {s : Supervisor} {m : WorkerMessage}

theorem Fenced.valid (h : s.Fenced) (hcurrent : s.current m) : s.Valid m := by
  obtain ⟨hhost, hengine⟩ := of_decide_eq_true hcurrent
  exact ⟨hhost, fun g hg => (h.below g hg).trans hengine⟩

theorem current_of (hvalid : s.Valid m) (hlast : s.lastAcceptedEngineGen ≤ m.engineGeneration) :
    s.current m = true := decide_eq_true ⟨hvalid.1, hlast⟩

/-- A first message is valid by its host generation alone. -/
theorem Fenced.valid_first (h : s.Fenced) (hphase : s.phase = .awaiting)
    (hhost : m.hostGeneration = s.hostGeneration) : s.Valid m := by
  refine ⟨hhost, fun g hg => ?_⟩
  rw [h.fresh (.inr hphase)] at hg
  cases hg

theorem Fenced.keeps {t : Supervisor} (h : s.Fenced) (hhere : t.acceptedHere = s.acceptedHere)
    (hlast : t.lastAcceptedEngineGen = s.lastAcceptedEngineGen)
    (hphase : t.phase = .handshaking ∨ t.phase = .awaiting → t.acceptedHere = []) : t.Fenced where
  below := by rw [hhere, hlast]; exact h.below
  fresh := hphase

/-! ### The effect of a message -/

/-- An offer to the channel, by what is in it afterwards. -/
theorem offer_iff (updates : List Queued) (q : Queued) :
    (if updates.length < maxQueueSize then updates ++ [q] else updates).map (·.update) =
        updates.map (·.update) ++ [q.update] ↔ updates.length < maxQueueSize := by
  split
  · rename_i hroom
    simp [hroom]
  · rename_i hfull
    refine iff_of_false (fun h => ?_) hfull
    have := congrArg List.length h
    simp at this

/-- A reply that somebody waits for is sent. -/
theorem reply_of_mem {waiting : List ℕ} (h : m.requestId ∈ waiting) :
    s.reply m waiting = s.replies ++ [(m.requestId, m.payload)] := if_pos h

/-- A message without an update. -/
theorem takesEffect_of_none {s' : Supervisor} (hcarried : m.payload.carried = none)
    (haccepted : s'.accepted = s.accepted ++ [m])
    (hreply : m.requestId ∈ s.waiting m → s'.replies = s.replies ++ [(m.requestId, m.payload)]) :
    TakesEffect s s' m where
  accepted := haccepted
  snapshot u hu := by rw [hcarried] at hu; cases hu
  update u hu := by rw [hcarried] at hu; cases hu
  reply := hreply

/-- A message with an update, which is published. -/
theorem takesEffect_of_some {s' : Supervisor} {u : ExtensionUpdate} (place : ℕ)
    (hcarried : m.payload.carried = some u) (haccepted : s'.accepted = s.accepted ++ [m])
    (hsnapshot : s'.snapshot = u.snapshot.getD s.snapshot)
    (hupdates : s'.updates =
      if s.updates.length < maxQueueSize then
        s.updates ++ [⟨{ u with hostGeneration := s.hostGeneration }, place⟩]
      else s.updates)
    (hreply : m.requestId ∈ s.waiting m → s'.replies = s.replies ++ [(m.requestId, m.payload)]) :
    TakesEffect s s' m ↔ s.updates.length < maxQueueSize := by
  have hoffer := offer_iff s.updates ⟨{ u with hostGeneration := s.hostGeneration }, place⟩
  rw [← hupdates] at hoffer
  constructor
  · exact fun h => hoffer.mp (h.update u hcarried)
  · intro hroom
    refine ⟨haccepted, fun u' hu' => ?_, fun u' hu' => ?_, hreply⟩
    · obtain rfl := Option.some.inj (hcarried.symm.trans hu')
      exact hsnapshot
    · obtain rfl := Option.some.inj (hcarried.symm.trans hu')
      exact hoffer.mpr hroom

/-- The message that is accepted in the pump takes effect if there is room for its update. -/
theorem takesEffect_handle_iff (hphase : s.phase = .reading) (place : ℕ) :
    TakesEffect s (((s.carry m).accept m).handle m place) m ↔
      (m.payload.carried.isSome → s.updates.length < maxQueueSize) := by
  obtain ⟨hostGeneration, engineGeneration, requestId, payload⟩ := m
  have nobody (h : requestId ∈ []) : False := by cases h
  cases payload with
  | update u =>
    rw [takesEffect_of_some place rfl rfl rfl rfl fun h => ?_]
    · exact ⟨fun h _ => h, fun h => h rfl⟩
    · unfold waiting at h
      rw [hphase] at h
      exact (nobody h).elim
  | devReload outcome =>
    have hreply (h : requestId ∈ s.waiting ⟨hostGeneration, engineGeneration, requestId,
        .devReload outcome⟩) : requestId ∈ s.pendingReplies := by
      unfold waiting at h
      rw [hphase] at h
      exact h
    obtain ⟨sessionId, buildSequence, result, outcomeGeneration, code, text, update⟩ := outcome
    cases update with
    | none =>
      refine iff_of_true ?_ (fun h => by cases h)
      exact takesEffect_of_none rfl rfl fun h => reply_of_mem (hreply h)
    | some u =>
      rw [takesEffect_of_some place rfl rfl rfl rfl fun h => reply_of_mem (hreply h)]
      exact ⟨fun h _ => h, fun h => h rfl⟩
  | search result =>
    refine iff_of_true ?_ (fun h => by cases h)
    refine takesEffect_of_none rfl rfl fun h => ?_
    unfold waiting at h
    rw [hphase] at h
    exact reply_of_mem h
  | shutdownAck =>
    refine iff_of_true ?_ (fun h => by cases h)
    refine takesEffect_of_none rfl rfl fun h => ?_
    unfold waiting at h
    rw [hphase] at h
    exact (nobody h).elim
  | fatalError error =>
    refine iff_of_true ?_ (fun h => by cases h)
    refine takesEffect_of_none rfl (untouched_crash _ _).accepted fun h => ?_
    unfold waiting at h
    rw [hphase] at h
    exact (nobody h).elim

/-- The first message takes effect if there is room for its update, which must not come with the
outcome of a reload. -/
theorem takesEffect_becomeReady_iff (hphase : s.phase = .awaiting) (replays : ℕ) :
    TakesEffect s (s.becomeReady m replays) m ↔
      (m.payload.carried.isSome → s.updates.length < maxQueueSize) ∧
        ∀ outcome, m.payload = .devReload outcome → outcome.update = none := by
  have hreply {s' : Supervisor} (h : m.requestId ∈ s.waiting m) :
      s'.replies = s.replies ++ [(m.requestId, m.payload)] := by
    unfold waiting at h
    rw [hphase] at h
    cases h
  obtain ⟨hostGeneration, engineGeneration, requestId, payload⟩ := m
  cases payload with
  | update u =>
    rw [takesEffect_of_some s.carried.length rfl rfl rfl rfl hreply]
    constructor
    · exact fun h => ⟨fun _ => h, fun outcome houtcome => by cases houtcome⟩
    · exact fun h => h.1 rfl
  | devReload outcome =>
    cases hu : outcome.update with
    | none =>
      refine iff_of_true (takesEffect_of_none hu rfl hreply) ⟨fun h => ?_, fun o ho => ?_⟩
      · rw [WorkerPayload.carried, hu] at h
        cases h
      · cases ho
        exact hu
    | some u =>
      refine iff_of_false (fun h => ?_) (fun h => ?_)
      · have := congrArg List.length (h.update u hu)
        simp [becomeReady, carry, accept] at this
      · have hnone := h.2 outcome rfl
        rw [hu] at hnone
        cases hnone
  | search _ | shutdownAck | fatalError _ =>
    refine iff_of_true (takesEffect_of_none rfl rfl hreply) ⟨(fun h => by cases h), ?_⟩
    exact fun o ho => by cases ho

/-! ### What the code does with a message -/

theorem not_takesEffect_of_accepted {s' : Supervisor} (h : s'.accepted = s.accepted) :
    ¬ TakesEffect s s' m := by
  intro heffect
  have := congrArg List.length (heffect.accepted.symm.trans h)
  simp at this

theorem Fenced.judged_readInitial_iff (h : s.Fenced) (hphase : s.phase = .awaiting)
    (hstop : s.stopSignal = false) (replays : ℕ) :
    Judged s (s.readInitial (.message m) replays) m ↔ s.Passes m := by
  have hreading : ¬ s.phase = .reading := by rw [hphase]; exact fun h => by cases h
  by_cases hcurrent : s.current m
  · have hread : s.readInitial (.message m) replays = s.becomeReady m replays := by
      simp only [readInitial, hstop, Bool.false_eq_true, if_false, hcurrent, if_true]
    have hvalid := h.valid hcurrent
    have heffect := takesEffect_becomeReady_iff (m := m) hphase replays
    rw [hread]
    constructor
    · intro hjudged _
      obtain ⟨hroom, hnone⟩ := heffect.mp (hjudged.valid hvalid)
      exact ⟨(of_decide_eq_true hcurrent).2, hroom, fun _ => hnone, fun h => absurd h hreading⟩
    · intro hpasses
      obtain ⟨-, hroom, hnone, -⟩ := hpasses hvalid
      exact ⟨fun _ => heffect.mpr ⟨hroom, hnone hphase⟩, fun h => absurd hvalid h, fun _ _ => rfl⟩
  · have hdropped : Dropped s (s.readInitial (.message m) replays) := by
      simp only [readInitial, hstop, Bool.false_eq_true, if_false, hcurrent]
      exact ⟨rfl, rfl, rfl, rfl, rfl⟩
    constructor
    · intro hjudged hvalid
      exact absurd (hjudged.valid hvalid) (not_takesEffect_of_accepted hdropped.accepted)
    · intro hpasses
      have hinvalid : ¬ s.Valid m :=
        fun hvalid => hcurrent (current_of hvalid (hpasses hvalid).1)
      refine ⟨fun h => absurd h hinvalid, fun _ => hdropped, fun _ hhost => ?_⟩
      exact absurd (h.valid_first hphase hhost) hinvalid

theorem Fenced.judged_readMessage_iff (h : s.Fenced) (hphase : s.phase = .reading) :
    Judged s (s.readMessage (.message m)) m ↔ s.Passes m := by
  have hawaiting : ¬ s.phase = .awaiting := by rw [hphase]; exact fun h => by cases h
  have hfirst {s' : Supervisor} (h : s.phase = .awaiting) :
      m.hostGeneration = s.hostGeneration → s'.state = .ready := absurd h hawaiting
  by_cases hcurrent : s.current m
  · have hvalid := h.valid hcurrent
    by_cases hcancelled : s.cancelled m
    · have hread : s.readMessage (.message m) = (s.carry m).skip m := by
        simp only [readMessage, hcurrent, hcancelled, if_true]
      have hskip : ((s.carry m).skip m).accepted = s.accepted := by
        unfold skip
        split <;> rfl
      rw [hread]
      refine iff_of_false (fun hjudged => ?_) (fun hpasses => ?_)
      · exact not_takesEffect_of_accepted hskip (hjudged.valid hvalid)
      · have := (hpasses hvalid).2.2.2 hphase
        rw [hcancelled] at this
        cases this
    · have hread : s.readMessage (.message m) =
          ((s.carry m).accept m).handle m s.carried.length := by
        simp only [readMessage, hcurrent, hcancelled, if_true, Bool.false_eq_true, if_false]
      have heffect := takesEffect_handle_iff (m := m) hphase s.carried.length
      rw [hread]
      constructor
      · intro hjudged _
        exact ⟨(of_decide_eq_true hcurrent).2, heffect.mp (hjudged.valid hvalid),
          fun h => absurd h hawaiting, fun _ => Bool.eq_false_iff.mpr hcancelled⟩
      · intro hpasses
        exact ⟨fun _ => heffect.mpr (hpasses hvalid).2.1, fun h => absurd hvalid h, hfirst⟩
  · have hdropped : Dropped s (s.readMessage (.message m)) := by
      simp only [readMessage, hcurrent, Bool.false_eq_true, if_false]
      exact ⟨rfl, rfl, rfl, rfl, rfl⟩
    constructor
    · intro hjudged hvalid
      exact absurd (hjudged.valid hvalid) (not_takesEffect_of_accepted hdropped.accepted)
    · intro hpasses
      have hinvalid : ¬ s.Valid m :=
        fun hvalid => hcurrent (current_of hvalid (hpasses hvalid).1)
      exact ⟨fun h => absurd h hinvalid, fun _ => hdropped, hfirst⟩

/-! ### Over a run -/

/-- A phase that a child's first message is behind. -/
theorem Fenced.later {t : Supervisor} (h : s.Fenced) (hhere : t.acceptedHere = s.acceptedHere)
    (hlast : t.lastAcceptedEngineGen = s.lastAcceptedEngineGen)
    (hphase : t.phase ≠ .handshaking ∧ t.phase ≠ .awaiting) : t.Fenced :=
  h.keeps hhere hlast fun h => (h.elim hphase.1 hphase.2).elim

/-- Where the phase stays what it was. -/
theorem Fenced.same {t : Supervisor} (h : s.Fenced) (hhere : t.acceptedHere = s.acceptedHere)
    (hlast : t.lastAcceptedEngineGen = s.lastAcceptedEngineGen) (hphase : t.phase = s.phase) :
    t.Fenced := by
  refine h.keeps hhere hlast fun hfresh => ?_
  rw [hphase] at hfresh
  rw [hhere]
  exact h.fresh hfresh

theorem Fenced.recordFailure (h : s.Fenced) (exit : Exit) : (s.recordFailure exit).Fenced := by
  unfold Supervisor.recordFailure
  dsimp only
  split <;> exact h.later rfl rfl ⟨(fun h => by cases h), (fun h => by cases h)⟩

theorem Fenced.crash (h : s.Fenced) (exit : Exit) : (s.crash exit).Fenced := by
  have hrejected : s.rejectPending.Fenced := h.same rfl rfl rfl
  exact hrejected.recordFailure exit

/-- An accepted message raises the last accepted generation. -/
theorem Fenced.below_accept (h : s.Fenced) (hcurrent : s.current m) :
    ∀ g ∈ (s.accept m).acceptedHere, g ≤ m.engineGeneration := by
  intro g hg
  rcases List.mem_cons.mp hg with rfl | hg
  · exact le_rfl
  · exact (h.below g hg).trans (of_decide_eq_true hcurrent).2

theorem Fenced.readInitial (h : s.Fenced) (result : ReadResult) (replays : ℕ) : (s.readInitial result replays).Fenced := by
  have hkilled (fate : ChildFate) : (s.endChild fate).Fenced := h.same rfl rfl rfl
  unfold Supervisor.readInitial
  split
  · exact h.later rfl rfl ⟨(fun h => by cases h), (fun h => by cases h)⟩
  · split
    · split
      · rename_i m hcurrent
        have hbelow := h.below_accept hcurrent
        refine ⟨?_, fun hfresh => ?_⟩
        · unfold becomeReady
          split <;> exact hbelow
        · rcases hfresh with hfresh | hfresh <;> cases hfresh
      · exact h.later rfl rfl ⟨(fun h => by cases h), (fun h => by cases h)⟩
    · exact h.same rfl rfl rfl
    · exact (hkilled .exited).recordFailure .exitedEarly
    · exact (hkilled .killed).recordFailure .unreadableEarly

theorem Fenced.dequeue (h : s.Fenced) (taken : Dequeued) : (s.dequeue taken).Fenced := by
  unfold Supervisor.dequeue
  split
  · exact h.later rfl rfl ⟨(fun h => by cases h), (fun h => by cases h)⟩
  · have hreset : s.resetWindow.Fenced := by
      unfold resetWindow
      split
      · exact h.same rfl rfl rfl
      · exact h
    cases taken with
    | nothing => exact hreset.later rfl rfl ⟨(fun h => by cases h), (fun h => by cases h)⟩
    | shutdown => exact hreset.later rfl rfl ⟨(fun h => by cases h), (fun h => by cases h)⟩
    | command replyTo written =>
      have hnumber : (s.resetWindow.number replyTo).Fenced := by
        cases replyTo <;> exact hreset.same rfl rfl rfl
      cases written with
      | true => exact hnumber.later rfl rfl ⟨(fun h => by cases h), (fun h => by cases h)⟩
      | false => exact hnumber.crash .writeFailed

theorem Fenced.readMessage (h : s.Fenced) (hphase : s.phase = .reading) (result : ReadResult) :
    (s.readMessage result).Fenced := by
  have hreading : s.phase ≠ .handshaking ∧ s.phase ≠ .awaiting := by
    rw [hphase]
    exact ⟨(fun h => by cases h), (fun h => by cases h)⟩
  unfold Supervisor.readMessage
  split
  · rename_i m
    split
    · rename_i hcurrent
      split
      · unfold skip
        split
        · exact h.later rfl rfl ⟨(fun h => by cases h), (fun h => by cases h)⟩
        · exact h.later rfl rfl hreading
      · have haccept : ((s.carry m).accept m).Fenced :=
          ⟨h.below_accept hcurrent, fun hfresh => (hfresh.elim hreading.1 hreading.2).elim⟩
        unfold handle
        split
        · exact haccept.later rfl rfl ⟨(fun h => by cases h), (fun h => by cases h)⟩
        · rename_i outcome _
          cases outcome.update <;>
            exact haccept.later rfl rfl ⟨(fun h => by cases h), (fun h => by cases h)⟩
        · exact haccept.later rfl rfl ⟨(fun h => by cases h), (fun h => by cases h)⟩
        · exact haccept.later rfl rfl ⟨(fun h => by cases h), (fun h => by cases h)⟩
        · exact haccept.crash .fatal
    · exact h.later rfl rfl ⟨(fun h => by cases h), (fun h => by cases h)⟩
  · exact h.later rfl rfl ⟨(fun h => by cases h), (fun h => by cases h)⟩
  · have hended : (s.endChild .exited).Fenced := h.same rfl rfl rfl
    exact hended.crash .exited
  · exact h.crash .unreadable

theorem fenced_next : Preserved next Fenced := by
  intro s i h
  have hwait : (s.wait i.elapsed).Fenced := h.same rfl rfl rfl
  unfold next
  generalize s.wait i.elapsed = s at hwait
  apply act_induction s i.event hwait
  case checkStop =>
    intro _ _
    unfold checkStop
    split <;> exact hwait.later rfl rfl ⟨(fun h => by cases h), (fun h => by cases h)⟩
  case wake =>
    exact fun _ _ _ => hwait.later rfl rfl ⟨(fun h => by cases h), (fun h => by cases h)⟩
  case spawn =>
    intro ok _ _
    cases ok with
    | true => exact ⟨(fun g hg => by cases hg), fun _ => rfl⟩
    | false =>
      have hcalled : { s with lastSpawn := some ⟨s.clock, false⟩ }.Fenced := hwait.same rfl rfl rfl
      exact hcalled.recordFailure .spawnFailed
  case handshake =>
    intro written _ hphase
    cases written with
    | true => exact hwait.keeps rfl rfl fun _ => hwait.fresh (.inl hphase)
    | false =>
      have hended : ({ s with requestCounter := s.requestCounter + 1 }.endChild .killed).Fenced :=
        hwait.same rfl rfl rfl
      exact hended.recordFailure .handshakeFailed
  case readInitial => exact fun result replays _ _ => hwait.readInitial result replays
  case dequeue => exact fun taken _ _ => hwait.dequeue taken
  case read => exact fun result _ hphase => hwait.readMessage hphase result
  case stop => exact fun _ => hwait.same rfl rfl rfl
  case cancel => exact fun _ _ _ => hwait.same rfl rfl rfl
  case takeUpdate =>
    intro _
    unfold takeUpdate
    split
    · exact hwait.same rfl rfl rfl
    · exact hwait
  case storeUpdate =>
    intro _
    unfold storeUpdate
    split
    · exact hwait
    · dsimp only
      split
      · exact hwait.same rfl rfl rfl
      · split <;> exact hwait.same rfl rfl rfl

/-- The message a step reads is judged as promised exactly when it agrees. -/
theorem Fenced.judgesWell_iff (h : s.Fenced) (i : LoopInput) : s.JudgesWell i ↔ s.Agrees i := by
  have hwait : (s.wait i.elapsed).Fenced := h.same rfl rfl rfl
  refine forall₂_congr fun m hreads => ?_
  unfold reads at hreads
  split at hreads
  · rename_i m' replays hevent hphase
    split at hreads
    · cases hreads
    · rename_i hstop
      obtain rfl := Option.some.inj hreads
      have hnext : s.next i = (s.wait i.elapsed).readInitial (.message m') replays := by
        unfold next act
        rw [hevent, show (s.wait i.elapsed).phase = .awaiting from hphase]
      rw [hnext]
      exact hwait.judged_readInitial_iff hphase (Bool.eq_false_iff.mpr hstop) replays
  · rename_i m' hevent hphase
    obtain rfl := Option.some.inj hreads
    have hnext : s.next i = (s.wait i.elapsed).readMessage (.message m') := by
      unfold next act
      rw [hevent, show (s.wait i.elapsed).phase = .reading from hphase]
    rw [hnext]
    exact hwait.judged_readMessage_iff hphase
  · cases hreads

theorem fenced_new : new.Fenced := ⟨(fun g hg => by cases hg), fun _ => rfl⟩

/-- **The generation fence.** In a run every message is judged as promised exactly when every valid
one among those read is not below what earlier children have reached, is not passed over as the
outcome of a reload reported as timed out, and has its update published, with room for it. -/
theorem judgesWell_iff_agrees (is : List LoopInput) :
    Along Supervisor.next JudgesWell new is ↔ Along Supervisor.next Agrees new is :=
  along_congr fenced_next (fun _ i h => h.judgesWell_iff i) fenced_new is

/-! ### A run -/

/-- A child that is at its fifth engine generation is lost, and the next one starts at its first. -/
def reloadedFour : List LoopInput :=
  [⟨0, .proceed⟩, ⟨0, .spawn true⟩, ⟨0, .handshake true⟩,
    ⟨0, .readInitial (.message ⟨1, 1, 2, .update ⟨0, 1, some ⟨1, 0⟩, [], [], []⟩⟩) 0⟩,
    ⟨0, .dequeue .nothing⟩,
    ⟨0, .read (.message ⟨1, 5, 0, .update ⟨0, 5, some ⟨5, 0⟩, [], [], []⟩⟩)⟩,
    ⟨0, .dequeue .nothing⟩, ⟨0, .read (.nothing true)⟩, ⟨0, .proceed⟩, ⟨0, .proceed⟩,
    ⟨0, .spawn true⟩, ⟨0, .handshake true⟩]

/-- The next child's first message. -/
def firstAgain : LoopInput :=
  ⟨0, .readInitial (.message ⟨2, 1, 5, .update ⟨0, 1, some ⟨1, 0⟩, [], [], []⟩⟩) 0⟩

/-- The first message of the next child does not make the supervisor ready. -/
theorem reloadedFour_not_judged :
    ¬ Along Supervisor.next JudgesWell new (reloadedFour ++ [firstAgain]) := by
  intro h
  have hlast := (along_iff _ _).mp h reloadedFour firstAgain [] rfl
  have hready := (hlast _ rfl).first (by decide) (by decide)
  revert hready
  decide

end Supervisor

end Shilpo.ExtensionHost
