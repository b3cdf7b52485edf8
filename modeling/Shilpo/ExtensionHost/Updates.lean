import Shilpo.ExtensionHost.Fence

/-!
# The updates reach the shell

What becomes of the updates of the messages that pass the generation checks (`carried`): each is
published and put in the channel by the loop, and taken from it by `drain_updates`, which
publishes its snapshot once more unless its generation is smaller than that of the snapshot there.

* `Changes` — what a step can do to the snapshot and to the updates, `changes_next`;
* `Delivered` — what the updates say has been returned, is in hand or is in the channel, in the
  order it came; `NeverBack` — the snapshot does not go back to an earlier one; `AtRest` — once the
  channel is empty the snapshot is the last there was;
* `Orderly` — what the code does not see to: that the channel has room for an update that says
  something, that an outcome which is passed over does not, and that a snapshot which is published
  late is older by its generation;
* `delivered_of_orderly` — then the three hold in every run.
-/

namespace Shilpo.ExtensionHost

open Shilpo.Theory

namespace Supervisor

variable {s t : Supervisor} {i : LoopInput}

/-! ### What a step does to the updates -/

/-- The update as it is forwarded. -/
def stamp (s : Supervisor) (u : ExtensionUpdate) : ExtensionUpdate :=
  { u with hostGeneration := s.hostGeneration }

/-- The snapshot and the updates are as they were. -/
structure SameUpdates (s t : Supervisor) : Prop where
  snapshot : t.snapshot = s.snapshot
  updates : t.updates = s.updates
  draining : t.draining = s.draining
  drained : t.drained = s.drained
  carried : t.carried = s.carried
  shown : t.shown = s.shown

/-- An update is published. -/
structure Published (s t : Supervisor) (u : ExtensionUpdate) : Prop where
  snapshot : t.snapshot = u.snapshot.getD s.snapshot
  updates : t.updates =
    if s.updates.length < maxQueueSize then s.updates ++ [⟨u, s.carried.length⟩] else s.updates
  draining : t.draining = s.draining
  drained : t.drained = s.drained
  carried : t.carried = s.carried ++ [u]
  shown : t.shown = if u.snapshot.isSome then some s.carried.length else s.shown

/-- An update is not looked at. -/
structure PassedOver (s t : Supervisor) (u : ExtensionUpdate) : Prop where
  snapshot : t.snapshot = s.snapshot
  updates : t.updates = s.updates
  draining : t.draining = s.draining
  drained : t.drained = s.drained
  carried : t.carried = s.carried ++ [u]
  shown : t.shown = s.shown

/-- An update is taken from the channel. -/
structure Taken (s t : Supervisor) (q : Queued) : Prop where
  before : s.draining = none
  snapshot : t.snapshot = s.snapshot
  updates : s.updates = q :: t.updates
  draining : t.draining = some q
  drained : t.drained = s.drained
  carried : t.carried = s.carried
  shown : t.shown = s.shown

/-- An update is returned, and its snapshot may be published. -/
structure Stored (s t : Supervisor) (q : Queued) : Prop where
  before : s.draining = some q
  snapshot : t.snapshot = s.snapshot ∧ t.shown = s.shown ∨
    q.update.snapshot = some t.snapshot ∧ t.shown = some q.place ∧
      s.snapshot.generation ≤ t.snapshot.generation
  updates : t.updates = s.updates
  draining : t.draining = none
  drained : t.drained = s.drained ++ [q.update]
  carried : t.carried = s.carried

/-- A message whose update, if it has one, is not looked at: the outcome of a reload reported
as timed out, and a first message other than an update. -/
def passesOver (s : Supervisor) (m : WorkerMessage) : Bool :=
  match s.phase, m.payload with
  | .awaiting, .update _ => false
  | .awaiting, _ => true
  | _, _ => s.cancelled m

/-- **What a step can do to the updates.** -/
inductive Changes (s : Supervisor) (i : LoopInput) (t : Supervisor) : Prop where
  | same (h : SameUpdates s t)
  | published (m : WorkerMessage) (u : ExtensionUpdate) (hreads : m ∈ s.reads i)
      (hcurrent : s.current m) (hcarried : u ∈ m.payload.carried) (hover : s.passesOver m = false)
      (h : Published s t (s.stamp u))
  | passedOver (m : WorkerMessage) (u : ExtensionUpdate) (hreads : m ∈ s.reads i)
      (hcurrent : s.current m) (hcarried : u ∈ m.payload.carried) (hover : s.passesOver m = true)
      (h : PassedOver s t (s.stamp u))
  | taken (q : Queued) (h : Taken s t q)
  | stored (q : Queued) (hevent : i.event = .storeUpdate) (h : Stored s t q)

theorem Untouched.sameUpdates (h : s.Untouched t) : SameUpdates s t := { h with }

variable {m : WorkerMessage}

theorem carried_carry_of_none (s : Supervisor) (h : m.payload.carried = none) :
    (s.carry m).carried = s.carried := by
  simp [carry, h]

theorem changes_readInitial {replays : ℕ} (hphase : s.phase = .awaiting) (hreads : m ∈ s.reads i)
    (hcurrent : s.current m) :
    Changes s i (s.becomeReady m replays) := by
  obtain ⟨hostGeneration, engineGeneration, requestId, payload⟩ := m
  cases payload with
  | update u =>
    refine .published _ u hreads hcurrent rfl ?_ ⟨rfl, rfl, rfl, rfl, rfl, rfl⟩
    unfold passesOver
    rw [hphase]
  | devReload outcome =>
    cases hu : outcome.update with
    | none =>
      refine .same ⟨rfl, rfl, rfl, rfl, ?_, rfl⟩
      simp [becomeReady, carry, accept, WorkerPayload.carried, hu]
    | some u =>
      refine .passedOver _ u hreads hcurrent hu ?_ ⟨rfl, rfl, rfl, rfl, ?_, rfl⟩
      · unfold passesOver
        rw [hphase]
      · simp [becomeReady, carry, accept, WorkerPayload.carried, hu, stamp]
  | search _ | shutdownAck | fatalError _ =>
    exact .same ⟨rfl, rfl, rfl, rfl, List.append_nil _, rfl⟩

theorem changes_handle (hphase : s.phase = .reading) (hreads : m ∈ s.reads i)
    (hcurrent : s.current m) (hcancelled : s.cancelled m = false) :
    Changes s i (((s.carry m).accept m).handle m s.carried.length) := by
  have hover : s.passesOver m = false := by
    unfold passesOver
    rw [hphase]
    exact hcancelled
  obtain ⟨hostGeneration, engineGeneration, requestId, payload⟩ := m
  cases payload with
  | update u => exact .published _ u hreads hcurrent rfl hover ⟨rfl, rfl, rfl, rfl, rfl, rfl⟩
  | devReload outcome =>
    obtain ⟨sessionId, buildSequence, result, outcomeGeneration, code, text, update⟩ := outcome
    cases update with
    | none => exact .same ⟨rfl, rfl, rfl, rfl, List.append_nil _, rfl⟩
    | some u =>
      simp only [handle]
      exact .published _ u hreads hcurrent rfl hover ⟨rfl, rfl, rfl, rfl, rfl, rfl⟩
  | search result =>
    have hcarried := s.carried_carry_of_none
      (m := ⟨hostGeneration, engineGeneration, requestId, .search result⟩) rfl
    simp only [handle]
    exact .same ⟨rfl, rfl, rfl, rfl, hcarried, rfl⟩
  | shutdownAck =>
    have hcarried := s.carried_carry_of_none
      (m := ⟨hostGeneration, engineGeneration, requestId, .shutdownAck⟩) rfl
    simp only [handle]
    exact .same ⟨rfl, rfl, rfl, rfl, hcarried, rfl⟩
  | fatalError error =>
    have hcrash := untouched_crash ((s.carry ⟨hostGeneration, engineGeneration, requestId,
      .fatalError error⟩).accept ⟨hostGeneration, engineGeneration, requestId,
      .fatalError error⟩) .fatal
    exact .same
      { hcrash.sameUpdates with carried := hcrash.carried.trans (List.append_nil _) }

theorem changes_skip (hphase : s.phase = .reading) (hreads : m ∈ s.reads i) (hcurrent : s.current m)
    (hcancelled : s.cancelled m = true) :
    Changes s i ((s.carry m).skip m) := by
  have hover : s.passesOver m = true := by
    unfold passesOver
    rw [hphase]
    exact hcancelled
  obtain ⟨hostGeneration, engineGeneration, requestId, payload⟩ := m
  cases payload with
  | devReload outcome =>
    obtain ⟨sessionId, buildSequence, result, outcomeGeneration, code, text, update⟩ := outcome
    cases update with
    | none => exact .same ⟨rfl, rfl, rfl, rfl, List.append_nil _, rfl⟩
    | some u => exact .passedOver _ u hreads hcurrent rfl hover ⟨rfl, rfl, rfl, rfl, rfl, rfl⟩
  | update _ | search _ | shutdownAck | fatalError _ => cases hcancelled

theorem reads_readInitial {replays : ℕ} (hevent : i.event = .readInitial (.message m) replays)
    (hphase : s.phase = .awaiting) (hstop : s.stopSignal = false) : m ∈ s.reads i := by
  unfold reads
  rw [hevent, hphase]
  exact congrArg (if · then none else some m) hstop

theorem reads_readMessage (hevent : i.event = .read (.message m)) (hphase : s.phase = .reading) :
    m ∈ s.reads i := by
  unfold reads
  rw [hevent, hphase]
  rfl

theorem changes_takeUpdate (s : Supervisor) (i : LoopInput) : Changes s i s.takeUpdate := by
  unfold takeUpdate
  split
  · rename_i q updates hdraining hupdates
    exact .taken q ⟨hdraining, rfl, hupdates, rfl, rfl, rfl, rfl⟩
  · exact .same ⟨rfl, rfl, rfl, rfl, rfl, rfl⟩

theorem changes_storeUpdate (s : Supervisor) (hevent : i.event = .storeUpdate) :
    Changes s i s.storeUpdate := by
  unfold storeUpdate
  split
  · exact .same ⟨rfl, rfl, rfl, rfl, rfl, rfl⟩
  · rename_i q hdraining
    apply Changes.stored q hevent
    cases hsnapshot : q.update.snapshot with
    | none => exact ⟨hdraining, .inl ⟨rfl, rfl⟩, rfl, rfl, rfl, rfl⟩
    | some snapshot =>
      dsimp only
      split
      · rename_i hle
        exact ⟨hdraining, .inr ⟨hsnapshot, rfl, hle⟩, rfl, rfl, rfl, rfl⟩
      · exact ⟨hdraining, .inl ⟨rfl, rfl⟩, rfl, rfl, rfl, rfl⟩

theorem changes_act (s : Supervisor) (i : LoopInput) : Changes s i (s.act i.event) := by
  apply act_induction s i.event
  case same => exact .same ⟨rfl, rfl, rfl, rfl, rfl, rfl⟩
  case checkStop => exact fun _ _ => .same (untouched_checkStop s).sameUpdates
  case wake => exact fun delay _ _ => .same ⟨rfl, rfl, rfl, rfl, rfl, rfl⟩
  case spawn => exact fun ok _ _ => .same (untouched_spawn s ok).sameUpdates
  case handshake => exact fun written _ _ => .same (untouched_handshake s written).sameUpdates
  case dequeue => exact fun taken _ _ => .same (untouched_dequeue s taken).sameUpdates
  case readInitial =>
    intro result replays hevent hphase
    by_cases hpasses : ∃ m, result = .message m ∧ s.stopSignal = false ∧ s.current m = true
    · obtain ⟨m, rfl, hstop, hcurrent⟩ := hpasses
      have hread : s.readInitial (.message m) replays = s.becomeReady m replays := by
        simp only [readInitial, hstop, Bool.false_eq_true, if_false, hcurrent, if_true]
      rw [hread]
      exact changes_readInitial hphase (reads_readInitial hevent hphase hstop) hcurrent
    · refine .same (untouched_readInitial s result replays fun m hm hstop => ?_).sameUpdates
      exact Bool.eq_false_iff.mpr fun hcurrent => hpasses ⟨m, hm, hstop, hcurrent⟩
  case read =>
    intro result hevent hphase
    by_cases hpasses : ∃ m, result = .message m ∧ s.current m = true
    · obtain ⟨m, rfl, hcurrent⟩ := hpasses
      have hreads := reads_readMessage hevent hphase
      simp only [readMessage, hcurrent, if_true]
      split
      · rename_i hcancelled
        exact changes_skip hphase hreads hcurrent hcancelled
      · rename_i hcancelled
        exact changes_handle hphase hreads hcurrent (Bool.eq_false_iff.mpr hcancelled)
    · refine .same (untouched_readMessage s result fun m hm => ?_).sameUpdates
      exact Bool.eq_false_iff.mpr fun hcurrent => hpasses ⟨m, hm, hcurrent⟩
  case stop => exact fun _ => .same ⟨rfl, rfl, rfl, rfl, rfl, rfl⟩
  case cancel => exact fun _ _ _ => .same ⟨rfl, rfl, rfl, rfl, rfl, rfl⟩
  case takeUpdate => exact fun _ => changes_takeUpdate s i
  case storeUpdate => exact fun hevent => changes_storeUpdate s hevent

theorem changes_next (s : Supervisor) (i : LoopInput) :
    Changes (s.wait i.elapsed) i (s.next i) := changes_act (s.wait i.elapsed) i

/-! ### What is promised -/

/-- What the updates say, read by `f`, has been returned, is in hand or is in the channel, once and
in the order it came. -/
def Delivered {α : Type} (f : ExtensionUpdate → List α) (s : Supervisor) : Prop :=
  s.drained.flatMap f ++ (s.draining.toList ++ s.updates).flatMap (f ·.update) =
    s.carried.flatMap f

/-- The snapshot does not go back to an earlier one of the same host generation. -/
def NeverBack (s : Supervisor) (i : LoopInput) : Prop :=
  ∀ a ∈ s.shown, ∀ b ∈ (s.next i).shown, ∀ u ∈ s.carried[a]?, ∀ v ∈ (s.next i).carried[b]?,
    u.hostGeneration = v.hostGeneration → a ≤ b

/-- With nothing in hand or in the channel, the snapshot is the last there was. -/
def AtRest (s : Supervisor) : Prop :=
  s.draining = none → s.updates = [] →
    s.snapshot = (s.carried.filterMap (·.snapshot)).getLastD .default

/-- An update that says nothing. -/
def Silent (u : ExtensionUpdate) : Prop := u.effects = [] ∧ u.circuitNotices = []

instance (u : ExtensionUpdate) : Decidable (Silent u) :=
  inferInstanceAs (Decidable (_ ∧ _))

/-- What the code does not see to. -/
structure Orderly (s : Supervisor) (i : LoopInput) : Prop where
  /-- The channel has room for an update that says something. -/
  room : ∀ m ∈ s.reads i, s.current m → s.passesOver m = false →
    ∀ u ∈ m.payload.carried, Silent u ∨ s.updates.length < maxQueueSize
  /-- What is passed over says nothing and has no snapshot. -/
  passed : ∀ m ∈ s.reads i, s.current m → s.passesOver m = true →
    ∀ u ∈ m.payload.carried, Silent u ∧ u.snapshot = none
  /-- A snapshot that `drain_updates` publishes late is older by its generation. -/
  late : i.event = .storeUpdate → ∀ q ∈ s.draining, ∀ snapshot ∈ q.update.snapshot,
    s.shown ≠ some q.place → snapshot.generation < s.snapshot.generation

/-! ### Why it is kept -/

/-- The snapshot is that of the last update that has one, at the place kept in `shown`. -/
def ShowsLast (s : Supervisor) : Prop :=
  match s.shown with
  | none => s.snapshot = .default ∧ ∀ u ∈ s.carried, u.snapshot = none
  | some k => ∃ before u after, s.carried = before ++ u :: after ∧ before.length = k ∧
      u.snapshot = some s.snapshot ∧ ∀ v ∈ after, v.snapshot = none

/-- What an orderly run keeps. -/
structure Kept (s : Supervisor) : Prop where
  effects : s.Delivered (·.effects)
  notices : s.Delivered (·.circuitNotices)
  places : ∀ q ∈ s.draining.toList ++ s.updates, s.carried[q.place]? = some q.update
  shows : s.ShowsLast

theorem ShowsLast.atRest (h : s.ShowsLast) : s.AtRest := by
  intro _ _
  unfold ShowsLast at h
  split at h
  · obtain ⟨hdefault, hnone⟩ := h
    have : s.carried.filterMap (·.snapshot) = [] := List.filterMap_eq_nil_iff.mpr hnone
    rw [this, hdefault]
    rfl
  · obtain ⟨before, u, after, hcarried, -, hsnapshot, hafter⟩ := h
    have : after.filterMap (·.snapshot) = [] := List.filterMap_eq_nil_iff.mpr hafter
    rw [hcarried, List.filterMap_append, List.filterMap_cons, hsnapshot, this]
    simp

/-- The place of the snapshot is one of the carried updates'. -/
theorem ShowsLast.lt (h : s.ShowsLast) {k : ℕ} (hk : s.shown = some k) : k < s.carried.length := by
  unfold ShowsLast at h
  rw [hk] at h
  obtain ⟨before, u, after, hcarried, rfl, -⟩ := h
  rw [hcarried]
  simp

variable {u : ExtensionUpdate}

/-- The snapshot at that place. -/
theorem ShowsLast.snapshot_eq (h : s.ShowsLast) {k : ℕ} (hk : s.shown = some k)
    (hu : s.carried[k]? = some u) : u.snapshot = some s.snapshot := by
  unfold ShowsLast at h
  rw [hk] at h
  obtain ⟨before, v, after, hcarried, rfl, hsnapshot, -⟩ := h
  rw [hcarried, List.getElem?_append_right le_rfl, Nat.sub_self] at hu
  obtain rfl := Option.some.inj hu
  exact hsnapshot

/-- An update without a snapshot comes. -/
theorem ShowsLast.append_none (h : s.ShowsLast) (hu : u.snapshot = none)
    (hsnapshot : t.snapshot = s.snapshot) (hshown : t.shown = s.shown)
    (hcarried : t.carried = s.carried ++ [u]) : t.ShowsLast := by
  unfold ShowsLast at h ⊢
  rw [hshown, hsnapshot, hcarried]
  cases hk : s.shown with
  | none =>
    rw [hk] at h
    refine ⟨h.1, fun v hv => ?_⟩
    rcases List.mem_append.mp hv with hv | hv
    · exact h.2 v hv
    · rw [List.mem_singleton.mp hv, hu]
  | some k =>
    rw [hk] at h
    obtain ⟨before, v, after, hsplit, hlength, hv, hafter⟩ := h
    refine ⟨before, v, after ++ [u], ?_, hlength, hv, fun w hw => ?_⟩
    · rw [hsplit, List.append_assoc, List.cons_append]
    · rcases List.mem_append.mp hw with hw | hw
      · exact hafter w hw
      · rw [List.mem_singleton.mp hw, hu]

/-- An update is published. -/
theorem ShowsLast.published (h : s.ShowsLast) (hp : Published s t u) :
    t.ShowsLast := by
  cases hu : u.snapshot with
  | none =>
    refine h.append_none hu ?_ ?_ hp.carried
    · rw [hp.snapshot, hu]
      rfl
    · rw [hp.shown, hu]
      rfl
  | some snapshot =>
    have hshown : t.shown = some s.carried.length := by
      rw [hp.shown, hu]
      rfl
    unfold ShowsLast
    rw [hshown]
    refine ⟨s.carried, u, [], hp.carried, rfl, ?_, fun v hv => by cases hv⟩
    rw [hp.snapshot, hu]
    rfl

variable {q : Queued}

/-- What is said of the places holds when more is carried. -/
theorem place_append {carried : List ExtensionUpdate} (h : carried[q.place]? = some q.update)
    (u : ExtensionUpdate) :
    (carried ++ [u])[q.place]? = some q.update := by
  obtain ⟨hlt, -⟩ := List.getElem?_eq_some_iff.mp h
  rw [List.getElem?_append_left hlt]
  exact h

variable {α : Type}

/-- An update that says something has found room. -/
theorem Delivered.published {f : ExtensionUpdate → List α} (h : s.Delivered f)
    (hp : Published s t u) (hroom : f u = [] ∨ s.updates.length < maxQueueSize) :
    t.Delivered f := by
  have hsplit : (s.carried ++ [u]).flatMap f = s.carried.flatMap f ++ f u := by simp
  unfold Delivered at h ⊢
  rw [hp.drained, hp.draining, hp.updates, hp.carried, hsplit, ← h]
  split
  · simp [List.flatMap_append]
  · rename_i hfull
    have hsilent := hroom.resolve_right hfull
    simp [hsilent]

theorem Delivered.passedOver {f : ExtensionUpdate → List α} (h : s.Delivered f)
    (hp : PassedOver s t u) (hsilent : f u = []) : t.Delivered f := by
  have hsplit : (s.carried ++ [u]).flatMap f = s.carried.flatMap f ++ f u := by simp
  unfold Delivered at h ⊢
  rw [hp.drained, hp.draining, hp.updates, hp.carried, hsplit, ← h]
  simp [hsilent]

theorem Delivered.taken {f : ExtensionUpdate → List α} (h : s.Delivered f) (ht : Taken s t q) :
    t.Delivered f := by
  unfold Delivered at h ⊢
  rw [ht.before, ht.updates] at h
  rw [ht.drained, ht.draining, ht.carried]
  exact h

theorem Delivered.stored {f : ExtensionUpdate → List α} (h : s.Delivered f) (hs : Stored s t q) :
    t.Delivered f := by
  unfold Delivered at h ⊢
  rw [hs.before] at h
  rw [hs.drained, hs.draining, hs.updates, hs.carried, ← h]
  simp

/-- **A step** of an orderly run keeps the updates, and the snapshot does not go back. -/
theorem Kept.changes (h : s.Kept) (hc : Changes s i t) (ho : s.Orderly i) :
    t.Kept ∧ ∀ a ∈ s.shown, ∀ b ∈ t.shown, a ≤ b := by
  cases hc with
  | same hsame =>
    have hdelivered {α : Type} {f : ExtensionUpdate → List α} (hf : s.Delivered f) :
        t.Delivered f := by
      unfold Delivered
      rw [hsame.drained, hsame.draining, hsame.updates, hsame.carried]
      exact hf
    refine ⟨⟨hdelivered h.effects, hdelivered h.notices, ?_, ?_⟩, fun a ha b hb => ?_⟩
    · rw [hsame.draining, hsame.updates, hsame.carried]
      exact h.places
    · unfold ShowsLast
      rw [hsame.shown, hsame.snapshot, hsame.carried]
      exact h.shows
    · rw [hsame.shown, ha] at hb
      exact (Option.some.inj hb).le
  | published m u hreads hcurrent hcarried hover hp =>
    have hroom := ho.room m hreads hcurrent hover u hcarried
    refine ⟨⟨h.effects.published hp (hroom.imp_left And.left),
      h.notices.published hp (hroom.imp_left And.right), ?_, h.shows.published hp⟩, ?_⟩
    · intro q hq
      rw [hp.draining, hp.updates] at hq
      rw [hp.carried]
      split at hq
      · rw [← List.append_assoc] at hq
        rcases List.mem_append.mp hq with hq | hq
        · exact place_append (h.places q hq) _
        · rw [List.mem_singleton.mp hq]
          exact List.getElem?_concat_length
      · exact place_append (h.places q hq) _
    · intro a ha b hb
      rw [hp.shown] at hb
      split at hb
      · rw [← Option.some.inj hb]
        exact (h.shows.lt ha).le
      · rw [ha] at hb
        exact (Option.some.inj hb).le
  | passedOver m u hreads hcurrent hcarried hover hp =>
    obtain ⟨hsilent, hnone⟩ := ho.passed m hreads hcurrent hover u hcarried
    refine ⟨⟨h.effects.passedOver hp hsilent.1, h.notices.passedOver hp hsilent.2, ?_,
      h.shows.append_none (u := s.stamp u) hnone hp.snapshot hp.shown hp.carried⟩, fun a ha b hb => ?_⟩
    · intro q hq
      rw [hp.draining, hp.updates] at hq
      rw [hp.carried]
      exact place_append (h.places q hq) _
    · rw [hp.shown, ha] at hb
      exact (Option.some.inj hb).le
  | taken q ht =>
    refine ⟨⟨h.effects.taken ht, h.notices.taken ht, ?_, ?_⟩, fun a ha b hb => ?_⟩
    · intro q' hq'
      rw [ht.carried]
      apply h.places
      rw [ht.before, ht.updates]
      rw [ht.draining] at hq'
      exact hq'
    · unfold ShowsLast
      rw [ht.shown, ht.snapshot, ht.carried]
      exact h.shows
    · rw [ht.shown, ha] at hb
      exact (Option.some.inj hb).le
  | stored q hevent hs =>
    have hplace := h.places q (by rw [hs.before]; exact List.mem_cons_self)
    -- The snapshot stored is the one that is there.
    have hsame : t.snapshot = s.snapshot ∧ t.shown = s.shown := by
      rcases hs.snapshot with hsame | ⟨hsnapshot, hshown, hle⟩
      · exact hsame
      · have hlast : s.shown = some q.place := by
          by_contra hne
          have := ho.late hevent q hs.before t.snapshot hsnapshot hne
          omega
        have heq := h.shows.snapshot_eq hlast hplace
        exact ⟨Option.some.inj (hsnapshot.symm.trans heq), hshown.trans hlast.symm⟩
    refine ⟨⟨h.effects.stored hs, h.notices.stored hs, ?_, ?_⟩, fun a ha b hb => ?_⟩
    · intro q' hq'
      rw [hs.draining, hs.updates] at hq'
      rw [hs.carried]
      exact h.places q' (List.mem_append_right _ hq')
    · unfold ShowsLast
      rw [hsame.1, hsame.2, hs.carried]
      exact h.shows
    · rw [hsame.2, ha] at hb
      exact (Option.some.inj hb).le

theorem Kept.next (h : s.Kept) (ho : s.Orderly i) : (s.next i).Kept ∧ s.NeverBack i := by
  have hwait : (s.wait i.elapsed).Kept := ⟨h.effects, h.notices, h.places, h.shows⟩
  obtain ⟨hkept, hback⟩ := hwait.changes (changes_next s i) ⟨ho.room, ho.passed, ho.late⟩
  exact ⟨hkept, fun a ha b hb _ _ _ _ _ => hback a ha b hb⟩

theorem kept_new : new.Kept where
  effects := rfl
  notices := rfl
  places q hq := by cases hq
  shows := ⟨rfl, fun u hu => by cases hu⟩

/-- **Updates reach the shell.** In an orderly run what the accepted messages say has always been
returned, is in hand or in the channel, once and in the order it came; the snapshot never goes back
to an earlier one of the same host generation; and with everything drained it is the last there
was. -/
theorem delivered_of_orderly (is : List LoopInput) (h : Along Supervisor.next Orderly new is) :
    Always Supervisor.next
        (fun s => s.Delivered (·.effects) ∧ s.Delivered (·.circuitNotices) ∧ s.AtRest) new is ∧
      Along Supervisor.next NeverBack new is := by
  have hback : Along Supervisor.next NeverBack new is :=
    Along.imp (fun s i hk ho => (hk.next ho).1) (fun s i hk ho => (hk.next ho).2) kept_new h
  refine ⟨(always_iff _ _).mpr fun pre post hsplit => ?_, hback⟩
  rw [hsplit, along_append] at h
  have hkept : (run Supervisor.next new pre).Kept :=
    Along.holds (fun s i hk ho => (hk.next ho).1) kept_new h.1
  exact ⟨hkept.effects, hkept.notices, hkept.shows.atRest⟩

/-! ### Runs -/

instance (s : Supervisor) (i : LoopInput) : Decidable (s.Orderly i) :=
  decidable_of_iff
    ((∀ m ∈ s.reads i, s.current m → s.passesOver m = false →
        ∀ u ∈ m.payload.carried, Silent u ∨ s.updates.length < maxQueueSize) ∧
      (∀ m ∈ s.reads i, s.current m → s.passesOver m = true →
        ∀ u ∈ m.payload.carried, Silent u ∧ u.snapshot = none) ∧
      (i.event = .storeUpdate → ∀ q ∈ s.draining, ∀ snapshot ∈ q.update.snapshot,
        s.shown ≠ some q.place → snapshot.generation < s.snapshot.generation))
    ⟨fun ⟨room, passed, late⟩ => ⟨room, passed, late⟩,
      fun ⟨room, passed, late⟩ => ⟨room, passed, late⟩⟩

instance (s : Supervisor) (i : LoopInput) : Decidable (s.NeverBack i) :=
  inferInstanceAs (Decidable (∀ a ∈ s.shown, ∀ b ∈ (s.next i).shown, ∀ u ∈ s.carried[a]?,
    ∀ v ∈ (s.next i).carried[b]?, u.hostGeneration = v.hostGeneration → a ≤ b))

/-- A message of the first child, at its first engine generation. -/
def firstChildSays (payload : WorkerPayload) : WorkerMessage := ⟨1, 1, 0, payload⟩

/-- A child becomes ready with a snapshot. -/
def childReady : List LoopInput :=
  [⟨0, .proceed⟩, ⟨0, .spawn true⟩, ⟨0, .handshake true⟩,
    ⟨0, .readInitial (.message (firstChildSays (.update ⟨0, 1, some ⟨1, 0⟩, [], [], []⟩))) 0⟩]

/-- An update with an effect comes and is returned. -/
def oneEffect : List LoopInput :=
  childReady ++ [⟨0, .takeUpdate⟩, ⟨0, .storeUpdate⟩, ⟨0, .dequeue .nothing⟩,
    ⟨0, .read (.message (firstChildSays (.update ⟨0, 1, some ⟨1, 1⟩, [⟨"weather", 7⟩], [], []⟩)))⟩,
    ⟨0, .takeUpdate⟩, ⟨0, .storeUpdate⟩]

theorem delivered_of_orderly_oneEffect :
    Always Supervisor.next
        (fun s => s.Delivered (·.effects) ∧ s.Delivered (·.circuitNotices) ∧ s.AtRest)
        new oneEffect ∧
      Along Supervisor.next NeverBack new oneEffect :=
  delivered_of_orderly oneEffect (by decide)

/-- Two snapshots of one generation are in the channel, and the older is taken. -/
def sameGeneration : List LoopInput :=
  childReady ++ [⟨0, .dequeue .nothing⟩,
    ⟨0, .read (.message (firstChildSays (.update ⟨0, 1, some ⟨1, 1⟩, [], [], []⟩)))⟩,
    ⟨0, .takeUpdate⟩, ⟨0, .storeUpdate⟩]

/-- The outcome of a reload reported as timed out comes with an effect. -/
def outcomeTooLate : List LoopInput :=
  childReady ++ [⟨0, .dequeue (.command .reload true)⟩, ⟨0, .read (.nothing false)⟩,
    ⟨0, .cancel "session" 1⟩, ⟨0, .dequeue .nothing⟩,
    ⟨0, .read (.message (firstChildSays (.devReload ⟨"session", 1, "applied", 1, "OK", "",
      some ⟨0, 1, none, [⟨"weather", 7⟩], [], []⟩⟩)))⟩]

/-- In the first the snapshot goes back, in the second the effect is lost. -/
theorem sameGeneration_outcomeTooLate_lost :
    ¬ Along Supervisor.next NeverBack new sameGeneration ∧
      ¬ (run Supervisor.next new outcomeTooLate).Delivered (·.effects) := by
  refine ⟨by decide, ?_⟩
  unfold Delivered
  decide

end Supervisor

end Shilpo.ExtensionHost
