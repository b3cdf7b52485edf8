import Shilpo.Compositor.Broker
import Shilpo.Theory.Runs

/-!
# The fate of a compositor command

What holds of the broker in every run of its parties, in any order. The queue is
bounded; a refused submission changes nothing; and each accepted command is queued,
held by the worker or finished, in one of these places and once (`Kept`).

A fence is a snapshot that is not ready, or the replacement of the owner, at its locked
section. No command accepted before a fence should reach the backend after it, unless
it was already the active one. For a snapshot that holds, since its locked section also
begins the epoch that tells the worker. A replacement begins the epoch before it takes
the lock: a command accepted in between belongs to the new epoch, and if the worker
holds it when the queue is drained, nothing stops it (`replacement_missed`). Where no
replacement drains the queue at such a moment, the fence holds (`command_fate`).
-/

namespace Shilpo.Compositor

open Domain Theory

namespace Worker

/-- The command the worker holds. -/
def held : Worker → List ℕ
  | .idle | .exited => []
  | .popped item _ | .checked item _ | .prepared item _ | .activated item _ _ _
  | .executing item _ | .waiting item _ | .completing item _ => [item.id]

/-- The command the worker holds and has not been under the lock to activate. -/
def pending : Worker → Option PendingCommand
  | .popped item _ | .checked item _ | .prepared item _ => some item
  | _ => none

/-- The command the worker has made the active one, and the fences before that. -/
def activation : Worker → Option (PendingCommand × ℕ)
  | .activated item _ true activatedAt => some (item, activatedAt)
  | _ => none

variable (id : ℕ)

@[simp] theorem held_observe (snapshot : CompositorSnapshot) (w : Worker) :
    (w.observe id snapshot).held = w.held := by
  cases w <;> rfl

@[simp] theorem pending_observe (snapshot : CompositorSnapshot) (w : Worker) :
    (w.observe id snapshot).pending = w.pending := by
  cases w <;> rfl

@[simp] theorem activation_observe (snapshot : CompositorSnapshot) (w : Worker) :
    (w.observe id snapshot).activation = w.activation := by
  cases w with
  | activated item active ok activatedAt => cases ok <;> rfl
  | _ => rfl

end Worker

namespace Broker

variable {s : Broker}

/-! ### What the operations leave alone -/

theorem cancelActive_eq (s : Broker) (reason : CancellationReason) :
    s.cancelActive reason =
      { s with active := none, cancelled := (s.cancelActive reason).cancelled } := by
  unfold cancelActive
  cases s with
  | mk _ _ _ _ _ _ active =>
    cases active <;> rfl

theorem toDeliver_eq (s : Broker) (snapshot : CompositorSnapshot) :
    s.toDeliver snapshot = { s with deliveries := (s.toDeliver snapshot).deliveries } := by
  unfold toDeliver
  split <;> rfl

theorem deliver_eq (s : Broker) (i : ℕ) :
    s.deliver i = s ∨ ∃ id snapshot, s.deliver i =
      { s with
        deliveries := s.deliveries.eraseIdx i
        worker := if (s.cancelled id).isSome then s.worker else s.worker.observe id snapshot } := by
  unfold deliver
  split
  · exact .inr ⟨_, _, rfl⟩
  · exact .inl rfl

/-- A superseded command leaves the queue, and gets its outcome. -/
theorem supersede_eq (s : Broker) (policy : MailboxPolicy) :
    s.supersede policy = s ∨ ∃ before old after, s.queue = before ++ old :: after ∧
      s.supersede policy =
        { s with
          queue := before ++ after
          outcomes := s.outcomes ++ [(old.id, .cancelled .superseded)] } := by
  cases policy with
  | lossless => exact .inl rfl
  | replaceLatest key =>
    unfold supersede
    dsimp only
    cases hf : s.queue.find? (·.hasKey key) with
    | none => exact .inl rfl
    | some old =>
      obtain ⟨hold, before, after, hq, hbefore⟩ := List.find?_eq_some_iff_append.mp hf
      refine .inr ⟨before, old, after, hq, ?_⟩
      dsimp only
      rw [hq, List.eraseP_append_right _ (by simpa using hbefore), List.eraseP_cons_of_pos hold]

/-- A submission is refused, or accepted where there is room. -/
theorem submit_cases (h : s.queue.length ≤ s.maxQueueLen) (command : CompositorCommand)
    (policy : MailboxPolicy) :
    (∃ reason, s.submitWithPolicy command policy = (s, .error reason)) ∨
      (s.supersede policy).queue.length < s.maxQueueLen ∧
      s.submitWithPolicy command policy =
        ((s.supersede policy).accept command policy, .ok s.nextCmdId) := by
  unfold submitWithPolicy
  split_ifs with hready hallowed hfull
  · exact .inl ⟨_, rfl⟩
  · exact .inl ⟨_, rfl⟩
  · rcases s.supersede_eq policy with he | ⟨before, old, after, hq, he⟩
    · rw [he]
      exact .inl ⟨_, rfl⟩
    · -- a command that gave way has made room
      rw [he] at hfull
      simp only [hq, List.length_append, List.length_cons] at h hfull
      omega
  · rcases s.supersede_eq policy with he | ⟨before, old, after, hq, he⟩
    · exact .inr ⟨by rw [he] at hfull ⊢; omega, rfl⟩
    · exact .inr ⟨by rw [he] at hfull ⊢; exact not_le.mp hfull, rfl⟩

/-! ### Accounting -/

/-- The accepted commands, by where they are: queued, held by the worker, finished. -/
def accounted (s : Broker) : List ℕ :=
  s.queue.map (·.id) ++ (s.worker.held ++ s.outcomes.map Prod.fst)

/-- Each accepted command is in one place, once. -/
structure Kept (maxQueueLen : ℕ) (s : Broker) : Prop where
  capacity : s.maxQueueLen = maxQueueLen
  /-- The queue is no longer than it may be. -/
  bounded : s.queue.length ≤ maxQueueLen
  /-- Numbers start at one. -/
  next : 1 ≤ s.nextCmdId
  /-- Those accounted for are those accepted. -/
  accounted : s.accounted.Perm (List.range' 1 (s.nextCmdId - 1))

theorem kept_new (maxQueueLen : ℕ) : (new maxQueueLen).Kept maxQueueLen :=
  ⟨rfl, Nat.zero_le _, le_rfl, .refl _⟩

variable {maxQueueLen : ℕ}

variable {s' : Broker}

/-- What moves commands about, and leaves the queue no longer, keeps them. -/
theorem Kept.move (h : s.Kept maxQueueLen) (hmax : s'.maxQueueLen = s.maxQueueLen)
    (hlen : s'.queue.length ≤ s.queue.length) (hnext : s'.nextCmdId = s.nextCmdId)
    (hperm : s'.accounted.Perm s.accounted) : s'.Kept maxQueueLen where
  capacity := hmax.trans h.capacity
  bounded := hlen.trans h.bounded
  next := by
    rw [hnext]
    exact h.next
  accounted := by
    rw [hnext]
    exact hperm.trans h.accounted

/-- What leaves the queue, the worker's command and the outcomes alone keeps them. -/
theorem Kept.frame (h : s.Kept maxQueueLen) (hmax : s'.maxQueueLen = s.maxQueueLen)
    (hq : s'.queue = s.queue) (hnext : s'.nextCmdId = s.nextCmdId)
    (hw : s'.worker.held = s.worker.held) (ho : s'.outcomes = s.outcomes) :
    s'.Kept maxQueueLen := by
  refine h.move hmax (by rw [hq]) hnext ?_
  unfold Broker.accounted
  rw [hq, hw, ho]

theorem Kept.drain (h : s.Kept maxQueueLen) (reason : CancellationReason) : (s.drain reason).Kept maxQueueLen := by
  refine h.move rfl (Nat.zero_le _) rfl ?_
  unfold Broker.accounted Broker.drain
  simp only [List.map_nil, List.nil_append, List.map_append, List.map_map]
  rw [← List.append_assoc]
  exact List.perm_append_comm

theorem Kept.cancelActive (h : s.Kept maxQueueLen) (reason : CancellationReason) :
    (s.cancelActive reason).Kept maxQueueLen := by
  rw [cancelActive_eq]
  exact h.frame rfl rfl rfl rfl rfl

theorem Kept.supersede (h : s.Kept maxQueueLen) (policy : MailboxPolicy) : (s.supersede policy).Kept maxQueueLen := by
  rcases s.supersede_eq policy with he | ⟨before, old, after, hq, he⟩
  · rw [he]
    exact h
  · rw [he]
    refine h.move rfl (by simp [hq]) rfl ?_
    unfold Broker.accounted
    rw [hq]
    simp only [List.map_append, List.map_cons, List.map_nil]
    rw [List.perm_iff_count]
    intro id
    simp only [List.count_append, List.count_cons, List.count_nil]
    omega

theorem Kept.accept (h : s.Kept maxQueueLen) (hroom : s.queue.length < maxQueueLen)
    (command : CompositorCommand) (policy : MailboxPolicy) : (s.accept command policy).Kept maxQueueLen where
  capacity := h.capacity
  bounded := by
    simp only [Broker.accept, List.length_append, List.length_singleton]
    omega
  next := Nat.le_succ_of_le h.next
  accounted := by
    have hnext : s.nextCmdId + 1 - 1 = s.nextCmdId - 1 + 1 := by
      have := h.next
      omega
    have hlast : 1 + 1 * (s.nextCmdId - 1) = s.nextCmdId := by
      have := h.next
      omega
    unfold Broker.accounted Broker.accept
    dsimp only
    rw [hnext, List.range'_concat, hlast, List.map_append]
    refine List.Perm.trans ?_ (h.accounted.append_right [s.nextCmdId])
    unfold Broker.accounted
    rw [List.perm_iff_count]
    intro id
    simp only [List.map_cons, List.map_nil, List.count_append]
    omega

theorem Kept.submit (h : s.Kept maxQueueLen) (command : CompositorCommand) (policy : MailboxPolicy) :
    (s.submitWithPolicy command policy).1.Kept maxQueueLen := by
  rcases submit_cases (h.capacity ▸ h.bounded) command policy with ⟨reason, he⟩ | ⟨hroom, he⟩
  · rw [he]
    exact h
  · rw [he]
    exact (h.supersede policy).accept (h.capacity ▸ hroom) command policy

theorem Kept.store (h : s.Kept maxQueueLen) (snapshot : CompositorSnapshot) : (s.store snapshot).Kept maxQueueLen := by
  unfold Broker.store
  split_ifs
  · exact h.frame rfl rfl rfl rfl rfl
  · have hseen : Kept maxQueueLen { s with snapshot, epoch := s.epoch + 1 } := h.frame rfl rfl rfl rfl rfl
    exact ((hseen.drain .reconnect).cancelActive .reconnect).frame rfl rfl rfl rfl rfl

theorem Kept.observe (h : s.Kept maxQueueLen) (installed : ℕ) (snapshot : CompositorSnapshot) :
    (s.observeSnapshot installed snapshot).1.Kept maxQueueLen := by
  have hstore : ((s.store snapshot).toDeliver snapshot).Kept maxQueueLen := by
    rw [toDeliver_eq]
    exact (h.store snapshot).frame rfl rfl rfl rfl rfl
  unfold observeSnapshot
  split_ifs
  all_goals first | exact h | exact hstore

/-- The worker's command gets its outcome. -/
theorem Kept.finish (h : s.Kept maxQueueLen) {item : PendingCommand} (hw : s.worker.held = [item.id])
    (outcome : CommandOutcome) : (s.finish item outcome).Kept maxQueueLen := by
  refine h.move rfl le_rfl rfl ?_
  unfold Broker.accounted Broker.finish
  rw [hw]
  simp only [Worker.held, List.map_append, List.map_cons, List.map_nil, List.nil_append]
  exact List.perm_append_comm.append_left _

theorem Kept.clearActive (h : s.Kept maxQueueLen) (item : PendingCommand) : (s.clearActive item).Kept maxQueueLen :=
  h.frame rfl rfl rfl rfl rfl

theorem Kept.pop (h : s.Kept maxQueueLen) (hw : s.worker = .idle) : s.pop.Kept maxQueueLen := by
  unfold Broker.pop
  split_ifs
  · exact h.frame rfl rfl rfl (by rw [hw]; rfl) rfl
  · exact h
  · cases hq : s.queue with
    | nil => exact h
    | cons item queue =>
      refine h.move rfl (by simp [hq]) rfl ?_
      unfold Broker.accounted
      rw [hw, hq, List.perm_iff_count]
      intro id
      simp only [Worker.held, List.map_cons, List.count_append, List.count_cons, List.count_nil]
      omega

variable (item : PendingCommand)

theorem held_answer (active : ActiveCommand) (execution : Except RejectionReason ExecutorAck)
    (late : Bool) :
    (s.answer item active execution late).held = [item.id] := by
  unfold answer
  split
  · rfl
  · split <;> try rfl
    split
    · rfl
    · split <;> rfl

theorem held_poll (active : ActiveCommand) (late : Bool) :
    (s.poll item active late).held = [item.id] := by
  unfold poll
  split
  · rfl
  · split
    · rfl
    · split
      · rfl
      · split <;> rfl

theorem Kept.work (h : s.Kept maxQueueLen) (oracle : Oracle) : (s.work oracle).Kept maxQueueLen := by
  unfold Broker.work
  cases hw : s.worker with
  | idle => exact h.pop hw
  | popped item baseline =>
    have hheld : s.worker.held = [item.id] := by rw [hw]; rfl
    simp only [checkStaleness]
    split_ifs
    · exact h.finish hheld _
    · exact h.frame rfl rfl rfl (by rw [hheld]; rfl) rfl
  | checked item baseline =>
    have hheld : s.worker.held = [item.id] := by rw [hw]; rfl
    simp only [prepare]
    split_ifs
    · exact h.finish hheld _
    · exact h.finish hheld _
    · split
      · exact h.finish hheld _
      · exact h.frame rfl rfl rfl (by rw [hheld]; rfl) rfl
  | prepared item active =>
    have hheld : s.worker.held = [item.id] := by rw [hw]; rfl
    simp only [activate]
    split_ifs
    · exact h.frame rfl rfl rfl (by rw [hheld]; rfl) rfl
    · exact h.frame rfl rfl rfl (by rw [hheld]; rfl) rfl
  | activated item active ok activatedAt =>
    have hheld : s.worker.held = [item.id] := by rw [hw]; rfl
    simp only [execute]
    split_ifs
    · exact (h.clearActive item).finish hheld _
    · exact (h.clearActive item).finish hheld _
    · exact h.frame rfl rfl rfl (by rw [hheld]; rfl) rfl
  | executing item active =>
    exact h.frame rfl rfl rfl (by rw [hw]; exact held_answer ..) rfl
  | waiting item active =>
    exact h.frame rfl rfl rfl (by rw [hw]; exact held_poll ..) rfl
  | completing item outcome =>
    have hheld : s.worker.held = [item.id] := by rw [hw]; rfl
    exact (h.clearActive item).finish hheld _
  | exited => exact h

/-- **No command is lost or finished twice.** -/
theorem kept_step : Preserved step (Kept maxQueueLen) := by
  intro s action h
  cases action with
  | submit command policy =>
    simp only [step]
    split_ifs
    · exact h
    · exact h.submit command policy
  | observe installed snapshot =>
    simp only [step]
    split_ifs
    · exact h
    · exact h.observe installed snapshot
  | deliver i =>
    rcases s.deliver_eq i with he | ⟨id, snapshot, he⟩
    · rw [step, he]
      exact h
    · rw [step, he]
      refine h.frame rfl rfl rfl ?_ rfl
      dsimp only
      split_ifs
      · rfl
      · rw [Worker.held_observe]
  | storeGeneration generation =>
    simp only [step]
    split_ifs
    · exact h
    · exact h.frame rfl rfl rfl rfl rfl
  | bumpEpoch =>
    simp only [step]
    split_ifs
    · exact h
    · exact h.frame rfl rfl rfl rfl rfl
  | drainReplaced =>
    simp only [step]
    split_ifs
    · exact h
    · exact ((h.drain .ownerReplaced).cancelActive .ownerReplaced).frame rfl rfl rfl rfl rfl
  | cancelTicket id timedOut =>
    simp only [step]
    split_ifs
    all_goals first | exact h | exact h.frame rfl rfl rfl rfl rfl
  | shutdown =>
    simp only [step]
    split_ifs
    · exact h
    · exact (h.drain .shutdown).frame rfl rfl rfl rfl rfl
  | cancelForShutdown =>
    simp only [step]
    split_ifs
    · exact h.cancelActive .shutdown
    · exact h
  | work oracle => exact h.work oracle

/-! ### Fences -/

/-- No fence came between the acceptance of a command and what has become of it since, unless its
epoch tells the worker. -/
structure Fenced (s : Broker) : Prop where
  /-- A fence leaves nothing in the queue. -/
  queued : ∀ item ∈ s.queue, item.epoch ≤ s.epoch ∧ item.acceptedAt = s.fences
  /-- A command of the current epoch was accepted after the last fence. -/
  pending : ∀ item, s.worker.pending = some item →
    item.epoch ≤ s.epoch ∧ (item.epoch = s.epoch → item.acceptedAt = s.fences)
  /-- So was one that was activated. -/
  activated : ∀ item activatedAt, s.worker.activation = some (item, activatedAt) →
    item.acceptedAt = activatedAt
  /-- And one the backend was called for. -/
  executed : ∀ e ∈ s.executed, e.acceptedAt = e.activatedAt

theorem fenced_new (maxQueueLen : ℕ) : (new maxQueueLen).Fenced :=
  ⟨by simp [new], by simp [new, Worker.pending], by simp [new, Worker.activation], by simp [new]⟩

/-- The epoch may move on; commands may leave the queue; the rest is left alone. -/
theorem Fenced.frame (h : s.Fenced) (hq : ∀ item ∈ s'.queue, item ∈ s.queue)
    (hepoch : s.epoch ≤ s'.epoch) (hf : s'.fences = s.fences)
    (hp : s'.worker.pending = s.worker.pending) (ha : s'.worker.activation = s.worker.activation)
    (he : s'.executed = s.executed) :
    s'.Fenced where
  queued := by
    intro item hitem
    have := h.queued item (hq item hitem)
    rw [hf]
    exact ⟨this.1.trans hepoch, this.2⟩
  pending := by
    intro item hitem
    have := h.pending item (hp ▸ hitem)
    rw [hf]
    exact ⟨this.1.trans hepoch, fun heq => this.2 (by omega)⟩
  activated := by
    rw [ha]
    exact h.activated
  executed := by
    rw [he]
    exact h.executed

/-- A fence empties the queue; the command the worker holds must not be of the epoch after. -/
theorem Fenced.fence (h : s.Fenced) (hq : s'.queue = []) (hepoch : s.epoch ≤ s'.epoch)
    (hw : s'.worker = s.worker) (he : s'.executed = s.executed)
    (hstale : ∀ item, s.worker.pending = some item → item.epoch ≠ s'.epoch) : s'.Fenced where
  queued := by simp [hq]
  pending := by
    rw [hw]
    intro item hitem
    exact ⟨(h.pending item hitem).1.trans hepoch, fun heq => absurd heq (hstale item hitem)⟩
  activated := by
    rw [hw]
    exact h.activated
  executed := by
    rw [he]
    exact h.executed

theorem Fenced.cancelActive (h : s.Fenced) (reason : CancellationReason) :
    (s.cancelActive reason).Fenced := by
  rw [cancelActive_eq]
  exact h.frame (fun _ hi => hi) le_rfl rfl rfl rfl rfl

theorem Fenced.submit (h : s.Fenced) (command : CompositorCommand) (policy : MailboxPolicy) :
    (s.submitWithPolicy command policy).1.Fenced := by
  have hsupersede : (s.supersede policy).Fenced := by
    rcases s.supersede_eq policy with he | ⟨before, old, after, hq, he⟩
    · rw [he]
      exact h
    · rw [he]
      refine h.frame ?_ le_rfl rfl rfl rfl rfl
      intro item hitem
      rw [hq]
      exact List.mem_append.mpr ((List.mem_append.mp hitem).imp_right (List.mem_cons_of_mem old))
  unfold submitWithPolicy
  split_ifs
  · exact h
  · exact h
  · exact hsupersede
  · refine ⟨?_, hsupersede.pending, hsupersede.activated, hsupersede.executed⟩
    intro item hitem
    rcases List.mem_append.mp hitem with hitem | hitem
    · exact hsupersede.queued item hitem
    · obtain rfl := List.mem_singleton.mp hitem
      exact ⟨le_rfl, rfl⟩

/-- A snapshot that is not ready begins an epoch in the same section, so the fence holds. -/
theorem Fenced.store (h : s.Fenced) (snapshot : CompositorSnapshot) : (s.store snapshot).Fenced := by
  unfold Broker.store
  split_ifs
  · exact h.frame (fun _ hi => hi) le_rfl rfl rfl rfl rfl
  · rw [cancelActive_eq]
    refine h.fence rfl (Nat.le_succ _) rfl rfl ?_
    intro item hitem
    have := (h.pending item hitem).1
    simp only [Broker.drain]
    omega

theorem Fenced.observe (h : s.Fenced) (installed : ℕ) (snapshot : CompositorSnapshot) :
    (s.observeSnapshot installed snapshot).1.Fenced := by
  have hstore : ((s.store snapshot).toDeliver snapshot).Fenced := by
    rw [toDeliver_eq]
    exact (h.store snapshot).frame (fun _ hi => hi) le_rfl rfl rfl rfl rfl
  unfold observeSnapshot
  split_ifs
  all_goals first | exact h | exact hstore

/-- The worker's command gets its outcome. -/
theorem Fenced.finish (h : s.Fenced) (item : PendingCommand) (outcome : CommandOutcome) :
    (s.finish item outcome).Fenced :=
  ⟨h.queued, by simp [Broker.finish, Worker.pending], by simp [Broker.finish, Worker.activation],
    h.executed⟩

theorem Fenced.clearActive (h : s.Fenced) (item : PendingCommand) :
    (s.clearActive item).Fenced :=
  h.frame (fun _ hi => hi) le_rfl rfl rfl rfl rfl

/-- The worker moves on with a command it need not activate any more. -/
theorem Fenced.proceed (h : s.Fenced) {w : Worker} (hp : w.pending = none)
    (ha : w.activation = none) : Fenced { s with worker := w } :=
  ⟨h.queued, by simp [hp], by simp [ha], h.executed⟩

theorem pending_answer (active : ActiveCommand) (execution : Except RejectionReason ExecutorAck)
    (late : Bool) :
    (s.answer item active execution late).pending = none ∧
      (s.answer item active execution late).activation = none := by
  unfold answer
  split
  · exact ⟨rfl, rfl⟩
  · split <;> try exact ⟨rfl, rfl⟩
    split
    · exact ⟨rfl, rfl⟩
    · split <;> exact ⟨rfl, rfl⟩

theorem pending_poll (active : ActiveCommand) (late : Bool) :
    (s.poll item active late).pending = none ∧ (s.poll item active late).activation = none := by
  unfold poll
  split
  · exact ⟨rfl, rfl⟩
  · split
    · exact ⟨rfl, rfl⟩
    · split
      · exact ⟨rfl, rfl⟩
      · split <;> exact ⟨rfl, rfl⟩

theorem Fenced.pop (h : s.Fenced) : s.pop.Fenced := by
  unfold Broker.pop
  split_ifs
  · exact h.proceed rfl rfl
  · exact h
  · cases hq : s.queue with
    | nil => exact h
    | cons item queue =>
      have hqueued := h.queued
      rw [hq, List.forall_mem_cons] at hqueued
      refine ⟨hqueued.2, ?_, by simp [Worker.activation], h.executed⟩
      rintro item' hitem
      obtain rfl : item = item' := Option.some_inj.mp hitem
      exact ⟨hqueued.1.1, fun _ => hqueued.1.2⟩

theorem Fenced.work (h : s.Fenced) (oracle : Oracle) : (s.work oracle).Fenced := by
  unfold Broker.work
  cases hw : s.worker with
  | idle => exact h.pop
  | popped item baseline =>
    simp only [checkStaleness]
    split_ifs
    · exact h.finish _ _
    · exact h.frame (fun _ hi => hi) le_rfl rfl (by rw [hw]; rfl) (by rw [hw]; rfl) rfl
  | checked item baseline =>
    simp only [prepare]
    split_ifs
    · exact h.finish _ _
    · exact h.finish _ _
    · split
      · exact h.finish _ _
      · exact h.frame (fun _ hi => hi) le_rfl rfl (by rw [hw]; rfl) (by rw [hw]; rfl) rfl
  | prepared item active =>
    simp only [activate]
    split_ifs with hstale
    · exact h.proceed rfl rfl
    · -- the one place where a command gets past the fences: its epoch is current under the lock
      push Not at hstale
      have hitem := h.pending item (by rw [hw]; rfl)
      refine ⟨h.queued, by simp [Worker.pending], ?_, h.executed⟩
      intro item' activatedAt hact
      obtain ⟨rfl, rfl⟩ := Prod.mk.inj (Option.some_inj.mp hact)
      exact hitem.2 hstale.1
  | activated item active ok activatedAt =>
    simp only [execute]
    split_ifs with _ hok
    · exact (h.clearActive item).finish _ _
    · exact (h.clearActive item).finish _ _
    · refine ⟨h.queued, by simp [Worker.pending], by simp [Worker.activation], ?_⟩
      have hitem := h.activated item activatedAt (by rw [hw]; simp_all [Worker.activation])
      simpa [or_imp, forall_and] using ⟨h.executed, hitem⟩
  | executing item active =>
    have hnone := s.pending_answer item active oracle.execution oracle.late
    exact h.proceed hnone.1 hnone.2
  | waiting item active =>
    have hnone := s.pending_poll item active oracle.late
    exact h.proceed hnone.1 hnone.2
  | completing item outcome => exact (h.clearActive item).finish _ _
  | exited => exact h

/-- When a replacement drains the queue, the command the worker has yet to activate, if there is
one, is not of the epoch that the replacement has begun. -/
def FenceReaches (s : Broker) : Action → Prop
  | .drainReplaced => 0 < s.bumped → ∀ item, s.worker.pending = some item → item.epoch ≠ s.epoch
  | _ => True

theorem fenced_step (s : Broker) (action : Action) (h : s.Fenced) (hc : s.FenceReaches action) :
    (s.step action).Fenced := by
  cases action with
  | submit command policy =>
    simp only [step]
    split_ifs
    · exact h
    · exact h.submit command policy
  | observe installed snapshot =>
    simp only [step]
    split_ifs
    · exact h
    · exact h.observe installed snapshot
  | deliver i =>
    rcases s.deliver_eq i with he | ⟨id, snapshot, he⟩
    · rw [step, he]
      exact h
    · rw [step, he]
      refine h.frame (fun _ hi => hi) le_rfl rfl ?_ ?_ rfl
      · dsimp only
        split_ifs <;> simp
      · dsimp only
        split_ifs <;> simp
  | storeGeneration generation =>
    simp only [step]
    split_ifs
    · exact h
    · exact h.frame (fun _ hi => hi) le_rfl rfl rfl rfl rfl
  | bumpEpoch =>
    simp only [step]
    split_ifs
    · exact h
    · exact h.frame (fun _ hi => hi) (Nat.le_succ _) rfl rfl rfl rfl
  | drainReplaced =>
    simp only [step]
    split_ifs with hb
    · exact h
    · rw [drainReplaced, cancelActive_eq]
      exact h.fence rfl le_rfl rfl rfl (hc (Nat.pos_of_ne_zero hb))
  | cancelTicket id timedOut =>
    simp only [step]
    split_ifs
    all_goals first | exact h | exact h.frame (fun _ hi => hi) le_rfl rfl rfl rfl rfl
  | shutdown =>
    simp only [step]
    split_ifs
    · exact h
    · exact h.frame (by simp [Broker.drain]) le_rfl rfl rfl rfl rfl
  | cancelForShutdown =>
    simp only [step]
    split_ifs
    · exact h.cancelActive .shutdown
    · exact h
  | work oracle => exact h.work oracle

/-! ### Main results -/

/-- **The fate of a command.** In every run, the queue is bounded; each command is queued, held by
the worker or finished, once in all if it was accepted and never otherwise; and a refused
submission changes nothing. Where no replacement drains the queue while the worker holds a command
of the new epoch that it has yet to activate, the backend is called for no command after a fence
that came between its acceptance and its activation. -/
theorem command_fate (maxQueueLen : ℕ) (actions : List Action) :
    (run step (new maxQueueLen) actions).queue.length ≤ maxQueueLen ∧
    (∀ id, ((run step (new maxQueueLen) actions).queue.map (·.id)).count id +
        (run step (new maxQueueLen) actions).worker.held.count id +
        ((run step (new maxQueueLen) actions).outcomes.map Prod.fst).count id =
      if 1 ≤ id ∧ id < (run step (new maxQueueLen) actions).nextCmdId then 1 else 0) ∧
    (∀ command policy outcome,
      ((run step (new maxQueueLen) actions).submitWithPolicy command policy).2 = .error outcome →
        ((run step (new maxQueueLen) actions).submitWithPolicy command policy).1 =
          run step (new maxQueueLen) actions) ∧
    (Along step FenceReaches (new maxQueueLen) actions →
      ∀ e ∈ (run step (new maxQueueLen) actions).executed, e.acceptedAt = e.activatedAt) := by
  have hkept := kept_step.holds (kept_new maxQueueLen) actions
  refine ⟨hkept.bounded, ?_, ?_, ?_⟩
  · intro id
    have hcount := hkept.accounted.count_eq id
    have hnext := hkept.next
    rw [Broker.accounted, List.count_append, List.count_append, ← add_assoc] at hcount
    rw [hcount]
    split_ifs with hid
    · refine List.count_eq_one_of_mem List.nodup_range' ?_
      rw [List.mem_range'_1]
      omega
    · refine List.count_eq_zero_of_not_mem ?_
      rw [List.mem_range'_1]
      omega
  · intro command policy outcome herr
    rcases submit_cases (hkept.bounded.trans_eq hkept.capacity.symm) command policy with ⟨_, he⟩ | ⟨-, he⟩
    · rw [he]
    · rw [he] at herr
      cases herr
  · intro hreach
    exact (hreach.holds fenced_step (fenced_new maxQueueLen)).executed

/-- A ready backend with one window. -/
def readySnapshot (version : DomainVersion) : CompositorSnapshot :=
  { oneWindow version none with connection := .ready, capabilities := { canFocusWindow := true } }

/-- The worker takes a step on time, the backend taking what it is given. -/
def Action.workOnTime : Action := .work ⟨false, .ok .success⟩

/-- A command is submitted when the second owner's epoch has begun, and is in the worker's hands
when the queue is drained. -/
def replacementRace : List Action :=
  [.storeGeneration 1, .bumpEpoch, .drainReplaced, .observe 1 (readySnapshot ⟨1, 0⟩),
    .storeGeneration 2, .bumpEpoch, .submit (.focusWindow 7) .lossless, .workOnTime,
    .drainReplaced, .workOnTime, .workOnTime, .workOnTime, .workOnTime]

/-- The backend is called for it after the drain. -/
theorem replacement_missed :
    ∃ e ∈ (run step (new 32) replacementRace).executed, e.acceptedAt < e.activatedAt :=
  ⟨⟨1, 1, 2⟩, by decide, by decide⟩

end Broker

end Shilpo.Compositor
