import Shilpo.Domain.Ledger
import Shilpo.Idle.Invariants

/-!
# The idle domain's mailbox

What the domain does to its mailbox is what can be done to a `Ledger`
(`ledger_step`), so every ticket it hands out is accounted for once, and a new owner
finds an empty queue. `submit_command` checks the capacity for `Lossless` commands
only: a configuration is queued whatever the queue holds, and `configure_overflows`
has two commands pending in a mailbox for one.

`mailboxContract_iff` says when a run keeps the mailbox's contract: exactly when no
`ReplaceLatest` command is submitted to a full queue that holds none to replace.
-/

namespace Shilpo.Idle

open Shilpo.Domain Shilpo.Theory IdleDomainState

variable {s : IdleDomainState}

/-! ### The mailbox as a ledger -/

/-- The domain's mailbox. -/
def ledger (s : IdleDomainState) : Ledger IdleCommand IdleRejectionReason where
  capacity := s.inner.capacity
  generation := s.inner.version.ownerGeneration
  queue := s.inner.queue
  resolved := s.resolved
  tickets := s.tickets

/-- The operation starts a new owner. -/
def restarts (s : IdleDomainState) : Op → Bool
  | .call .beginStart => true
  | .call (.tick nowMs) => s.inner.supervisor.restarts nowMs
  | _ => false

/-- The outcomes of all that is pending when a new owner starts. -/
def replacedOutcomes (s : IdleDomainState) : List (ℕ × IdleCommandOutcome) :=
  s.inner.queue.map fun item => (item.ticket, .cancelled .ownerReplaced)

theorem ledger_submitCommand (s : IdleDomainState) (command : IdleCommand) :
    ledger (s.submitCommand command).2 =
      if s.inner.lifecycle = .unavailable then ledger s
      else (ledger s).submit IdleCommand.policy command := by
  unfold submitCommand Ledger.submit
  split_ifs
  · rfl
  · simp only [ledger]
    cases admission IdleCommand.policy s.inner.capacity s.inner.queue
        ⟨s.tickets, command, s.inner.version.ownerGeneration⟩ with
    | overloaded => rfl
    | queued superseded queue => cases superseded <;> simp [resolve]

@[simp] theorem ledger_releaseInhibits (s : IdleDomainState) (p : InhibitSource → Bool) :
    ledger (s.releaseInhibits p) = ledger s := by
  simp only [releaseInhibits]; split_ifs <;> rfl

theorem ledger_advance (s : IdleDomainState) (nowMs : ℕ) :
    ledger { s with inner := advanceIdleSeconds s.inner nowMs } = ledger s := by
  unfold advanceIdleSeconds; split_ifs <;> rfl

theorem ledger_tick (s : IdleDomainState) (nowMs : ℕ) :
    ledger (s.tick nowMs) = ledger (s.tickSupervisor nowMs) := by
  simp only [tick]
  split <;> exact ledger_advance (s.tickSupervisor nowMs) nowMs

theorem ledger_handleBackendEvent (s : IdleDomainState) (event : IdleBackendEvent) (nowMs : ℕ) :
    ledger (s.handleBackendEvent event nowMs) = ledger s := by
  have hj (name : String) : ledger { s with inner := joinGrace s.inner name nowMs } = ledger s := by
    simp only [joinGrace]
    split
    · split_ifs <;> rfl
    · rfl
  cases event with
  | idled id =>
    simp only [handleBackendEvent]
    by_cases hid : id = heartbeatNotificationId
    · simp only [hid, if_true]; rfl
    simp only [hid, if_false]
    cases s.inner.behaviorIdMap.lookup id with
    | none => rfl
    | some name =>
      split_ifs
      · rfl
      · rfl
      · exact hj name
  | resumed id => simp only [handleBackendEvent]; split_ifs <;> rfl

/-- A new owner takes an empty queue over; all that was pending is cancelled. -/
theorem ledger_restart {o : Op} (h : restarts s o) :
    ledger (s.step o) = (ledger s).settle (replacedOutcomes s)
      (s.inner.version.ownerGeneration + 1) := by
  match o with
  | .call .beginStart => rfl
  | .call (.tick nowMs) =>
    have hr : s.inner.supervisor.restarts nowMs = true := h
    simp only [step, call, ledger_tick, tickSupervisor, hr, if_true]
    rfl

/-- Applying an item, or cancelling it as of an older owner, resolves its ticket. -/
theorem ledger_applyItem (s : IdleDomainState) (item : MailboxItem IdleCommand) :
    ∃ outcome, ledger (s.applyItem item) =
      { ledger s with resolved := s.resolved ++ [(item.ticket, outcome)] } := by
  have happlied (s' : IdleDomainState) (h : ledger s' = ledger s) : ∃ outcome,
      ledger (s'.applied item.ticket) =
        { ledger s with resolved := s.resolved ++ [(item.ticket, outcome)] } :=
    ⟨.applied s'.inner.version.bump, by
      rw [← h, show s.resolved = s'.resolved from congrArg Ledger.resolved h.symm]; rfl⟩
  unfold applyItem
  split_ifs
  · exact ⟨_, rfl⟩
  · cases item.command with
    | reportGraceCompleted graceGeneration =>
      simp only [applyCommand]
      split
      · exact ⟨_, rfl⟩
      · exact happlied s rfl
    | removeInhibit source => exact happlied _ (ledger_releaseInhibits s _)
    | clearInhibitsForSender sender => exact happlied _ (ledger_releaseInhibits s _)
    | configureBehaviors _ _ | addInhibit _ | cancelGrace | resetQuarantine => exact happlied _ rfl

theorem ledger_foldl (items : List (MailboxItem IdleCommand)) (s : IdleDomainState) :
    ∃ outcomes : List (ℕ × IdleCommandOutcome), outcomes.map Prod.fst = items.map (·.ticket) ∧
      ledger (items.foldl applyItem s) = { ledger s with resolved := s.resolved ++ outcomes } := by
  induction items generalizing s with
  | nil => exact ⟨[], rfl, by simp [ledger]⟩
  | cons item items ih =>
    obtain ⟨outcome, hitem⟩ := ledger_applyItem s item
    obtain ⟨outcomes, htickets, hrest⟩ := ih (s.applyItem item)
    refine ⟨(item.ticket, outcome) :: outcomes, by simp [htickets], ?_⟩
    have hresolved : (s.applyItem item).resolved = s.resolved ++ [(item.ticket, outcome)] :=
      congrArg Ledger.resolved hitem
    rw [List.foldl_cons, hrest, hitem, hresolved]
    simp

/-- `process_pending_commands` resolves all that was pending. -/
theorem ledger_processPendingCommands (s : IdleDomainState) :
    ∃ outcomes : List (ℕ × IdleCommandOutcome), (ledger s).Settles outcomes ∧
      ledger s.processPendingCommands =
        (ledger s).settle outcomes s.inner.version.ownerGeneration := by
  obtain ⟨outcomes, htickets, hl⟩ := ledger_foldl s.inner.queue s.takeQueue
  exact ⟨outcomes, htickets, hl⟩

/-- What is neither a submission nor a restart settles all that is pending or nothing. -/
theorem ledger_other {o : Op} (hsubmit : ∀ command, o ≠ .call (.submitCommand command))
    (hrestart : restarts s o = false) :
    ledger (s.step o) = ledger s ∨
      ∃ outcomes : List (ℕ × IdleCommandOutcome), (ledger s).Settles outcomes ∧
      ledger (s.step o) = (ledger s).settle outcomes s.inner.version.ownerGeneration := by
  match o with
  | .processPendingCommands => exact .inr (ledger_processPendingCommands s)
  | .call (.submitCommand command) => exact absurd rfl (hsubmit command)
  | .call .beginStart => cases hrestart
  | .call (.tick nowMs) =>
    have hr : s.inner.supervisor.restarts nowMs = false := hrestart
    refine .inl ?_
    simp only [step, call, ledger_tick, tickSupervisor, hr]
    rfl
  | .call (.handleBackendEvent event nowMs) => exact .inl (ledger_handleBackendEvent s event nowMs)
  | .call .resetQuarantine =>
    simp only [step, call, resetQuarantine]
    split_ifs <;> exact .inl rfl
  | .call (.markReady _) | .call (.reportOwnerFailure _ _) | .call (.setAvailable _)
  | .call (.setHandlers _) =>
    exact .inl rfl

/-- **What the domain does to its mailbox is what can be done to a ledger.** -/
theorem ledger_step (s : IdleDomainState) (o : Op) :
    Ledger.Step IdleCommand.policy (ledger s) (ledger (s.step o)) := by
  by_cases hsubmit : ∃ command, o = .call (.submitCommand command)
  · obtain ⟨command, rfl⟩ := hsubmit
    simp only [step, call, ledger_submitCommand]
    split_ifs
    · exact .same
    · exact .submit command
  · by_cases hr : restarts s o
    · rw [ledger_restart hr]
      exact .settle (by simp [Ledger.Settles, replacedOutcomes, ledger]) (Nat.le_succ _)
    · rcases ledger_other (by simpa using hsubmit) (by simpa using hr) with h | ⟨outcomes, ho, h⟩
      · rw [h]; exact .same
      · rw [h]; exact .settle ho (le_refl _)

/-! ### The mailbox's contract -/

/-- What the mailbox promises over a run from `init`. -/
structure MailboxContract (capacity : ℕ) (init : IdleDomainState) (ops : List Op) : Prop where
  /-- The queue holds no more commands than it is meant to. -/
  depth : Always step (fun s => s.inner.queue.length ≤ capacity) init ops
  /-- Each accepted command is pending once or has one outcome. -/
  accounted : Always step (fun s =>
    (s.inner.queue.map (·.ticket) ++ s.resolved.map Prod.fst).Perm (List.range s.tickets)) init ops
  /-- No two pending commands replace the same thing. -/
  keys : Always step
    (fun s => (s.inner.queue.filterMap (MailboxItem.key IdleCommand.policy)).Nodup) init ops
  /-- A rejected submission changes nothing that is queued or accepted. -/
  rejected : Along step (fun s o => ∀ command outcome, o = .call (.submitCommand command) →
    (s.submitCommand command).1 = .error outcome → ledger (s.step o) = ledger s) init ops
  /-- Once a new owner starts, nothing of an older one is pending, and what was pending is cancelled
  and never applied. -/
  restarted : ∀ pre o mid post, ops = pre ++ o :: (mid ++ post) → restarts (run step init pre) o →
    (∀ item ∈ (run step init (pre ++ o :: mid)).inner.queue,
      (run step init pre).inner.version.ownerGeneration < item.generation) ∧
    ∀ item ∈ (run step init pre).inner.queue, ∀ outcome,
      (item.ticket, outcome) ∈ (run step init (pre ++ o :: mid)).resolved →
        outcome = .cancelled .ownerReplaced

/-- A `ReplaceLatest` command is submitted where the queue has room or one that it replaces. -/
def RoomForReplacement (s : IdleDomainState) : Op → Prop
  | .call (.submitCommand command) => s.inner.lifecycle ≠ .unavailable →
      ∀ key, command.policy = .replaceLatest key →
        s.inner.queue.length < s.inner.capacity ∨
          ∃ item ∈ s.inner.queue, item.hasKey IdleCommand.policy key
  | _ => True

theorem rejected_submitCommand {command : IdleCommand} {outcome : IdleCommandOutcome}
    (h : (s.submitCommand command).1 = .error outcome) :
    ledger (s.submitCommand command).2 = ledger s := by
  simp only [submitCommand] at h ⊢
  split_ifs at h ⊢
  · rfl
  · split at h <;> simp_all [ledger]

theorem good_step : Preserved step fun s => (ledger s).Good IdleCommand.policy := fun s o h =>
  (ledger_step s o).good h

theorem good_new (capacity : ℕ) (backend : Backend) (hasHandlerFor : IdleAction → Bool) :
    (ledger (new capacity backend hasHandlerFor)).Good IdleCommand.policy :=
  ⟨.refl _, List.nodup_nil, by simp [ledger, new, recomputeUnsupportedActionsLocked,
    publishSnapshotLocked]⟩

/-- A later state of a run has every outcome that an earlier one has, and no older owner. -/
theorem ledger_run (s : IdleDomainState) (ops : List Op) :
    s.resolved <+: (run step s ops).resolved ∧
      s.inner.version.ownerGeneration ≤ (run step s ops).inner.version.ownerGeneration := by
  have hstep : Preserved step fun t =>
      s.resolved <+: t.resolved ∧
        s.inner.version.ownerGeneration ≤ t.inner.version.ownerGeneration :=
    fun t o h => ⟨h.1.trans (ledger_step t o).resolved_extends,
      h.2.trans (ledger_step t o).generation_le⟩
  exact hstep.holds ⟨List.prefix_rfl, le_refl _⟩ ops

/-- What is pending when a new owner starts ends cancelled, whatever comes after. -/
theorem cancelled_of_restart (h : (ledger s).Good IdleCommand.policy) {o : Op} (hr : restarts s o)
    (mid : List Op) :
    (∀ item ∈ (run step (s.step o) mid).inner.queue,
      s.inner.version.ownerGeneration < item.generation) ∧
    ∀ item ∈ s.inner.queue, ∀ outcome, (item.ticket, outcome) ∈ (run step (s.step o) mid).resolved →
      outcome = .cancelled .ownerReplaced := by
  have hgood := good_step.holds (good_step s o h) mid
  have hl := ledger_restart hr
  obtain ⟨hresolved, hgeneration⟩ := ledger_run (s.step o) mid
  constructor
  · intro item hitem
    have hnext : (s.step o).inner.version.ownerGeneration = s.inner.version.ownerGeneration + 1 :=
      congrArg Ledger.generation hl
    have hcur : item.generation = (run step (s.step o) mid).inner.version.ownerGeneration :=
      hgood.current item hitem
    omega
  · intro item hitem outcome hout
    refine hgood.outcome_unique hout (hresolved.subset ?_)
    have hnext : (s.step o).resolved = s.resolved ++ replacedOutcomes s :=
      congrArg Ledger.resolved hl
    rw [hnext]
    exact List.mem_append_right _ (List.mem_map_of_mem hitem)

/-- One step keeps the queue within its capacity exactly when there is room for what it submits. -/
theorem depth_step {capacity : ℕ} (hcap : s.inner.capacity = capacity)
    (h : s.inner.queue.length ≤ capacity)
    (o : Op) : (s.step o).inner.queue.length ≤ capacity ↔ RoomForReplacement s o := by
  subst hcap
  by_cases hsubmit : ∃ command, o = .call (.submitCommand command)
  · obtain ⟨command, rfl⟩ := hsubmit
    have hqueue : (s.step (.call (.submitCommand command))).inner.queue =
        (ledger (s.submitCommand command).2).queue := rfl
    rw [hqueue, ledger_submitCommand]
    by_cases hu : s.inner.lifecycle = .unavailable
    · simpa [hu, RoomForReplacement, ledger] using h
    · simp only [hu, if_false, RoomForReplacement, ne_eq, not_false_eq_true, true_implies]
      exact Ledger.length_submit_le_iff (l := ledger s) h command
  · have hroom : RoomForReplacement s o := by
      match o with
      | .call (.submitCommand command) => exact absurd ⟨command, rfl⟩ hsubmit
      | .processPendingCommands | .call .beginStart | .call (.markReady _)
      | .call (.reportOwnerFailure _ _) | .call .resetQuarantine | .call (.tick _)
      | .call (.handleBackendEvent _ _) | .call (.setAvailable _)
      | .call (.setHandlers _) => trivial
    have hqueue : (s.step o).inner.queue = s.inner.queue ∨ (s.step o).inner.queue = [] := by
      by_cases hr : restarts s o
      · exact .inr (congrArg Ledger.queue (ledger_restart hr))
      · exact (ledger_other (by simpa using hsubmit) (by simpa using hr)).imp
          (congrArg Ledger.queue)
          fun ⟨_, _, h⟩ => congrArg Ledger.queue h
    refine iff_of_true ?_ hroom
    rcases hqueue with hq | hq
    · exact hq ▸ h
    · simp [hq]

/-- **A run keeps the mailbox's contract exactly when no `ReplaceLatest` command comes to a full
queue that holds none for it to replace.** -/
theorem mailboxContract_iff (capacity : ℕ) (backend : Backend) (hasHandlerFor : IdleAction → Bool)
    (ops : List Op) :
    MailboxContract capacity (new capacity backend hasHandlerFor) ops ↔
      Along step RoomForReplacement (new capacity backend hasHandlerFor) ops := by
  have hgood := good_new capacity backend hasHandlerFor
  have hcap : Preserved step fun s => s.inner.capacity = capacity := fun s o h =>
    (ledger_step s o).capacity_eq.trans h
  have hdepth : Always step (fun s => s.inner.queue.length ≤ capacity)
      (new capacity backend hasHandlerFor) ops ↔
      Along step RoomForReplacement (new capacity backend hasHandlerFor) ops :=
    always_iff_along hcap (fun s o hc h => depth_step hc h o) rfl (Nat.zero_le _) ops
  refine ⟨fun h => hdepth.mp h.depth, fun h => ⟨hdepth.mpr h, ?_, ?_, ?_, ?_⟩⟩
  · exact (always_iff _ _).mpr fun pre _ _ => (good_step.holds hgood pre).accounted
  · exact (always_iff _ _).mpr fun pre _ _ => (good_step.holds hgood pre).keys
  · refine (along_iff _ _).mpr ?_
    intro pre o _ _ command outcome ho hrej
    subst ho
    exact rejected_submitCommand hrej
  · intro pre o mid post _ hr
    rw [run_append, run_cons]
    exact cancelled_of_restart (good_step.holds hgood pre) hr mid

/-! ### A mailbox that overflows -/

/-- One inhibitor fills a mailbox for one; then a configuration is submitted. -/
def configureOnFull : List Op := [
  .call .beginStart,
  .call (.submitCommand (.addInhibit .caffeine)),
  .call (.submitCommand (.configureBehaviors defaultBehaviors 2.0))]

/-- **A configuration is queued whatever the queue holds.** -/
theorem configure_overflows :
    (run step (new 1 .connected fun _ => true) configureOnFull).inner.queue.length = 2 ∧
    ¬ MailboxContract 1 (new 1 .connected fun _ => true) configureOnFull := by
  have hlength :
      (run step (new 1 .connected fun _ => true) configureOnFull).inner.queue.length = 2 := by
    decide
  refine ⟨hlength, ?_⟩
  intro h
  have := (always_iff _ _).mp h.depth configureOnFull [] (by simp)
  omega

end Shilpo.Idle
