import Shilpo.Compositor.Types
import Shilpo.Theory.Verdict

/-!
# Convergence of a compositor command

A command that the backend has taken is finished when a snapshot newer than the one it
was started on shows its effect, or shows that its target is gone. Snapshots may come
before the backend's acknowledgement, which says what to look for: those are kept and
judged when it comes, the later ones at once. Here `ActiveCommand.observe` and
`ActiveCommand.acknowledge` are modelled, and it is shown that both ways judge alike:
the outcome is the first verdict on the newer snapshots, in whatever position the
acknowledgement takes among them (`convergence_independent`).
-/

namespace Shilpo.Compositor

open Domain Theory

/-! ### The code -/

/-- What a snapshot has to show. -/
inductive CommandExpectation where
  | focusWorkspace (workspaceId : ℕ)
  | focusWindow (windowId : ℕ)
  | focusPreviousWindow (previousWindowId : Option ℕ)
  | closeWindow (windowId : ℕ)
  | moveWindowToWorkspace (windowId workspaceId : ℕ)
  | createWorkspace (workspaceId : ℕ) (targetSeen : Bool)
  deriving DecidableEq

namespace CommandExpectation

/-- What to expect of the command, now that the backend has answered. -/
def fromAck (command : CompositorCommand) (ack : ExecutorAck) (baseline : CompositorSnapshot) :
    Except RejectionReason CommandExpectation :=
  match command, ack with
  | .focusWorkspace id, .success => .ok (.focusWorkspace id)
  | .focusWindow id, .success => .ok (.focusWindow id)
  | .focusPreviousWindow, .success => .ok (.focusPreviousWindow baseline.focusedWindowId)
  | .closeWindow id, .success => .ok (.closeWindow id)
  | .moveWindowToWorkspace windowId workspaceId, .success =>
    .ok (.moveWindowToWorkspace windowId workspaceId)
  | .createWorkspace, .workspaceCreated workspaceId =>
    .ok (.createWorkspace workspaceId (baseline.hasWorkspace workspaceId))
  | .createWorkspace, .success =>
    .error (.backendRejected "create-workspace acknowledgement did not identify a workspace")
  | _, _ =>
    .error (.backendRejected "backend acknowledgement does not match the requested command")

/-- The snapshot shows the effect. -/
def applied (expectation : CommandExpectation) (snapshot : CompositorSnapshot) : Bool :=
  match expectation with
  | .focusWorkspace workspaceId => snapshot.focusedWorkspaceId == some workspaceId
  | .focusWindow windowId => snapshot.focusedWindowId == some windowId
  | .focusPreviousWindow previousWindowId =>
    snapshot.focusedWindowId.isSome && snapshot.focusedWindowId != previousWindowId
  | .closeWindow windowId => !snapshot.hasWindow windowId
  | .moveWindowToWorkspace windowId workspaceId => snapshot.hasWindowOn windowId workspaceId
  | .createWorkspace workspaceId _ => snapshot.focusedWorkspaceId == some workspaceId

/-- The target that the snapshot shows to be gone, and what to expect from now on. -/
def disappeared (expectation : CommandExpectation) (snapshot : CompositorSnapshot) :
    CommandExpectation × Option CompositorTarget :=
  match expectation with
  | .focusWorkspace workspaceId =>
    (expectation, if snapshot.hasWorkspace workspaceId then none else some (.workspace workspaceId))
  | .focusWindow windowId =>
    (expectation, if snapshot.hasWindow windowId then none else some (.window windowId))
  | .moveWindowToWorkspace windowId workspaceId =>
    (expectation,
      if !snapshot.hasWindow windowId then some (.window windowId)
      else if !snapshot.hasWorkspace workspaceId then some (.workspace workspaceId)
      else none)
  | .createWorkspace workspaceId targetSeen =>
    if snapshot.hasWorkspace workspaceId then (.createWorkspace workspaceId true, none)
    else if targetSeen then (expectation, some (.workspace workspaceId))
    else (expectation, none)
  | .focusPreviousWindow _ | .closeWindow _ => (expectation, none)

end CommandExpectation

/-- What a command in flight has seen. -/
structure ConvergenceState where
  /-- The snapshot the command was started on. -/
  baseline : CompositorSnapshot
  /-- The command. -/
  command : CompositorCommand
  /-- The baseline left it nothing to do. -/
  alreadySatisfied : Bool
  /-- What to expect, once the backend has answered. -/
  expectation : Option CommandExpectation
  /-- The newer snapshots that came before the answer. -/
  observedSnapshots : List CompositorSnapshot
  /-- The outcome, once there is one. -/
  terminal : Option CommandOutcome
  /-- The version of the last newer snapshot. -/
  lastVersion : DomainVersion

namespace ConvergenceState

/-- Judge a snapshot. -/
def evaluate (c : ConvergenceState) (snapshot : CompositorSnapshot) : ConvergenceState :=
  match c.expectation with
  | none => c
  | some expectation =>
    if expectation.applied snapshot then
      { c with terminal := some (.applied snapshot.version) }
    else
      match expectation.disappeared snapshot with
      | (expectation', some target) =>
        { c with
          expectation := some expectation'
          terminal := some (.rejected (.targetDisappeared target)) }
      | (expectation', none) => { c with expectation := some expectation' }

/-- Judge the snapshots that came before the answer, until one decides. -/
def replay (c : ConvergenceState) : List CompositorSnapshot → ConvergenceState
  | [] => c
  | snapshot :: observed =>
    if (c.evaluate snapshot).terminal.isSome then c.evaluate snapshot
    else (c.evaluate snapshot).replay observed

end ConvergenceState

/-- The command the worker has taken up. -/
structure ActiveCommand where
  /-- Whose cancellation it answers to. -/
  cancellation : ℕ
  /-- What it has seen. -/
  convergence : ConvergenceState

namespace ActiveCommand

/-- A command taken up on a snapshot. -/
def new (command : CompositorCommand) (baseline : CompositorSnapshot) (alreadySatisfied : Bool)
    (cancellation : ℕ) : ActiveCommand :=
  ⟨cancellation, ⟨baseline, command, alreadySatisfied, none, [], none, baseline.version⟩⟩

/-- A snapshot comes. -/
def observe (a : ActiveCommand) (snapshot : CompositorSnapshot) : ActiveCommand :=
  if snapshot.version ≤ a.convergence.baseline.version ∨ a.convergence.terminal.isSome then a
  else
    let c := { a.convergence with lastVersion := snapshot.version }
    if c.expectation.isSome then { a with convergence := c.evaluate snapshot }
    else
      { a with convergence := { c with observedSnapshots := c.observedSnapshots ++ [snapshot] } }

/-- The backend's answer comes. -/
def acknowledge (a : ActiveCommand) (ack : ExecutorAck) : Except RejectionReason ActiveCommand :=
  let c := a.convergence
  if c.alreadySatisfied then
    .ok { a with convergence := { c with terminal := some (.applied c.baseline.version) } }
  else
    match CommandExpectation.fromAck c.command ack c.baseline with
    | .error reason => .error reason
    | .ok expectation =>
      .ok { a with
        convergence :=
          { c with expectation := some expectation, observedSnapshots := [] }.replay
            c.observedSnapshots }

/-- The outcome, once there is one. -/
def terminal (a : ActiveCommand) : Option CommandOutcome := a.convergence.terminal

/-- Snapshots come one after another. -/
def observeAll (a : ActiveCommand) (snapshots : List CompositorSnapshot) : ActiveCommand :=
  snapshots.foldl observe a

end ActiveCommand

/-! ### What an outcome means -/

section Verdict

variable (command : CompositorCommand) (ack : ExecutorAck) (baseline : CompositorSnapshot)

/-- The snapshot shows what the command, so answered, is for. -/
def Satisfies (snapshot : CompositorSnapshot) : Prop :=
  match command, ack with
  | .focusWorkspace id, _ => snapshot.focusedWorkspaceId = some id
  | .focusWindow id, _ => snapshot.focusedWindowId = some id
  | .focusPreviousWindow, _ =>
    snapshot.focusedWindowId ≠ none ∧ snapshot.focusedWindowId ≠ baseline.focusedWindowId
  | .closeWindow id, _ => ∀ window ∈ snapshot.windows, window.id ≠ id
  | .moveWindowToWorkspace windowId workspaceId, _ =>
    ∃ window ∈ snapshot.windows, window.id = windowId ∧ window.workspaceId = some workspaceId
  | .createWorkspace, .workspaceCreated id => snapshot.focusedWorkspaceId = some id
  | .createWorkspace, .success => False

instance : DecidablePred (Satisfies command ack baseline) := by
  intro snapshot
  unfold Satisfies
  split <;> infer_instance

/-- The target that the snapshot lacks. That of a new workspace is missed only once it has been
seen, in the baseline or in one of the snapshots `before`. -/
def lackedTarget (before : List CompositorSnapshot) (snapshot : CompositorSnapshot) :
    Option CompositorTarget :=
  match command, ack with
  | .focusWorkspace id, _ => if snapshot.hasWorkspace id then none else some (.workspace id)
  | .focusWindow id, _ => if snapshot.hasWindow id then none else some (.window id)
  | .moveWindowToWorkspace windowId workspaceId, _ =>
    if !snapshot.hasWindow windowId then some (.window windowId)
    else if !snapshot.hasWorkspace workspaceId then some (.workspace workspaceId)
    else none
  | .createWorkspace, .workspaceCreated id =>
    if !snapshot.hasWorkspace id && (baseline :: before).any (·.hasWorkspace id) then
      some (.workspace id)
    else none
  | _, _ => none

/-- The verdict of a newer snapshot, after those `before` decided nothing. -/
def verdict (before : List CompositorSnapshot) (snapshot : CompositorSnapshot) :
    Option CommandOutcome :=
  if Satisfies command ack baseline snapshot then some (.applied snapshot.version)
  else (lackedTarget command ack baseline before snapshot).map fun target =>
    .rejected (.targetDisappeared target)

/-- The snapshots newer than the baseline. -/
def newer (snapshots : List CompositorSnapshot) : List CompositorSnapshot :=
  snapshots.filter fun snapshot => baseline.version < snapshot.version

/-- The outcome of a command that the baseline does not satisfy. -/
def decision (snapshots : List CompositorSnapshot) : Option CommandOutcome :=
  firstVerdict (verdict command ack baseline) [] (newer baseline snapshots)

end Verdict

/-! ### The code judges so -/

namespace CommandExpectation

/-- What is expected after the snapshots `before` have decided nothing. -/
def seen (expectation : CommandExpectation) (before : List CompositorSnapshot) :
    CommandExpectation :=
  match expectation with
  | .createWorkspace workspaceId targetSeen =>
    .createWorkspace workspaceId (targetSeen || before.any (·.hasWorkspace workspaceId))
  | _ => expectation

theorem seen_nil (expectation : CommandExpectation) : expectation.seen [] = expectation := by
  cases expectation <;> simp [seen]

/-- What an undecided snapshot changes in the expectation. -/
theorem disappeared_fst (expectation : CommandExpectation) (before : List CompositorSnapshot)
    (snapshot : CompositorSnapshot) :
    ((expectation.seen before).disappeared snapshot).1 = expectation.seen (before ++ [snapshot]) := by
  cases expectation with
  | createWorkspace workspaceId targetSeen =>
    simp only [seen, disappeared, List.any_append, List.any_cons, List.any_nil, Bool.or_false]
    split_ifs with h h' <;> simp_all
  | focusWorkspace | focusWindow | focusPreviousWindow | closeWindow | moveWindowToWorkspace => rfl

end CommandExpectation

section Judged

variable {command : CompositorCommand} {ack : ExecutorAck} {baseline : CompositorSnapshot}
  {expectation : CommandExpectation}

/-- The code's two tests are the two parts of a verdict. -/
theorem of_fromAck (h : CommandExpectation.fromAck command ack baseline = .ok expectation)
    (before : List CompositorSnapshot) (snapshot : CompositorSnapshot) :
    ((expectation.seen before).applied snapshot = true ↔
        Satisfies command ack baseline snapshot) ∧
      ((expectation.seen before).disappeared snapshot).2 =
        lackedTarget command ack baseline before snapshot := by
  cases command <;> cases ack <;> cases h <;>
    simp only [CommandExpectation.seen, CommandExpectation.applied,
      CommandExpectation.disappeared, Satisfies, lackedTarget]
  case focusWorkspace.success id => simp
  case focusWindow.success id => simp
  case focusPreviousWindow.success => simp [Option.isSome_iff_ne_none]
  case closeWindow.success id => simp [CompositorSnapshot.hasWindow]
  case moveWindowToWorkspace.success windowId workspaceId =>
    simp [CompositorSnapshot.hasWindowOn]
  case createWorkspace.workspaceCreated id =>
    refine ⟨by simp, ?_⟩
    rw [List.any_cons]
    cases snapshot.hasWorkspace id <;>
      cases baseline.hasWorkspace id || before.any (·.hasWorkspace id) <;> rfl

/-- The command has been answered, and the newer snapshots `judged` have been judged. -/
structure Judged (command : CompositorCommand) (ack : ExecutorAck) (baseline : CompositorSnapshot)
    (expectation : CommandExpectation) (judged : List CompositorSnapshot) (c : ConvergenceState) :
    Prop where
  /-- The baseline stays. -/
  started : c.baseline = baseline
  /-- The outcome is the first verdict. -/
  terminal : c.terminal = firstVerdict (verdict command ack baseline) [] judged
  /-- While there is none, the next snapshot is judged in the light of those before it. -/
  expects : c.terminal = none → c.expectation = some (expectation.seen judged)

variable {judged : List CompositorSnapshot} {c : ConvergenceState}

/-- Judging a snapshot gives its verdict. -/
theorem Judged.evaluate (h : Judged command ack baseline expectation judged c)
    (hack : CommandExpectation.fromAck command ack baseline = .ok expectation)
    (hc : c.terminal = none) (snapshot : CompositorSnapshot) :
    Judged command ack baseline expectation (judged ++ [snapshot]) (c.evaluate snapshot) := by
  obtain ⟨happlied, hdisappeared⟩ := of_fromAck hack judged snapshot
  have hseen := CommandExpectation.disappeared_fst expectation judged snapshot
  have hfirst : firstVerdict (verdict command ack baseline) [] (judged ++ [snapshot]) =
      verdict command ack baseline judged snapshot := by
    rw [firstVerdict_snoc, ← h.terminal, hc, Option.none_or]
  simp only [ConvergenceState.evaluate, h.expects hc]
  by_cases hs : Satisfies command ack baseline snapshot
  · rw [if_pos (happlied.mpr hs)]
    refine ⟨h.started, ?_, by simp⟩
    rw [hfirst, verdict, if_pos hs]
  · rw [if_neg (mt happlied.mp hs)]
    rw [verdict, if_neg hs, ← hdisappeared] at hfirst
    cases hd : (expectation.seen judged).disappeared snapshot with
    | mk expectation' target =>
      rw [hd] at hseen hfirst
      cases target with
      | some target => exact ⟨h.started, hfirst.symm, by simp⟩
      | none => exact ⟨h.started, by simp [hfirst, hc], fun _ => congrArg some hseen⟩

/-- After an outcome nothing changes it. -/
theorem Judged.decided (h : Judged command ack baseline expectation judged c)
    (hc : c.terminal ≠ none) (later : List CompositorSnapshot) :
    Judged command ack baseline expectation (judged ++ later) c := by
  refine ⟨h.started, ?_, fun hn => absurd hn hc⟩
  rw [firstVerdict_append, ← h.terminal]
  obtain ⟨outcome, ho⟩ := Option.ne_none_iff_exists'.mp hc
  rw [ho, Option.some_or]

/-- Judging the snapshots kept gives the first verdict on them. -/
theorem Judged.replay (h : Judged command ack baseline expectation judged c)
    (hack : CommandExpectation.fromAck command ack baseline = .ok expectation)
    (hc : c.terminal = none) (observed : List CompositorSnapshot) :
    Judged command ack baseline expectation (judged ++ observed) (c.replay observed) := by
  induction observed generalizing c judged with
  | nil => rwa [List.append_nil]
  | cons snapshot observed ih =>
    have hnext := h.evaluate hack hc snapshot
    rw [List.append_cons]
    unfold ConvergenceState.replay
    split_ifs with hd
    · exact hnext.decided (Option.isSome_iff_ne_none.mp hd) observed
    · exact ih hnext (by simpa using hd)

end Judged

namespace ActiveCommand

variable {command : CompositorCommand} {ack : ExecutorAck} {baseline : CompositorSnapshot}
  {expectation : CommandExpectation} {a : ActiveCommand}

theorem newer_append (l l' : List CompositorSnapshot) :
    newer baseline (l ++ l') = newer baseline l ++ newer baseline l' :=
  List.filter_append ..

/-- A snapshot that comes after the answer is judged if it is newer. -/
theorem judged_observe {judged : List CompositorSnapshot}
    (h : Judged command ack baseline expectation judged a.convergence)
    (hack : CommandExpectation.fromAck command ack baseline = .ok expectation)
    (snapshot : CompositorSnapshot) :
    Judged command ack baseline expectation (judged ++ newer baseline [snapshot])
      (a.observe snapshot).convergence := by
  unfold observe
  rw [h.started]
  by_cases hnew : baseline.version < snapshot.version
  · rw [show newer baseline [snapshot] = [snapshot] by simp [newer, hnew]]
    by_cases hc : a.convergence.terminal = none
    · rw [if_neg (by simp [hnew, hc])]
      have hmoved : Judged command ack baseline expectation judged
          { a.convergence with lastVersion := snapshot.version } :=
        ⟨h.started, h.terminal, h.expects⟩
      dsimp only
      rw [if_pos (by rw [h.expects hc]; rfl)]
      exact hmoved.evaluate hack hc snapshot
    · rw [if_pos (.inr (Option.isSome_iff_ne_none.mpr hc))]
      exact h.decided hc _
  · rw [if_pos (.inl (not_lt.mp hnew)), show newer baseline [snapshot] = [] by simp [newer, hnew],
      List.append_nil]
    exact h

theorem judged_observeAll {judged : List CompositorSnapshot}
    (h : Judged command ack baseline expectation judged a.convergence)
    (hack : CommandExpectation.fromAck command ack baseline = .ok expectation)
    (snapshots : List CompositorSnapshot) :
    Judged command ack baseline expectation (judged ++ newer baseline snapshots)
      (a.observeAll snapshots).convergence := by
  induction snapshots generalizing a judged with
  | nil => simpa [newer, observeAll] using h
  | cons snapshot snapshots ih =>
    rw [← List.singleton_append, newer_append, ← List.append_assoc]
    exact ih (judged_observe h hack snapshot)

/-- The worker takes a command up on a snapshot. -/
def start (command : CompositorCommand) (baseline : CompositorSnapshot) (cancellation : ℕ) :
    ActiveCommand :=
  new command baseline (alreadySatisfied command baseline) cancellation

/-- Before the answer, the newer snapshots are kept. -/
structure Waiting (command : CompositorCommand) (baseline : CompositorSnapshot)
    (kept : List CompositorSnapshot) (c : ConvergenceState) : Prop where
  started : c.baseline = baseline
  taken : c.command = command
  satisfied : c.alreadySatisfied = alreadySatisfied command baseline
  unanswered : c.expectation = none
  undecided : c.terminal = none
  observed : c.observedSnapshots = kept

theorem waiting_observeAll (command : CompositorCommand) (baseline : CompositorSnapshot)
    (cancellation : ℕ) (snapshots : List CompositorSnapshot) :
    Waiting command baseline (newer baseline snapshots)
      ((start command baseline cancellation).observeAll snapshots).convergence := by
  induction snapshots using List.reverseRecOn with
  | nil => exact ⟨rfl, rfl, rfl, rfl, rfl, rfl⟩
  | append_singleton snapshots snapshot ih =>
    rw [observeAll, List.foldl_append, List.foldl_cons, List.foldl_nil, newer_append, ← observeAll]
    generalize (start command baseline cancellation).observeAll snapshots = a at ih ⊢
    unfold observe
    rw [ih.started, ih.undecided]
    by_cases hnew : baseline.version < snapshot.version
    · rw [if_neg (by simp [hnew]), show newer baseline [snapshot] = [snapshot] by simp [newer, hnew]]
      dsimp only
      rw [if_neg (by simp [ih.unanswered])]
      exact ⟨ih.started, ih.taken, ih.satisfied, ih.unanswered, ih.undecided, by rw [ih.observed]⟩
    · rw [if_pos (.inl (not_lt.mp hnew)), show newer baseline [snapshot] = [] by simp [newer, hnew],
        List.append_nil]
      exact ih

/-- The outcome of a command: the baseline's version if that satisfied it, and else the first
verdict on the newer snapshots. -/
def outcome (command : CompositorCommand) (ack : ExecutorAck) (baseline : CompositorSnapshot)
    (snapshots : List CompositorSnapshot) : Option CommandOutcome :=
  if alreadySatisfied command baseline then some (.applied baseline.version)
  else decision command ack baseline snapshots

/-- An outcome stays whatever comes. -/
theorem observeAll_decided {a : ActiveCommand} (h : a.terminal ≠ none)
    (snapshots : List CompositorSnapshot) : a.observeAll snapshots = a := by
  induction snapshots with
  | nil => rfl
  | cons snapshot snapshots ih =>
    have hobs : a.observe snapshot = a := by
      unfold observe
      rw [if_pos (.inr (Option.isSome_iff_ne_none.mpr h))]
    rw [observeAll, List.foldl_cons, hobs]
    exact ih

/-- Wherever the answer comes among the snapshots, it is accepted or not by what it says. -/
theorem acknowledge_observeAll (command : CompositorCommand) (ack : ExecutorAck)
    (baseline : CompositorSnapshot) (cancellation : ℕ) (pre : List CompositorSnapshot) :
    (((start command baseline cancellation).observeAll pre).acknowledge ack).isOk =
      (alreadySatisfied command baseline ||
        (CommandExpectation.fromAck command ack baseline).isOk) := by
  have h := waiting_observeAll command baseline cancellation pre
  simp only [acknowledge, h.satisfied, h.taken, h.started]
  cases alreadySatisfied command baseline with
  | true => rfl
  | false =>
    cases CommandExpectation.fromAck command ack baseline with
    | error _ => rfl
    | ok _ => rfl

/-- Once the answer is accepted, the outcome after any more snapshots. -/
theorem terminal_observeAll {command : CompositorCommand} {ack : ExecutorAck}
    {baseline : CompositorSnapshot} {cancellation : ℕ} {pre : List CompositorSnapshot}
    {a : ActiveCommand}
    (h : ((start command baseline cancellation).observeAll pre).acknowledge ack = .ok a)
    (post : List CompositorSnapshot) :
    (a.observeAll post).terminal = outcome command ack baseline (pre ++ post) := by
  have hw := waiting_observeAll command baseline cancellation pre
  simp only [acknowledge, hw.satisfied, hw.taken, hw.started, hw.observed] at h
  unfold outcome
  split_ifs at h ⊢ with hs
  · cases h
    rw [observeAll_decided (by simp [terminal])]
    rfl
  · cases hack : CommandExpectation.fromAck command ack baseline with
    | error reason => rw [hack] at h; cases h
    | ok expectation =>
      rw [hack] at h
      cases h
      unfold decision
      rw [newer_append]
      have hanswered : Judged command ack baseline expectation []
          ⟨baseline, command, alreadySatisfied command baseline, some expectation, [],
            ((start command baseline cancellation).observeAll pre).convergence.terminal,
            ((start command baseline cancellation).observeAll pre).convergence.lastVersion⟩ :=
        ⟨rfl, hw.undecided, fun _ => by rw [expectation.seen_nil]⟩
      exact (judged_observeAll (hanswered.replay hack hw.undecided _) hack post).terminal

end ActiveCommand

/-! ### Main results -/

section Decision

variable {command : CompositorCommand} {ack : ExecutorAck} {baseline : CompositorSnapshot}
  {snapshots : List CompositorSnapshot}

theorem decision_eq_applied_iff {version : DomainVersion} :
    decision command ack baseline snapshots = some (.applied version) ↔ ∃ before snapshot,
      FirstDeciding (verdict command ack baseline) (newer baseline snapshots) before snapshot ∧
        Satisfies command ack baseline snapshot ∧ version = snapshot.version := by
  unfold decision
  rw [firstVerdict_eq_some_iff]
  refine exists_congr fun before => exists_congr fun snapshot => and_congr_right fun _ => ?_
  unfold verdict
  split_ifs with hs
  · simp [hs, eq_comm]
  · simp [hs]

theorem decision_eq_disappeared_iff {target : CompositorTarget} :
    decision command ack baseline snapshots = some (.rejected (.targetDisappeared target)) ↔
      ∃ before snapshot,
        FirstDeciding (verdict command ack baseline) (newer baseline snapshots) before snapshot ∧
          ¬ Satisfies command ack baseline snapshot ∧
          lackedTarget command ack baseline before snapshot = some target := by
  unfold decision
  rw [firstVerdict_eq_some_iff]
  refine exists_congr fun before => exists_congr fun snapshot => and_congr_right fun _ => ?_
  unfold verdict
  split_ifs with hs
  · simp [hs]
  · simp [hs]

end Decision

open ActiveCommand in
/-- **Convergence does not depend on when the backend answers.** If its answer is accepted after
the snapshots `pre`, and the snapshots `post` follow, then it would have been accepted anywhere
among them with the same outcome; and that is `Applied` if and only if the baseline satisfied the
command or the first newer snapshot to decide satisfies it, `TargetDisappeared` if and only if the
first to decide lacks the target, and none if and only if no newer snapshot decides. -/
theorem convergence_independent {command : CompositorCommand} {ack : ExecutorAck}
    {baseline : CompositorSnapshot} {cancellation : ℕ} {pre post : List CompositorSnapshot}
    {a : ActiveCommand}
    (h : ((start command baseline cancellation).observeAll pre).acknowledge ack = .ok a) :
    (∀ pre' post', pre' ++ post' = pre ++ post →
      ∃ a', ((start command baseline cancellation).observeAll pre').acknowledge ack = .ok a' ∧
        (a'.observeAll post').terminal = (a.observeAll post).terminal) ∧
    (∀ version, (a.observeAll post).terminal = some (.applied version) ↔
      alreadySatisfied command baseline = true ∧ version = baseline.version ∨
      alreadySatisfied command baseline = false ∧ ∃ before snapshot,
        FirstDeciding (verdict command ack baseline) (newer baseline (pre ++ post)) before snapshot ∧
          Satisfies command ack baseline snapshot ∧ version = snapshot.version) ∧
    (∀ target, (a.observeAll post).terminal = some (.rejected (.targetDisappeared target)) ↔
      alreadySatisfied command baseline = false ∧ ∃ before snapshot,
        FirstDeciding (verdict command ack baseline) (newer baseline (pre ++ post)) before snapshot ∧
          ¬ Satisfies command ack baseline snapshot ∧
          lackedTarget command ack baseline before snapshot = some target) ∧
    ((a.observeAll post).terminal = none ↔
      alreadySatisfied command baseline = false ∧
        Undecided (verdict command ack baseline) (newer baseline (pre ++ post))) := by
  rw [terminal_observeAll h post]
  refine ⟨?_, ?_, ?_, ?_⟩
  · intro pre' post' hsplit
    have hok : (((start command baseline cancellation).observeAll pre').acknowledge ack).isOk := by
      rw [acknowledge_observeAll, ← acknowledge_observeAll command ack baseline cancellation pre, h]
      rfl
    cases ha' : ((start command baseline cancellation).observeAll pre').acknowledge ack with
    | error reason => rw [ha'] at hok; cases hok
    | ok a' => exact ⟨a', rfl, by rw [terminal_observeAll ha' post', hsplit]⟩
  · intro version
    rw [← decision_eq_applied_iff]
    unfold outcome
    cases alreadySatisfied command baseline with
    | true => simp [eq_comm]
    | false => simp
  · intro target
    rw [← decision_eq_disappeared_iff]
    unfold outcome
    cases alreadySatisfied command baseline <;> simp
  · rw [← firstVerdict_eq_none_iff]
    unfold outcome decision
    cases alreadySatisfied command baseline <;> simp

/-- A snapshot with one window, focused or not. -/
def oneWindow (version : DomainVersion) (focusedWindowId : Option ℕ) : CompositorSnapshot :=
  { version, focusedWindowId, windows := [⟨7, none, none, none, false, false, false, none, none⟩] }

open ActiveCommand in
/-- The window is focused in the second newer snapshot; the answer comes after the first, and
might have come before both. -/
theorem convergence_independent_focus :
    ∃ a, ((start (.focusWindow 7) (oneWindow ⟨1, 0⟩ none) 0).observeAll []).acknowledge .success =
        .ok a ∧
      (a.observeAll [oneWindow ⟨1, 1⟩ none, oneWindow ⟨1, 2⟩ (some 7)]).terminal =
        some (.applied ⟨1, 2⟩) := by
  have h : ((start (.focusWindow 7) (oneWindow ⟨1, 0⟩ none) 0).observeAll
      [oneWindow ⟨1, 1⟩ none]).acknowledge .success = .ok _ := rfl
  exact (convergence_independent h).1 [] ([oneWindow ⟨1, 1⟩ none] ++ [oneWindow ⟨1, 2⟩ (some 7)]) rfl

end Shilpo.Compositor
