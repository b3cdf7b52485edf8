import Shilpo.Auth.State

/-!
# The prompt and the session

The published snapshot says `authenticating` from the prompt and the last outcome,
both under the mutex `inner`; the session lives beside them. A session that has not
completed always shows (`WF`). The converse holds until `begin_start` or
`report_owner_failure` kills such a session: they leave the prompt where it is, and
`restart_leaves_prompt` shows the user a prompt whose answer is rejected.

`agrees_iff_along` says when a run keeps the two together: exactly when no owner is
restarted or fails while a conversation is shown.
-/

namespace Shilpo.Auth

open Shilpo.Domain Shilpo.Theory AuthDomainState

universe u v

variable {W : Type u} {S : Type v} {helper : AuthHelper W S} {s : AuthDomainState W S}

/-! ### The agreement -/

/-- A conversation is shown: there is a prompt, and no outcome yet. -/
def prompting (prompt : Option AuthPromptState) (outcome : Option AuthOutcome) : Bool :=
  prompt.isSome && outcome.isNone

/-- **The agreement**: the published snapshot says `authenticating` exactly when there is a session
that has not completed. -/
def Agrees (s : AuthDomainState W S) : Prop :=
  s.snapshot.authenticating = true ↔
    ∃ session, s.activeSession = some session ∧ session.completedAtMs = none

/-- What a session says of the prompt and the last outcome. -/
structure SessionShown (prompt : Option AuthPromptState) (outcome : Option AuthOutcome)
    (session : ActiveSession S) : Prop where
  /-- A completed session has an outcome. -/
  completed : session.completedAtMs.isSome → outcome.isSome
  /-- One that has not completed is shown. -/
  running : session.completedAtMs = none → prompting prompt outcome

/-- What holds of every reachable domain. -/
structure WF (s : AuthDomainState W S) : Prop where
  /-- What is published is what the mutex guards. -/
  synced : s.snapshot = snapshotFrom s.inner
  /-- The session is shown. -/
  shown : ∀ session, s.activeSession = some session →
    SessionShown s.inner.promptState s.inner.lastOutcome session

/-- Without a session, no conversation is shown. -/
def Quiet (s : AuthDomainState W S) : Prop :=
  s.activeSession = none → prompting s.inner.promptState s.inner.lastOutcome = false

theorem agrees_iff_quiet (h : WF s) : Agrees s ↔ Quiet s := by
  have hp : s.snapshot.authenticating = prompting s.inner.promptState s.inner.lastOutcome := by
    rw [h.synced]
    rfl
  simp only [Agrees, Quiet, hp]
  cases ha : s.activeSession with
  | none => simp
  | some session =>
    have hs := h.shown session ha
    cases hc : session.completedAtMs with
    | none => simp [hc, hs.running hc]
    | some completedAt =>
      have := hs.completed (by simp [hc])
      simp_all [prompting, Option.isSome_iff_ne_none]

/-! ### Helper events -/

/-- Of an event, a session that goes on stays shown, and one that fails leaves no prompt. -/
theorem applyHelperEvent_spec {g : InnerState} {session : ActiveSession S}
    (h : SessionShown g.promptState g.lastOutcome session)
    (event : AuthHelperEvent) (nowMs : ℕ) :
    let r := applyHelperEvent g session event nowMs
    if r.2.2 = .failed then prompting r.1.promptState r.1.lastOutcome = false ∧ attemptFailed r.1
    else SessionShown r.1.promptState r.1.lastOutcome r.2.1 ∧ attemptFailed r.1 = false := by
  cases event with
  | failure message => simp [applyHelperEvent, prompting, attemptFailed]
  | success =>
    simp only [applyHelperEvent, attemptFailed]
    exact ⟨⟨fun _ => rfl, fun hc => by cases hc⟩, rfl⟩
  | promptEchoOff _ | promptEchoOn _ | errorMessage _ | textInfo _ =>
    simp only [applyHelperEvent, reduceCtorEq, if_false]
    refine ⟨⟨h.completed, ?_⟩, by simp [attemptFailed]⟩
    intro hc
    have := h.running hc
    simp_all [prompting]

/-! ### Operations -/

/-- Publishing what a session shows. -/
theorem WF.publish (h : ∀ session, s.activeSession = some session →
    SessionShown s.inner.promptState s.inner.lastOutcome session) :
    WF s.publishSnapshotLocked := ⟨by simp, h⟩

/-- Submitting a command touches only the mailbox. -/
theorem submitCommand_frame (s : AuthDomainState W S) (command : AuthCommand) :
    ∃ queue overloads supersessions resolved tickets, (s.submitCommand command).2 =
      { s with
        inner := { s.inner with
          queue := queue
          overloads := overloads
          supersessions := supersessions }
        resolved := resolved
        tickets := tickets } := by
  simp only [submitCommand]
  split_ifs
  · exact ⟨_, _, _, _, _, rfl⟩
  · split <;> exact ⟨_, _, _, _, _, rfl⟩

/-- A new attempt has a session that is shown, or neither session nor prompt. -/
theorem beginAuthentication_spec (s : AuthDomainState W S) (service : String) (nowMs : ℕ) :
    (∀ session, (s.beginAuthentication helper service nowMs).activeSession = some session →
      SessionShown (s.beginAuthentication helper service nowMs).inner.promptState
        (s.beginAuthentication helper service nowMs).inner.lastOutcome session) ∧
    Quiet (s.beginAuthentication helper service nowMs) := by
  simp only [beginAuthentication]
  split
  · next helperSession world _ =>
    have hnew : SessionShown (some .default) none
        (⟨helperSession, nowMs, none⟩ : ActiveSession S) :=
      ⟨by simp, by simp [prompting]⟩
    cases (helper.tryRecvEvent world helperSession).1 with
    | none => simp [Quiet, attemptFailed, hnew]
    | some event =>
      have hspec := applyHelperEvent_spec
        (g := { s.inner with promptState := some .default, lastOutcome := none }) hnew event nowMs
      simp only [inner_clearActiveSessionLocked, activeSession_clearActiveSessionLocked] at hspec ⊢
      split_ifs at hspec
      · simp [Quiet, hspec.1, hspec.2]
      · simp [Quiet, hspec.1, hspec.2]
  · simp [Quiet, prompting]

theorem WF.applied (h : ∀ session, s.activeSession = some session →
    SessionShown s.inner.promptState s.inner.lastOutcome session)
    (ticket : ℕ) : WF (s.applied ticket) :=
  ⟨by simp [AuthDomainState.applied, resolve, snapshot, publishSnapshotLocked], h⟩

theorem wf_applyCommand (h : WF s) (ticket nowMs : ℕ) (command : AuthCommand) :
    WF (s.applyCommand helper ticket nowMs command) := by
  cases command with
  | beginAuthentication service =>
    exact .applied (beginAuthentication_spec s service nowMs).1 ticket
  | provideResponse response =>
    simp only [applyCommand, provideResponse]
    split
    · exact ⟨h.synced, h.shown⟩
    · next session hs =>
      refine .applied ?_ ticket
      intro session' hs'
      obtain rfl := Option.some.inj hs'
      exact ⟨(h.shown session hs).completed, (h.shown session hs).running⟩
  | cancelAuthentication => exact .applied (by simp) ticket
  | resetQuarantine => exact WF.applied (s := { s with inner := { s.inner with
      supervisor := s.inner.supervisor.resetQuarantine.1 } }) h.shown ticket

theorem wf_tick (h : WF s) (nowMs : ℕ) : WF (s.tick helper nowMs) := by
  simp only [tick]
  split
  · exact .publish (by simp [bumpRevision])
  · exact .publish (by simp [bumpRevision])
  · exact ⟨h.synced, h.shown⟩

theorem wf_pollActiveHelperEvent (h : WF s) (nowMs : ℕ) :
    WF (s.pollActiveHelperEvent helper nowMs).2 := by
  simp only [pollActiveHelperEvent]
  split
  · exact h
  · next session hs =>
    split
    · exact ⟨h.synced, h.shown⟩
    · next event world _ =>
      have hshown : SessionShown s.inner.promptState s.inner.lastOutcome
          { session with lastInteractionMs := nowMs } :=
        ⟨(h.shown session hs).completed, (h.shown session hs).running⟩
      have hspec := applyHelperEvent_spec hshown event nowMs
      simp only at hspec ⊢
      split_ifs at hspec ⊢
      · exact ⟨by simp [snapshot, publishSnapshotLocked], by simp⟩
      · refine .publish ?_
        intro session' hs'
        obtain rfl := Option.some.inj hs'
        exact hspec.1

/-- **A session is shown, in every reachable state.** -/
theorem wf_micro : Preserved (micro helper) WF := by
  intro s u h
  match u with
  | .call .beginStart => exact .publish (by simp)
  | .call (.markReady _) =>
    exact .publish h.shown
  | .call (.reportOwnerFailure _ _) => exact .publish (by simp)
  | .call .resetQuarantine =>
    simp only [micro, call, resetQuarantine]
    split_ifs
    · exact .publish h.shown
    · exact h
  | .call (.tick nowMs) => exact wf_tick h nowMs
  | .call (.pollActiveHelperEvent nowMs) => exact wf_pollActiveHelperEvent h nowMs
  | .call (.submitCommand command) =>
    obtain ⟨_, _, _, _, _, hs⟩ := submitCommand_frame s command
    simp only [micro, call, hs]
    exact ⟨h.synced, h.shown⟩
  | .call (.setWorld _) => exact ⟨h.synced, h.shown⟩
  | .take => exact ⟨h.synced, h.shown⟩
  | .item nowMs item =>
    simp only [micro, applyItem]
    split_ifs
    · exact ⟨h.synced, h.shown⟩
    · exact wf_applyCommand h item.ticket nowMs item.command

/-! ### When a run keeps the agreement -/

/-- No owner is restarted or fails while a conversation is shown. -/
def NoPromptAbandoned (s : AuthDomainState W S) : Micro W → Prop
  | .call .beginStart | .call (.reportOwnerFailure _ _) =>
    prompting s.inner.promptState s.inner.lastOutcome = false
  | _ => True

theorem quiet_applyCommand (hq : Quiet s) (ticket nowMs : ℕ) (command : AuthCommand) :
    Quiet (s.applyCommand helper ticket nowMs command) := by
  cases command with
  | beginAuthentication service => exact (beginAuthentication_spec s service nowMs).2
  | provideResponse response =>
    simp only [applyCommand, provideResponse]
    split
    · exact hq
    · exact fun hnone => by cases hnone
  | cancelAuthentication =>
    simp [applyCommand, applied, Quiet, prompting, bumpRevision, publishSnapshotLocked, resolve]
  | resetQuarantine => exact hq

theorem quiet_tick (hq : Quiet s) (nowMs : ℕ) : Quiet (s.tick helper nowMs) := by
  simp only [tick]
  split
  · simp [Quiet, prompting, bumpRevision]
  · simp [Quiet, prompting, bumpRevision]
  · exact hq

theorem quiet_pollActiveHelperEvent (h : WF s) (hq : Quiet s) (nowMs : ℕ) :
    Quiet (s.pollActiveHelperEvent helper nowMs).2 := by
  simp only [pollActiveHelperEvent]
  split
  · exact hq
  · next session hs =>
    split
    · exact hq
    · next event world _ =>
      have hshown : SessionShown s.inner.promptState s.inner.lastOutcome
          { session with lastInteractionMs := nowMs } :=
        ⟨(h.shown session hs).completed, (h.shown session hs).running⟩
      have hspec := applyHelperEvent_spec hshown event nowMs
      simp only at hspec ⊢
      split_ifs at hspec ⊢
      · exact fun _ => hspec.1
      · exact fun hnone => by cases hnone

/-- **One step leaves a prompt without its session exactly when it restarts or fails the owner of
one.** -/
theorem quiet_micro (h : WF s) (hq : Quiet s) (u : Micro W) :
    Quiet (s.micro helper u) ↔ NoPromptAbandoned s u := by
  match u with
  | .call .beginStart =>
    simp [micro, call, beginStart, Quiet, NoPromptAbandoned, publishSnapshotLocked, cancelQueue]
  | .call (.reportOwnerFailure _ _) =>
    simp [micro, call, reportOwnerFailure, Quiet, NoPromptAbandoned, publishSnapshotLocked]
  | .call .resetQuarantine =>
    refine iff_of_true ?_ trivial
    simp only [micro, call, resetQuarantine]
    split_ifs <;> exact hq
  | .call (.tick nowMs) => exact iff_of_true (quiet_tick hq nowMs) trivial
  | .call (.pollActiveHelperEvent nowMs) =>
    exact iff_of_true (quiet_pollActiveHelperEvent h hq nowMs) trivial
  | .call (.submitCommand command) =>
    obtain ⟨_, _, _, _, _, hs⟩ := submitCommand_frame s command
    simp only [micro, call, hs]
    exact iff_of_true hq trivial
  | .item nowMs item =>
    refine iff_of_true ?_ trivial
    simp only [micro, applyItem]
    split_ifs
    · exact hq
    · exact quiet_applyCommand hq item.ticket nowMs item.command
  | .call (.markReady _) | .call (.setWorld _) | .take => exact iff_of_true hq trivial

/-- **Every state of a run agrees exactly when no owner is restarted or fails while a conversation
is shown**; then so does the state after every operation. -/
theorem agrees_iff_along (helper : AuthHelper W S) (capacity : ℕ) (world : W) (ops : List (Op W)) :
    let init : AuthDomainState W S := new capacity world
    let parts := expand (step helper) unfold init ops
    (Always (micro helper) Agrees init parts ↔ Along (micro helper) NoPromptAbandoned init parts) ∧
      (Along (micro helper) NoPromptAbandoned init parts →
        Always (step helper) Agrees init ops) := by
  intro init parts
  have hwf : WF init := ⟨rfl, by simp [init, new]⟩
  have hnew : Agrees init := by simp [init, Agrees, new, snapshot, AuthSnapshot.default]
  have hstep : ∀ s u, WF s → Agrees s → (Agrees (micro helper s u) ↔ NoPromptAbandoned s u) := by
    intro s u h ha
    rw [agrees_iff_quiet (wf_micro s u h)]
    exact quiet_micro h ((agrees_iff_quiet h).mp ha) u
  have hiff : Always (micro helper) Agrees init parts ↔
      Along (micro helper) NoPromptAbandoned init parts :=
    always_iff_along wf_micro hstep hwf hnew parts
  exact ⟨hiff, fun hc => always_of_expand (step_eq_run_unfold helper) (hiff.mpr hc)⟩

/-! ### An abandoned prompt -/

/-- The owner is restarted while the user is logging in. -/
def restartDuringAttempt : List (Op (List AuthHelperEvent)) := [
  .call .beginStart, .call (.markReady 1),
  .call (.submitCommand (.beginAuthentication "login")), .processPendingCommands 2,
  .call .beginStart]

/-- **A restarted owner leaves a stale prompt**: the snapshot still says `authenticating`, there is
no session, and a response is rejected. -/
theorem restart_leaves_prompt :
    let s := run (step scriptedHelper) (new 8 []) restartDuringAttempt
    let answered := run (step scriptedHelper) s
      [.call (.submitCommand (.provideResponse "secret")), .processPendingCommands 3]
    s.snapshot.authenticating = true ∧ s.activeSession.isNone ∧ ¬ Agrees s ∧
      answered.resolved.getLast? = some (1, .rejected .notAuthenticating) := by
  refine ⟨by decide, by decide, ?_, by decide⟩
  intro h
  obtain ⟨session, hs, -⟩ := h.mp (by decide)
  cases hs

end Shilpo.Auth
