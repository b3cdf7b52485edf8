import Shilpo.Auth.State
import Shilpo.Domain.Mutex

/-!
# How the authentication domain takes its mutexes

`Takes` is, for each operation in a state, the sequence in which it acquires and
releases `inner` and `active_session`. Only `poll_active_helper_event` begins with
`active_session`: where the session's helper has an event, it takes `inner` while it
holds it.
-/

namespace Shilpo.Auth

open Shilpo.Domain Shilpo.Theory AuthDomainState

universe u v

variable {W : Type u} {S : Type v} (helper : AuthHelper W S)

/-! ### The steps of the operations -/

/-- How often `tick` takes `active_session`: once to see what is due, and once for what is. -/
def tickSections (s : AuthDomainState W S) (nowMs : ℕ) : ℕ :=
  match s.activeSession.bind fun session =>
    due defaultInactivityTimeoutMs session.completedAtMs session.lastInteractionMs nowMs with
  | some _ => 2
  | none => 1

/-- How often a command of the queue takes `active_session`: `BeginAuthentication` closes the
session and may set a new one. -/
def itemSections (s : AuthDomainState W S) (nowMs : ℕ) (item : MailboxItem AuthCommand) : ℕ :=
  if item.generation ≠ s.inner.version.ownerGeneration then 0
  else
    match item.command with
    | .beginAuthentication service =>
      if (s.beginAuthentication helper service nowMs).activeSession.isSome then 2 else 1
    | .provideResponse _ | .cancelAuthentication => 1
    | .resetQuarantine => 0

/-- The event that a poll finds. -/
def nextEvent (s : AuthDomainState W S) : Option AuthHelperEvent :=
  s.activeSession.bind fun session => (helper.tryRecvEvent s.world session.helperSession).1

/-- The steps of `poll_active_helper_event`: a failure is cleared in a section of its own. -/
def pollSteps (s : AuthDomainState W S) : List (LockStep Mutex) :=
  match nextEvent helper s with
  | none => sessionSections 1
  | some (.failure _) => innerUnderSession ++ sessionSections 1
  | some _ => innerUnderSession ++ sessionSections 0

/-- The steps that an operation can take. A command of the queue finds the conversation as others,
who do not need `inner`, have left it by then. -/
inductive Takes (s : AuthDomainState W S) : Op W → List (LockStep Mutex) → Prop where
  | beginStart : Takes s (.call .beginStart) (underInner 1)
  | markReady (nowMs : ℕ) : Takes s (.call (.markReady nowMs)) (underInner 0)
  | reportOwnerFailure (error : String) (nowMs : ℕ) :
      Takes s (.call (.reportOwnerFailure error nowMs)) (underInner 1)
  | resetQuarantine : Takes s (.call .resetQuarantine) (underInner 0)
  | tick (nowMs : ℕ) : Takes s (.call (.tick nowMs)) (underInner (tickSections s nowMs))
  | pollActiveHelperEvent (nowMs : ℕ) :
      Takes s (.call (.pollActiveHelperEvent nowMs)) (pollSteps helper s)
  | submitCommand (command : AuthCommand) : Takes s (.call (.submitCommand command)) (underInner 0)
  | setWorld (world : W) : Takes s (.call (.setWorld world)) (sessionSections 0)
  | processPendingCommands (nowMs : ℕ) (ns : List ℕ)
      (h : List.Forall₂ (fun item n => ∃ s' : AuthDomainState W S,
        s'.inner.version.ownerGeneration = s.inner.version.ownerGeneration ∧
          n = itemSections helper s' nowMs item)
        s.inner.queue ns) :
    Takes s (.processPendingCommands nowMs) (underInner ns.sum)

/-! ### Which order they take -/

/-- The operation takes `active_session` while it holds `inner`. -/
def NestsSession (s : AuthDomainState W S) : Op W → Prop
  | .call .beginStart | .call (.reportOwnerFailure ..) | .call (.tick _) => True
  | .processPendingCommands _ => ∃ item ∈ s.inner.queue,
    item.generation = s.inner.version.ownerGeneration ∧ item.command ≠ .resetQuarantine
  | _ => False

/-- The operation takes `inner` while it holds `active_session`. -/
def NestsInner (s : AuthDomainState W S) : Op W → Prop
  | .call (.pollActiveHelperEvent _) => nextEvent helper s ≠ none
  | _ => False

theorem itemSections_ne_zero (s : AuthDomainState W S) (nowMs : ℕ)
    (item : MailboxItem AuthCommand) :
    itemSections helper s nowMs item ≠ 0 ↔
      item.generation = s.inner.version.ownerGeneration ∧ item.command ≠ .resetQuarantine := by
  unfold itemSections
  by_cases hnow : item.generation = s.inner.version.ownerGeneration
  · rw [if_neg (not_not.mpr hnow)]
    cases item.command with
    | beginAuthentication => simp [hnow]; split <;> simp
    | provideResponse | cancelAuthentication | resetQuarantine => simp [hnow]
  · simp [hnow]

/-- **An operation takes the mutexes in one order**: a poll that finds an event in the one, all
others in the other. -/
theorem Takes.shape {helper : AuthHelper W S} {s : AuthDomainState W S} {o : Op W}
    {steps : List (LockStep Mutex)}
    (h : Takes helper s o steps) : Shape (NestsSession s o) (NestsInner helper s o) steps := by
  cases h with
  | beginStart | reportOwnerFailure => exact .nested 1 (by simp [NestsSession]) id
  | markReady | resetQuarantine | submitCommand => exact .nested 0 (by simp [NestsSession]) id
  | setWorld => exact .apart 0 id id
  | tick nowMs =>
    refine .nested _ (iff_of_true trivial ?_) id
    unfold tickSections
    split <;> simp
  | pollActiveHelperEvent nowMs =>
    unfold pollSteps
    split
    · next hnone => exact .apart 1 id (not_not.mpr hnone)
    · next hsome => exact .inverted 1 id (by simp [NestsInner, hsome])
    · next hsome => exact .inverted 0 id (by simp [NestsInner, hsome])
  | processPendingCommands nowMs ns h =>
    refine .nested _ (sum_ne_zero_iff (h.imp ?_)).symm id
    rintro item n ⟨s', hsame, rfl⟩
    rw [itemSections_ne_zero, hsame]

end Shilpo.Auth
