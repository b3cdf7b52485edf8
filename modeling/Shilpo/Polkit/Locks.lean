import Shilpo.Polkit.State
import Shilpo.Domain.Mutex

/-!
# How the PolicyKit agent takes its mutexes

`Takes` is, for each operation in a state, the sequence in which it acquires and
releases `inner` and `active_session`. Two operations begin with `active_session` and
may take `inner` while they hold it: `poll_active_helper_event` where the session's
helper has an event, and `cancel_authentication` where the session has the cookie.
-/

namespace Shilpo.Polkit

open Shilpo.Domain Shilpo.Theory PolkitDomainState

universe u v

variable {W : Type u} {S : Type v} (helper : PolkitHelper W S)

/-! ### The steps of the operations -/

/-- How often `tick` takes `active_session`: once to see what is due, and once for what is. -/
def tickSections (s : PolkitDomainState W S) (nowMs : ℕ) : ℕ :=
  match s.activeSession.bind fun session =>
    due s.inactivityTimeoutMs session.completedAtMs session.lastInteractionMs nowMs with
  | some _ => 2
  | none => 1

/-- How often `begin_authentication` takes `active_session`: once to close the session, and once to
set a new one. -/
def beginSections (s : PolkitDomainState W S) (request : PolkitRequest) (nowMs : ℕ) : ℕ :=
  if (s.beginAuthentication helper request nowMs).2.activeSession.isSome then 2 else 1

/-- How often a command of the queue takes `active_session`: a session that fails is cleared in a
section of its own. -/
def itemSections (s : PolkitDomainState W S) (nowMs : ℕ) (item : MailboxItem PolkitCommand) : ℕ :=
  if item.generation ≠ s.inner.ownerGeneration then 0
  else
    match item.command with
    | .markNextRequestInternal => 0
    | .selectIdentity cookie _ | .provideResponse cookie _ =>
      if (s.sessionFor cookie).isSome ∧ (s.applyItem helper nowMs item).activeSession.isNone
        then 2 else 1
    | .cancel _ | .dismiss => 1

/-- The event that a poll finds. -/
def nextEvent (s : PolkitDomainState W S) : Option HelperEvent :=
  s.activeSession.bind fun session => session.helperSession.bind fun spawned =>
    (helper.tryRecvEvent s.world spawned.handle).1

/-- The steps of `poll_active_helper_event`: a failure is cleared in a section of its own. -/
def pollSteps (s : PolkitDomainState W S) : List (LockStep Mutex) :=
  match nextEvent helper s with
  | none => sessionSections 1
  | some .failure => innerUnderSession ++ sessionSections 1
  | some _ => innerUnderSession ++ sessionSections 0

/-- The steps of `cancel_authentication`. -/
def cancelSteps (s : PolkitDomainState W S) (cookie : String) : List (LockStep Mutex) :=
  match s.sessionFor cookie with
  | none => sessionSections 1
  | some _ => innerUnderSession ++ sessionSections 0

/-- The steps that an operation can take. A command of the queue finds the conversation as others,
who do not need `inner`, have left it by then. -/
inductive Takes (s : PolkitDomainState W S) : Op W → List (LockStep Mutex) → Prop where
  | beginStart : Takes s (.call .beginStart) (underInner 0)
  | markReady (nowMs : ℕ) : Takes s (.call (.markReady nowMs)) (underInner 0)
  | reportOwnerFailure (error : String) (nowMs : ℕ) :
      Takes s (.call (.reportOwnerFailure error nowMs)) (underInner 0)
  | resetQuarantine : Takes s (.call .resetQuarantine) (underInner 0)
  | shutdown : Takes s (.call .shutdown) (underInner 1)
  | tick (nowMs : ℕ) : Takes s (.call (.tick nowMs)) (underInner (tickSections s nowMs))
  | beginAuthentication (request : PolkitRequest) (nowMs : ℕ) :
    Takes s (.call (.beginAuthentication request nowMs))
      (underInner (beginSections helper s request nowMs))
  | cancelAuthentication (cookie : String) :
      Takes s (.call (.cancelAuthentication cookie)) (cancelSteps s cookie)
  | enqueueCommand (command : PolkitCommand) :
      Takes s (.call (.enqueueCommand command)) (underInner 0)
  | setWorld (world : W) : Takes s (.call (.setWorld world)) (sessionSections 0)
  | processPendingCommands (nowMs : ℕ) (ns : List ℕ)
      (h : List.Forall₂ (fun item n => ∃ s' : PolkitDomainState W S,
        s'.inner.ownerGeneration = s.inner.ownerGeneration ∧ n = itemSections helper s' nowMs item)
        s.inner.queue ns) :
    Takes s (.processPendingCommands nowMs) (underInner ns.sum)
  | pollActiveHelperEvent (nowMs : ℕ) : Takes s (.pollActiveHelperEvent nowMs) (pollSteps helper s)

/-! ### Which order they take -/

/-- The operation takes `active_session` while it holds `inner`. -/
def NestsSession (s : PolkitDomainState W S) : Op W → Prop
  | .call .shutdown | .call (.tick _) | .call (.beginAuthentication ..) => True
  | .processPendingCommands _ => ∃ item ∈ s.inner.queue,
    item.generation = s.inner.ownerGeneration ∧ item.command ≠ .markNextRequestInternal
  | _ => False

/-- The operation takes `inner` while it holds `active_session`. -/
def NestsInner (s : PolkitDomainState W S) : Op W → Prop
  | .pollActiveHelperEvent _ => nextEvent helper s ≠ none
  | .call (.cancelAuthentication cookie) => s.sessionFor cookie ≠ none
  | _ => False

theorem itemSections_ne_zero (s : PolkitDomainState W S) (nowMs : ℕ)
    (item : MailboxItem PolkitCommand) :
    itemSections helper s nowMs item ≠ 0 ↔
      item.generation = s.inner.ownerGeneration ∧ item.command ≠ .markNextRequestInternal := by
  obtain ⟨ticket, command, generation⟩ := item
  unfold itemSections
  by_cases hnow : generation = s.inner.ownerGeneration
  · rw [if_neg (not_not.mpr hnow)]
    cases command with
    | selectIdentity | provideResponse => simp only; split <;> simp [hnow]
    | markNextRequestInternal | cancel | dismiss => simp [hnow]
  · simp [hnow]

/-- **An operation takes the mutexes in one order**: a poll that finds an event and a cancellation
that finds its session in the one, all others in the other. -/
theorem Takes.shape {helper : PolkitHelper W S} {s : PolkitDomainState W S} {o : Op W}
    {steps : List (LockStep Mutex)} (h : Takes helper s o steps) :
    Shape (NestsSession s o) (NestsInner helper s o) steps := by
  cases h with
  | beginStart | markReady | reportOwnerFailure | resetQuarantine | enqueueCommand =>
    exact .nested 0 (by simp [NestsSession]) id
  | shutdown => exact .nested 1 (by simp [NestsSession]) id
  | setWorld => exact .apart 0 id id
  | tick nowMs =>
    refine .nested _ (iff_of_true trivial ?_) id
    unfold tickSections
    split <;> simp
  | beginAuthentication request nowMs =>
    refine .nested _ (iff_of_true trivial ?_) id
    unfold beginSections
    split <;> simp
  | cancelAuthentication cookie =>
    unfold cancelSteps
    split
    · next hnone => exact .apart 1 id (not_not.mpr hnone)
    · next hsome => exact .inverted 0 id (by simp [NestsInner, hsome])
  | pollActiveHelperEvent nowMs =>
    unfold pollSteps
    split
    · next hnone => exact .apart 1 id (not_not.mpr hnone)
    · next hsome => exact .inverted 1 id (by simp [NestsInner, hsome])
    · next hsome => exact .inverted 0 id (by simp [NestsInner, hsome])
  | processPendingCommands nowMs ns h =>
    refine .nested _ (sum_ne_zero_iff (h.imp ?_)).symm id
    rintro item n ⟨s', hsame, rfl⟩
    rw [itemSections_ne_zero, hsame]

end Shilpo.Polkit
