import Shilpo.Polkit.Steps

/-!
# The dialog and the session

The request on display is under the mutex `inner`, the session and its own copy of
the request beside it. `Agrees` says that the two are one. Two paths of errors part
them: `begin_authentication` closes the running session and then returns early,
leaving its request on display (`failed_begin_leaves_request`), and `SelectIdentity`
rewrites the session's copy only, where the helper cannot be spawned.

`dialog_agrees_iff_along` says when a run keeps them together: exactly when neither path is
taken where it makes a difference.
-/

namespace Shilpo.Polkit

open Shilpo.Domain Shilpo.Theory PolkitDomainState

universe u v

variable {W : Type u} {S : Type v} {helper : PolkitHelper W S} {s s' : PolkitDomainState W S}

/-! ### The agreement -/

/-- **The agreement**: the request on display is the session's, and a prompt is shown only for
one. -/
structure Agrees (s : PolkitDomainState W S) : Prop where
  request : s.inner.request = s.activeSession.map (·.request)
  prompt : s.inner.promptState.isSome → s.activeSession.isSome

/-- Nothing on display, and no session. -/
theorem Agrees.of_none (hrequest : s.inner.request = none) (hprompt : s.inner.promptState = none)
    (hsession : s.activeSession = none) : Agrees s :=
  ⟨by simp [hrequest, hsession], by simp [hprompt]⟩

/-- A session whose request is on display. -/
theorem Agrees.of_some {session : ActiveSession S} (hsession : s.activeSession = some session)
    (hrequest : s.inner.request = some session.request) : Agrees s :=
  ⟨by simp [hrequest, hsession], by simp [hsession]⟩

/-- The dialog and the session are as they were. -/
theorem Agrees.of_eq (h : Agrees s) (hrequest : s'.inner.request = s.inner.request)
    (hprompt : s'.inner.promptState = s.inner.promptState)
    (hsession : s'.activeSession = s.activeSession) :
    Agrees s' :=
  ⟨by rw [hrequest, hsession]; exact h.request, by rw [hprompt, hsession]; exact h.prompt⟩

theorem Agrees.request_of_some (h : Agrees s) {session : ActiveSession S}
    (hs : s.activeSession = some session) :
    s.inner.request = some session.request := by rw [h.request, hs]; rfl

/-! ### Operations -/

/-- A new request is shown with its session, or neither is left. -/
theorem agrees_opened {request : PolkitRequest} {origin nowMs : ℕ} {spawned : Option (Spawned S)}
    (ho : s.Opened request origin nowMs spawned s') : Agrees s' := by
  cases ho with
  | waiting => exact .of_some rfl rfl
  | started spawned r hr =>
    cases hr with
    | quiet | prompt | succeeded => exact .of_some rfl rfl
    | failed => exact .of_none rfl rfl rfl

/-- **A begin that fails leaves what it closed on display.** -/
theorem agrees_begun (h : Agrees s) {request : PolkitRequest} {nowMs : ℕ}
    {r : Except String Unit × PolkitDomainState W S} (hb : s.Begun helper request nowMs r) :
    Agrees r.2 ↔ (s.BeginFails helper request → s.activeSession = none) := by
  cases hb with
  | opened hbegins _ _ _ _ _ _ _ ho =>
    exact iff_of_true (agrees_opened ho) fun hfails => absurd hfails hbegins
  | refused hfails world message =>
    generalize hs' : ({ s.superseded helper with world := world }.refuse s.handed message).2 = s'
    have hsession : s'.activeSession = none := by simp [← hs', refuse, superseded]
    have hrequest : s'.inner.request = s.inner.request := by simp [← hs', refuse, superseded]
    have hprompt : s'.inner.promptState = s.inner.promptState := by simp [← hs', refuse, superseded]
    constructor
    · intro ha _
      have hnone := ha.request
      rw [hsession, hrequest, h.request] at hnone
      simpa using hnone
    · intro hnone
      refine .of_none (by rw [hrequest, h.request, hnone hfails]; rfl) ?_ hsession
      rw [hprompt, ← Option.not_isSome_iff_eq_none]
      intro hshown
      simpa [hnone hfails] using h.prompt hshown

/-- `SelectIdentity` for a user whose helper does not start. -/
def SelectFails (helper : PolkitHelper W S) (s : PolkitDomainState W S) (cookie username : String)
    (session : ActiveSession S) : Prop :=
  s.sessionFor cookie = some session ∧ session.helperSession = none ∧
    (helper.spawnSession s.world username cookie).1.toBool = false

/-- **A choice that fails is the session's, and not on display.** -/
theorem agrees_selected (h : Agrees s) {ticket : ℕ} {cookie username : String} {nowMs : ℕ}
    (hsel : s.Selected helper ticket cookie username nowMs s') :
    Agrees s' ↔ ∀ session, SelectFails helper s cookie username session →
      session.request.selectedIdentity = some username := by
  cases hsel with
  | notFound hnone =>
    refine iff_of_true (h.of_eq rfl rfl rfl) ?_
    intro session hf
    have hsome := hf.1
    rw [hnone] at hsome
    cases hsome
  | kept session hs spawned hspawned =>
    refine iff_of_true (.of_some rfl rfl) ?_
    intro session' hf
    obtain rfl := Option.some.inj (hs.symm.trans hf.1)
    have hnone := hf.2.1
    rw [hspawned] at hnone
    cases hnone
  | refused session hs hnone hfails world message =>
    have hshown := h.request_of_some (s.sessionFor_eq_some hs).1
    constructor
    · intro ha session' hf
      obtain rfl := Option.some.inj (hs.symm.trans hf.1)
      have heq := ha.request
      simp only [resolve, hshown, selected, Option.map_some, Option.some.injEq] at heq
      rw [heq]
    · intro hsame
      have heq := hsame session ⟨hs, hnone, hfails⟩
      refine .of_some rfl ?_
      simp only [resolve, selected, hshown, Option.some.injEq]
      rw [← heq]
  | spawned session hs hnone world spawned hspawn hspawned r hr =>
    constructor
    · intro _ session' hf
      have hfails := hf.2.2
      rw [hspawn] at hfails
      cases hfails
    · intro _
      cases hr with
      | quiet | prompt | succeeded => exact .of_some rfl rfl
      | failed => exact .of_none rfl rfl rfl

theorem agrees_responded (h : Agrees s) {ticket : ℕ} {cookie response : String} {nowMs : ℕ}
    (hres : s.Responded ticket cookie response nowMs s') : Agrees s' := by
  cases hres with
  | notFound => exact h.of_eq rfl rfl rfl
  | noHelper session hs | unwritten session hs =>
    have hshown := h.request_of_some hs
    exact .of_some rfl hshown
  | written session hs spawned hspawned world r hr =>
    have hshown := h.request_of_some hs
    cases hr with
    | quiet | prompt | succeeded => exact .of_some rfl hshown
    | failed => exact .of_none rfl rfl rfl

theorem agrees_polled (h : Agrees s) {nowMs : ℕ}
    {r : Option HelperEvent × Bool × PolkitDomainState W S}
    (hpoll : s.Polled nowMs r) : Agrees (if r.2.1 then r.2.2.dropSession else r.2.2) := by
  cases hpoll with
  | idle => exact h
  | polled session hs spawned hspawned r hr =>
    have hshown := h.request_of_some hs
    cases hr with
    | quiet | prompt | succeeded => exact .of_some rfl hshown
    | failed => exact .of_none rfl rfl rfl

/-! ### When a run keeps the agreement -/

/-- No request is superseded by one that cannot begin, and no user is chosen for whom no helper
starts. -/
def NothingLeft (helper : PolkitHelper W S) (s : PolkitDomainState W S) : Micro W → Prop
  | .call (.beginAuthentication request _) => s.BeginFails helper request → s.activeSession = none
  | .item _ ⟨_, .selectIdentity cookie username, generation⟩ =>
    generation = s.inner.ownerGeneration → ∀ session, SelectFails helper s cookie username session →
      session.request.selectedIdentity = some username
  | _ => True

theorem nothingLeft_of_plain {u : Micro W} (hu : s.Plain u) : NothingLeft helper s u := by
  unfold NothingLeft
  split
  · cases hu
  · exact fun hnow => absurd hnow hu
  · trivial

/-- **One step parts the dialog and the session exactly when it leaves something of what has
failed.** -/
theorem agrees_micro (h : Agrees s) (u : Micro W) :
    Agrees (s.micro helper u) ↔ NothingLeft helper s u := by
  have hm := s.moved helper u
  generalize s.micro helper u = s' at hm ⊢
  cases hm with
  | same hu h' =>
    exact iff_of_true (h.of_eq h'.request h'.promptState h'.activeSession)
      (nothingLeft_of_plain hu)
  | closed hu _ h' | dismissed hu _ _ _ h' =>
    exact iff_of_true (.of_none h'.request h'.promptState h'.activeSession)
      (nothingLeft_of_plain hu)
  | begun request nowMs r hb => exact agrees_begun h hb
  | selected nowMs ticket cookie username s' hsel =>
    rw [NothingLeft, forall_prop_of_true rfl]
    exact agrees_selected h hsel
  | responded nowMs ticket cookie response s' hres =>
    exact iff_of_true (agrees_responded h hres) trivial
  | polled nowMs r hpoll => exact iff_of_true (agrees_polled h hpoll) trivial

/-- **Every state of a run agrees exactly when nothing of what has failed is left**; then so does
the state after every operation. -/
theorem dialog_agrees_iff_along (helper : PolkitHelper W S) (capacity : ℕ) (world : W)
    (inactivityTimeoutMs : ℕ) (ops : List (Op W)) :
    let init := new helper capacity world inactivityTimeoutMs
    let parts := expand (step helper) unfold init ops
    (Always (micro helper) Agrees init parts ↔
      Along (micro helper) (NothingLeft helper) init parts) ∧
      (Along (micro helper) (NothingLeft helper) init parts →
        Always (step helper) Agrees init ops) := by
  intro init parts
  have hiff : Always (micro helper) Agrees init parts ↔
      Along (micro helper) (NothingLeft helper) init parts :=
    always_iff_along (I := fun _ => True) (fun _ _ _ => trivial)
      (fun _ u _ ha => agrees_micro ha u) trivial
      (.of_none rfl rfl rfl) parts
  exact ⟨hiff, fun hc => always_of_expand (step_eq_run_unfold helper) (hiff.mpr hc)⟩

/-! ### A request left on display -/

/-- A request of one user, superseded by one that names nobody. -/
def supersededByNobody : List (Op (List HelperEvent)) := [
  .call .beginStart, .call (.markReady 1),
  .call (.beginAuthentication (.asking "first" ["alice"]) 2),
  .call (.beginAuthentication (.asking "second" []) 3)]

/-- **A failed begin leaves a stale request**: the killed session's request and its prompt are still
shown. -/
theorem failed_begin_leaves_request :
    let s := run (step scriptedHelper) (new scriptedHelper 8 [] 120000) supersededByNobody
    s.activeSession.isNone ∧ s.snapshot.request.map (·.cookie) = some "first" ∧
      s.snapshot.promptState.isSome ∧
      ¬ Agrees s := by
  refine ⟨by decide, by decide, by decide, ?_⟩
  intro h
  have hprompt := h.prompt (by decide)
  exact absurd hprompt (by decide)

end Shilpo.Polkit
