import Shilpo.Polkit.Steps

/-!
# Whom the helper authenticates

A helper is spawned for a user and a cookie, and what the user types goes to it.
`Bound` says that the dialog names the same user, one of those that the authority
offered, and the same cookie.

It holds in every state of a run exactly when each `SelectIdentity` keeps to what the
code takes for granted (`keeps_iff_along`): where the session has a helper already, it
chooses the user that helper was spawned for, since no other is spawned; and where a
helper is spawned, it chooses one of those that were offered, since nobody checks.
-/

namespace Shilpo.Polkit

open Shilpo.Domain Shilpo.Theory PolkitDomainState

universe u v

variable {W : Type u} {S : Type v} {helper : PolkitHelper W S} {s s' : PolkitDomainState W S}

/-! ### The request on display and the session -/

/-- `Q` holds of the request on display and the session, where there is one. -/
def OnDisplay (Q : Option PolkitRequest → ActiveSession S → Prop) (s : PolkitDomainState W S) :
    Prop :=
  ∀ session, s.activeSession = some session → Q s.inner.request session

section OnDisplay

variable {Q : Option PolkitRequest → ActiveSession S → Prop}

theorem OnDisplay.of_none (hsession : s.activeSession = none) : OnDisplay Q s :=
  fun _ hs => nomatch hsession.symm.trans hs

theorem OnDisplay.of_some {session : ActiveSession S} (hsession : s.activeSession = some session)
    (h : Q s.inner.request session) : OnDisplay Q s := by
  intro session' hs
  obtain rfl := Option.some.inj (hsession.symm.trans hs)
  exact h

theorem OnDisplay.of_eq (h : OnDisplay Q s) (hrequest : s'.inner.request = s.inner.request)
    (hsession : s'.activeSession = s.activeSession) : OnDisplay Q s' := by
  intro session hs
  rw [hrequest]
  exact h session (hsession ▸ hs)

end OnDisplay

/-- The request on display is the session's, but for the user selected. -/
def Displayed (s : PolkitDomainState W S) : Prop :=
  OnDisplay (fun shown session => ∃ request, shown = some request ∧
    request.identities = session.request.identities ∧ request.cookie = session.request.cookie) s

/-- **The binding**: the session's helper was spawned for the request on display, and for the user
selected there, who is one of those offered. -/
def Bound (s : PolkitDomainState W S) : Prop :=
  OnDisplay (fun shown session => ∀ spawned, session.helperSession = some spawned →
    ∃ request, shown = some request ∧ SpawnedFor request spawned) s

/-- Every response was written to a helper of the user shown. -/
def WrittenAsShown (s : PolkitDomainState W S) : Prop := ∀ w ∈ s.written, w.shown = some w.username

/-- What a run is to keep: the binding, and that responses go to the user shown. -/
structure Keeps (s : PolkitDomainState W S) : Prop where
  bound : Bound s
  written : WrittenAsShown s

/-! ### The session's request is displayed -/

theorem displayed_opened {request : PolkitRequest} {origin nowMs : ℕ} {spawned : Option (Spawned S)}
    (ho : s.Opened request origin nowMs spawned s') : Displayed s' := by
  cases ho with
  | waiting => exact .of_some rfl ⟨_, rfl, rfl, rfl⟩
  | started spawned r hr =>
    cases hr with
    | quiet | prompt | succeeded => exact .of_some rfl ⟨_, rfl, rfl, rfl⟩
    | failed => exact .of_none rfl

/-- **The request on display stays the session's**, in every reachable state. -/
theorem displayed_micro : Preserved (micro helper) Displayed := by
  intro s u h
  have hm := s.moved helper u
  generalize s.micro helper u = s' at hm ⊢
  cases hm with
  | same _ h' => exact OnDisplay.of_eq h h'.request h'.activeSession
  | closed _ _ h' | dismissed _ _ _ _ h' => exact .of_none h'.activeSession
  | begun _ _ r hb =>
    cases hb with
    | refused => exact .of_none (activeSession_closeSession ..)
    | opened _ _ _ _ _ _ _ _ ho => exact displayed_opened ho
  | selected _ _ _ _ _ hsel =>
    cases hsel with
    | notFound => exact OnDisplay.of_eq h rfl rfl
    | kept => exact .of_some rfl ⟨_, rfl, rfl, rfl⟩
    | refused session hs =>
      have hshown := h session (s.sessionFor_eq_some hs).1
      exact .of_some rfl hshown
    | spawned session hs hnone world spawned hspawn hspawned r hr =>
      cases hr with
      | quiet | prompt | succeeded => exact .of_some rfl ⟨_, rfl, rfl, rfl⟩
      | failed => exact .of_none rfl
  | responded _ _ _ _ _ hres =>
    cases hres with
    | notFound => exact OnDisplay.of_eq h rfl rfl
    | noHelper session hs | unwritten session hs =>
      have hshown := h session hs
      exact .of_some rfl hshown
    | written session hs spawned hspawned world r hr =>
      have hshown := h session hs
      cases hr with
      | quiet | prompt | succeeded => exact .of_some rfl hshown
      | failed => exact .of_none rfl
  | polled _ _ hpoll =>
    cases hpoll with
    | idle => exact h
    | polled session hs spawned hspawned r hr =>
      have hshown := h session hs
      cases hr with
      | quiet | prompt | succeeded => exact .of_some rfl hshown
      | failed => exact .of_none rfl

/-! ### What is written -/

/-- A response goes to the session's helper. -/
theorem written_moved {u : Micro W} (hm : s.Moved helper u s') :
    s'.written = s.written ∨ ∃ session spawned response, s.activeSession = some session ∧
      session.helperSession = some spawned ∧
      s'.written = s.written ++ [s.writtenTo spawned response] := by
  cases hm with
  | same _ h' | closed _ _ h' | dismissed _ _ _ _ h' => exact .inl h'.written
  | begun _ _ r hb =>
    cases hb with
    | refused => exact .inl (by simp [refuse, superseded])
    | opened _ _ _ _ _ _ _ _ ho =>
      have hclosed : (s.superseded helper).written = s.written := by simp [superseded]
      cases ho with
      | waiting => exact .inl hclosed
      | started spawned r hr => cases hr <;> exact .inl hclosed
  | selected _ _ _ _ _ hsel =>
    cases hsel with
    | notFound | kept | refused => exact .inl rfl
    | spawned session hs hnone world spawned hspawn hspawned r hr => cases hr <;> exact .inl rfl
  | responded _ _ _ response _ hres =>
    cases hres with
    | notFound | noHelper => exact .inl rfl
    | unwritten session hs spawned hspawned =>
      exact .inr ⟨session, spawned, response, hs, hspawned, rfl⟩
    | written session hs spawned hspawned world r hr =>
      cases hr <;> exact .inr ⟨session, spawned, response, hs, hspawned, rfl⟩
  | polled _ _ hpoll =>
    cases hpoll with
    | idle => exact .inl rfl
    | polled session hs spawned hspawned r hr => cases hr <;> exact .inl rfl

/-- Where the helper is bound, what is written goes to the user shown. -/
theorem writtenAsShown_micro (h : Keeps s) (u : Micro W) : WrittenAsShown (s.micro helper u) := by
  rcases written_moved (s.moved helper u) with heq | ⟨session, spawned, response, hs, hspawned, heq⟩
  · rw [WrittenAsShown, heq]
    exact h.written
  · obtain ⟨request, hshown, hselected, -⟩ := h.bound session hs spawned hspawned
    intro w hw
    rw [heq, List.mem_append, List.mem_singleton] at hw
    rcases hw with hw | rfl
    · exact h.written w hw
    · simp [writtenTo, hshown, hselected]

/-! ### When the helper stays bound -/

/-- The helper starts for this user, and its first event does not end the conversation. -/
def StartsRunning (helper : PolkitHelper W S) (s : PolkitDomainState W S)
    (cookie username : String) : Prop :=
  ∃ handle world, helper.spawnSession s.world username cookie = (.ok handle, world) ∧
    (helper.tryRecvEvent world handle).1 ≠ some .success ∧
      (helper.tryRecvEvent world handle).1 ≠ some .failure

/-- The choice of the user is the one that the session's helper was spawned for or, where one is
spawned for it, one of those that were offered. -/
def ChoiceKept (helper : PolkitHelper W S) (s : PolkitDomainState W S) (cookie username : String)
    (session : ActiveSession S) : Prop :=
  match session.helperSession with
  | some _ => s.inner.request.bind (·.selectedIdentity) = some username
  | none => StartsRunning helper s cookie username →
      username ∈ session.request.identities.map (·.userName)

/-- Every choice of the user is one that keeps the binding. -/
def ChoicesKept (helper : PolkitHelper W S) (s : PolkitDomainState W S) : Micro W → Prop
  | .item _ ⟨_, .selectIdentity cookie username, generation⟩ =>
    generation = s.inner.ownerGeneration →
    ∀ session, s.sessionFor cookie = some session → ChoiceKept helper s cookie username session
  | _ => True

theorem choicesKept_of_plain {u : Micro W} (hu : s.Plain u) : ChoicesKept helper s u := by
  unfold ChoicesKept
  split
  · exact fun hnow => absurd hnow hu
  · trivial

theorem bound_opened {request : PolkitRequest} {origin nowMs : ℕ} {spawned : Option (Spawned S)}
    (hspawned : ∀ x ∈ spawned, SpawnedFor request x)
    (ho : s.Opened request origin nowMs spawned s') : Bound s' := by
  cases ho with
  | waiting => exact .of_some rfl fun _ hnone => nomatch hnone
  | started spawned r hr =>
    have hfor := hspawned spawned rfl
    cases hr with
    | quiet | prompt => exact .of_some rfl fun x hx => ⟨_, rfl, Option.some.inj hx ▸ hfor⟩
    | succeeded => exact .of_some rfl fun _ hnone => nomatch hnone
    | failed => exact .of_none rfl

theorem startsRunning_iff {cookie username : String} {handle : S} {world : W}
    (hspawn : helper.spawnSession s.world username cookie = (.ok handle, world)) :
    StartsRunning helper s cookie username ↔
      (helper.tryRecvEvent world handle).1 ≠ some .success ∧
        (helper.tryRecvEvent world handle).1 ≠ some .failure := by
  constructor
  · rintro ⟨handle', world', hspawn', hgoes⟩
    obtain ⟨⟨⟩, ⟨⟩⟩ := hspawn.symm.trans hspawn'
    exact hgoes
  · exact fun hgoes => ⟨handle, world, hspawn, hgoes⟩

/-- A session with a helper is bound exactly when that helper was spawned for the request on
display. -/
theorem bound_iff {session : ActiveSession S} (hs : s.activeSession = some session)
    {spawned : Spawned S}
    (hspawned : session.helperSession = some spawned) {request : PolkitRequest}
    (hrequest : s.inner.request = some request) : Bound s ↔ SpawnedFor request spawned := by
  constructor
  · intro hb
    obtain ⟨_, heq, hfor⟩ := hb session hs spawned hspawned
    obtain rfl := Option.some.inj (hrequest.symm.trans heq)
    exact hfor
  · intro hfor
    refine .of_some hs fun x hx => ⟨request, hrequest, ?_⟩
    obtain rfl := Option.some.inj (hspawned.symm.trans hx)
    exact hfor

/-- **A choice keeps the binding exactly when it is the helper's user, or one of those offered.** -/
theorem bound_selected (hd : Displayed s) (h : Bound s) {ticket : ℕ} {cookie username : String}
    {nowMs : ℕ} (hsel : s.Selected helper ticket cookie username nowMs s') :
    Bound s' ↔ ∀ session, s.sessionFor cookie = some session →
      ChoiceKept helper s cookie username session := by
  have forall_sessionFor {session : ActiveSession S} (hs : s.sessionFor cookie = some session) :
      (∀ session, s.sessionFor cookie = some session →
        ChoiceKept helper s cookie username session) ↔
        ChoiceKept helper s cookie username session := by simp [hs]
  cases hsel with
  | notFound hnone =>
    exact iff_of_true (OnDisplay.of_eq h rfl rfl) fun _ hs => nomatch hnone.symm.trans hs
  | kept session hs spawned hspawned =>
    have hactive := (s.sessionFor_eq_some hs).1
    obtain ⟨request, hshown, hselected, hoffered, hfor⟩ := h session hactive spawned hspawned
    obtain ⟨request', hshown', hidentities, hcookie⟩ := hd session hactive
    obtain rfl := Option.some.inj (hshown.symm.trans hshown')
    rw [forall_sessionFor hs, ChoiceKept, hspawned, hshown, Option.bind_some, hselected]
    have hkept : (selected session username nowMs).helperSession = some spawned := hspawned
    refine (bound_iff rfl hkept rfl).trans ⟨fun hb => hb.1.symm, fun hsame => ⟨hsame.symm, ?_, ?_⟩⟩
    · exact hidentities ▸ hoffered
    · exact hfor.trans hcookie
  | refused session hs hnone hfails =>
    refine iff_of_true (.of_some rfl fun x hx => nomatch hnone.symm.trans hx) ?_
    rw [forall_sessionFor hs, ChoiceKept, hnone]
    rintro ⟨handle, world, hspawn, -⟩
    rw [hspawn] at hfails
    cases hfails
  | spawned session hs hnone world spawned hspawn hspawned r hr hevent =>
    have hcookie := (s.sessionFor_eq_some hs).2
    obtain ⟨rfl, hfor, -⟩ := hspawned
    rw [forall_sessionFor hs, ChoiceKept, hnone, startsRunning_iff hspawn, ← hevent]
    have hoffered :
        SpawnedFor { session.request with selectedIdentity := some spawned.username } spawned ↔
        spawned.username ∈ session.request.identities.map (·.userName) :=
      ⟨fun hb => hb.2.1, fun hin => ⟨rfl, hin, hfor.trans hcookie.symm⟩⟩
    cases hr with
    | quiet =>
      rw [forall_prop_of_true (by simp)]
      exact (bound_iff rfl rfl rfl).trans hoffered
    | prompt world' event hgoes =>
      rw [forall_prop_of_true (by simpa using hgoes)]
      exact (bound_iff rfl rfl rfl).trans hoffered
    | succeeded =>
      exact iff_of_true (.of_some rfl fun _ hx => nomatch hx) fun hgoes => absurd rfl hgoes.1
    | failed => exact iff_of_true (.of_none rfl) fun hgoes => absurd rfl hgoes.2

theorem bound_responded (h : Bound s) {ticket : ℕ} {cookie response : String} {nowMs : ℕ}
    (hres : s.Responded ticket cookie response nowMs s') : Bound s' := by
  cases hres with
  | notFound => exact OnDisplay.of_eq h rfl rfl
  | noHelper session hs | unwritten session hs =>
    have hbound := h session hs
    exact .of_some rfl hbound
  | written session hs spawned hspawned world r hr =>
    have hbound := h session hs
    cases hr with
    | quiet | prompt => exact .of_some rfl hbound
    | succeeded => exact .of_some rfl fun _ hx => nomatch hx
    | failed => exact .of_none rfl

theorem bound_polled (h : Bound s) {nowMs : ℕ}
    {r : Option HelperEvent × Bool × PolkitDomainState W S}
    (hpoll : s.Polled nowMs r) : Bound (if r.2.1 then r.2.2.dropSession else r.2.2) := by
  cases hpoll with
  | idle => exact h
  | polled session hs spawned hspawned r hr =>
    have hbound := h session hs
    cases hr with
    | quiet | prompt => exact .of_some rfl hbound
    | succeeded => exact .of_some rfl fun _ hx => nomatch hx
    | failed => exact .of_none rfl

theorem bound_micro (hd : Displayed s) (h : Bound s) (u : Micro W) :
    Bound (s.micro helper u) ↔ ChoicesKept helper s u := by
  have hm := s.moved helper u
  generalize s.micro helper u = s' at hm ⊢
  cases hm with
  | same hu h' =>
    exact iff_of_true (OnDisplay.of_eq h h'.request h'.activeSession) (choicesKept_of_plain hu)
  | closed hu _ h' | dismissed hu _ _ _ h' =>
    exact iff_of_true (.of_none h'.activeSession) (choicesKept_of_plain hu)
  | begun _ _ r hb =>
    refine iff_of_true ?_ trivial
    cases hb with
    | refused => exact .of_none (activeSession_closeSession ..)
    | opened _ _ _ _ _ _ hspawned _ ho => exact bound_opened (fun x hx => (hspawned x hx).1) ho
  | selected _ _ _ _ _ hsel =>
    rw [ChoicesKept, forall_prop_of_true rfl]
    exact bound_selected hd h hsel
  | responded _ _ _ _ _ hres => exact iff_of_true (bound_responded h hres) trivial
  | polled _ _ hpoll => exact iff_of_true (bound_polled h hpoll) trivial

/-- **One step keeps the binding exactly when it keeps to the choices that the code takes for
granted.** -/
theorem keeps_micro (hd : Displayed s) (h : Keeps s) (u : Micro W) :
    Keeps (s.micro helper u) ↔ ChoicesKept helper s u :=
  ⟨fun hk => (bound_micro hd h.bound u).mp hk.bound,
    fun hc => ⟨(bound_micro hd h.bound u).mpr hc, writtenAsShown_micro h u⟩⟩

/-- **In every state of a run the helper is bound to the request on display, and no response has
gone to another user's, exactly when every choice of the user keeps the binding**; then so it is
after every operation. -/
theorem keeps_iff_along (helper : PolkitHelper W S) (capacity : ℕ) (world : W)
    (inactivityTimeoutMs : ℕ) (ops : List (Op W)) :
    let init := new helper capacity world inactivityTimeoutMs
    let parts := expand (step helper) unfold init ops
    (Always (micro helper) Keeps init parts ↔
      Along (micro helper) (ChoicesKept helper) init parts) ∧
      (Along (micro helper) (ChoicesKept helper) init parts →
        Always (step helper) Keeps init ops) := by
  intro init parts
  have hnew : Keeps init := ⟨.of_none rfl, by simp [WrittenAsShown, init, new]⟩
  have hiff : Always (micro helper) Keeps init parts ↔
      Along (micro helper) (ChoicesKept helper) init parts :=
    always_iff_along displayed_micro (fun _ u hd hk => keeps_micro hd hk u) (.of_none rfl) hnew
      parts
  exact ⟨hiff, fun hc => always_of_expand (step_eq_run_unfold helper) (hiff.mpr hc)⟩

/-! ### A secret for another user -/

/-- The user chooses `alice`, thinks better of it and chooses `bob`, and answers. -/
def chosenAnew : List (Op (List HelperEvent)) := [
  .call .beginStart, .call (.markReady 1),
  .call (.beginAuthentication (.asking "first" ["alice", "bob"]) 2),
  .call (.enqueueCommand (.selectIdentity "first" "alice")), .processPendingCommands 3,
  .call (.enqueueCommand (.selectIdentity "first" "bob")), .processPendingCommands 4,
  .call (.enqueueCommand (.provideResponse "first" "secret")), .processPendingCommands 5]

/-- **A secret goes to another user's helper**: the dialog shows `bob`, the helper authenticates
`alice`. -/
theorem secret_for_another_user :
    let s := run (step scriptedHelper) (new scriptedHelper 8 [] 120000) chosenAnew
    s.snapshot.request.bind (·.selectedIdentity) = some "bob" ∧
      s.activeSession.bind (fun session => session.helperSession.map (·.username)) = some "alice" ∧
      s.written = [⟨"secret", "alice", some "bob"⟩] ∧ ¬ Keeps s := by
  refine ⟨by decide, by decide, by decide, ?_⟩
  intro h
  exact absurd (h.written ⟨"secret", "alice", some "bob"⟩ (by decide)) (by decide)

end Shilpo.Polkit
