import Shilpo.Polkit.State

/-!
# What the agent's operations can do

Closing a session, beginning one, choosing its user and answering its helper: for each,
all that it can leave, case by case. The properties of runs are read off these, and
none unfolds an operation again.
-/

namespace Shilpo.Polkit

open Shilpo.Domain

universe u v

namespace PolkitDomainState

variable {W : Type u} {S : Type v} (helper : PolkitHelper W S) (s : PolkitDomainState W S)

/-! ### Closing a session -/

section Close

variable (reason : String)

@[simp] theorem inner_closeSession : (s.closeSession helper reason).inner = s.inner := by
  unfold closeSession; split <;> rfl

@[simp] theorem handed_closeSession : (s.closeSession helper reason).handed = s.handed := by
  unfold closeSession; split <;> rfl

@[simp] theorem reports_closeSession : (s.closeSession helper reason).reports = s.reports := by
  unfold closeSession; split <;> rfl

@[simp] theorem written_closeSession : (s.closeSession helper reason).written = s.written := by
  unfold closeSession; split <;> rfl

@[simp] theorem activeSession_closeSession :
    (s.closeSession helper reason).activeSession = none := by
  unfold closeSession; split <;> simp_all

@[simp] theorem sent_closeSession : (s.closeSession helper reason).sent =
    s.sent ++ s.activeSession.elim [] (·.complete (.error reason)) := by
  unfold closeSession; split <;> simp_all

end Close

theorem sessionFor_eq_some {cookie : String} {session : ActiveSession S}
    (h : s.sessionFor cookie = some session) :
    s.activeSession = some session ∧ session.request.cookie = cookie := by
  simpa [sessionFor, Option.filter_eq_some_iff] using h

/-! ### Beginning a session -/

/-- The request is shown. -/
def showing (request : PolkitRequest) : PolkitDomainState W S :=
  { s with
    inner := { s.inner with
      request := some request
      promptState := some .default } }.bumpRevision

/-- How a session opens after its helper has been asked for a first event. -/
def showOpened : Option (HelperEvent × EventOutcome) × PolkitDomainState W S → PolkitDomainState W S
  | (none, s) => s.publishSnapshot
  | (some (_, .failed), s) => s.bumpRevision.dropSession.publishSnapshot
  | (some _, s) => s.bumpRevision.publishSnapshot

/-- What opening a session can leave. -/
inductive Opened (request : PolkitRequest) (origin nowMs : ℕ) :
    Option (Spawned S) → PolkitDomainState W S → Prop where
  | waiting : Opened request origin nowMs none
      { s.showing request with
        activeSession := some ⟨request, none, some origin, nowMs, none, origin⟩ }.publishSnapshot
  | started (spawned : Spawned S) (r : Option (HelperEvent × EventOutcome) × PolkitDomainState W S)
      (hr : Pumped (s.showing request)
        ⟨request, some spawned, some origin, nowMs, none, origin⟩ spawned nowMs r) :
    Opened request origin nowMs (some spawned) (showOpened r)

theorem openSession_spec (request : PolkitRequest) (spawned : Option (Spawned S))
    (origin nowMs : ℕ) :
    s.Opened request origin nowMs spawned (s.openSession helper request spawned origin nowMs) := by
  cases spawned with
  | none => exact .waiting
  | some spawned =>
    have hp := pumped helper (s.showing request)
      ⟨request, some spawned, some origin, nowMs, none, origin⟩ spawned nowMs
    have hfound := Opened.started spawned _ hp
    simp only [openSession]
    simp only [showing] at hp hfound
    generalize pumpEvent helper _ _ _ _ = r at hp hfound ⊢
    cases hp <;> exact hfound

/-- The state in which `begin_authentication` turns to the new request: the running session is
closed. -/
def superseded : PolkitDomainState W S :=
  { s with
    handed := s.handed + 1
    inner := { s.inner with markNextInternal := false } }.closeSession helper
    "Superseded by new authentication request"

/-- A request that cannot begin: it names nobody, or one user for whom no helper starts. -/
def BeginFails (request : PolkitRequest) : Prop :=
  match request.identities with
  | [] => True
  | [identity] =>
    (helper.spawnSession (s.superseded helper).world identity.userName request.cookie).1.toBool =
      false
  | _ => False

/-- The helper that a request with a single user starts with. -/
def SpawnedFor (request : PolkitRequest) (spawned : Spawned S) : Prop :=
  request.selectedIdentity = some spawned.username ∧
    spawned.username ∈ request.identities.map (·.userName) ∧ spawned.cookie = request.cookie

/-- What `begin_authentication` can leave. -/
inductive Begun (request : PolkitRequest) (nowMs : ℕ) :
    Except String Unit × PolkitDomainState W S → Prop where
  | refused (hfails : s.BeginFails helper request) (world : W) (message : String) :
    Begun request nowMs ({ s.superseded helper with world := world }.refuse s.handed message)
  | opened (hbegins : ¬ s.BeginFails helper request) (world : W) (shown : PolkitRequest)
      (spawned : Option (Spawned S)) (hcookie : shown.cookie = request.cookie)
      (hidentities : shown.identities = request.identities)
      (hspawned : ∀ x ∈ spawned, SpawnedFor shown x ∧ x.origin = s.handed)
      (s' : PolkitDomainState W S)
      (h : { s.superseded helper with world := world }.Opened shown s.handed nowMs spawned s') :
    Begun request nowMs (.ok (), s')

theorem begun (request : PolkitRequest) (nowMs : ℕ) :
    s.Begun helper request nowMs (s.beginAuthentication helper request nowMs) := by
  unfold beginAuthentication
  extract_lets origin marked g s₁ s₂
  have hmarked : marked.cookie = request.cookie ∧ marked.identities = request.identities := by
    unfold marked; split <;> exact ⟨rfl, rfl⟩
  obtain ⟨hcookie, hidentities⟩ := hmarked
  have hs₂ : s₂ = s.superseded helper := rfl
  clear_value marked s₂
  subst hs₂
  split
  · next identity hone =>
    simp only
    split
    · next handle world hspawn =>
      rw [hcookie] at hspawn
      refine .opened ?_ world { marked with selectedIdentity := some identity.userName } _ hcookie
        hidentities ?_ _ (openSession_spec ..)
      · simp [BeginFails, ← hidentities, hone, hspawn, Except.toBool]
      · rintro x ⟨⟩
        exact ⟨⟨rfl, by simp [hone], rfl⟩, rfl⟩
    · next err world hspawn =>
      rw [hcookie] at hspawn
      exact .refused (by simp [BeginFails, ← hidentities, hone, hspawn, Except.toBool]) world _
  · next hnone =>
    exact .refused (by simp [BeginFails, ← hidentities, hnone]) (s.superseded helper).world _
  · next hone hnone =>
    refine .opened ?_ (s.superseded helper).world marked none hcookie hidentities
      (by simp) _
      (openSession_spec ..)
    intro hfails
    rw [hidentities] at hone hnone
    unfold BeginFails at hfails
    split at hfails
    · next h => exact hnone h
    · next identity h => exact hone identity h
    · exact hfails

/-! ### Choosing the user -/

/-- The event that is applied is the helper's next one. -/
theorem pumpEvent_event (session : ActiveSession S) (spawned : Spawned S) (nowMs : ℕ) :
    (s.pumpEvent helper session spawned nowMs).1.map Prod.fst =
      (helper.tryRecvEvent s.world spawned.handle).1 := by
  unfold pumpEvent recvEvent
  split
  · next heq => simp_all
  · next heq => simp_all

/-- The session as `SelectIdentity` leaves it, but for its helper. -/
def selected (session : ActiveSession S) (username : String) (nowMs : ℕ) : ActiveSession S :=
  { session with
    lastInteractionMs := nowMs
    request := { session.request with selectedIdentity := some username } }

/-- `SelectIdentity` after its helper has been spawned and asked for a first event. -/
def showSelected (request : PolkitRequest) (ticket : ℕ) :
    Option (HelperEvent × EventOutcome) × PolkitDomainState W S → PolkitDomainState W S
  | (none, s) => s.showRequest request ticket
  | (some (_, .failed), s) =>
    (s.bumpRevision.dropSession.resolve ticket
      (.applied (version s.bumpRevision.inner))).publishSnapshot
  | (some _, s) => s.bumpRevision.showRequest request ticket

/-- What `SelectIdentity` can leave. -/
inductive Selected (ticket : ℕ) (cookie username : String) (nowMs : ℕ) :
    PolkitDomainState W S → Prop where
  | notFound (hnone : s.sessionFor cookie = none) :
    Selected ticket cookie username nowMs (s.resolve ticket (.rejected .notFound))
  | kept (session : ActiveSession S) (hs : s.sessionFor cookie = some session) (spawned : Spawned S)
      (hspawned : session.helperSession = some spawned) :
    Selected ticket cookie username nowMs
      ({ s with activeSession := some (selected session username nowMs) }.showRequest
        { session.request with selectedIdentity := some username } ticket)
  | refused (session : ActiveSession S) (hs : s.sessionFor cookie = some session)
      (hnone : session.helperSession = none)
      (hfails : (helper.spawnSession s.world username cookie).1.toBool = false) (world : W)
      (message : String) :
    Selected ticket cookie username nowMs ({ s with
      world := world
      inner := { s.inner with lastError := some message }
      activeSession := some { selected session username nowMs with completionTx := none }
      sent := s.sent ++ session.complete (.error message) }.resolve ticket
        (.rejected .invalidState))
  | spawned (session : ActiveSession S) (hs : s.sessionFor cookie = some session)
      (hnone : session.helperSession = none) (world : W) (spawned : Spawned S)
      (hspawn : helper.spawnSession s.world username cookie = (.ok spawned.handle, world))
      (hspawned : spawned.username = username ∧ spawned.cookie = cookie ∧
        spawned.origin = session.origin)
      (r : Option (HelperEvent × EventOutcome) × PolkitDomainState W S)
      (hr : Pumped { s with world := world }
        { selected session username nowMs with helperSession := some spawned } spawned nowMs r)
      (hevent : r.1.map Prod.fst = (helper.tryRecvEvent world spawned.handle).1) :
    Selected ticket cookie username nowMs
      (showSelected { session.request with selectedIdentity := some username } ticket r)

theorem selectIdentity_spec (ticket : ℕ) (cookie username : String) (nowMs : ℕ) :
    s.Selected helper ticket cookie username nowMs
      (s.selectIdentity helper ticket cookie username nowMs) := by
  unfold selectIdentity
  split
  · next hnone => exact .notFound hnone
  · next session hs =>
    simp only
    split
    · next spawned hspawned => exact .kept session hs spawned hspawned
    · next hnone =>
      split
      · next err world hspawn =>
          exact .refused session hs hnone (by simp [hspawn, Except.toBool]) world _
      · next handle world hspawn =>
        have hp := pumped helper { s with world := world }
          { selected session username nowMs with
            helperSession := some ⟨handle, username, cookie, session.origin⟩ }
          ⟨handle, username, cookie, session.origin⟩ nowMs
        have hevent := pumpEvent_event helper { s with world := world }
          { selected session username nowMs with
            helperSession := some ⟨handle, username, cookie, session.origin⟩ }
          ⟨handle, username, cookie, session.origin⟩ nowMs
        have hfound : s.Selected helper ticket cookie username nowMs
            (showSelected { session.request with selectedIdentity := some username } ticket _) :=
          .spawned session hs hnone world _ hspawn ⟨rfl, rfl, rfl⟩ _ hp hevent
        simp only [selected] at hp hfound ⊢
        generalize pumpEvent helper _ _ _ _ = r at hp hfound ⊢
        cases hp <;> exact hfound

/-! ### Answering the helper -/

/-- A response that goes to a helper, beside the identity on display. -/
def writtenTo (spawned : Spawned S) (response : String) : Written :=
  ⟨response, spawned.username, s.inner.request.bind (·.selectedIdentity)⟩

/-- What `ProvideResponse` can leave. -/
inductive Responded (ticket : ℕ) (cookie response : String) (nowMs : ℕ) :
    PolkitDomainState W S → Prop where
  | notFound :
    Responded ticket cookie response nowMs (s.resolve ticket (.rejected .notFound))
  | noHelper (session : ActiveSession S) (hs : s.activeSession = some session)
      (hnone : session.helperSession = none) :
    Responded ticket cookie response nowMs
      ({ s with activeSession := some { session with lastInteractionMs := nowMs } }.resolve ticket
        (.rejected .invalidState))
  | unwritten (session : ActiveSession S) (hs : s.activeSession = some session)
      (spawned : Spawned S)
      (hspawned : session.helperSession = some spawned) (world : W) (message : String) :
    Responded ticket cookie response nowMs ({ s with
      world := world
      inner := { s.inner with lastError := some message }
      activeSession := some { session with lastInteractionMs := nowMs }
      written := s.written ++ [s.writtenTo spawned response] }.resolve ticket
        (.rejected .invalidState))
  | written (session : ActiveSession S) (hs : s.activeSession = some session) (spawned : Spawned S)
      (hspawned : session.helperSession = some spawned) (world : W)
      (r : Option (HelperEvent × EventOutcome) × PolkitDomainState W S)
      (hr : Pumped { s with
          world := world
          activeSession := some { session with lastInteractionMs := nowMs }
          written := s.written ++ [s.writtenTo spawned response] }
        { session with lastInteractionMs := nowMs } spawned nowMs r) :
    Responded ticket cookie response nowMs
      (if r.1.map Prod.snd = some .failed then (r.2.applied ticket).dropSession
        else r.2.applied ticket)

theorem provideResponse_spec (ticket : ℕ) (cookie response : String) (nowMs : ℕ) :
    s.Responded ticket cookie response nowMs
      (s.provideResponse helper ticket cookie response nowMs) := by
  unfold provideResponse
  split
  · exact .notFound
  · next session hfor =>
    have hs := (s.sessionFor_eq_some hfor).1
    simp only
    split
    · next hnone => exact .noHelper session hs hnone
    · next spawned hspawned =>
      split
      · exact .unwritten session hs spawned hspawned _ _
      · exact .written session hs spawned hspawned _ _ (pumped helper _ _ spawned nowMs)

/-! ### Polling -/

/-- What `poll_active_helper_event` can leave where it gives its mutexes up. -/
inductive Polled (nowMs : ℕ) : Option HelperEvent × Bool × PolkitDomainState W S → Prop where
  | idle : Polled nowMs (none, false, s)
  | polled (session : ActiveSession S) (hs : s.activeSession = some session) (spawned : Spawned S)
      (hspawned : session.helperSession = some spawned)
      (r : Option (HelperEvent × EventOutcome) × PolkitDomainState W S)
      (hr : Pumped s session spawned nowMs r) :
    Polled nowMs (r.1.map Prod.fst, r.1.map Prod.snd = some .failed,
      if r.1.isSome then r.2.bumpRevision.publishSnapshot else r.2)

theorem pollApply_spec (nowMs : ℕ) : s.Polled nowMs (s.pollApply helper nowMs) := by
  unfold pollApply
  split
  · exact .idle
  · next session hs =>
    split
    · exact .idle
    · next spawned hspawned =>
      have hfound := Polled.polled session hs spawned hspawned _
        (pumped helper s session spawned nowMs)
      split
      · next hr => simpa [hr] using hfound
      · next hr => simpa [hr] using hfound

/-! ### Every step -/

/-- Nothing of a conversation has changed, from `s` to `s'`. -/
structure Same (s' : PolkitDomainState W S) : Prop where
  request : s'.inner.request = s.inner.request
  promptState : s'.inner.promptState = s.inner.promptState
  activeSession : s'.activeSession = s.activeSession
  handed : s'.handed = s.handed
  sent : s'.sent = s.sent
  reports : s'.reports = s.reports
  written : s'.written = s.written

/-- The conversation is over and its dialog taken down, from `s` to `s'`, and `sends` were sent. -/
structure Closed (sends : List (ℕ × Completion)) (s' : PolkitDomainState W S) : Prop where
  request : s'.inner.request = none
  promptState : s'.inner.promptState = none
  activeSession : s'.activeSession = none
  handed : s'.handed = s.handed
  sent : s'.sent = s.sent ++ sends
  reports : s'.reports = s.reports
  written : s'.written = s.written

theorem closed_closeSession (reason : String) :
    s.Closed (s.activeSession.elim [] (·.complete (.error reason)))
      (s.closeSession helper reason).clearDialog :=
  ⟨rfl, rfl, activeSession_closeSession .., handed_closeSession .., sent_closeSession ..,
    reports_closeSession ..,     written_closeSession ..⟩

theorem Closed.same {sends : List (ℕ × Completion)} {s s' s'' : PolkitDomainState W S}
    (h : s.Closed sends s') (h' : s'.Same s'') : s.Closed sends s'' :=
  ⟨h'.request.trans h.request, h'.promptState.trans h.promptState,
    h'.activeSession.trans h.activeSession, h'.handed.trans h.handed, h'.sent.trans h.sent,
    h'.reports.trans h.reports, h'.written.trans h.written⟩

/-- The step neither begins a session nor chooses its user. -/
def Plain : Micro W → Prop
  | .call (.beginAuthentication ..) => False
  | .item _ ⟨_, .selectIdentity .., generation⟩ => generation ≠ s.inner.ownerGeneration
  | _ => True

/-- What a step can leave. -/
inductive Moved : Micro W → PolkitDomainState W S → Prop where
  | same {u : Micro W} (hu : s.Plain u) {s' : PolkitDomainState W S} (h : s.Same s') : Moved u s'
  | closed {u : Micro W} (hu : s.Plain u) (reason : String) {s' : PolkitDomainState W S}
      (h : s.Closed (s.activeSession.elim [] (·.complete (.error reason))) s') : Moved u s'
  | dismissed {u : Micro W} (hu : s.Plain u) (session : ActiveSession S)
      (hs : s.activeSession = some session) (hcompleted : session.completedAtMs.isSome)
      {s' : PolkitDomainState W S} (h : s.Closed [] s') : Moved u s'
  | begun (request : PolkitRequest) (nowMs : ℕ) (r : Except String Unit × PolkitDomainState W S)
      (h : s.Begun helper request nowMs r) : Moved (.call (.beginAuthentication request nowMs)) r.2
  | selected (nowMs ticket : ℕ) (cookie username : String) (s' : PolkitDomainState W S)
      (h : s.Selected helper ticket cookie username nowMs s') :
    Moved (.item nowMs ⟨ticket, .selectIdentity cookie username, s.inner.ownerGeneration⟩) s'
  | responded (nowMs ticket : ℕ) (cookie response : String) (s' : PolkitDomainState W S)
      (h : s.Responded ticket cookie response nowMs s') :
    Moved (.item nowMs ⟨ticket, .provideResponse cookie response, s.inner.ownerGeneration⟩) s'
  | polled (nowMs : ℕ) (r : Option HelperEvent × Bool × PolkitDomainState W S)
      (h : s.Polled nowMs r) :
    Moved (.poll nowMs) (if r.2.1 then r.2.2.dropSession else r.2.2)

theorem moved_tick (nowMs : ℕ) : s.Moved helper (.call (.tick nowMs)) (s.tick helper nowMs) := by
  have hu : s.Plain (.call (.tick nowMs)) := trivial
  simp only [tick]
  split
  · next hdue =>
    obtain ⟨session, hs, hdue⟩ := Option.bind_eq_some_iff.mp hdue
    have hsent := (List.append_nil s.sent).symm
    exact .dismissed hu session hs (completed_of_due hdue) ⟨rfl, rfl, rfl, rfl, hsent, rfl, rfl⟩
  · have h := closed_closeSession helper { s with
      inner := { s.inner with supervisor := s.inner.supervisor.tick nowMs } } "Inactivity timeout"
    exact .closed hu _ ⟨rfl, rfl, h.activeSession, h.handed, h.sent, h.reports, h.written⟩
  · exact .same hu ⟨rfl, rfl, rfl, rfl, rfl, rfl, rfl⟩

theorem moved_shutdown : s.Moved helper (.call .shutdown) (s.shutdown helper) := by
  have hu : s.Plain (.call .shutdown) := trivial
  refine .closed hu "Service shutdown" ⟨?_, ?_, ?_, ?_, ?_, ?_, ?_⟩ <;>
    simp [shutdown, clearDialog, bumpRevision, cancelQueue, publishSnapshot]

/-- **All that a step can do.** -/
theorem moved (u : Micro W) : s.Moved helper u (s.micro helper u) := by
  match u with
  | .call (.beginAuthentication request nowMs) =>
    exact .begun request nowMs _ (s.begun helper request nowMs)
  | .call .shutdown => exact s.moved_shutdown helper
  | .call (.tick nowMs) => exact s.moved_tick helper nowMs
  | .call (.cancelAuthentication cookie) =>
    simp only [micro, call, cancelAuthentication]
    split
    · have h := s.closed_closeSession helper "Cancelled by PolicyKit authority"
      exact .closed (by trivial) _ (h.same ⟨rfl, rfl, rfl, rfl, rfl, rfl, rfl⟩)
    · exact .same (by trivial) ⟨rfl, rfl, rfl, rfl, rfl, rfl, rfl⟩
  | .call (.enqueueCommand command) =>
    simp only [micro, call, enqueueCommand]
    split
    · exact .same (by trivial) ⟨rfl, rfl, rfl, rfl, rfl, rfl, rfl⟩
    · split <;> exact .same (by trivial) ⟨rfl, rfl, rfl, rfl, rfl, rfl, rfl⟩
  | .call .beginStart | .call (.markReady _) | .call (.reportOwnerFailure ..)
  | .call .resetQuarantine | .call (.setWorld _) | .take | .publish =>
    exact .same (by trivial) ⟨rfl, rfl, rfl, rfl, rfl, rfl, rfl⟩
  | .poll nowMs => exact .polled nowMs _ (s.pollApply_spec helper nowMs)
  | .item nowMs ⟨ticket, command, generation⟩ =>
    simp only [micro, applyItem]
    split
    · next hold =>
      have hu : s.Plain (W := W) (.item nowMs ⟨ticket, command, generation⟩) := by
        cases command with
        | selectIdentity => exact hold
        | provideResponse | cancel | dismiss | markNextRequestInternal => trivial
      exact .same hu ⟨rfl, rfl, rfl, rfl, rfl, rfl, rfl⟩
    · next hnow =>
      obtain rfl := not_not.mp hnow
      cases command with
      | selectIdentity cookie username =>
        exact .selected nowMs ticket cookie username _ (s.selectIdentity_spec ..)
      | provideResponse cookie response =>
        exact .responded nowMs ticket cookie response _ (s.provideResponse_spec ..)
      | cancel cookie =>
        simp only [applyCommand]
        split
        · have h := s.closed_closeSession helper "Cancelled by user"
          exact .closed (by trivial) _ (h.same ⟨rfl, rfl, rfl, rfl, rfl, rfl, rfl⟩)
        · exact .same (by trivial) ⟨rfl, rfl, rfl, rfl, rfl, rfl, rfl⟩
      | dismiss =>
        have h := s.closed_closeSession helper "Dismissed by user"
        exact .closed (by trivial) _ (h.same ⟨rfl, rfl, rfl, rfl, rfl, rfl, rfl⟩)
      | markNextRequestInternal => exact .same (by trivial) ⟨rfl, rfl, rfl, rfl, rfl, rfl, rfl⟩

end PolkitDomainState

end Shilpo.Polkit
