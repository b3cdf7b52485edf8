import Shilpo.Polkit.Steps

/-!
# Every completion sender is used once

The authority waits until the sender that it handed to `begin_authentication` is used.
Here each step is one critical section: what holds `inner`, or `active_session`, from
its start to its end. An operation is one section, but for `poll_active_helper_event`
on a `Failure`: it gives both mutexes up and then takes `active_session` again, to
clear it. Other operations may run in between, and `Agent` counts the polls that have
yet to clear. What an operation does under `active_session` while it holds `inner`
belongs to its section; a clear that came in between there would find no more senders
than before it or after it, since only holders of `inner` begin sessions.

`settled_iff_along`: no sender is lost, or used twice, exactly when each of these late
clears finds no session, or one whose sender has been used. A request that begins in
the gap is cleared, and its sender dropped unsent (`request_in_gap_is_lost`).
-/

namespace Shilpo.Polkit

open Shilpo.Domain Shilpo.Theory PolkitDomainState

universe u v

variable {W : Type u} {S : Type v} {helper : PolkitHelper W S} {s s' : PolkitDomainState W S}

/-! ### Sections -/

/-- The domain, and how many polls have yet to clear the session that failed. -/
structure Agent (W : Type u) (S : Type v) where
  domain : PolkitDomainState W S
  pendingClears : ℕ

/-- A critical section. -/
inductive Section (W : Type u) where
  /-- A part of an operation that is one section, or a poll that nothing comes between. -/
  | part (u : Micro W)
  /-- `poll_active_helper_event` until it gives its mutexes up. -/
  | pollApply (nowMs : ℕ)
  /-- The clear of a poll whose event was a failure. -/
  | clear

/-- One section runs. -/
def enter (helper : PolkitHelper W S) (a : Agent W S) : Section W → Agent W S
  | .part u => { a with domain := a.domain.micro helper u }
  | .pollApply nowMs =>
    let (_, failed, domain) := a.domain.pollApply helper nowMs
    ⟨domain, if failed then a.pendingClears + 1 else a.pendingClears⟩
  | .clear => if a.pendingClears = 0 then a else ⟨a.domain.dropSession, a.pendingClears - 1⟩

/-! ### Senders -/

/-- The senders held by the session, and those that were used. -/
def outstanding (s : PolkitDomainState W S) : List ℕ :=
  (s.activeSession.bind (·.completionTx)).toList ++ s.sent.map Prod.fst

/-- **Every sender handed over is held by the session or has been used, once.** -/
def Accounted (s : PolkitDomainState W S) : Prop := (outstanding s).Perm (List.range s.handed)

/-- Success is sent for a request after the helper that was spawned for it reported success. -/
def SucceededFirst (s : PolkitDomainState W S) : Prop :=
  ∀ tx, (tx, .ok ()) ∈ s.sent → (tx, HelperEvent.success) ∈ s.reports

/-- What the authority relies on. -/
structure Settled (a : Agent W S) : Prop where
  accounted : Accounted a.domain
  succeededFirst : SucceededFirst a.domain

/-- A session's sender and helper are those of its request, and a completed session has used its
sender. -/
structure ActiveSession.Sound (session : ActiveSession S) : Prop where
  sender : ∀ tx, session.completionTx = some tx → tx = session.origin
  helper : ∀ spawned, session.helperSession = some spawned → spawned.origin = session.origin
  completed : session.completedAtMs.isSome → session.completionTx = none

/-- What every reachable state keeps, whatever the polls clear. -/
structure Sound (s : PolkitDomainState W S) : Prop where
  session : ∀ session, s.activeSession = some session → session.Sound
  succeededFirst : SucceededFirst s

@[simp] theorem fst_complete (session : ActiveSession S) (result : Completion) :
    (session.complete result).map Prod.fst = session.completionTx.toList := by
  unfold ActiveSession.complete
  cases session.completionTx <;> rfl

/-! ### What is conserved -/

/-- From `s` to `s'` no sender was lost or used twice, but new ones may have been handed over. -/
def Conserved (s s' : PolkitDomainState W S) : Prop :=
  ∃ fresh, (outstanding s').Perm (outstanding s ++ fresh) ∧
    List.range s'.handed = List.range s.handed ++ fresh

theorem Conserved.accounted_iff (h : Conserved s s') : Accounted s' ↔ Accounted s := by
  obtain ⟨fresh, hperm, hrange⟩ := h
  rw [Accounted, hrange, hperm.congr_left, List.perm_append_right_iff]
  rfl

/-- No sender is new. -/
theorem Conserved.of_perm (h : (outstanding s').Perm (outstanding s))
    (hhanded : s'.handed = s.handed) : Conserved s s' :=
  ⟨[], by simpa using h, by simp [hhanded]⟩

/-- The session has the same sender, and none was used. -/
theorem Conserved.of_eq
    (hsession : s'.activeSession.bind (·.completionTx) = s.activeSession.bind (·.completionTx))
    (hsent : s'.sent = s.sent) (hhanded : s'.handed = s.handed) : Conserved s s' :=
  .of_perm (by rw [outstanding, hsession, hsent, outstanding]) hhanded

variable {session : ActiveSession S}

/-- The session's sender was used. -/
theorem Conserved.of_complete (hs : s.activeSession = some session) (result : Completion)
    (hsession : s'.activeSession.bind (·.completionTx) = none)
    (hsent : s'.sent = s.sent ++ session.complete result) (hhanded : s'.handed = s.handed) :
    Conserved s s' := by
  refine .of_perm ?_ hhanded
  simp only [outstanding, hsession, hsent, hs, Option.toList_none, List.nil_append, List.map_append,
    fst_complete, Option.bind_some]
  exact List.perm_append_comm

/-- The conversation is over, its sender used if it had one. -/
theorem Conserved.of_closed (reason : String)
    (h : s.Closed (s.activeSession.elim [] (·.complete (.error reason))) s') : Conserved s s' := by
  cases hs : s.activeSession with
  | none => exact .of_eq (by rw [h.activeSession, hs]) (by simpa [hs] using h.sent) h.handed
  | some session =>
    exact .of_complete hs _ (by rw [h.activeSession]; rfl) (by simpa [hs] using h.sent) h.handed

/-! ### What each operation does with the senders -/

theorem outstanding_superseded (helper : PolkitHelper W S) (s : PolkitDomainState W S) :
    (s.superseded helper).activeSession = none ∧ (s.superseded helper).handed = s.handed + 1 ∧
      ((s.superseded helper).sent.map Prod.fst).Perm (outstanding s) := by
  refine ⟨activeSession_closeSession .., handed_closeSession .., ?_⟩
  rw [superseded, sent_closeSession, outstanding]
  cases hs : s.activeSession with
  | none => simp
  | some session => simpa using List.perm_append_comm

variable {request : PolkitRequest}

/-- The sender of a new session is held by it, or has been used. -/
theorem outstanding_opened {origin nowMs : ℕ} {spawned : Option (Spawned S)}
    (ho : s.Opened request origin nowMs spawned s') :
    (outstanding s').Perm (s.sent.map Prod.fst ++ [origin]) ∧ s'.handed = s.handed := by
  have held : (origin :: s.sent.map Prod.fst).Perm (s.sent.map Prod.fst ++ [origin]) :=
    (List.perm_append_singleton _ _).symm
  have used (result : Completion) : ((s.sent ++ [(origin, result)]).map Prod.fst).Perm
      (s.sent.map Prod.fst ++ [origin]) := by simp
  cases ho with
  | waiting => exact ⟨held, rfl⟩
  | started spawned r hr =>
    cases hr with
    | quiet | prompt => exact ⟨held, rfl⟩
    | succeeded | failed => exact ⟨used _, rfl⟩

variable {nowMs : ℕ}

theorem conserved_begun {r : Except String Unit × PolkitDomainState W S}
    (hb : s.Begun helper request nowMs r) : Conserved s r.2 := by
  obtain ⟨hnone, hhanded, hperm⟩ := outstanding_superseded helper s
  cases hb with
  | refused _ world message =>
    refine ⟨[s.handed], ?_, ?_⟩
    · have hused := hperm.append_right [s.handed]
      simpa [outstanding, refuse, hnone] using hused
    · simp [refuse, hhanded, List.range_succ]
  | opened _ world shown spawned _ _ _ s' ho =>
    obtain ⟨hopened, hsame⟩ := outstanding_opened ho
    refine ⟨[s.handed], hopened.trans (hperm.append_right _), ?_⟩
    rw [hsame, hhanded, List.range_succ]

variable {ticket : ℕ}

theorem conserved_selected {cookie username : String}
    (hsel : s.Selected helper ticket cookie username nowMs s') : Conserved s s' := by
  cases hsel with
  | notFound => exact .of_eq rfl rfl rfl
  | kept session hs =>
    have hactive := (s.sessionFor_eq_some hs).1
    exact .of_eq (by rw [hactive]; rfl) rfl rfl
  | refused session hs => exact .of_complete (s.sessionFor_eq_some hs).1 _ rfl rfl rfl
  | spawned session hs hnone world spawned hspawn hspawned r hr =>
    have hactive := (s.sessionFor_eq_some hs).1
    cases hr with
    | quiet | prompt => exact .of_eq (by rw [hactive]; rfl) rfl rfl
    | succeeded | failed => exact .of_complete hactive _ rfl rfl rfl

theorem conserved_responded {cookie response : String}
    (hres : s.Responded ticket cookie response nowMs s') : Conserved s s' := by
  cases hres with
  | notFound => exact .of_eq rfl rfl rfl
  | noHelper session hs | unwritten session hs => exact .of_eq (by rw [hs]; rfl) rfl rfl
  | written session hs spawned hspawned world r hr =>
    cases hr with
    | quiet | prompt => exact .of_eq (by rw [hs]; rfl) rfl rfl
    | succeeded | failed => exact .of_complete hs _ rfl rfl rfl

theorem conserved_polled {r : Option HelperEvent × Bool × PolkitDomainState W S}
    (hpoll : s.Polled nowMs r) :
    Conserved s r.2.2 ∧ Conserved s (if r.2.1 then r.2.2.dropSession else r.2.2) := by
  cases hpoll with
  | idle => exact ⟨.of_eq rfl rfl rfl, .of_eq rfl rfl rfl⟩
  | polled session hs spawned hspawned r hr =>
    cases hr with
    | quiet | prompt => exact ⟨.of_eq (by rw [hs]; rfl) rfl rfl, .of_eq (by rw [hs]; rfl) rfl rfl⟩
    | succeeded | failed => exact ⟨.of_complete hs _ rfl rfl rfl, .of_complete hs _ rfl rfl rfl⟩

/-- **No operation loses a sender**, nor uses one twice. -/
theorem conserved_moved (h : Sound s) {u : Micro W} (hm : s.Moved helper u s') :
    Conserved s s' := by
  cases hm with
  | same _ h' => exact .of_eq (by rw [h'.activeSession]) h'.sent h'.handed
  | closed _ reason h' => exact .of_closed reason h'
  | dismissed _ session hs hcompleted h' =>
    refine .of_eq ?_ (by simpa using h'.sent) h'.handed
    rw [h'.activeSession, hs]
    exact ((h.session session hs).completed hcompleted).symm
  | begun _ _ r hb => exact conserved_begun hb
  | selected _ _ _ _ _ hsel => exact conserved_selected hsel
  | responded _ _ _ _ _ hres => exact conserved_responded hres
  | polled _ _ hpoll => exact (conserved_polled hpoll).2

/-! ### What every reachable state keeps -/

/-- Only errors were sent. -/
theorem SucceededFirst.of_errors (h : SucceededFirst s) {sends : List (ℕ × Completion)}
    (herrors : ∀ tx, (tx, .ok ()) ∉ sends) (hsent : s'.sent = s.sent ++ sends)
    (hreports : ∀ x ∈ s.reports, x ∈ s'.reports) : SucceededFirst s' := by
  intro tx htx
  rw [hsent, List.mem_append] at htx
  exact hreports _ (h tx (htx.resolve_right (herrors tx)))

theorem not_ok_mem_complete_error (session : ActiveSession S) (reason : String) (tx : ℕ) :
    (tx, .ok ()) ∉ session.complete (.error reason) := by
  simp [ActiveSession.complete]

theorem Sound.of_none (hsession : s.activeSession = none) (h : SucceededFirst s) : Sound s :=
  ⟨fun _ hs => (nomatch hsession.symm.trans hs), h⟩

theorem Sound.of_some (hs : s.activeSession = some session) (h : session.Sound)
    (hfirst : SucceededFirst s) : Sound s :=
  ⟨fun _ hs' => Option.some.inj (hs.symm.trans hs') ▸ h, hfirst⟩

theorem Sound.drop (h : Sound s) : Sound s.dropSession := .of_none rfl h.succeededFirst

/-- What a helper says of its own session. -/
theorem sound_pumped {spawned : Spawned S}
    {r : Option (HelperEvent × EventOutcome) × PolkitDomainState W S}
    (hr : Pumped s session spawned nowMs r) (h : session.Sound)
    (horigin : spawned.origin = session.origin) (hfirst : SucceededFirst s) :
    Sound r.2 := by
  have hreports (event : HelperEvent) :
      ∀ x ∈ s.reports, x ∈ s.reports ++ [(spawned.origin, event)] :=
    fun _ hx => List.mem_append_left _ hx
  cases hr with
  | quiet => exact .of_some rfl h hfirst
  | prompt world event =>
    have hsent := (List.append_nil s.sent).symm
    exact .of_some rfl ⟨h.sender, h.helper, h.completed⟩
      (hfirst.of_errors (by simp) hsent (hreports event))
  | failed =>
    exact .of_some rfl ⟨nofun, h.helper, fun _ => rfl⟩
      (hfirst.of_errors (not_ok_mem_complete_error session _) rfl (hreports .failure))
  | succeeded =>
    refine .of_some rfl ⟨nofun, nofun, fun _ => rfl⟩ ?_
    intro tx htx
    rw [List.mem_append] at htx
    rcases htx with htx | htx
    · exact hreports .success _ (hfirst tx htx)
    · -- the sender is the session's, and so is the helper
      have htx : session.completionTx = some tx := by simpa [ActiveSession.complete] using htx
      rw [h.sender tx htx, ← horigin]
      exact List.mem_append_right _ (List.mem_singleton_self _)

theorem sound_begun (h : Sound s) {r : Except String Unit × PolkitDomainState W S}
    (hb : s.Begun helper request nowMs r) :
    Sound r.2 := by
  have hclosed : SucceededFirst (s.superseded helper) := by
    refine h.succeededFirst.of_errors ?_ (sent_closeSession ..) (by simp [superseded])
    intro tx
    cases s.activeSession with
    | none => simp
    | some session => exact not_ok_mem_complete_error session _ tx
  cases hb with
  | refused _ world message =>
    have herrors : ∀ tx, (tx, .ok ()) ∉ [(s.handed, (.error message : Completion))] := by simp
    exact .of_none (activeSession_closeSession ..) (hclosed.of_errors herrors rfl fun _ hx => hx)
  | opened _ world shown spawned _ _ hspawned s' ho =>
    have hnew : ∀ x ∈ spawned, ActiveSession.Sound
        (⟨shown, some x, some s.handed, nowMs, none, s.handed⟩ : ActiveSession S) := fun x hx =>
      ⟨fun _ htx => (Option.some.inj htx).symm,
        fun _ hx' => Option.some.inj hx' ▸ (hspawned x hx).2, nofun⟩
    cases ho with
    | waiting => exact .of_some rfl ⟨fun _ htx => (Option.some.inj htx).symm, nofun, nofun⟩ hclosed
    | started x r hr =>
      have hs := sound_pumped hr (hnew x rfl) (hspawned x rfl).2 hclosed
      cases hr with
      | quiet | prompt | succeeded => exact ⟨hs.session, hs.succeededFirst⟩
      | failed => exact .of_none rfl hs.succeededFirst

theorem sound_selected (h : Sound s) {cookie username : String}
    (hsel : s.Selected helper ticket cookie username nowMs s') : Sound s' := by
  cases hsel with
  | notFound => exact ⟨h.session, h.succeededFirst⟩
  | kept session hs =>
    have hsession := h.session session (s.sessionFor_eq_some hs).1
    exact .of_some rfl ⟨hsession.sender, hsession.helper, hsession.completed⟩ h.succeededFirst
  | refused session hs hnone hfails world message =>
    have hsession := h.session session (s.sessionFor_eq_some hs).1
    have herrors := not_ok_mem_complete_error session message
    exact .of_some rfl ⟨nofun, hsession.helper, fun _ => rfl⟩
      (h.succeededFirst.of_errors herrors rfl fun _ hx => hx)
  | spawned session hs hnone world spawned hspawn hspawned r hr =>
    have hsession := h.session session (s.sessionFor_eq_some hs).1
    have hhelper : ∀ x, some spawned = some x → x.origin = session.origin := fun x hx =>
      Option.some.inj hx ▸ hspawned.2.2
    have hs' := sound_pumped hr ⟨hsession.sender, hhelper, hsession.completed⟩ hspawned.2.2
      h.succeededFirst
    cases hr with
    | quiet | prompt | succeeded => exact ⟨hs'.session, hs'.succeededFirst⟩
    | failed => exact .of_none rfl hs'.succeededFirst

theorem sound_responded (h : Sound s) {cookie response : String}
    (hres : s.Responded ticket cookie response nowMs s') : Sound s' := by
  cases hres with
  | notFound => exact ⟨h.session, h.succeededFirst⟩
  | noHelper session hs | unwritten session hs =>
    have hsession := h.session session hs
    exact .of_some rfl ⟨hsession.sender, hsession.helper, hsession.completed⟩ h.succeededFirst
  | written session hs spawned hspawned world r hr =>
    have hsession := h.session session hs
    have hs' := sound_pumped hr ⟨hsession.sender, hsession.helper, hsession.completed⟩
      (hsession.helper spawned hspawned) h.succeededFirst
    cases hr with
    | quiet | prompt | succeeded => exact ⟨hs'.session, hs'.succeededFirst⟩
    | failed => exact .of_none rfl hs'.succeededFirst

theorem sound_polled (h : Sound s) {r : Option HelperEvent × Bool × PolkitDomainState W S}
    (hpoll : s.Polled nowMs r) : Sound r.2.2 := by
  cases hpoll with
  | idle => exact h
  | polled session hs spawned hspawned r hr =>
    have hsession := h.session session hs
    have hs' := sound_pumped hr hsession (hsession.helper spawned hspawned) h.succeededFirst
    split <;> exact ⟨hs'.session, hs'.succeededFirst⟩

theorem sound_moved (h : Sound s) {u : Micro W} (hm : s.Moved helper u s') : Sound s' := by
  cases hm with
  | same _ h' =>
    refine ⟨by rw [h'.activeSession]; exact h.session, ?_⟩
    rw [SucceededFirst, h'.sent, h'.reports]
    exact h.succeededFirst
  | closed _ reason h' =>
    refine .of_none h'.activeSession (h.succeededFirst.of_errors (fun tx => ?_) h'.sent ?_)
    · cases s.activeSession with
      | none => simp
      | some session => exact not_ok_mem_complete_error session reason tx
    · rw [h'.reports]
      exact fun _ hx => hx
  | dismissed _ _ _ _ h' =>
    refine .of_none h'.activeSession (h.succeededFirst.of_errors (by simp) h'.sent ?_)
    rw [h'.reports]
    exact fun _ hx => hx
  | begun _ _ r hb => exact sound_begun h hb
  | selected _ _ _ _ _ hsel => exact sound_selected h hsel
  | responded _ _ _ _ _ hres => exact sound_responded h hres
  | polled _ r hpoll =>
    have hs := sound_polled h hpoll
    split
    · exact hs.drop
    · exact hs

/-- **What sound sections keep.** -/
theorem sound_enter : Preserved (enter helper) fun a => Sound a.domain := by
  intro a x h
  cases x with
  | part u => exact sound_moved h (a.domain.moved helper u)
  | pollApply nowMs => exact sound_polled h (a.domain.pollApply_spec helper nowMs)
  | clear =>
    simp only [enter]
    split_ifs
    · exact h
    · exact h.drop

/-! ### When no sender is lost -/

/-- A late clear finds no session, or one whose sender has been used. -/
def ClearsSettled (a : Agent W S) : Section W → Prop
  | .clear => a.pendingClears ≠ 0 → a.domain.activeSession.bind (·.completionTx) = none
  | _ => True

/-- Dropping a session loses its sender. -/
theorem accounted_dropSession (h : Accounted s) :
    Accounted s.dropSession ↔ s.activeSession.bind (·.completionTx) = none := by
  constructor
  · intro hd
    have hall := h.length_eq
    have hused := hd.length_eq
    simp only [outstanding, dropSession, List.length_append, List.length_map, List.length_range,
      Option.bind_none, Option.toList_none, List.length_nil] at hall hused
    rw [← Option.toList_eq_nil_iff, ← List.length_eq_zero_iff]
    omega
  · intro hnone
    have hc : Conserved s s.dropSession := .of_eq hnone.symm rfl rfl
    exact hc.accounted_iff.mpr h

/-- **One section loses a sender exactly when it is a late clear of a session that still has
it.** -/
theorem settled_enter (a : Agent W S) (x : Section W) (h : Sound a.domain) (hs : Settled a) :
    Settled (enter helper a x) ↔ ClearsSettled a x := by
  have hsound : Sound (enter helper a x).domain := sound_enter a x h
  have hiff : Settled (enter helper a x) ↔ Accounted (enter helper a x).domain :=
    ⟨fun hs' => hs'.accounted, fun ha => ⟨ha, hsound.succeededFirst⟩⟩
  rw [hiff]
  cases x with
  | part u =>
    have hc := conserved_moved h (a.domain.moved helper u)
    exact iff_of_true (hc.accounted_iff.mpr hs.accounted) trivial
  | pollApply nowMs =>
    have hc := (conserved_polled (a.domain.pollApply_spec helper nowMs)).1
    exact iff_of_true (hc.accounted_iff.mpr hs.accounted) trivial
  | clear =>
    rw [ClearsSettled, enter]
    split_ifs with hzero
    · exact iff_of_true hs.accounted fun hne => absurd hzero hne
    · rw [forall_prop_of_true hzero]
      exact accounted_dropSession hs.accounted

/-- **Whatever the order of the sections, each sender is at every moment held by the session or has
been used once, and success is sent after it was reported, exactly when every late clear finds no
sender to lose.** -/
theorem settled_iff_along (helper : PolkitHelper W S) (capacity : ℕ) (world : W)
    (inactivityTimeoutMs : ℕ) (sections : List (Section W)) :
    Always (enter helper) Settled ⟨new helper capacity world inactivityTimeoutMs, 0⟩ sections ↔
      Along (enter helper) ClearsSettled ⟨new helper capacity world inactivityTimeoutMs, 0⟩
        sections :=
  always_iff_along sound_enter (fun a x h hs => settled_enter a x h hs)
    (.of_none rfl (by simp [SucceededFirst, new]))
    ⟨by simp [Accounted, outstanding, new], by simp [SucceededFirst, new]⟩ _

/-! ### A request in the gap -/

/-- The helper of a first request fails; a second request begins before the poll clears. -/
def requestInGap : List (Section (List HelperEvent)) := [
  .part (.call .beginStart), .part (.call (.markReady 1)),
  .part (.call (.beginAuthentication (.asking "first" ["alice"]) 2)),
  .part (.call (.setWorld [.failure])), .pollApply 3,
  .part (.call (.beginAuthentication (.asking "second" ["alice"]) 4)), .clear]

/-- **A request that begins in the gap is lost**: its sender is neither held nor used. -/
theorem request_in_gap_is_lost :
    let a := run (enter scriptedHelper) ⟨new scriptedHelper 8 [] 120000, 0⟩ requestInGap
    a.domain.handed = 2 ∧ a.domain.activeSession.isNone ∧ a.domain.sent.map Prod.fst = [0] ∧
      ¬ Settled a := by
  refine ⟨by decide, by decide, by decide, ?_⟩
  intro h
  exact absurd h.accounted.length_eq (by decide)

end Shilpo.Polkit
