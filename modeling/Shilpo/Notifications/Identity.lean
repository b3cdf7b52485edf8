import Shilpo.Notifications.State

/-!
# Which notification an id means

Clients and the shell name a live notification by its id. Ids come from three sources: the
counter of the server that `Notify` is called on, which starts again with every new owner; the
counter of the domain, for notifications that the shell pushes; and the clients, which pass
an id to replace. All three are put in one list that outlives the owners.

`Distinct` is what makes an id a name, `Keeps` what each step is to do with ids: `Notify`
gives out an id that is free, or replaces the notification of the id passed, and a dismissal
removes one notification. A run keeps to both exactly when all its steps are `Fresh`
(`identity_kept_iff`): no notification is shown under an id that is taken, by whichever
source; and `Notify` is not called for a live one, which it adds to and never replaces.
-/

namespace Shilpo.Notifications

open Shilpo.Domain Shilpo.Theory

/-! ### What commands do to the live notifications -/

namespace NotificationState

variable {s : NotificationState}

/-- The notification under the id that it goes by. -/
def named (s : NotificationState) (notif : Notification) : Notification :=
  { notif with id := s.pushedId notif }

theorem named_of_id {notif : Notification} (h : notif.id ≠ 0) : s.named notif = notif := by
  rw [named, pushedId, if_neg h]

/-- The notification becomes live when it is pushed. -/
def Shown (s : NotificationState) (notif : Notification) : Prop :=
  s.accepts = true ∧ s.shows notif = true

instance (notif : Notification) : Decidable (s.Shown notif) :=
  inferInstanceAs (Decidable (_ ∧ _))

theorem notifications_push (h : s.queue = []) (notif : Notification) :
    (s.submitCommand (.push notif)).1.notifications =
      if s.Shown notif then s.notifications ++ [s.named notif] else s.notifications := by
  rw [submitCommand_of_queue h]
  by_cases haccepts : s.accepts = true
  · rw [if_pos haccepts, notifications_applied]
    by_cases hshows : s.shows notif = true
    · rw [if_pos ⟨haccepts, hshows⟩]
      exact if_pos hshows
    · rw [if_neg fun hshown : s.Shown notif => hshows hshown.2]
      exact if_neg hshows
  · rw [if_neg haccepts, if_neg fun hshown : s.Shown notif => haccepts hshown.1]

/-- The command takes the notifications with this id out. -/
inductive Removes (id : UInt32) : NotificationCommand → Prop where
  | dismiss : Removes id (.dismiss id)
  | expire : Removes id (.expire id)
  | invokeAction (actionKey : String) : Removes id (.invokeAction id actionKey)

theorem Removes.notifications {id : UInt32} {command : NotificationCommand}
    (hc : Removes id command) (h : s.queue = []) :
    (s.submitCommand command).1.notifications =
      if s.accepts then s.notifications.filter (·.id ≠ id) else s.notifications := by
  rw [submitCommand_of_queue h]
  split
  · rw [notifications_applied]
    cases hc <;> rfl
  · rfl

theorem notifications_dismissAll (h : s.queue = []) :
    (s.submitCommand .dismissAll).1.notifications =
      if s.accepts then [] else s.notifications := by
  rw [submitCommand_of_queue h]
  split
  · rw [notifications_applied]
    rfl
  · rfl

theorem notifications_setDnd (h : s.queue = []) (enabled : Bool) :
    (s.submitCommand (.setDnd enabled)).1.notifications = s.notifications := by
  rw [submitCommand_of_queue h]
  split
  · exact notifications_applied s _
  · rfl

theorem notifications_clearHistory (h : s.queue = []) :
    (s.submitCommand .clearHistory).1.notifications = s.notifications := by
  rw [submitCommand_of_queue h]
  split
  · exact notifications_applied s _
  · rfl

theorem notifications_tick (nowMs : ℕ) : (s.tick nowMs).notifications = s.notifications := by
  rw [tick]
  split <;> rfl

theorem notifications_resetQuarantine : s.resetQuarantine.notifications = s.notifications := by
  simp only [resetQuarantine]
  split <;> rfl

end NotificationState

/-! ### Lists of notifications -/

/-- The ids are distinct and none of them is zero. -/
def DistinctIds (live : List Notification) : Prop :=
  (live.map (·.id)).Nodup ∧ 0 ∉ live.map (·.id)

instance (live : List Notification) : Decidable (DistinctIds live) :=
  inferInstanceAs (Decidable (_ ∧ _))

theorem DistinctIds.sublist {live live' : List Notification} (h : DistinctIds live)
    (hsub : live'.Sublist live) : DistinctIds live' := by
  have hids := hsub.map (·.id)
  exact ⟨h.1.sublist hids, fun hzero => h.2 (hids.subset hzero)⟩

theorem DistinctIds.append_iff {live : List Notification} (h : DistinctIds live)
    (notif : Notification) :
    DistinctIds (live ++ [notif]) ↔ notif.id ∉ live.map (·.id) ∧ notif.id ≠ 0 := by
  rw [DistinctIds, List.map_append, List.map_singleton, List.nodup_append_comm,
    List.singleton_append, List.nodup_cons]
  constructor
  · rintro ⟨⟨hid, -⟩, hzero⟩
    refine ⟨hid, fun hnotif => hzero ?_⟩
    rw [hnotif]
    exact List.mem_append_right _ List.mem_cons_self
  · rintro ⟨hid, hzero⟩
    refine ⟨⟨hid, h.1⟩, fun hmem => ?_⟩
    rcases List.mem_append.mp hmem with hmem | hmem
    · exact h.2 hmem
    · exact hzero (List.mem_singleton.mp hmem).symm

/-- `live'` is `live` without one notification, which had this id. -/
def RemovedOne (id : UInt32) (live live' : List Notification) : Prop :=
  ∃ l n r, live = l ++ n :: r ∧ n.id = id ∧ live' = l ++ r

theorem DistinctIds.removedOne {live : List Notification} (h : DistinctIds live) {id : UInt32}
    (hid : id ∈ live.map (·.id)) : RemovedOne id live (live.filter (·.id ≠ id)) := by
  obtain ⟨n, hn, rfl⟩ := List.mem_map.mp hid
  obtain ⟨l, r, rfl⟩ := List.append_of_mem hn
  refine ⟨l, n, r, rfl, rfl, ?_⟩
  have hnodup := h.1
  rw [List.map_append, List.map_cons, List.nodup_middle, List.nodup_cons] at hnodup
  have hother : ∀ m ∈ l ++ r, m.id ≠ n.id := by
    intro m hm heq
    apply hnodup.1
    rw [← List.map_append, ← heq]
    exact List.mem_map_of_mem hm
  have hkeep : ∀ m ∈ l ++ r, decide (m.id ≠ n.id) = true := fun m hm => decide_eq_true (hother m hm)
  rw [List.filter_append, List.filter_cons_of_neg (by simp), ← List.filter_append,
    List.filter_eq_self.mpr hkeep]

/-! ### The promise and its condition -/

namespace NotificationService

variable {s : NotificationService}

/-- The ids of the live notifications are distinct, and none of them is zero. -/
def Distinct (s : NotificationService) : Prop := DistinctIds s.live

instance : Decidable s.Distinct := inferInstanceAs (Decidable (DistinctIds _))

/-- A dismissal that is accepted removes the one notification that it names. -/
def Dismisses (s : NotificationService) (id : UInt32) (s' : NotificationService) : Prop :=
  s.adapter.accepts = true → id ∈ s.liveIds → RemovedOne id s.live s'.live

/-- What a step is to do with ids: `Notify` for id zero returns one that was free, and for a live
one leaves the new notification alone under it; a dismissal removes one notification. -/
def Keeps (s : NotificationService) : NotificationStep → Prop
  | .notify call =>
    (call.replacesId = 0 → (s.notify call).2 ∉ s.liveIds) ∧
      (call.replacesId ≠ 0 → call.replacesId ∈ s.liveIds →
        (s.notify call).1.live.filter (·.id = call.replacesId) =
          [call.notification call.replacesId])
  | .closeNotification id => s.Dismisses id (s.closeNotification id)
  | .submit (.dismiss id) => s.Dismisses id (s.submitCommand (.dismiss id))
  | _ => True

/-- If the notification is shown, the id it goes by is free. -/
def FreeFor (s : NotificationService) (notif : Notification) : Prop :=
  s.adapter.Shown notif → s.adapter.pushedId notif ∉ s.liveIds ∧ s.adapter.pushedId notif ≠ 0

/-- No id is taken twice: what is shown goes by an id that is free, `Notify` for id zero finds its
counter at one, and `Notify` for a live one is called only where it has no effect. -/
def Fresh (s : NotificationService) : NotificationStep → Prop
  | .notify call =>
    if call.replacesId = 0 then
      s.notifyId call ∉ s.liveIds ∧ s.FreeFor (call.notification (s.notifyId call))
    else
      call.replacesId ∈ s.liveIds →
        ¬ s.adapter.Shown (call.notification call.replacesId) ∧
          s.live.filter (·.id = call.replacesId) = [call.notification call.replacesId]
  | .submit (.push notif) => s.FreeFor notif
  | _ => True

/-! ### One step -/

theorem live_notify (h : s.Settled) (call : NotifyCall) :
    (s.notify call).1.live =
      if s.adapter.Shown (call.notification (s.notifyId call)) then
        s.live ++ [s.adapter.named (call.notification (s.notifyId call))]
      else s.live :=
  NotificationState.notifications_push h _

theorem distinct_push_iff (h : s.Distinct) {notif : Notification} {live' : List Notification}
    (hlive : live' = if s.adapter.Shown notif then s.live ++ [s.adapter.named notif] else s.live) :
    DistinctIds live' ↔ s.FreeFor notif := by
  rw [hlive]
  by_cases hshown : s.adapter.Shown notif
  · rw [if_pos hshown, DistinctIds.append_iff h]
    exact ⟨fun hfree _ => hfree, fun hfree => hfree hshown⟩
  · rw [if_neg hshown]
    exact ⟨fun _ hs => absurd hs hshown, fun _ => h⟩

theorem distinct_remove (h : s.Settled) (hd : s.Distinct) {id : UInt32}
    {command : NotificationCommand} (hc : NotificationState.Removes id command) :
    DistinctIds (s.adapter.submitCommand command).1.notifications := by
  rw [hc.notifications h]
  split
  · exact DistinctIds.sublist hd List.filter_sublist
  · exact hd

theorem dismisses (h : s.Settled) (hd : s.Distinct) {id : UInt32} {s' : NotificationService}
    (hs' : s'.adapter = (s.adapter.submitCommand (.dismiss id)).1) : s.Dismisses id s' := by
  intro haccepts hid
  have hlive : s'.live = s.live.filter (·.id ≠ id) := by
    rw [live, hs', NotificationState.Removes.dismiss.notifications h, if_pos haccepts]
    rfl
  rw [hlive]
  exact DistinctIds.removedOne hd hid

/-- `Notify` keeps the promise exactly when it is `Fresh`. -/
theorem notify_kept_iff (h : s.Settled) (hd : s.Distinct) (call : NotifyCall) :
    (s.notify call).1.Distinct ∧ s.Keeps (.notify call) ↔ s.Fresh (.notify call) := by
  rw [Distinct, distinct_push_iff hd (live_notify h call)]
  by_cases hzero : call.replacesId = 0
  · simp only [Keeps, Fresh, if_pos hzero]
    constructor
    · rintro ⟨hfree, hid, -⟩
      exact ⟨hid hzero, hfree⟩
    · rintro ⟨hid, hfree⟩
      exact ⟨hfree, fun _ => hid, fun hne => absurd hzero hne⟩
  · have hid : s.notifyId call = call.replacesId := if_neg hzero
    have hname : s.adapter.pushedId (call.notification call.replacesId) = call.replacesId :=
      if_neg hzero
    have hlive := live_notify h call
    rw [hid, NotificationState.named_of_id hzero] at hlive
    simp only [Keeps, Fresh, if_neg hzero, FreeFor, hid, hname]
    constructor
    · rintro ⟨hfree, -, hreplaced⟩ hmem
      have hshown : ¬ s.adapter.Shown (call.notification call.replacesId) :=
        fun hshown => (hfree hshown).1 hmem
      have := hreplaced hzero hmem
      rw [hlive, if_neg hshown] at this
      exact ⟨hshown, this⟩
    · intro hfresh
      refine ⟨fun hshown => ⟨fun hmem => (hfresh hmem).1 hshown, hzero⟩,
        fun hz => absurd hz hzero, fun _ hmem => ?_⟩
      obtain ⟨hshown, hsame⟩ := hfresh hmem
      rw [hlive, if_neg hshown]
      exact hsame

/-- **A step keeps the promise exactly when it is `Fresh`.** -/
theorem next_kept_iff (h : s.Settled) (hd : s.Distinct) (a : NotificationStep) :
    (s.next a).Distinct ∧ s.Keeps a ↔ s.Fresh a := by
  have hsame : ∀ {s' : NotificationService}, s'.adapter.notifications = s.adapter.notifications →
      s'.Distinct := by
    intro s' hs'
    rw [Distinct, live, hs']
    exact hd
  cases a with
  | notify call => exact notify_kept_iff h hd call
  | closeNotification id =>
    exact iff_of_true ⟨distinct_remove h hd .dismiss, dismisses h hd rfl⟩ trivial
  | submit command =>
    cases command with
    | push notif =>
      exact (and_iff_left trivial).trans
        (distinct_push_iff hd (NotificationState.notifications_push h notif))
    | dismiss id => exact iff_of_true ⟨distinct_remove h hd .dismiss, dismisses h hd rfl⟩ trivial
    | expire id => exact iff_of_true ⟨distinct_remove h hd .expire, trivial⟩ trivial
    | invokeAction id actionKey =>
      exact iff_of_true ⟨distinct_remove h hd (.invokeAction actionKey), trivial⟩ trivial
    | dismissAll =>
      refine iff_of_true ⟨?_, trivial⟩ trivial
      have hlive := NotificationState.notifications_dismissAll h
      change DistinctIds (s.adapter.submitCommand .dismissAll).1.notifications
      rw [hlive]
      split
      · exact DistinctIds.sublist hd (List.nil_sublist _)
      · exact hd
    | setDnd enabled =>
      exact iff_of_true ⟨hsame (NotificationState.notifications_setDnd h enabled), trivial⟩ trivial
    | clearHistory =>
      exact iff_of_true ⟨hsame (NotificationState.notifications_clearHistory h), trivial⟩ trivial
  | tick nowMs =>
    exact iff_of_true ⟨hsame (NotificationState.notifications_tick nowMs), trivial⟩ trivial
  | resetQuarantine =>
    exact iff_of_true ⟨hsame NotificationState.notifications_resetQuarantine, trivial⟩ trivial
  | reportOwnerFailure | beginStart | markReady | registerServer | connect | disconnect
    | enterStopping | enterStopped => exact iff_of_true ⟨hsame rfl, trivial⟩ trivial

/-! ### Whole runs -/

theorem distinct_new : new.Distinct := ⟨List.nodup_nil, List.not_mem_nil⟩

/-- **Ids name live notifications, and each step deals with them as it promises, in exactly the
runs in which no id is taken twice.** -/
theorem identity_kept_iff (steps : List NotificationStep) :
    Always next Distinct new steps ∧ Along next Keeps new steps ↔ Along next Fresh new steps :=
  always_and_along_iff (I := Settled) (fun _ a h => h.next a)
    (fun _ a h hd => next_kept_iff h hd a) settled_new distinct_new steps

/-! ### A run that is not fresh -/

namespace Sample

/-- A notification that the shell pushes. -/
def greeting : Notification where
  id := 0
  appName := "Shilpo Shell"
  summary := "Hello"
  body := ""
  appIcon := none
  desktopEntry := none
  imagePath := none
  urgency := .normal
  actions := []
  expireTimeoutMs := 5000
  timestamp := 0

/-- A client's call. -/
def mail (replacesId : UInt32) : NotifyCall where
  appName := "mail"
  replacesId := replacesId
  appIcon := ""
  summary := "New mail"
  body := ""
  rawActions := ["default", "Open"]
  hints := fun _ => none
  expireTimeout := -1
  timestamp := 1

/-- The owner gets ready. -/
def ready : List NotificationStep := [.beginStart, .registerServer, .markReady 0, .connect]

/-- The first client finds the server's counter where the shell's notification has been. -/
def collision : List NotificationStep :=
  ready ++ [NotificationStep.submit (.push greeting), .notify (mail 0)]

/-- A client shows a notification and then updates it. -/
def update : List NotificationStep := ready ++ [NotificationStep.notify (mail 0), .notify (mail 1)]

/-- The owner fails between the notifications of two clients. -/
def restart : List NotificationStep :=
  ready ++ [NotificationStep.notify (mail 0), .disconnect,
    .reportOwnerFailure "connection closed" 1000,
    .tick 2000, .registerServer, .beginStart, .markReady 2000, .connect, .notify (mail 0)]

end Sample

open Sample in
/-- Each of the three leaves two notifications under one id, which a dismissal takes out both. -/
theorem collision_not_distinct :
    (run next new collision).liveIds = [1, 1] ∧ (run next new update).liveIds = [1, 1] ∧
      (run next new restart).liveIds = [1, 1] ∧
      ¬ Always next Distinct new collision ∧ ¬ Always next Distinct new update ∧
      ¬ Always next Distinct new restart ∧
      (run next new (collision ++ [NotificationStep.submit (.dismiss 1)])).live = [] := by
  decide +kernel

end NotificationService

end Shilpo.Notifications
