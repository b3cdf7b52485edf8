import Shilpo.Notifications.Identity

/-!
# What the clients are told

A client that showed a notification waits for `NotificationClosed` to know that it is gone, and
for `ActionInvoked` to know what the user chose. The live list changes inside the domain, and the
signals are sent by the layers around it from the command alone, without its outcome.

`Told` says of a step that for every id it sends as many `NotificationClosed`, with the reason for
that step, as notifications with that id leave the live list; and `ActionInvoked` only for one that
is live, and before its `NotificationClosed`. While an owner is connected, a run keeps to that
exactly when its steps are `Heard` (`told_iff_along`): a command that names a notification names
exactly one that is live, `CloseNotification` is not rejected, and nothing is live when all are
dismissed, since of these no one is told.
-/

namespace Shilpo.Notifications

open Shilpo.Domain Shilpo.Theory

namespace NotificationService

variable {s : NotificationService}

/-! ### What a step sends and what leaves -/

/-- The signals that a step sends. -/
def sent (s : NotificationService) (a : NotificationStep) : List NotificationSignal :=
  (s.next a).signals.drop s.signals.length

/-- How many notifications with this id leave the live list. -/
def departures (s : NotificationService) (a : NotificationStep) (id : UInt32) : ℕ :=
  s.liveIds.count id - (s.next a).liveIds.count id

/-- The reason that goes with what a step takes out. -/
def closeReason : NotificationStep → NotificationCloseReason
  | .submit (.expire _) => .expired
  | .closeNotification _ => .closedByRequest
  | _ => .dismissedByUser

/-- As many notifications are said to be closed as leave, for the reason of the step. -/
def ClosedTold (s : NotificationService) (a : NotificationStep) : Prop :=
  ∀ id reason, (s.sent a).count (.notificationClosed id reason) =
    if reason = closeReason a then s.departures a id else 0

/-- An action is said to be invoked on a live notification, not yet said to be closed. -/
def InvokedTold (s : NotificationService) (a : NotificationStep) : Prop :=
  ∀ l r id actionKey, s.sent a = l ++ NotificationSignal.actionInvoked id actionKey :: r →
    id ∈ s.liveIds ∧ ∀ reason, .notificationClosed id reason ∉ l

/-- What the clients of a connected owner are to be told of a step. -/
def Told (s : NotificationService) (a : NotificationStep) : Prop :=
  s.connected = true → s.ClosedTold a ∧ s.InvokedTold a

/-- The command means one live notification, if the domain takes commands. -/
def MeansOne (s : NotificationService) (id : UInt32) : Prop :=
  s.adapter.accepts = true → s.liveIds.count id = 1

/-- What is told is what happens: the commands mean one live notification each,
`CloseNotification` is taken, and there is nothing to dismiss when all are dismissed. -/
def Heard (s : NotificationService) (a : NotificationStep) : Prop :=
  s.connected = true →
    match a with
    | .closeNotification id => s.adapter.accepts = true ∧ s.MeansOne id
    | .submit (.dismiss id) | .submit (.expire id) | .submit (.invokeAction id _) => s.MeansOne id
    | .submit .dismissAll => s.adapter.accepts = true → s.live = []
    | _ => True

/-! ### Counting -/

theorem count_filter_ids (live : List Notification) (id id' : UInt32) :
    ((live.filter (·.id ≠ id)).map (·.id)).count id' =
      if id' = id then 0 else (live.map (·.id)).count id' := by
  induction live with
  | nil => simp
  | cons n live ih =>
    by_cases hn : n.id = id
    · rw [List.filter_cons_of_neg (by simpa using hn), ih, List.map_cons, List.count_cons, hn]
      by_cases hid : id' = id
      · rw [if_pos hid, if_pos hid]
      · rw [if_neg hid, if_neg hid, if_neg fun heq => hid (beq_iff_eq.mp heq).symm, Nat.add_zero]
    · rw [List.filter_cons_of_pos (by simpa using hn), List.map_cons, List.count_cons, ih,
        List.map_cons, List.count_cons]
      by_cases hid : id' = id
      · rw [if_pos hid, if_pos hid, if_neg fun heq => hn ((beq_iff_eq.mp heq).trans hid)]
      · rw [if_neg hid, if_neg hid]

variable {a : NotificationStep} {id : UInt32}

/-- Of the notifications with one id a command takes all. -/
theorem departures_removes (h : s.Settled) {command : NotificationCommand}
    (hc : NotificationState.Removes id command)
    (ha : (s.next a).adapter = (s.adapter.submitCommand command).1) (id' : UInt32) :
    s.departures a id' =
      if s.adapter.accepts = true ∧ id' = id then s.liveIds.count id else 0 := by
  rw [departures, liveIds, liveIds, live, live, ha, hc.notifications h]
  by_cases haccepts : s.adapter.accepts = true
  · rw [if_pos haccepts, count_filter_ids]
    by_cases hid : id' = id
    · rw [if_pos hid, if_pos ⟨haccepts, hid⟩, hid, Nat.sub_zero]
    · rw [if_neg hid, if_neg fun hboth => hid hboth.2, Nat.sub_self]
  · rw [if_neg haccepts, if_neg fun hboth => haccepts hboth.1, Nat.sub_self]

theorem departures_of_append {new : List Notification} (ha : (s.next a).live = s.live ++ new)
    (id : UInt32) : s.departures a id = 0 := by
  rw [departures, liveIds, liveIds, ha, List.map_append, List.count_append]
  exact Nat.sub_eq_zero_of_le (Nat.le_add_right _ _)

/-! ### Silent steps and steps that close one -/

/-- A step that sends nothing is told of when nothing leaves. -/
theorem told_of_silent (hsent : s.sent a = []) :
    s.Told a ↔ (s.connected = true → ∀ id, s.departures a id = 0) := by
  refine imp_congr_right fun _ => ⟨fun htold id => ?_, fun hnone => ⟨fun id reason => ?_, ?_⟩⟩
  · have := htold.1 id (closeReason a)
    rw [hsent, if_pos rfl, List.count_nil] at this
    exact this.symm
  · rw [hsent, hnone, ite_self, List.count_nil]
  · intro l r id actionKey hsplit
    rw [hsent] at hsplit
    exact absurd hsplit.symm (by simp)

/-- One signal says that `n` notifications with an id leave, and no others, when `n` is one. -/
theorem closed_once_iff {signals : List NotificationSignal} {reason : NotificationCloseReason}
    {n : ℕ} (hsignals : ∀ id' reason', signals.count (.notificationClosed id' reason') =
      if id' = id ∧ reason' = reason then 1 else 0) :
    (∀ id' reason', signals.count (.notificationClosed id' reason') =
      if reason' = reason then (if id' = id then n else 0) else 0) ↔ n = 1 := by
  constructor
  · intro hcount
    have := hcount id reason
    rw [hsignals, if_pos ⟨rfl, rfl⟩, if_pos rfl, if_pos rfl] at this
    exact this.symm
  · rintro rfl id' reason'
    rw [hsignals]
    by_cases hid : id' = id <;> by_cases hreason : reason' = reason <;> simp [hid, hreason]

theorem count_closed (id : UInt32) (reason : NotificationCloseReason) (id' : UInt32)
    (reason' : NotificationCloseReason) :
    [NotificationSignal.notificationClosed id reason].count (.notificationClosed id' reason') =
      if id' = id ∧ reason' = reason then 1 else 0 := by
  rw [List.count_singleton]
  refine if_congr ?_ rfl rfl
  rw [beq_iff_eq, NotificationSignal.notificationClosed.injEq]
  exact and_congr eq_comm eq_comm

/-- A step that says that one is closed is told of when one leaves. -/
theorem told_of_closed {n : ℕ} (hconnected : s.connected = true)
    (hsent : s.sent a = [.notificationClosed id (closeReason a)])
    (hleave : ∀ id', s.departures a id' = if id' = id then n else 0) : s.Told a ↔ n = 1 := by
  have hclosed : s.ClosedTold a ↔ n = 1 := by
    rw [ClosedTold, hsent]
    simp only [hleave]
    exact closed_once_iff (count_closed id _)
  refine ⟨fun htold => hclosed.mp (htold hconnected).1, fun hn _ => ⟨hclosed.mpr hn, ?_⟩⟩
  intro l r id' actionKey hsplit
  have hmem : .actionInvoked id' actionKey ∈ s.sent a :=
    hsplit ▸ List.mem_append_right _ List.mem_cons_self
  rw [hsent, List.mem_singleton] at hmem
  cases hmem

/-- A step that says that an action is invoked on one and that it is closed. -/
theorem told_of_invoked {key : String} (hconnected : s.connected = true)
    (hsent : s.sent a = [.actionInvoked id key, .notificationClosed id (closeReason a)])
    (hleave : ∀ id', s.departures a id' = if id' = id then s.liveIds.count id else 0) :
    s.Told a ↔ s.liveIds.count id = 1 := by
  have hclosed : s.ClosedTold a ↔ s.liveIds.count id = 1 := by
    rw [ClosedTold, hsent]
    simp only [hleave]
    refine closed_once_iff fun id' reason' => ?_
    rw [List.count_cons_of_ne (by simp), count_closed]
  refine ⟨fun htold => hclosed.mp (htold hconnected).1, fun hn _ => ⟨hclosed.mpr hn, ?_⟩⟩
  intro l r id' actionKey hsplit
  rw [hsent] at hsplit
  have hlive : id ∈ s.liveIds := List.count_pos_iff.mp (by omega)
  cases l with
  | nil =>
    obtain ⟨hhead, -⟩ := List.cons.inj hsplit
    cases hhead
    exact ⟨hlive, fun _ hmem => absurd hmem List.not_mem_nil⟩
  | cons head l =>
    obtain ⟨-, htail⟩ := List.cons.inj hsplit
    have hmem : .actionInvoked id' actionKey ∈
        [NotificationSignal.notificationClosed id (closeReason a)] :=
      htail ▸ List.mem_append_right _ List.mem_cons_self
    rw [List.mem_singleton] at hmem
    cases hmem

/-! ### The signals of each step -/

theorem sent_of_same (ha : (s.next a).signals = s.signals) :
    s.sent a = [] := by
  rw [sent, ha, List.drop_length]

theorem sent_of_append {a : NotificationStep} {new : List NotificationSignal}
    (ha : (s.next a).signals = s.signals ++ new) : s.sent a = new := by
  rw [sent, ha, List.drop_left]

theorem sent_submit (h : s.Settled) (hconnected : s.connected = true)
    (command : NotificationCommand) :
    s.sent (.submit command) = if s.adapter.accepts then announced command else [] := by
  cases haccepts : s.adapter.accepts with
  | true =>
    refine sent_of_append ?_
    simp [next, submitCommand, NotificationState.submitCommand_of_queue h, haccepts, hconnected,
      Except.isOk, Except.toBool]
  | false =>
    refine sent_of_same ?_
    simp [next, submitCommand, NotificationState.submitCommand_of_queue h, haccepts,
      Except.isOk, Except.toBool]

/-- A command of the shell that takes the notifications with one id out. -/
theorem told_submit_iff (h : s.Settled) (hconnected : s.connected = true)
    {command : NotificationCommand} (hc : NotificationState.Removes id command)
    (htold : s.adapter.accepts = true →
      (∀ id', s.departures (.submit command) id' = if id' = id then s.liveIds.count id else 0) →
      (s.Told (.submit command) ↔ s.liveIds.count id = 1)) :
    s.Told (.submit command) ↔ s.MeansOne id := by
  have hleave := departures_removes h hc (a := .submit command) rfl
  by_cases haccepts : s.adapter.accepts = true
  · simp only [haccepts, true_and] at hleave
    rw [htold haccepts hleave, MeansOne]
    exact ⟨fun hone _ => hone, fun hone => hone haccepts⟩
  · simp only [haccepts] at hleave
    have hsent : s.sent (.submit command) = [] := by
      rw [sent_submit h hconnected, if_neg haccepts]
    rw [told_of_silent hsent]
    exact iff_of_true (fun _ => hleave) fun hyes => absurd hyes haccepts

/-- **A step is told of exactly when it is `Heard`.** -/
theorem told_iff (h : s.Settled) (a : NotificationStep) : s.Told a ↔ s.Heard a := by
  by_cases hconnected : s.connected = true
  swap
  · exact iff_of_true (fun hyes => absurd hyes hconnected) fun hyes => absurd hyes hconnected
  have hheard : ∀ {p : Prop}, (s.connected = true → p) ↔ p :=
    fun {p} => ⟨fun hp => hp hconnected, fun hp _ => hp⟩
  -- a step that sends nothing and keeps what is live, or adds to it
  have hsilent : ∀ {a : NotificationStep} (new : List Notification),
      (s.next a).signals = s.signals → (s.next a).live = s.live ++ new → s.Told a := by
    intro a new hsignals hlive
    rw [told_of_silent (sent_of_same hsignals)]
    exact fun _ => departures_of_append hlive
  have hsame : ∀ {a : NotificationStep}, (s.next a).signals = s.signals →
      (s.next a).live = s.live → s.Told a := by
    intro a hsignals hlive
    exact hsilent [] hsignals (by rw [hlive, List.append_nil])
  cases a with
  | notify call =>
    refine iff_of_true ?_ fun _ => trivial
    have hlive := live_notify h call
    by_cases hshown : s.adapter.Shown (call.notification (s.notifyId call))
    · rw [if_pos hshown] at hlive
      exact hsilent _ rfl hlive
    · rw [if_neg hshown] at hlive
      exact hsame rfl hlive
  | closeNotification id =>
    have hleave := departures_removes h .dismiss (a := .closeNotification id) rfl
    have hsent : s.sent (.closeNotification id) =
        [.notificationClosed id (closeReason (.closeNotification id))] := sent_of_append rfl
    simp only [Heard, hheard, MeansOne]
    by_cases haccepts : s.adapter.accepts = true
    · simp only [haccepts, true_and] at hleave
      rw [told_of_closed hconnected hsent hleave]
      simp [haccepts]
    · simp only [haccepts] at hleave
      rw [told_of_closed (n := 0) hconnected hsent (by simpa using hleave)]
      simp [haccepts]
  | submit command =>
    cases command with
    | push notif =>
      refine iff_of_true ?_ fun _ => trivial
      have hsent : s.sent (.submit (.push notif)) = [] := by
        rw [sent_submit h hconnected]
        exact ite_self _
      have hlive := NotificationState.notifications_push h notif
      rw [told_of_silent hsent]
      by_cases hshown : s.adapter.Shown notif
      · rw [if_pos hshown] at hlive
        exact fun _ => departures_of_append hlive
      · rw [if_neg hshown] at hlive
        exact fun _ => departures_of_append (hlive.trans (List.append_nil _).symm)
    | dismiss id =>
      rw [Heard, hheard]
      refine told_submit_iff h hconnected .dismiss fun haccepts hleave => ?_
      refine told_of_closed hconnected ?_ hleave
      rw [sent_submit h hconnected, if_pos haccepts]
      rfl
    | expire id =>
      rw [Heard, hheard]
      refine told_submit_iff h hconnected .expire fun haccepts hleave => ?_
      refine told_of_closed hconnected ?_ hleave
      rw [sent_submit h hconnected, if_pos haccepts]
      rfl
    | invokeAction id actionKey =>
      rw [Heard, hheard]
      refine told_submit_iff h hconnected (.invokeAction actionKey) fun haccepts hleave => ?_
      refine told_of_invoked hconnected (?_ : _ = [NotificationSignal.actionInvoked _ actionKey, _])
        hleave
      rw [sent_submit h hconnected, if_pos haccepts]
      rfl
    | dismissAll =>
      have hsent : s.sent (.submit .dismissAll) = [] := by
        rw [sent_submit h hconnected]
        exact ite_self _
      have hlive : (s.next (.submit .dismissAll)).live =
          if s.adapter.accepts then [] else s.live := NotificationState.notifications_dismissAll h
      rw [told_of_silent hsent, Heard, hheard, hheard]
      by_cases haccepts : s.adapter.accepts = true
      · rw [if_pos haccepts] at hlive
        simp only [departures, liveIds, hlive, List.map_nil, List.count_nil, Nat.sub_zero, haccepts,
          true_implies]
        constructor
        · intro hnone
          refine List.eq_nil_iff_forall_not_mem.mpr fun n hn => ?_
          have hpos := List.count_pos_iff.mpr (List.mem_map_of_mem (f := (·.id)) hn)
          exact hpos.ne' (hnone n.id)
        · intro hlive id
          rw [hlive]
          rfl
      · rw [if_neg haccepts] at hlive
        exact iff_of_true (departures_of_append (hlive.trans (List.append_nil _).symm))
          fun hyes => absurd hyes haccepts
    | setDnd enabled =>
      refine iff_of_true ?_ fun _ => trivial
      have hsent : s.sent (.submit (.setDnd enabled)) = [] := by
        rw [sent_submit h hconnected]
        exact ite_self _
      rw [told_of_silent hsent]
      exact fun _ => departures_of_append
        ((NotificationState.notifications_setDnd h enabled).trans (List.append_nil _).symm)
    | clearHistory =>
      refine iff_of_true ?_ fun _ => trivial
      have hsent : s.sent (.submit .clearHistory) = [] := by
        rw [sent_submit h hconnected]
        exact ite_self _
      rw [told_of_silent hsent]
      exact fun _ => departures_of_append
        ((NotificationState.notifications_clearHistory h).trans (List.append_nil _).symm)
  | tick nowMs =>
    exact iff_of_true (hsame rfl (NotificationState.notifications_tick nowMs)) fun _ => trivial
  | resetQuarantine =>
    exact iff_of_true (hsame rfl NotificationState.notifications_resetQuarantine) fun _ => trivial
  | reportOwnerFailure | beginStart | markReady | registerServer | connect | disconnect
    | enterStopping | enterStopped => exact iff_of_true (hsame rfl rfl) fun _ => trivial

/-! ### Whole runs -/

/-- **Clients of a connected owner are told once of each notification that leaves, and of nothing
else, in exactly the runs whose steps are all `Heard`.** -/
theorem told_iff_along (steps : List NotificationStep) :
    Along next Told new steps ↔ Along next Heard new steps :=
  along_congr (I := Settled) (fun _ a h => h.next a) (fun _ a h => told_iff h a) settled_new steps

/-! ### Runs that clients cannot follow -/

namespace Sample

/-- A notification is closed twice by its client. -/
def closedTwice : List NotificationStep :=
  ready ++ [NotificationStep.notify (mail 0), .closeNotification 1, .closeNotification 1]

/-- The shell dismisses all of two notifications. -/
def allDismissed : List NotificationStep :=
  ready ++ [NotificationStep.notify (mail 0), .notify (mail 0), .submit .dismissAll]

/-- The user invokes an action of a notification that has expired. -/
def invokedLate : List NotificationStep :=
  ready ++ [NotificationStep.notify (mail 0), .submit (.expire 1),
    .submit (.invokeAction 1 "default")]

end Sample

open Sample in
/-- Clients are told of one that had left; and they are told of one that is gone, and not of two
that leave. -/
theorem closedTwice_not_told :
    ¬ Along next Told new closedTwice ∧
      (run next new closedTwice).signals =
        [.notificationClosed 1 .closedByRequest, .notificationClosed 1 .closedByRequest] ∧
      (run next new allDismissed).live = [] ∧ (run next new allDismissed).signals = [] ∧
      (run next new invokedLate).signals =
        [.notificationClosed 1 .expired, .actionInvoked 1 "default",
          .notificationClosed 1 .dismissedByUser] := by
  refine ⟨fun htold => ?_, by decide +kernel, by decide +kernel, by decide +kernel,
    by decide +kernel⟩
  have hlast := (along_iff new closedTwice).mp htold (ready ++ [NotificationStep.notify (mail 0),
    .closeNotification 1]) (.closeNotification 1) [] rfl
  have hcount := (hlast (by decide +kernel)).1 1 .closedByRequest
  exact absurd hcount (by decide +kernel)

end NotificationService

end Shilpo.Notifications
