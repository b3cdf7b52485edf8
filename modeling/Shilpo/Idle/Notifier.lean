import Shilpo.Idle.Invariants

/-!
# The notifier and the idle domain

Two parties and a channel: the backend, each of whose live registrations may say that
the user has gone idle or has resumed, and the domain, which handles what they said
in order, and meanwhile registers everything anew. A message carries an id only; the
ids of a new registration start from `1` again; so a message of an old registration is
taken for one of the new registration that got its id, and `stale_event_fires_another`
suspends the machine where the user has reached the timeout for locking the screen.

`faithful_iff` says when a run takes no message for another's: exactly when no message
that a behaviour fires or joins a grace overlay on was put on the channel before the
last time everything was unregistered.
-/

namespace Shilpo.Idle

open Shilpo.Domain Shilpo.Theory IdleDomainState

variable {s : IdleDomainState}

/-! ### Registration -/

/-- A live registration of a behaviour is for its current configuration, and under its id. -/
def Current (g : InnerState) (r : Registration) : Prop :=
  r.id ≠ heartbeatNotificationId → ∃ name cfg, r.madeFor = some (name, cfg) ∧
    g.behaviors.get name = some cfg ∧ g.behaviorIdMap.lookup r.id = some name

theorem nodup_assignIds (entries : List (String × IdleBehaviorConfig)) (n : ℕ) :
    ((assignIds entries n).map Prod.fst).Nodup := by
  have h : (assignIds entries n).map Prod.fst =
      List.range' n (entries.filter (·.2.registrable)).length := by
    rw [assignIds, List.map_map]
    exact List.zipIdx_map_snd n _
  rw [h]
  exact List.nodup_range'

/-- What is known of a registry while behaviours among `entries` are registered. -/
structure IdleDomainState.Registry.Sound (r : Registry)
    (entries : List (String × IdleBehaviorConfig)) (epoch : ℕ) : Prop where
  epoch_eq : r.backend.epoch = epoch
  registered : ∀ x ∈ r.backend.registered, x.epoch = epoch ∧ (x.id ≠ heartbeatNotificationId →
    ∃ name cfg, x.madeFor = some (name, cfg) ∧ (name, cfg) ∈ entries ∧
      (x.id, name) ∈ r.behaviorIdMap)

/-- A registration adds one to those that were there, or replaces one of them. -/
theorem mem_registerNotification {b : Backend} {id timeoutMs : ℕ}
    {madeFor : Option (String × IdleBehaviorConfig)}
    {x : Registration} (h : x ∈ (b.registerNotification id timeoutMs madeFor).registered) :
    x ∈ b.registered ∨ x = ⟨id, timeoutMs, b.epoch, madeFor⟩ := by
  unfold Backend.registerNotification at h
  split_ifs at h
  · rcases List.mem_append.mp h with h | h
    · exact .inl (List.mem_filter.mp h).1
    · exact .inr (List.mem_singleton.mp h)
  · exact .inl h

@[simp] theorem epoch_registerNotification (b : Backend) (id timeoutMs : ℕ)
    (madeFor : Option (String × IdleBehaviorConfig)) :
    (b.registerNotification id timeoutMs madeFor).epoch = b.epoch := by
  unfold Backend.registerNotification; split_ifs <;> rfl

theorem IdleDomainState.Registry.Sound.registerBehavior {r : Registry}
    {entries : List (String × IdleBehaviorConfig)} {epoch : ℕ}
    (h : r.Sound entries epoch) {entry : String × IdleBehaviorConfig} (hentry : entry ∈ entries) :
    (r.registerBehavior entry).Sound entries epoch := by
  unfold Registry.registerBehavior
  split_ifs
  · refine ⟨by simp [h.epoch_eq], ?_⟩
    intro x hx
    rcases mem_registerNotification hx with hx | rfl
    · refine ⟨(h.registered x hx).1, ?_⟩
      intro hid
      obtain ⟨name, cfg, hm, he, hmap⟩ := (h.registered x hx).2 hid
      exact ⟨name, cfg, hm, he, List.mem_append_left _ hmap⟩
    · exact ⟨h.epoch_eq, fun _ => ⟨entry.1, entry.2, rfl, hentry, by simp⟩⟩
  · exact h

theorem IdleDomainState.Registry.Sound.foldl {entries : List (String × IdleBehaviorConfig)}
    {epoch : ℕ} (es : List _)
    (hes : ∀ e ∈ es, e ∈ entries) {r : Registry} (h : r.Sound entries epoch) :
    (es.foldl Registry.registerBehavior r).Sound entries epoch := by
  induction es generalizing r with
  | nil => exact h
  | cons e es ih =>
    exact ih (fun e' he' => hes e' (List.mem_cons_of_mem _ he'))
      (h.registerBehavior (hes e (by simp)))

/-- What registering everything anew leaves: all of it current, and one clearing later. -/
def Fresh (s s' : IdleDomainState) : Prop :=
  s'.backend.epoch = s.backend.epoch + 1 ∧
    ∀ r ∈ s'.backend.registered, r.epoch = s'.backend.epoch ∧ Current s'.inner r

theorem fresh_registerAll (s : IdleDomainState) : Fresh s s.registerAllNotificationsLocked := by
  simp only [registerAllNotificationsLocked, Fresh]
  by_cases hready : s.inner.lifecycle = .ready
  · have h : (registry s.inner.behaviors s.backend.unregisterAll).Sound s.inner.behaviors.entries
        (s.backend.epoch + 1) := by
      refine Registry.Sound.foldl _ (fun _ he => he)
        ⟨by simp [Backend.unregisterAll], ?_⟩
      intro x hx
      rcases mem_registerNotification hx with hx | rfl
      · cases hx
      · exact ⟨rfl, fun hid => absurd rfl hid⟩
    simp only [hready, ne_eq, not_true_eq_false, if_false]
    refine ⟨h.epoch_eq, fun r hr => ⟨by rw [(h.registered r hr).1, h.epoch_eq], ?_⟩⟩
    intro hid
    obtain ⟨name, cfg, hm, he, hmap⟩ := (h.registered r hr).2 hid
    refine ⟨name, cfg, hm, BTreeMap.get_eq_some_iff.mpr he, lookup_of_mem ?_ hmap⟩
    rw [behaviorIdMap_registry]
    exact nodup_assignIds _ _
  · simp [hready, Backend.unregisterAll]

/-- Nothing about the registrations changes. -/
structure SameRegistrations (s s' : IdleDomainState) : Prop where
  behaviors : s'.inner.behaviors = s.inner.behaviors
  behaviorIdMap : s'.inner.behaviorIdMap = s.inner.behaviorIdMap
  registered : s'.backend.registered = s.backend.registered
  epoch : s'.backend.epoch = s.backend.epoch

theorem registrations_releaseInhibits (s : IdleDomainState) (p : InhibitSource → Bool) :
    SameRegistrations s (s.releaseInhibits p) ∨ Fresh s (s.releaseInhibits p) := by
  simp only [releaseInhibits]
  split_ifs
  · exact .inr (fresh_registerAll { s with
      inner := { s.inner with
        inhibitSources := s.inner.inhibitSources.filter (fun source => !p source) } })
  · exact .inl ⟨rfl, rfl, rfl, rfl⟩

theorem sameRegistrations_advance (s : IdleDomainState) (nowMs : ℕ) :
    SameRegistrations s { s with inner := advanceIdleSeconds s.inner nowMs } := by
  unfold advanceIdleSeconds
  split_ifs <;> exact ⟨rfl, rfl, rfl, rfl⟩

theorem sameRegistrations_tick (s : IdleDomainState) (nowMs : ℕ) :
    SameRegistrations s (s.tick nowMs) := by
  have ht : SameRegistrations s (s.tickSupervisor nowMs) := by
    simp only [tickSupervisor]; split <;> exact ⟨rfl, rfl, rfl, rfl⟩
  have ha := sameRegistrations_advance (s.tickSupervisor nowMs) nowMs
  have h : SameRegistrations s { s.tickSupervisor nowMs with
      inner := advanceIdleSeconds (s.tickSupervisor nowMs).inner nowMs } :=
    ⟨ha.1.trans ht.1, ha.2.trans ht.2, ha.3.trans ht.3, ha.4.trans ht.4⟩
  simp only [tick]
  split <;> exact ⟨h.1, h.2, h.3, h.4⟩

theorem sameRegistrations_handleBackendEvent (s : IdleDomainState) (event : IdleBackendEvent)
    (nowMs : ℕ) : SameRegistrations s (s.handleBackendEvent event nowMs) := by
  have hj (name : String) :
      SameRegistrations s { s with inner := joinGrace s.inner name nowMs } := by
    simp only [joinGrace]
    split
    · split_ifs <;> exact ⟨rfl, rfl, rfl, rfl⟩
    · exact ⟨rfl, rfl, rfl, rfl⟩
  cases event with
  | idled id =>
    simp only [handleBackendEvent]
    by_cases hid : id = heartbeatNotificationId
    · simp only [hid, if_true]
      exact ⟨rfl, rfl, rfl, rfl⟩
    simp only [hid, if_false]
    cases s.inner.behaviorIdMap.lookup id with
    | none => exact ⟨rfl, rfl, rfl, rfl⟩
    | some name =>
      split_ifs
      · exact ⟨rfl, rfl, rfl, rfl⟩
      · exact ⟨rfl, rfl, rfl, rfl⟩
      · exact ⟨(hj name).1, (hj name).2, (hj name).3, (hj name).4⟩
  | resumed id => simp only [handleBackendEvent]; split_ifs <;> exact ⟨rfl, rfl, rfl, rfl⟩

theorem registrations_applyCommand (s : IdleDomainState) (ticket : ℕ) (command : IdleCommand) :
    SameRegistrations s (s.applyCommand ticket command) ∨
    Fresh s (s.applyCommand ticket command) := by
  cases command with
  | configureBehaviors behaviors graceSeconds =>
    exact .inr (fresh_registerAll (clearGrace { s with
      inner := { s.inner with graceSeconds := graceSeconds, behaviors := behaviors } }))
  | removeInhibit source =>
    exact (registrations_releaseInhibits s fun candidate => candidate.sameIdentity source).imp
      (fun h => ⟨h.1, h.2, h.3, h.4⟩) id
  | clearInhibitsForSender sender =>
    exact (registrations_releaseInhibits s (·.isFrom sender)).imp (fun h => ⟨h.1, h.2, h.3, h.4⟩) id
  | reportGraceCompleted graceGeneration =>
    simp only [applyCommand]
    split <;> exact .inl ⟨rfl, rfl, rfl, rfl⟩
  | addInhibit _ | cancelGrace | resetQuarantine => exact .inl ⟨rfl, rfl, rfl, rfl⟩

/-- **A step registers everything anew, clears the backend, or leaves the registrations as they
are.** -/
theorem registrations_micro (s : IdleDomainState) (u : Micro) :
    SameRegistrations s (s.micro u) ∨ Fresh s (s.micro u) := by
  match u with
  | .call (.markReady nowMs) =>
    exact .inr (fresh_registerAll { s with
      inner := { s.inner with
        supervisor := s.inner.supervisor.markRunning nowMs
        hadPriorReadiness := true
        lifecycle := .ready
        lastError := none } })
  | .call (.reportOwnerFailure _ _) => exact .inr ⟨rfl, fun r hr => by cases hr⟩
  | .call (.tick nowMs) => exact .inl (sameRegistrations_tick s nowMs)
  | .call (.handleBackendEvent event nowMs) =>
    exact .inl (sameRegistrations_handleBackendEvent s event nowMs)
  | .call (.submitCommand command) =>
    obtain ⟨_, _, _, _, _, h⟩ := submitCommand_frame s command
    simp only [micro, call, h]
    exact .inl ⟨rfl, rfl, rfl, rfl⟩
  | .call .resetQuarantine =>
    simp only [micro, call, resetQuarantine]
    split_ifs <;> exact .inl ⟨rfl, rfl, rfl, rfl⟩
  | .item item =>
    simp only [micro, applyItem]
    split_ifs
    · exact .inl ⟨rfl, rfl, rfl, rfl⟩
    · exact registrations_applyCommand s item.ticket item.command
  | .call .beginStart | .call (.setAvailable _) | .call (.setHandlers _) | .take =>
    exact .inl ⟨rfl, rfl, rfl, rfl⟩

/-! ### The two parties -/

/-- A message on its way from the backend, and the registration that produced it. -/
structure Message where
  /-- The live registration it came from. -/
  source : Registration
  /-- The user has been idle for as long as asked, or has resumed. -/
  hasIdled : Bool
  deriving DecidableEq

/-- What the domain is told: the registration's id, and nothing else of it. -/
def Message.event (m : Message) : IdleBackendEvent :=
  if m.hasIdled then .idled m.source.id else .resumed m.source.id

/-- The domain, and the messages it has not handled yet, oldest first. -/
structure System where
  domain : IdleDomainState
  channel : List Message

/-- The operation handles a backend event. -/
def IdleDomainState.Op.isEvent : Op → Bool
  | .call (.handleBackendEvent _ _) => true
  | _ => false

/-- What can happen to the two. -/
inductive Act where
  /-- The domain does something of its own. -/
  | op (o : Op) (h : o.isEvent = false)
  /-- A registration says something; only live ones are heard. -/
  | emit (m : Message)
  /-- The domain handles the next message. -/
  | deliver (nowMs : ℕ)

namespace System

/-- One step of the two. -/
def next (sys : System) : Act → System
  | .op o _ => { sys with domain := sys.domain.step o }
  | .emit m =>
    if m.source ∈ sys.domain.backend.registered then { sys with channel := sys.channel ++ [m] }
    else sys
  | .deliver nowMs =>
    match sys.channel with
    | [] => sys
    | m :: rest => ⟨sys.domain.handleBackendEvent m.event nowMs, rest⟩

/-- A new domain on a backend with nothing registered. -/
def init (capacity : ℕ) (available : Bool) (hasHandlerFor : IdleAction → Bool) : System :=
  ⟨new capacity ⟨available, [], 0⟩ hasHandlerFor, []⟩

end System

/-- The behaviours that the active overlay waits for. -/
def graceBehaviors (g : InnerState) : List String := (g.activeGrace.map (·.behaviors)).getD []

/-- Handling the event executes an action of the behaviour, or adds it to the active grace. -/
def ActsFor (s : IdleDomainState) (event : IdleBackendEvent) (nowMs : ℕ) (name : String) : Prop :=
  let s' := s.handleBackendEvent event nowMs
  (∃ call ∈ s'.executed.drop s.executed.length, call.behaviorName = name) ∨
    name ∈ graceBehaviors s'.inner ∧ name ∉ graceBehaviors s.inner

/-- The registration is live, and was made for the behaviour as it is configured. -/
def LiveFor (s : IdleDomainState) (r : Registration) (name : String) : Prop :=
  r ∈ s.backend.registered ∧ ∃ cfg, s.inner.behaviors.get name = some cfg ∧
    r.madeFor = some (name, cfg)

/-- A message is handled on behalf of a behaviour only if it came from a live registration of it. -/
def Faithful (sys : System) : Act → Prop
  | .deliver nowMs => ∀ m rest, sys.channel = m :: rest → ∀ name,
      m.hasIdled → ActsFor sys.domain m.event nowMs name → LiveFor sys.domain m.source name
  | _ => True

/-- The behaviour that the id would make the domain fire or let join the active overlay. -/
def listener (s : IdleDomainState) (id : ℕ) : Option String :=
  if id = heartbeatNotificationId ∨ s.inner.inhibitSources ≠ [] then none
  else (s.inner.behaviorIdMap.lookup id).filter fun name =>
    s.inner.graceSeconds ≤ 0.0 || decide (name ∉ graceBehaviors s.inner)

/-- An `Idled` message that the domain would act on was put on the channel after the last time
everything was unregistered. -/
def SinceCleared (sys : System) : Act → Prop
  | .deliver _ => ∀ m rest, sys.channel = m :: rest → m.hasIdled →
      (listener sys.domain m.source.id).isSome →
      m.source.epoch = sys.domain.backend.epoch
  | _ => True

/-! ### A stale message -/

/-- The registration that the default `lock` gets when the domain is first ready. -/
def lockRegistration : Registration := ⟨1, 600000, 1, some ("lock", ⟨true, 600.0, .lock, false⟩)⟩

/-- A configuration in which suspending is the only behaviour, and gets the first id. -/
def suspendOnly : Behaviors where
  entries := [("suspend", ⟨true, 1800.0, .suspend, true⟩)]
  sorted := by decide

/-- The user reaches the timeout for locking while a new configuration is about to be applied. -/
def staleEvent : List Act := [
  .op (.call .beginStart) rfl, .op (.call (.markReady 10)) rfl,
  .emit ⟨lockRegistration, true⟩,
  .op (.call (.submitCommand (.configureBehaviors suspendOnly 0.0))) rfl,
  .op .processPendingCommands rfl]

set_option maxRecDepth 8000 in
/-- **A message of an old registration fires another behaviour**: what was said of the timeout for
locking suspends the machine. -/
theorem stale_event_fires_another :
    let sys := run System.next (System.init 8 true fun _ => true) staleEvent
    sys.channel = [⟨lockRegistration, true⟩] ∧
      (sys.next (.deliver 20)).domain.executed = [⟨"suspend", .suspend, true, none, []⟩] ∧
      ¬ Faithful sys (.deliver 20) := by
  intro sys
  have hchannel : sys.channel = [⟨lockRegistration, true⟩] := by decide
  have hexecuted : (sys.next (.deliver 20)).domain.executed =
      [⟨"suspend", .suspend, true, none, []⟩] := by
    decide
  have hacts : ActsFor sys.domain (Message.event ⟨lockRegistration, true⟩) 20 "suspend" :=
    .inl (by decide)
  have hgone : lockRegistration ∉ sys.domain.backend.registered := by decide
  exact ⟨hchannel, hexecuted, fun h => hgone (h _ [] hchannel "suspend" rfl hacts).1⟩

/-! ### When no message is taken for another's -/

/-- What ties the registrations and the messages to the domain. -/
structure Ties (channel : List Message) (s : IdleDomainState) : Prop where
  wf : WF s.inner
  registered : ∀ r ∈ s.backend.registered, r.epoch = s.backend.epoch ∧ Current s.inner r
  channel : ∀ m ∈ channel, m.source.epoch ≤ s.backend.epoch ∧
    (m.source.epoch = s.backend.epoch → m.source ∈ s.backend.registered)

/-- An old registration does not come back: its messages stay old. -/
theorem ties_micro (channel : List Message) : Preserved micro (Ties channel) := by
  intro s u h
  rcases registrations_micro s u with hsame | ⟨hepoch, hfresh⟩
  · refine ⟨wf_micro s u h.wf, fun r hr => ?_, fun m hm => ?_⟩
    · rw [hsame.registered] at hr
      rw [hsame.epoch]
      refine ⟨(h.registered r hr).1, ?_⟩
      intro hid
      rw [hsame.behaviors, hsame.behaviorIdMap]
      exact (h.registered r hr).2 hid
    · rw [hsame.registered, hsame.epoch]
      exact h.channel m hm
  · refine ⟨wf_micro s u h.wf, hfresh, ?_⟩
    intro m hm
    have := (h.channel m hm).1
    rw [hepoch]
    exact ⟨by omega, fun he => by omega⟩

theorem ties_next : Preserved System.next fun sys => Ties sys.channel sys.domain := by
  intro sys a h
  cases a with
  | op o _ => exact (ties_micro sys.channel).of_micro step_eq_run_unfold sys.domain o h
  | emit m =>
    simp only [System.next]
    split_ifs with hm
    · refine ⟨h.wf, h.registered, ?_⟩
      intro m' hm'
      rcases List.mem_append.mp hm' with hm' | hm'
      · exact h.channel m' hm'
      · obtain rfl := List.mem_singleton.mp hm'
        exact ⟨(h.registered _ hm).1.le, fun _ => hm⟩
    · exact h
  | deliver nowMs =>
    simp only [System.next]
    split
    · exact h
    · next m rest hc =>
      have hrest : Ties rest sys.domain :=
        ⟨h.wf, h.registered,
          fun m' hm' => h.channel m' (by rw [hc]; exact List.mem_cons_of_mem _ hm')⟩
      exact ties_micro rest sys.domain (.call (.handleBackendEvent m.event nowMs)) hrest

theorem graceBehaviors_joinGrace (g : InnerState) (name : String) (nowMs : ℕ) :
    graceBehaviors (joinGrace g name nowMs) =
      if name ∈ graceBehaviors g then graceBehaviors g else graceBehaviors g ++ [name] := by
  obtain ha | ⟨active, ha⟩ := Option.eq_none_or_eq_some g.activeGrace
  · simp [joinGrace, graceBehaviors, ha]
  · by_cases h : name ∈ active.behaviors <;> simp [joinGrace, graceBehaviors, ha, h]

@[simp] theorem graceBehaviors_bumpRevision (s : IdleDomainState) :
    graceBehaviors s.bumpRevision.inner = graceBehaviors s.inner := rfl

/-- The domain acts for the behaviour that listens, and for no other. -/
theorem actsFor_iff (hwf : WF s.inner) (id nowMs : ℕ) (name : String) :
    ActsFor s (.idled id) nowMs name ↔ listener s id = some name := by
  have he := executed_micro s (.call (.handleBackendEvent (.idled id) nowMs))
  simp only [micro, call, calls, firing] at he
  simp only [ActsFor, he, List.drop_left, listener]
  simp only [handleBackendEvent]
  by_cases hid : id = heartbeatNotificationId
  · simp [hid, callsOf, graceBehaviors, bumpRevision]
  simp only [hid, if_false, false_or]
  cases hl : s.inner.behaviorIdMap.lookup id with
  | none => simp [callsOf]
  | some name' =>
    obtain ⟨cfg, hcfg⟩ := Option.isSome_iff_exists.mp (hwf.ids id name' (mem_of_lookup hl))
    by_cases hi : s.inner.inhibitSources = []
    · by_cases hg : s.inner.graceSeconds ≤ 0.0
      · simp [hi, hg, callsOf, callsFor, hcfg, bumpRevision, graceBehaviors]
      · have hj : name ∈ graceBehaviors (joinGrace s.inner name' nowMs) ∧
            name ∉ graceBehaviors s.inner ↔
          name' = name ∧ name ∉ graceBehaviors s.inner := by
          rw [graceBehaviors_joinGrace]
          refine and_congr_left ?_
          intro hn
          by_cases hm : name' ∈ graceBehaviors s.inner
          · simpa [hm, hn] using fun h : name' = name => hn (h ▸ hm)
          · simp [hm, hn, eq_comm]
        simpa [hi, hg, callsOf, Option.filter_eq_some_iff] using hj
    · simp [hi, callsOf, graceBehaviors]

/-- **A run takes no message for another's exactly when none that the domain acts on was put on the
channel before the last clearing of the registrations.** -/
theorem faithful_iff (capacity : ℕ) (available : Bool) (hasHandlerFor : IdleAction → Bool)
    (acts : List Act) :
    Along System.next Faithful (System.init capacity available hasHandlerFor) acts ↔
      Along System.next SinceCleared (System.init capacity available hasHandlerFor) acts := by
  refine along_congr ties_next (fun sys a h => ?_) ⟨wf_new _ _ _, ?_, by simp [System.init]⟩ acts
  · cases a with
    | op _ _ | emit _ => exact Iff.rfl
    | deliver nowMs =>
      refine forall₃_congr ?_
      intro m rest hc
      have hm := h.channel m (by rw [hc]; simp)
      constructor
      · intro hf hidled hl
        obtain ⟨name, hname⟩ := Option.isSome_iff_exists.mp hl
        have hacts : ActsFor sys.domain m.event nowMs name := by
          rw [Message.event, if_pos hidled]
          exact (actsFor_iff h.wf _ _ _).mpr hname
        exact (h.registered _ (hf name hidled hacts).1).1
      · intro hs name hidled hacts
        rw [Message.event, if_pos hidled, actsFor_iff h.wf] at hacts
        have hlive := hm.2 (hs hidled (Option.isSome_of_eq_some hacts))
        -- the live registration of this id is that of the behaviour that listens to it
        simp only [listener] at hacts
        split_ifs at hacts with hi
        obtain ⟨hl, -⟩ := Option.filter_eq_some_iff.mp hacts
        obtain ⟨name', cfg, hmade, hcfg, hl'⟩ := (h.registered _ hlive).2 fun hid => hi (.inl hid)
        obtain rfl : name' = name := Option.some.inj (hl'.symm.trans hl)
        exact ⟨hlive, cfg, hcfg, hmade⟩
  · simp [System.init, new, publishSnapshotLocked, recomputeUnsupportedActionsLocked]

end Shilpo.Idle
