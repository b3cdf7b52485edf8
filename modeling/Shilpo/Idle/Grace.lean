import Shilpo.Idle.Invariants
import Shilpo.Theory.Window

/-!
# Grace overlays

The grace overlay is a numbered window (`Shilpo.Theory.Window`): the behaviours that
idle join it, the overlay's report and the fallback timer fire it, and six paths
cancel it. `gathers` connects each part of an operation with what it does to the
window, so that a generation fires at most once, what it fires is what joined since
it was opened, and nothing that cancels it came between (`grace_generations`).

A behaviour that idles while an inhibitor is held does not join
(`inhibited_does_not_join`): the domain remembers it and leaves the overlay alone.
-/

namespace Shilpo.Idle

open Shilpo.Domain Shilpo.Theory IdleDomainState

variable {s : IdleDomainState}

/-! ### What a step does to the overlay -/

/-- The overlay as a window. -/
def window (g : InnerState) : Window String := ⟨g.graceGeneration, g.activeGrace.map (·.behaviors)⟩

/-- The behaviour of the `Idled` event that a step handles. -/
def idled (s : IdleDomainState) : Micro → Option String
  | .call (.handleBackendEvent (.idled id) _) =>
    if id = heartbeatNotificationId then none else s.inner.behaviorIdMap.lookup id
  | _ => none

/-- The behaviour that idles with no inhibitor held, where there is a grace to wait for. -/
def idler (s : IdleDomainState) (u : Micro) : Option String :=
  if s.inner.inhibitSources = [] ∧ ¬ s.inner.graceSeconds ≤ 0.0 then idled s u else none

/-- What a command does to the overlay. -/
def commandAct : IdleCommand → Option (Window.Act String)
  | .configureBehaviors _ _ | .cancelGrace => some .cancel
  | .reportGraceCompleted graceGeneration => some (.complete graceGeneration)
  | _ => none

/-- What a step does to the overlay. -/
def graceAct (s : IdleDomainState) (u : Micro) : Option (Window.Act String) :=
  match u with
  | .call .beginStart | .call (.reportOwnerFailure _ _)
  | .call (.handleBackendEvent (.resumed _) _) => some .cancel
  | .call (.tick nowMs) =>
    if s.inner.supervisor.restarts nowMs then some .cancel
    else (timedOutGrace s.inner nowMs).map fun _ => .expire
  | .call (.handleBackendEvent (.idled _) _) => (idler s u).map .join
  | .item item =>
    if item.generation ≠ s.inner.version.ownerGeneration then none else commandAct item.command
  | _ => none

/-! ### The overlay is a window -/

@[simp] theorem window_clearGrace (s : IdleDomainState) :
    window s.clearGrace.inner = (window s.inner).next .cancel := rfl

@[simp] theorem window_bumpRevision (s : IdleDomainState) :
    window s.bumpRevision.inner = window s.inner := rfl

@[simp] theorem window_registerAll (s : IdleDomainState) :
    window s.registerAllNotificationsLocked.inner = window s.inner := rfl

@[simp] theorem window_advanceIdleSeconds (g : InnerState) (nowMs : ℕ) :
    window (advanceIdleSeconds g nowMs) = window g := by
  unfold advanceIdleSeconds; split_ifs <;> rfl

@[simp] theorem window_releaseInhibits (s : IdleDomainState) (p : InhibitSource → Bool) :
    window (s.releaseInhibits p).inner = window s.inner := by
  obtain ⟨_, _, _, h⟩ := releaseInhibits_frame s p
  rw [h]; rfl

@[simp] theorem window_applied (s : IdleDomainState) (ticket : ℕ) :
    window (s.applied ticket).inner = window s.inner := rfl

theorem window_tickSupervisor (s : IdleDomainState) (nowMs : ℕ) :
    window (s.tickSupervisor nowMs).inner =
      if s.inner.supervisor.restarts nowMs then (window s.inner).next .cancel
      else window s.inner := by
  simp only [tickSupervisor]; split <;> rfl

theorem window_joinGrace (g : InnerState) (name : String) (nowMs : ℕ) :
    window (joinGrace g name nowMs) = (window g).next (.join name) := by
  simp only [joinGrace, window, Window.next]
  cases ha : g.activeGrace with
  | none => rfl
  | some active => by_cases h : name ∈ active.behaviors <;> simp [h, ha]

/-- A report completes the active overlay where it names the last generation. -/
theorem WF.completedGrace_eq {g : InnerState} (hwf : WF g) (graceGeneration : ℕ) :
    completedGrace g graceGeneration =
      if graceGeneration = g.graceGeneration then g.activeGrace else none := by
  unfold completedGrace
  cases ha : g.activeGrace with
  | none => simp
  | some active => simp [Option.filter, (hwf.grace active ha).1, eq_comm (a := graceGeneration)]

theorem window_applyCommand (hwf : WF s.inner) (ticket : ℕ) (command : IdleCommand) :
    window (s.applyCommand ticket command).inner = (window s.inner).after (commandAct command) := by
  cases command with
  | reportGraceCompleted graceGeneration =>
    simp only [applyCommand, commandAct, Window.after, Window.next, hwf.completedGrace_eq]
    by_cases hgen : graceGeneration = s.inner.graceGeneration
    · simp only [hgen, window, if_true]
      cases ha : s.inner.activeGrace with
      | none => exact congrArg _ (by simp [applied, bumpRevision, ha])
      | some active => rfl
    · simp only [hgen, window, if_false]
      rfl
  | removeInhibit source => simp [applyCommand, commandAct, Window.after]
  | clearInhibitsForSender sender => simp [applyCommand, commandAct, Window.after]
  | _ => rfl

/-- **A step does to the overlay what `graceAct` says.** -/
theorem window_micro (hwf : WF s.inner) (u : Micro) :
    window (s.micro u).inner = (window s.inner).after (graceAct s u) := by
  match u with
  | .call (.tick nowMs) =>
    simp only [micro, call, tick, timedOutGrace_tick, graceAct]
    by_cases hr : s.inner.supervisor.restarts nowMs
    · simp [hr, window_tickSupervisor, Window.after]
    cases ht : timedOutGrace s.inner nowMs with
    | none => simp [hr, window_tickSupervisor, Window.after]
    | some grace =>
      have hw := window_clearGrace { s.tickSupervisor nowMs with
        inner := advanceIdleSeconds (s.tickSupervisor nowMs).inner nowMs }
      simp only [window_advanceIdleSeconds, window_tickSupervisor, hr, Bool.false_eq_true, if_false]
        at hw
      simpa [hr, Window.after] using hw
  | .call (.handleBackendEvent (.idled id) nowMs) =>
    simp only [micro, call, handleBackendEvent, graceAct, idler, idled]
    by_cases hid : id = heartbeatNotificationId
    · simp [hid, Window.after]; rfl
    simp only [hid, if_false]
    cases s.inner.behaviorIdMap.lookup id with
    | none => simp [Window.after]
    | some name =>
      by_cases hi : s.inner.inhibitSources = []
      · by_cases hg : s.inner.graceSeconds ≤ 0.0
        · simp [hi, hg, Window.after]
        · simpa [hi, hg, Window.after] using window_joinGrace s.inner name nowMs
      · simp [hi, Window.after]; rfl
  | .call (.handleBackendEvent (.resumed id) nowMs) =>
    simp only [micro, call, handleBackendEvent, graceAct, Window.after]
    have hnone : s.inner.activeGrace = none → window s.inner = (window s.inner).next .cancel := by
      intro h
      simp [window, Window.next, h]
    split_ifs with h1 h2 h2
    · rfl
    · exact hnone (by simpa using h2)
    · rfl
    · exact hnone (by simpa using h2)
  | .call (.submitCommand command) =>
    obtain ⟨_, _, _, _, _, h⟩ := submitCommand_frame s command
    simp only [micro, call, h]; rfl
  | .call .resetQuarantine => simp only [micro, call, resetQuarantine]; split_ifs <;> rfl
  | .item item =>
    simp only [micro, applyItem, graceAct]
    split_ifs
    · rfl
    · exact window_applyCommand hwf item.ticket item.command
  | .call .beginStart | .call (.markReady _) | .call (.reportOwnerFailure _ _)
  | .call (.setAvailable _) | .call (.setHandlers _) | .take => rfl

theorem gathers : Window.Gathers micro (fun s => WF s.inner) (fun s => window s.inner) graceAct :=
  ⟨wf_micro, fun _ u hwf => window_micro hwf u⟩

/-- What a step fires for a grace overlay is what the window fires. -/
theorem fires_graceAct (hwf : WF s.inner) (u : Micro) :
    (graceAct s u).bind (window s.inner).fires =
      (firing s u).bind fun f => f.2.map fun graceGeneration => (graceGeneration, f.1) := by
  match u with
  | .call (.tick nowMs) =>
    simp only [graceAct, firing]
    by_cases hr : s.inner.supervisor.restarts nowMs
    · simp [hr, Window.fires]
    cases ht : timedOutGrace s.inner nowMs with
    | none => simp [hr]
    | some grace =>
      have ha := activeGrace_of_timedOutGrace ht
      simp [hr, Window.fires, window, ha, (hwf.grace grace ha).1]
  | .call (.handleBackendEvent (.idled id) nowMs) =>
    simp only [graceAct, firing]
    cases idler s (.call (.handleBackendEvent (.idled id) nowMs)) <;> split_ifs <;>
      cases s.inner.behaviorIdMap.lookup id <;> simp [Window.fires]
  | .item ⟨ticket, command, generation⟩ =>
    simp only [graceAct, firing]
    by_cases hg : generation = s.inner.version.ownerGeneration
    · cases command with
      | reportGraceCompleted graceGeneration =>
        simp only [hg, ne_eq, not_true_eq_false, if_false, commandAct, commandFiring,
          Option.bind_some, Window.fires, window, hwf.completedGrace_eq]
        split_ifs with hgen
        · cases s.inner.activeGrace <;> simp [hgen]
        · rfl
      | _ => simp [hg, commandAct, commandFiring, Window.fires]
    · simp [hg]
  | .call (.handleBackendEvent (.resumed _) _) | .call (.submitCommand _) | .call .resetQuarantine
  | .call .beginStart | .call (.markReady _) | .call (.reportOwnerFailure _ _)
  | .call (.setAvailable _)
  | .call (.setHandlers _) | .take => simp [graceAct, firing, Window.fires]

/-! ### What a generation fires -/

/-- The grace generation that a step fires. -/
def firedGeneration (s : IdleDomainState) (u : Micro) : List ℕ := ((firing s u).bind (·.2)).toList

/-- Who joins is who idles. -/
theorem joining_graceAct (s : IdleDomainState) (u : Micro) :
    (graceAct s u).toList.flatMap Window.Act.joining = (idler s u).toList := by
  match u with
  | .call (.tick nowMs) =>
    simp only [graceAct, idler, idled, ite_self]
    split_ifs
    · rfl
    · cases timedOutGrace s.inner nowMs <;> rfl
  | .call (.handleBackendEvent (.idled id) nowMs) =>
    simp only [graceAct]
    cases idler s (.call (.handleBackendEvent (.idled id) nowMs)) <;> rfl
  | .item ⟨_, command, _⟩ =>
    simp only [graceAct, idler, idled, ite_self]
    split_ifs
    · rfl
    · cases command <;> rfl
  | .call (.handleBackendEvent (.resumed _) _) | .call (.submitCommand _) | .call .resetQuarantine
  | .call .beginStart | .call (.markReady _) | .call (.reportOwnerFailure _ _)
  | .call (.setAvailable _)
  | .call (.setHandlers _) | .take => simp [graceAct, idler, idled, Window.Act.joining]

/-- A completion reported of another generation does nothing to the overlay, and fires nothing. -/
theorem report_of_other (s : IdleDomainState) (ticket generation graceGeneration : ℕ)
    (h : ∀ grace ∈ s.inner.activeGrace, grace.graceGeneration ≠ graceGeneration) :
    (s.applyItem ⟨ticket, .reportGraceCompleted graceGeneration, generation⟩).executed =
      s.executed ∧
      (s.applyItem ⟨ticket, .reportGraceCompleted graceGeneration, generation⟩).inner.activeGrace =
        s.inner.activeGrace := by
  have hc : completedGrace s.inner graceGeneration = none := by
    simpa [completedGrace, Option.filter_eq_none_iff] using h
  unfold applyItem
  split_ifs
  · exact ⟨rfl, rfl⟩
  · simp only [applyCommand, hc]
    exact ⟨rfl, rfl⟩

theorem firedGeneration_eq (hwf : WF s.inner) (u : Micro) :
    firedGeneration s u = ((graceAct s u).bind (window s.inner).fires).toList.map Prod.fst := by
  rw [fires_graceAct hwf, firedGeneration]
  obtain h | ⟨⟨names, grace⟩, h⟩ := Option.eq_none_or_eq_some (firing s u)
  · simp [h]
  · cases grace <;> simp [h]

/-- The behaviours of an overlay are configured: each is called for once. -/
theorem map_behaviorName_callsFor {g : InnerState} {names : List String}
    (hconf : ∀ name ∈ names, (g.behaviors.get name).isSome) (grace : Option ℕ) :
    (callsFor g names grace).map (·.behaviorName) = names := by
  induction names with
  | nil => rfl
  | cons name names ih =>
    obtain ⟨cfg, hcfg⟩ := Option.isSome_iff_exists.mp (hconf name (by simp))
    have := ih fun n hn => hconf n (List.mem_cons_of_mem _ hn)
    simpa [callsFor, hcfg] using this

/-- What a step fires for a grace overlay, it calls for once each, in order. -/
theorem map_behaviorName_calls (hwf : WF s.inner) {u : Micro} {names : List String} {g : ℕ}
    (h : firing s u = some (names, some g)) : (calls s u).map (·.behaviorName) = names := by
  have hf := fires_graceAct hwf u
  rw [h] at hf
  obtain ⟨a, -, ha⟩ := Option.bind_eq_some_iff.mp hf
  obtain ⟨-, hms, -⟩ := Window.of_fires ha
  obtain ⟨active, hactive, rfl⟩ := Option.map_eq_some_iff.mp hms
  rw [calls, h]
  exact map_behaviorName_callsFor (hwf.grace active hactive).2.2 _

/-- **Each grace generation fires at most once, and what joined it since it was opened.**

Of every run of operations from a new domain, taken part by part: the generations fire in strictly
increasing order; a step that fires the behaviours `names` for generation `g` calls for each of them
once, they are those that idled with no inhibitor held since `g` was opened, and no step since then
cancels an overlay; and a completion reported of another generation than the active one fires
nothing and leaves it as it is. -/
theorem grace_generations (capacity : ℕ) (backend : Backend) (hasHandlerFor : IdleAction → Bool)
    (ops : List Op) :
    let init := new capacity backend hasHandlerFor
    let parts := expand step unfold init ops
    (expand micro firedGeneration init parts).Pairwise (· < ·) ∧
    (∀ pre u post names g, parts = pre ++ u :: post →
      firing (run micro init pre) u = some (names, some g) →
      (calls (run micro init pre) u).map (·.behaviorName) = names ∧ names.Nodup ∧
      ∃ earlier opening since, pre = earlier ++ opening :: since ∧
        (run micro init earlier).inner.activeGrace = none ∧
        (run micro init earlier).inner.graceGeneration + 1 = g ∧
        (∀ name, name ∈ names ↔
          name ∈ expand micro (fun s u => (idler s u).toList) (run micro init earlier)
            (opening :: since)) ∧
        Along micro (fun s u => graceAct s u ≠ some .cancel) (run micro init earlier)
          (opening :: since)) ∧
    ∀ pre ticket generation g post,
      parts = pre ++ Micro.item ⟨ticket, .reportGraceCompleted g, generation⟩ :: post →
      (∀ grace ∈ (run micro init pre).inner.activeGrace, grace.graceGeneration ≠ g) →
      let s' := micro (run micro init pre) (.item ⟨ticket, .reportGraceCompleted g, generation⟩)
      s'.executed = (run micro init pre).executed ∧
        s'.inner.activeGrace = (run micro init pre).inner.activeGrace := by
  intro init parts
  have hwf : WF init.inner := wf_new capacity backend hasHandlerFor
  refine ⟨?_, fun pre u post names g _ hfire => ?_, fun pre ticket generation g post _ hother => ?_⟩
  · rw [expand_congr wf_micro (fun s u hs => firedGeneration_eq hs u) hwf]
    exact gathers.fired_sorted hwf parts
  · have hpre : WF (run micro init pre).inner := wf_micro.holds hwf pre
    refine ⟨map_behaviorName_calls hpre hfire, ?_⟩
    have hf := fires_graceAct hpre u
    rw [hfire] at hf
    obtain ⟨a, -, ha⟩ := Option.bind_eq_some_iff.mp hf
    obtain ⟨hg, hms, -⟩ := Window.of_fires ha
    obtain ⟨earlier, opening, since, rfl, ho⟩ := gathers.opened hwf rfl pre hms
    rw [← hg] at ho
    refine ⟨ho.nodup, earlier, opening, since, rfl, ?_, ho.number, ?_, ?_⟩
    · simpa [window] using ho.closed
    · simpa only [Window.joined, joining_graceAct] using ho.mem_iff
    · refine Along.mono (I := fun _ => True) (fun _ _ _ => trivial)
        ?_ trivial ho.quiet
      intro s u _ hquiet hc
      exact hquiet .cancel hc trivial
  · exact report_of_other _ ticket generation g hother

/-- A configuration in which two behaviours are enabled. -/
def twoBehaviors : Behaviors where
  entries := [("lock", ⟨true, 600.0, .lock, false⟩), ("suspend", ⟨true, 1800.0, .suspend, true⟩)]
  sorted := by decide

/-- `lock` idles and opens the overlay; then caffeine is switched on, and `suspend` idles. -/
def inhibitedIdler : List Op := [
  .call (.handleBackendEvent (.idled 1) 20),
  .call (.submitCommand (.addInhibit .caffeine)), .processPendingCommands,
  .call (.handleBackendEvent (.idled 2) 30)]

set_option maxRecDepth 8000 in
/-- **A behaviour that idles under an inhibitor does not join the overlay**: both idle while it is
active, and its report fires one. -/
theorem inhibited_does_not_join :
    let ready := run step (new 8 .connected fun _ => true) [
      .call .beginStart, .call (.markReady 10),
      .call (.submitCommand (.configureBehaviors twoBehaviors 2.0)), .processPendingCommands]
    let reported := run step (run step ready inhibitedIdler) [
      .call (.submitCommand (.reportGraceCompleted 1)), .processPendingCommands]
    ready.inner.activeGrace = none ∧ ready.inner.graceGeneration = 0 ∧
      expand micro (fun s u => (idled s u).toList) ready (expand step unfold ready inhibitedIdler) =
        ["lock", "suspend"] ∧
      reported.executed.map (fun call => (call.behaviorName, call.grace)) = [("lock", some 1)] := by
  decide

end Shilpo.Idle
