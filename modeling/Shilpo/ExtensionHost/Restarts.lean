import Shilpo.ExtensionHost.Supervisor

/-!
# The extension host's restarts

What is promised of the spawns of a run: between two of them a failure was recorded and the first
retry delay has passed, and no child from before is still running as far as the loop knows
(`SpawnsProperly`); and of the quarantine: it is entered at the third failure recorded within a
minute since the last reset (`QuarantinedAtThird`), and nothing is spawned afterwards.

The quarantine is as promised in every run (`Windowed`). A spawn is exactly when the child before
was left in one of the ways that record a failure and end the child (`Exit.Tidy`), as
`one_host_iff` says. Two ways out record nothing, and there is no delay after them: the first
message is stale, or `Shutdown` is dequeued while the stop signal is not set. Three ways out record
a failure and leave the child as it is: a command cannot be written, a frame cannot be read, or the
child reports a fatal error.
-/

namespace Shilpo.ExtensionHost

open Shilpo.Theory

/-! ### Three within a window -/

/-- Three of the times, the newest first, lie in one window. -/
def ThreeWithin (window : ℕ) (times : List ℕ) : Prop :=
  ∃ a b c, [c, b, a].Sublist times ∧ c ≤ a + window

theorem not_threeWithin_nil (window : ℕ) : ¬ ThreeWithin window [] := by
  rintro ⟨a, b, c, h, -⟩
  cases h

/-- Three in the window that ends with the newest, when there were no three before it. -/
theorem three_le_filter_iff {window now : ℕ} {times : List ℕ}
    (hsorted : (now :: times).Pairwise (· ≥ ·)) (hbefore : ¬ ThreeWithin window times) :
    3 ≤ ((now :: times).filter (now - · ≤ window)).length ↔ ThreeWithin window (now :: times) := by
  constructor
  · intro h
    rw [List.filter_cons_of_pos (by simp)] at h
    obtain ⟨b, a, rest, heq⟩ : ∃ b a rest, times.filter (now - · ≤ window) = b :: a :: rest := by
      match times.filter (now - · ≤ window), h with
      | b :: a :: rest, _ => exact ⟨b, a, rest, rfl⟩
    have hsub : [b, a].Sublist times := by
      refine List.Sublist.trans ?_ (List.filter_sublist (p := fun t => now - t ≤ window))
      rw [heq]
      exact .cons_cons _ (.cons_cons _ (List.nil_sublist _))
    have ha : a ∈ times.filter (now - · ≤ window) := by rw [heq]; simp
    have hwithin := of_decide_eq_true (List.mem_filter.mp ha).2
    exact ⟨a, b, now, hsub.cons_cons now, by omega⟩
  · rintro ⟨a, b, c, hsub, hc⟩
    cases hsub with
    | cons _ hsub => exact absurd ⟨a, b, c, hsub, hc⟩ hbefore
    | cons_cons _ hsub =>
      have hab : b ≥ a := by
        have := (List.pairwise_cons.mp hsorted).2.sublist hsub
        exact (List.pairwise_cons.mp this).1 a (List.mem_singleton_self a)
      have hfilter := (hsub.cons_cons now).filter fun t => decide (now - t ≤ window)
      rw [List.filter_eq_self.mpr] at hfilter
      · exact hfilter.length_le
      · intro t ht
        simp only [List.mem_cons, List.not_mem_nil, or_false] at ht
        rw [decide_eq_true_eq]
        omega

/-- A window may be cut down at each failure: what is within it now was within it before. -/
theorem filter_filter_window {window now newest : ℕ} (hnow : newest ≤ now) (times : List ℕ) :
    (times.filter (newest - · ≤ window)).filter (now - · ≤ window) =
      times.filter (now - · ≤ window) := by
  rw [List.filter_filter]
  refine List.filter_congr fun t _ => ?_
  rw [Bool.and_eq_left_iff_imp]
  intro h
  have := of_decide_eq_true h
  exact decide_eq_true (by omega)

namespace Supervisor

/-! ### The quarantine -/

/-- The loop has given up exactly when three failures since the last reset lie within a minute. -/
def QuarantinedAtThird (s : Supervisor) : Prop :=
  s.state = .quarantined ↔ ThreeWithin rollingWindow s.failures

/-- The crash window holds the failures within a minute of the last. -/
structure Windowed (s : Supervisor) : Prop where
  sorted : s.failures.Pairwise (· ≥ ·)
  past : ∀ t ∈ s.failures, t ≤ s.clock
  window : s.crashTimestamps =
    s.failures.reverse.filter (s.failures.headD 0 - · ≤ rollingWindow)
  atThird : s.QuarantinedAtThird
  ended : s.state = .quarantined → s.phase = .ended

namespace Windowed

variable {s : Supervisor}

/-- No three failures have come together as long as the loop runs. -/
theorem none_yet (h : s.Windowed) (hphase : s.phase ≠ .ended) :
    ¬ ThreeWithin rollingWindow s.failures :=
  fun hthree => hphase (h.ended (h.atThird.mpr hthree))

/-- What matters is the window, the clock and whether the loop has given up. -/
theorem congr {s t : Supervisor} (h : s.Windowed) (hfailures : t.failures = s.failures)
    (hwindow : t.crashTimestamps = s.crashTimestamps) (hclock : s.clock ≤ t.clock)
    (hstate : t.state = .quarantined ↔ s.state = .quarantined)
    (hphase : t.state = .quarantined → t.phase = .ended) : t.Windowed where
  sorted := by rw [hfailures]; exact h.sorted
  past := by
    rw [hfailures]
    exact fun u hu => (h.past u hu).trans hclock
  window := by rw [hfailures, hwindow]; exact h.window
  atThird := by
    unfold QuarantinedAtThird
    rw [hfailures, hstate]
    exact h.atThird
  ended := hphase

/-- While the loop runs, any other state may follow. -/
theorem running {s t : Supervisor} (h : s.Windowed) (hphase : s.phase ≠ .ended)
    (hfailures : t.failures = s.failures) (hwindow : t.crashTimestamps = s.crashTimestamps)
    (hclock : s.clock ≤ t.clock) (hstate : t.state ≠ .quarantined) : t.Windowed := by
  apply h.congr hfailures hwindow hclock
  · constructor
    · exact fun ht => absurd ht hstate
    · exact fun hs => absurd (h.ended hs) hphase
  · exact fun ht => absurd ht hstate

theorem not_quarantined (h : s.Windowed) (hphase : s.phase ≠ .ended) :
    s.state ≠ .quarantined := fun hs => hphase (h.ended hs)

/-- **The crash accounting** gives up exactly at the third failure in the window. -/
theorem recordFailure (h : s.Windowed) (hphase : s.phase ≠ .ended) (exit : Exit) :
    (s.recordFailure exit).Windowed := by
  have hsorted : (s.clock :: s.failures).Pairwise (· ≥ ·) :=
    List.pairwise_cons.mpr ⟨h.past, h.sorted⟩
  have hpast : ∀ t ∈ s.clock :: s.failures, t ≤ s.clock := by
    intro t ht
    rcases List.mem_cons.mp ht with rfl | ht
    · exact le_rfl
    · exact h.past t ht
  have hnewest : s.failures.headD 0 ≤ s.clock := by
    cases hf : s.failures with
    | nil => exact Nat.zero_le _
    | cons t failures => exact h.past t (by rw [hf]; exact List.mem_cons_self)
  have hwindow : (s.crashTimestamps ++ [s.clock]).filter (s.clock - · ≤ rollingWindow) =
      (s.clock :: s.failures).reverse.filter (s.clock - · ≤ rollingWindow) := by
    rw [List.reverse_cons, List.filter_append, List.filter_append, h.window,
      filter_filter_window hnewest]
  have hthree := three_le_filter_iff hsorted (h.none_yet hphase)
  have hlength : maxCrashesInWindow ≤
      ((s.crashTimestamps ++ [s.clock]).filter (s.clock - · ≤ rollingWindow)).length ↔
      ThreeWithin rollingWindow (s.clock :: s.failures) := by
    rw [← hthree, hwindow, List.filter_reverse, List.length_reverse]
    exact Iff.rfl
  unfold Supervisor.recordFailure
  by_cases hfull : maxCrashesInWindow ≤
      ((s.crashTimestamps ++ [s.clock]).filter (s.clock - · ≤ rollingWindow)).length
  · rw [if_pos hfull]
    exact ⟨hsorted, hpast, hwindow, iff_of_true rfl (hlength.mp hfull), fun _ => rfl⟩
  · rw [if_neg hfull]
    refine ⟨hsorted, hpast, hwindow, iff_of_false ?_ (mt hlength.mpr hfull), ?_⟩
    · exact fun hstate => by cases hstate
    · exact fun hstate => by cases hstate

theorem crash (h : s.Windowed) (hphase : s.phase ≠ .ended) (exit : Exit) :
    (s.crash exit).Windowed := by
  have hrejected : s.rejectPending.Windowed := h.congr rfl rfl le_rfl Iff.rfl h.ended
  exact hrejected.recordFailure hphase exit

theorem resetWindow (h : s.Windowed) (hphase : s.phase ≠ .ended) :
    s.resetWindow.Windowed := by
  unfold Supervisor.resetWindow
  split
  · refine ⟨.nil, ?_, rfl, ?_, h.ended⟩
    · exact fun t ht => absurd ht List.not_mem_nil
    · exact iff_of_false (h.not_quarantined hphase) (not_threeWithin_nil _)
  · exact h

theorem readInitial (h : s.Windowed) (hphase : s.phase = .awaiting) (result : ReadResult)
    (replays : ℕ) : (s.readInitial result replays).Windowed := by
  have hrun : s.phase ≠ .ended := by rw [hphase]; exact fun h => by cases h
  have hended (fate : ChildFate) : (s.endChild fate).Windowed :=
    h.congr rfl rfl le_rfl Iff.rfl h.ended
  unfold Supervisor.readInitial
  split
  · exact h.running hrun rfl rfl le_rfl (fun h => by cases h)
  · split
    · split
      · unfold becomeReady
        split
        · exact h.running hrun rfl rfl le_rfl (fun h => by cases h)
        · exact h.running hrun rfl rfl le_rfl (fun h => by cases h)
      · exact h.running hrun rfl rfl le_rfl (h.not_quarantined hrun)
    · exact h.running hrun rfl rfl (Nat.le_add_right _ _) (h.not_quarantined hrun)
    · exact (hended .exited).recordFailure hrun .exitedEarly
    · exact (hended .killed).recordFailure hrun .unreadableEarly

theorem dequeue (h : s.Windowed) (hphase : s.phase = .dequeuing) (taken : Dequeued) :
    (s.dequeue taken).Windowed := by
  have hrun : s.phase ≠ .ended := by rw [hphase]; exact fun h => by cases h
  unfold Supervisor.dequeue
  split
  · exact h.running hrun rfl rfl le_rfl (fun h => by cases h)
  · have hreset : s.resetWindow.Windowed := h.resetWindow hrun
    have hrun : s.resetWindow.phase ≠ .ended := by
      unfold Supervisor.resetWindow
      split <;> exact hrun
    have hstate := hreset.not_quarantined hrun
    cases taken with
    | nothing => exact hreset.running hrun rfl rfl le_rfl hstate
    | shutdown => exact hreset.running hrun rfl rfl le_rfl (fun h => by cases h)
    | command replyTo written =>
      have hnumber : (s.resetWindow.number replyTo).Windowed := by
        cases replyTo <;> exact hreset.congr rfl rfl le_rfl Iff.rfl hreset.ended
      have hphase : (s.resetWindow.number replyTo).phase ≠ .ended := by
        cases replyTo <;> exact hrun
      cases written with
      | true => exact hnumber.running hphase rfl rfl le_rfl (hnumber.not_quarantined hphase)
      | false => exact hnumber.crash hphase .writeFailed

theorem readMessage (h : s.Windowed) (hphase : s.phase = .reading) (result : ReadResult) :
    (s.readMessage result).Windowed := by
  have hrun : s.phase ≠ .ended := by rw [hphase]; exact fun h => by cases h
  have hstate := h.not_quarantined hrun
  unfold Supervisor.readMessage
  split
  · rename_i m
    split
    · split
      · unfold skip
        split <;> exact h.running hrun rfl rfl le_rfl hstate
      · have haccept : ((s.carry m).accept m).Windowed := h.congr rfl rfl le_rfl Iff.rfl h.ended
        unfold handle
        split
        · exact h.running hrun rfl rfl le_rfl hstate
        · rename_i outcome _
          cases outcome.update <;> exact h.running hrun rfl rfl le_rfl hstate
        · exact h.running hrun rfl rfl le_rfl hstate
        · exact h.running hrun rfl rfl le_rfl hstate
        · exact haccept.crash hrun .fatal
    · exact h.running hrun rfl rfl le_rfl hstate
  · exact h.running hrun rfl rfl (Nat.le_add_right _ _) hstate
  · have hended : (s.endChild .exited).Windowed := h.congr rfl rfl le_rfl Iff.rfl h.ended
    exact hended.crash hrun .exited
  · exact h.crash hrun .unreadable

end Windowed

/-- Every step keeps the crash window as it should be. -/
theorem windowed_next : Preserved next Windowed := by
  intro s i h
  have hwait : (s.wait i.elapsed).Windowed :=
    h.congr rfl rfl (Nat.le_add_right _ _) Iff.rfl h.ended
  unfold next
  generalize s.wait i.elapsed = s at hwait
  have running {phase : Phase} (hphase : s.phase = phase) (hne : phase ≠ .ended) :
      s.phase ≠ .ended := by rw [hphase]; exact hne
  apply act_induction s i.event hwait
  case checkStop =>
    intro _ hphase
    have hrun := running hphase (fun h => by cases h)
    unfold checkStop
    split
    · exact hwait.running hrun rfl rfl le_rfl (fun h => by cases h)
    · exact hwait.running hrun rfl rfl le_rfl (hwait.not_quarantined hrun)
  case wake =>
    intro delay _ hphase
    have hrun := running hphase (fun h => by cases h)
    exact hwait.running hrun rfl rfl (Nat.le_add_right _ _) (hwait.not_quarantined hrun)
  case spawn =>
    intro ok _ hphase
    have hrun := running hphase (fun h => by cases h)
    cases ok with
    | true => exact hwait.running hrun rfl rfl le_rfl (hwait.not_quarantined hrun)
    | false =>
      have hcalled : { s with lastSpawn := some ⟨s.clock, false⟩ }.Windowed :=
        hwait.congr rfl rfl le_rfl Iff.rfl hwait.ended
      exact hcalled.recordFailure hrun .spawnFailed
  case handshake =>
    intro written _ hphase
    have hrun := running hphase (fun h => by cases h)
    cases written with
    | true => exact hwait.running hrun rfl rfl le_rfl (hwait.not_quarantined hrun)
    | false =>
      have hended : ({ s with requestCounter := s.requestCounter + 1 }.endChild .killed).Windowed :=
        hwait.congr rfl rfl le_rfl Iff.rfl hwait.ended
      exact hended.recordFailure hrun .handshakeFailed
  case readInitial => exact fun result replays _ hphase => hwait.readInitial hphase result replays
  case dequeue => exact fun taken _ hphase => hwait.dequeue hphase taken
  case read => exact fun result _ hphase => hwait.readMessage hphase result
  case stop => exact fun _ => hwait.congr rfl rfl le_rfl Iff.rfl hwait.ended
  case cancel => exact fun _ _ _ => hwait.congr rfl rfl le_rfl Iff.rfl hwait.ended
  case takeUpdate =>
    intro _
    unfold takeUpdate
    split
    · exact hwait.congr rfl rfl le_rfl Iff.rfl hwait.ended
    · exact hwait
  case storeUpdate =>
    intro _
    unfold storeUpdate
    split
    · exact hwait
    · dsimp only
      split
      · exact hwait.congr rfl rfl le_rfl Iff.rfl hwait.ended
      · split <;> exact hwait.congr rfl rfl le_rfl Iff.rfl hwait.ended

/-! ### The spawns -/

end Supervisor

/-- A failure is recorded on this way out. -/
def Exit.recorded : Exit → Bool
  | .stale | .shutdownRequested => false
  | _ => true

/-- The child is killed, shut down or observed to have exited on this way out. -/
def Exit.endsChild : Exit → Bool
  | .writeFailed | .unreadable | .fatal => false
  | _ => true

/-- How long the loop still sleeps, when it has no child in hand. -/
def Phase.remaining : Phase → Option ℕ
  | .starting | .spawning => some 0
  | .backingOff delay => some delay
  | .handshaking | .awaiting | .dequeuing | .reading | .ended => none

/-- The loop has a child in hand. -/
def Phase.hasChild : Phase → Bool
  | .handshaking | .awaiting | .dequeuing | .reading => true
  | .starting | .spawning | .backingOff _ | .ended => false

/-- Both. -/
def Exit.Tidy (exit : Exit) : Prop := exit.recorded ∧ exit.endsChild

instance (exit : Exit) : Decidable exit.Tidy :=
  inferInstanceAs (Decidable (exit.recorded ∧ exit.endsChild))

namespace Supervisor

/-- The step calls `spawn`. -/
def spawns (s : Supervisor) (i : LoopInput) : Bool :=
  match i.event, s.phase with
  | .spawn _, .spawning => true
  | _, _ => false

/-- No child is running as far as the loop knows. -/
def Alone (s : Supervisor) : Prop := ∀ fate ∈ s.children, fate ≠ .running

instance (s : Supervisor) : Decidable s.Alone :=
  inferInstanceAs (Decidable (∀ fate ∈ s.children, fate ≠ .running))

/-- What is promised of a spawn: no child is running, a failure has been recorded since the last
spawn and the first delay has passed, and the host is not quarantined. -/
def SpawnsProperly (s : Supervisor) (i : LoopInput) : Prop :=
  s.spawns i →
    s.Alone ∧ (∀ last ∈ s.lastSpawn, last.failed ∧ last.calledAt + 250 ≤ s.clock + i.elapsed) ∧
      s.state ≠ .quarantined

/-- The child before was left in a way that records a failure and ends it. -/
def LeftTidily (s : Supervisor) (i : LoopInput) : Prop := s.spawns i → ∀ exit ∈ s.left, exit.Tidy

instance (s : Supervisor) (i : LoopInput) : Decidable (s.SpawnsProperly i) :=
  inferInstanceAs (Decidable (s.spawns i → _ ∧ _ ∧ _))

instance (s : Supervisor) (i : LoopInput) : Decidable (s.LeftTidily i) :=
  inferInstanceAs (Decidable (s.spawns i → ∀ exit ∈ s.left, exit.Tidy))

/-- What the loop has done since the last spawn, with no child in hand: `since` is when the
first delay was, or is, over. -/
structure Between (s : Supervisor) (since : ℕ) : Prop where
  first : s.left = none → s.lastSpawn = none ∧ s.children = []
  later : ∀ exit, s.left = some exit →
    (exit.endsChild ↔ s.Alone) ∧
      ∃ last, s.lastSpawn = some last ∧ last.failed = exit.recorded ∧
        (exit.recorded → last.calledAt + 250 ≤ since)

/-- The loop has a child in hand, and no other is running. -/
structure WithChild (s : Supervisor) : Prop where
  spawned : ∃ last, s.lastSpawn = some last ∧ last.failed = false ∧ last.calledAt ≤ s.clock
  children : ∃ others, s.children = .running :: others ∧ ∀ fate ∈ others, fate ≠ .running

/-- What holds at each phase. -/
structure Paced (s : Supervisor) : Prop where
  between : ∀ delay, s.phase.remaining = some delay → s.Between (s.clock + delay)
  withChild : s.phase.hasChild → s.WithChild

variable {s : Supervisor}

theorem Between.paced (delay : ℕ) (h : s.Between (s.clock + delay))
    (hphase : s.phase.remaining = some delay) : s.Paced where
  between delay' hdelay' := by
    rw [hphase] at hdelay'
    obtain rfl := Option.some.inj hdelay'
    exact h
  withChild hchild := by cases hp : s.phase <;> simp [hp, Phase.remaining, Phase.hasChild] at *

theorem WithChild.paced (h : s.WithChild) (hphase : s.phase.hasChild) :
    s.Paced where
  between delay hdelay := by cases hp : s.phase <;> simp [hp, Phase.remaining, Phase.hasChild] at *
  withChild _ := h

theorem paced_ended (hphase : s.phase = .ended) : s.Paced where
  between delay hdelay := by simp [hphase, Phase.remaining] at hdelay
  withChild hchild := by simp [hphase, Phase.hasChild] at hchild

theorem Between.congr {s t : Supervisor} {since since' : ℕ} (h : s.Between since)
    (hle : since ≤ since') (hleft : t.left = s.left) (hspawn : t.lastSpawn = s.lastSpawn)
    (hchildren : t.children = s.children) : t.Between since' where
  first := by rw [hleft, hspawn, hchildren]; exact h.first
  later exit hexit := by
    rw [hleft] at hexit
    obtain ⟨hends, last, hlast, hfailed, hsince⟩ := h.later exit hexit
    unfold Alone
    rw [hchildren, hspawn]
    exact ⟨hends, last, hlast, hfailed, fun hrecorded => (hsince hrecorded).trans hle⟩

theorem WithChild.congr {s t : Supervisor} (h : s.WithChild) (hclock : s.clock ≤ t.clock)
    (hspawn : t.lastSpawn = s.lastSpawn) (hchildren : t.children = s.children) :
    t.WithChild where
  spawned := by
    obtain ⟨last, hlast, hfailed, hcalled⟩ := h.spawned
    exact ⟨last, hspawn.trans hlast, hfailed, hcalled.trans hclock⟩
  children := by rw [hchildren]; exact h.children

theorem Between.keeps {s t : Supervisor} {since : ℕ} (h : s.Between since) (delay : ℕ)
    (hphase : t.phase.remaining = some delay) (hle : since ≤ t.clock + delay)
    (hleft : t.left = s.left) (hspawn : t.lastSpawn = s.lastSpawn)
    (hchildren : t.children = s.children) : t.Paced :=
  (h.congr hle hleft hspawn hchildren).paced delay hphase

theorem WithChild.keeps {s t : Supervisor} (h : s.WithChild) (hphase : t.phase.hasChild)
    (hclock : s.clock ≤ t.clock) (hspawn : t.lastSpawn = s.lastSpawn)
    (hchildren : t.children = s.children) : t.Paced :=
  (h.congr hclock hspawn hchildren).paced hphase

/-- What another thread does, and time. -/
theorem Paced.congr {s t : Supervisor} (h : s.Paced) (hphase : t.phase = s.phase)
    (hclock : s.clock ≤ t.clock) (hleft : t.left = s.left) (hspawn : t.lastSpawn = s.lastSpawn)
    (hchildren : t.children = s.children) : t.Paced where
  between delay hdelay := by
    rw [hphase] at hdelay
    exact (h.between delay hdelay).congr (by omega) hleft hspawn hchildren
  withChild hchild := by
    rw [hphase] at hchild
    exact (h.withChild hchild).congr hclock hspawn hchildren

/-- The child ends, and no other was running. -/
theorem WithChild.endChild (h : s.WithChild) {fate : ChildFate} (hfate : fate ≠ .running) :
    (s.endChild fate).Alone := by
  obtain ⟨others, hchildren, hothers⟩ := h.children
  intro f hf
  simp only [Supervisor.endChild, hchildren, List.tail_cons, List.mem_cons] at hf
  rcases hf with rfl | hf
  · exact hfate
  · exact hothers f hf

theorem WithChild.not_alone (h : s.WithChild) : ¬ s.Alone := by
  obtain ⟨others, hchildren, -⟩ := h.children
  intro halone
  exact halone .running (by rw [hchildren]; exact List.mem_cons_self) rfl

variable {exit : Exit}

/-- **The crash accounting** puts the first delay, or more, before the next spawn. -/
theorem paced_recordFailure {last : Spawn} (hlast : s.lastSpawn = some last)
    (hcalled : last.calledAt ≤ s.clock) (hrecorded : exit.recorded)
    (hends : exit.endsChild ↔ s.Alone) : (s.recordFailure exit).Paced := by
  unfold recordFailure
  by_cases hfull : maxCrashesInWindow ≤
      ((s.crashTimestamps ++ [s.clock]).filter (s.clock - · ≤ rollingWindow)).length
  · rw [if_pos hfull]
    exact paced_ended rfl
  · rw [if_neg hfull]
    apply Between.paced (retryDelay (s.consecutiveCrashes + 1)) ?_ rfl
    constructor
    · exact fun hleft => by cases hleft
    · intro exit' hexit'
      obtain rfl := Option.some.inj hexit'
      refine ⟨hends, { last with failed := true }, ?_, hrecorded.symm, fun _ => ?_⟩
      · exact congrArg (Option.map fun last : Spawn => { last with failed := true }) hlast
      · have := first_le_retryDelay (s.consecutiveCrashes + 1)
        exact Nat.add_le_add hcalled this

/-- The child in hand is ended, and a failure recorded. -/
theorem WithChild.recordFailure (h : s.WithChild) (fate : ChildFate) (hfate : fate ≠ .running)
    (hexit : exit.Tidy) :
    ((s.endChild fate).recordFailure exit).Paced := by
  obtain ⟨last, hlast, -, hcalled⟩ := h.spawned
  have hends : exit.endsChild ↔ (s.endChild fate).Alone := iff_of_true hexit.2 (h.endChild hfate)
  exact paced_recordFailure (s := s.endChild fate) hlast hcalled hexit.1 hends

/-- The child in hand is left as it is, and a failure recorded. -/
theorem WithChild.crash (h : s.WithChild) (hrecorded : exit.recorded)
    (hends : exit.endsChild = false) : (s.crash exit).Paced := by
  obtain ⟨last, hlast, -, hcalled⟩ := h.spawned
  have hrunning : exit.endsChild ↔ s.rejectPending.Alone :=
    iff_of_false (by rw [hends]; exact Bool.false_ne_true) h.not_alone
  exact paced_recordFailure (s := s.rejectPending) hlast hcalled hrecorded hrunning

/-- The child in hand is ended, and nothing recorded. -/
theorem WithChild.unrecorded {s t : Supervisor} (h : s.WithChild) (fate : ChildFate)
    (hfate : fate ≠ .running) (exit : Exit) (hrecorded : exit.recorded = false)
    (hends : exit.endsChild) (hphase : t.phase = .starting) (hleft : t.left = some exit)
    (hspawn : t.lastSpawn = s.lastSpawn) (hchildren : t.children = (s.endChild fate).children) :
    t.Paced := by
  obtain ⟨last, hlast, hfailed, -⟩ := h.spawned
  apply Between.paced 0 ?_ (by rw [hphase]; rfl)
  constructor
  · intro hnone
    rw [hleft] at hnone
    cases hnone
  · intro exit' hexit'
    rw [hleft] at hexit'
    obtain rfl := Option.some.inj hexit'
    refine ⟨iff_of_true hends ?_, last, hspawn.trans hlast, hfailed.trans hrecorded.symm, ?_⟩
    · unfold Alone
      rw [hchildren]
      exact h.endChild hfate
    · intro h
      rw [hrecorded] at h
      cases h

theorem WithChild.readInitial (h : s.WithChild) (hphase : s.phase = .awaiting) (result : ReadResult)
    (replays : ℕ) : (s.readInitial result replays).Paced := by
  unfold Supervisor.readInitial
  split
  · exact paced_ended rfl
  · split
    · split
      · unfold becomeReady
        split
        · exact h.keeps rfl le_rfl rfl rfl
        · exact h.keeps rfl le_rfl rfl rfl
      · exact h.unrecorded .killed (by decide) .stale rfl rfl rfl rfl rfl rfl
    · exact h.keeps (congrArg Phase.hasChild hphase) (Nat.le_add_right _ _) rfl rfl
    · exact h.recordFailure .exited (by decide) (by decide)
    · exact h.recordFailure .killed (by decide) (by decide)

theorem WithChild.dequeue (h : s.WithChild) (taken : Dequeued) :
    (s.dequeue taken).Paced := by
  unfold Supervisor.dequeue
  split
  · exact paced_ended rfl
  · have hreset : s.resetWindow.WithChild := by
      unfold resetWindow
      split
      · exact h.congr le_rfl rfl rfl
      · exact h
    cases taken with
    | nothing => exact hreset.keeps rfl le_rfl rfl rfl
    | shutdown =>
      exact hreset.unrecorded .shutDown (by decide) .shutdownRequested rfl
        rfl rfl rfl rfl rfl
    | command replyTo written =>
      have hnumber : (s.resetWindow.number replyTo).WithChild := by
        cases replyTo <;> exact hreset.congr le_rfl rfl rfl
      cases written with
      | true => exact hnumber.keeps rfl le_rfl rfl rfl
      | false => exact hnumber.crash rfl rfl

theorem WithChild.readMessage {s : Supervisor} (h : s.WithChild) (hphase : s.phase = .reading)
    (result : ReadResult) : (s.readMessage result).Paced := by
  unfold Supervisor.readMessage
  split
  · rename_i m
    split
    · split
      · unfold skip
        split
        · exact h.keeps rfl le_rfl rfl rfl
        · exact h.keeps (congrArg Phase.hasChild hphase) le_rfl rfl rfl
      · have haccept : ((s.carry m).accept m).WithChild := h.congr le_rfl rfl rfl
        unfold handle
        split
        · exact h.keeps rfl le_rfl rfl rfl
        · rename_i outcome _
          cases outcome.update <;> exact h.keeps rfl le_rfl rfl rfl
        · exact h.keeps rfl le_rfl rfl rfl
        · exact paced_ended rfl
        · exact haccept.crash rfl rfl
    · exact h.keeps rfl le_rfl rfl rfl
  · exact h.keeps rfl (Nat.le_add_right _ _) rfl rfl
  · have hrejected : s.rejectPending.WithChild := h.congr le_rfl rfl rfl
    exact hrejected.recordFailure .exited (by decide) (by decide)
  · exact h.crash rfl rfl

/-- **A step** from a state in which, if it spawns, no child is running. -/
theorem Paced.next (h : s.Paced) {i : LoopInput} (halone : s.spawns i → s.Alone) :
    (s.next i).Paced := by
  have hwait : (s.wait i.elapsed).Paced := h.congr rfl (Nat.le_add_right _ _) rfl rfl rfl
  replace halone : (s.wait i.elapsed).spawns i → (s.wait i.elapsed).Alone := halone
  unfold Supervisor.next
  generalize s.wait i.elapsed = s at hwait halone
  apply act_induction s i.event hwait
  case checkStop =>
    intro _ hphase
    have hbetween := hwait.between 0 (by rw [hphase]; rfl)
    unfold checkStop
    split
    · exact paced_ended rfl
    · exact hbetween.keeps 0 rfl le_rfl rfl rfl rfl
  case wake =>
    intro delay _ hphase
    have hbetween := hwait.between delay (by rw [hphase]; rfl)
    exact hbetween.keeps 0 rfl le_rfl rfl rfl rfl
  case spawn =>
    intro ok hevent hphase
    have halone := halone (by unfold spawns; rw [hevent, hphase])
    cases ok with
    | true =>
      apply WithChild.paced ?_ rfl
      exact ⟨⟨_, rfl, rfl, le_rfl⟩, ⟨_, rfl, halone⟩⟩
    | false => exact paced_recordFailure rfl le_rfl rfl (iff_of_true rfl halone)
  case handshake =>
    intro written _ hphase
    have hchild := hwait.withChild (by rw [hphase]; rfl)
    cases written with
    | true => exact hchild.keeps rfl le_rfl rfl rfl
    | false =>
      have hnumber : { s with requestCounter := s.requestCounter + 1 }.WithChild :=
        hchild.congr le_rfl rfl rfl
      exact hnumber.recordFailure .killed (by decide) (by decide)
  case readInitial =>
    intro result replays _ hphase
    exact (hwait.withChild (by rw [hphase]; rfl)).readInitial hphase result replays
  case dequeue =>
    intro taken _ hphase
    exact (hwait.withChild (by rw [hphase]; rfl)).dequeue taken
  case read =>
    intro result _ hphase
    exact (hwait.withChild (by rw [hphase]; rfl)).readMessage hphase result
  case stop => exact fun _ => hwait.congr rfl le_rfl rfl rfl rfl
  case cancel => exact fun _ _ _ => hwait.congr rfl le_rfl rfl rfl rfl
  case takeUpdate =>
    intro _
    unfold takeUpdate
    split
    · exact hwait.congr rfl le_rfl rfl rfl rfl
    · exact hwait
  case storeUpdate =>
    intro _
    unfold storeUpdate
    split
    · exact hwait
    · dsimp only
      split
      · exact hwait.congr rfl le_rfl rfl rfl rfl
      · split <;> exact hwait.congr rfl le_rfl rfl rfl rfl

/-- At a spawn, the promise is kept exactly when the child before was left tidily. -/
theorem spawnsProperly_iff (hpaced : s.Paced) (hwindowed : s.Windowed) (i : LoopInput) :
    s.SpawnsProperly i ↔ s.LeftTidily i := by
  refine forall_congr' fun hspawns => ?_
  have hphase : s.phase = .spawning := by
    unfold spawns at hspawns
    split at hspawns
    · assumption
    · cases hspawns
  have hbetween := hpaced.between 0 (by rw [hphase]; rfl)
  have hstate : s.state ≠ .quarantined :=
    hwindowed.not_quarantined (by rw [hphase]; exact fun h => by cases h)
  cases hleft : s.left with
  | none =>
    obtain ⟨hspawn, hchildren⟩ := hbetween.first hleft
    refine iff_of_true ⟨?_, ?_, hstate⟩ (fun exit hexit => by cases hexit)
    · exact fun fate hfate => by rw [hchildren] at hfate; cases hfate
    · exact fun last hlast => by rw [hspawn] at hlast; cases hlast
  | some exit =>
    obtain ⟨hends, last, hlast, hfailed, hsince⟩ := hbetween.later exit hleft
    constructor
    · rintro ⟨halone, hproper, -⟩ exit' hexit'
      obtain rfl := Option.some.inj hexit'
      exact ⟨hfailed ▸ (hproper last hlast).1, hends.mpr halone⟩
    · intro htidy
      obtain ⟨hrecorded, hended⟩ := htidy exit rfl
      refine ⟨hends.mp hended, ?_, hstate⟩
      intro last' hlast'
      rw [hlast] at hlast'
      obtain rfl := Option.some.inj hlast'
      refine ⟨hfailed.trans hrecorded, ?_⟩
      have := hsince hrecorded
      omega

theorem windowed_new : new.Windowed where
  sorted := .nil
  past t ht := by cases ht
  window := rfl
  atThird := iff_of_false (fun h => by cases h) (not_threeWithin_nil _)
  ended h := by cases h

theorem paced_new : new.Paced :=
  Between.paced 0 ⟨fun _ => ⟨rfl, rfl⟩, fun _ h => by cases h⟩ rfl

/-- **The restarts of the extension host.** In every run the quarantine is entered at the third
failure within a minute since the last reset, and never left; and every spawn comes after a failure
that was recorded and the first delay, with no child running and no quarantine, exactly when no
spawn follows a child that was left without its failure being recorded, or without being ended. -/
theorem one_host_iff (is : List LoopInput) :
    Always Supervisor.next QuarantinedAtThird new is ∧
      Along Supervisor.next SpawnsProperly new is ↔
        Along Supervisor.next LeftTidily new is := by
  have hwindowed := always_of_preserved windowed_next windowed_new is
  have hthird : Always Supervisor.next QuarantinedAtThird new is := by
    rw [always_iff] at hwindowed ⊢
    exact fun pre post hsplit => (hwindowed pre post hsplit).atThird
  rw [and_iff_right hthird]
  -- Either condition on the spawns so far keeps `Paced`, which makes them the same.
  let I (s : Supervisor) : Prop := s.Paced ∧ s.Windowed
  have hnext {s : Supervisor} {i : LoopInput} (hI : I s) (hproper : s.SpawnsProperly i) :
      I (s.next i) :=
    ⟨hI.1.next fun hspawns => (hproper hspawns).1, windowed_next s i hI.2⟩
  have hiff {s : Supervisor} (i : LoopInput) (hI : I s) :
      s.SpawnsProperly i ↔ s.LeftTidily i := spawnsProperly_iff hI.1 hI.2 i
  have hnew : I new := ⟨paced_new, windowed_new⟩
  constructor
  · exact Along.imp (fun s i hI h => hnext hI h) (fun s i hI => (hiff i hI).mp) hnew
  · exact Along.imp (fun s i hI h => hnext hI ((hiff i hI).mpr h)) (fun s i hI => (hiff i hI).mpr)
      hnew

/-! ### Two runs -/

/-- Steps that take no time. -/
def atOnce (events : List LoopEvent) : List LoopInput := events.map fun e => ⟨0, e⟩

/-- A child whose first message is of another host generation, and the spawn that follows. -/
def staleFirst : List LoopInput :=
  atOnce [.proceed, .spawn true, .handshake true,
    .readInitial (.message ⟨0, 1, 2, .update ⟨0, 1, none, [], [], []⟩⟩) 0, .proceed, .spawn true]

/-- A child that is ready and reports a fatal error, and the spawn that follows. -/
def fatalLater : List LoopInput :=
  atOnce [.proceed, .spawn true, .handshake true,
    .readInitial (.message ⟨1, 1, 2, .update ⟨0, 1, none, [], [], []⟩⟩) 0, .dequeue .nothing,
    .read (.message ⟨1, 1, 0, .fatalError "out of memory"⟩), .proceed, .proceed, .spawn true]

/-- The first spawns again at once, with no failure recorded, and the second while the child
before is still running. -/
theorem staleFirst_fatalLater_not_proper :
    ¬ Along Supervisor.next SpawnsProperly new staleFirst ∧
      ¬ Along Supervisor.next SpawnsProperly new fatalLater := by
  decide

end Supervisor

end Shilpo.ExtensionHost
