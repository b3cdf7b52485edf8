import Shilpo.Device.Daemon
import Shilpo.Theory.Revisions

/-!
# What the versions of the device daemon tell

A client takes a state for new by its version. Three parties make these: a confirmation takes the
revision of the adapter, a refresh the next one of the daemon, and a replaced owner begins anew; and
a command that fails changes a state under its version. So versions go back, and one version may
stand for two states (`versions_collide`).

A run keeps to the rule in exactly these cases: each confirmation brings a revision that is newer
than the stored one, or nothing new; a command fails only where the same failure stands already; and
a refresh or a replacement does not come after a newer replacement (`Orderly`). While the owner stays
and the states are sent in the order of their versions, the client then drops none.
-/

namespace Shilpo.Device

open Domain Theory

universe u

variable {ρ : Type u}

/-- What a state says, whatever its version. -/
def DomainState.content (state : DomainState ρ) :
    DomainPayload × ρ × DomainLifecycle × Option String :=
  (state.payload, state.other, state.lifecycle, state.error)

theorem DomainState.content_eq_iff {state later : DomainState ρ} :
    state.content = later.content ↔ state.Same later := by
  simp [DomainState.content, DomainState.Same]

/-- A state may be stored after another. -/
def DomainState.Follows (later state : DomainState ρ) : Prop :=
  Theory.Follows DomainState.version DomainState.content state later

theorem DomainState.follows_iff {state later : DomainState ρ} : later.Follows state ↔
    state.version < later.version ∨ state.version = later.version ∧ state.Same later := by
  rw [DomainState.Follows, Theory.follows_iff, DomainState.content_eq_iff]

namespace DeviceDaemon

variable {daemon : DeviceDaemon ρ}

/-! ### What is promised -/

/-- Of the states that have been stored for a domain the later has not the lesser version, and a
version stands for one state. -/
def Versioned (daemon : DeviceDaemon ρ) : Prop :=
  ∀ domain, (daemon.stored domain).Pairwise fun state later =>
    state.version ≤ later.version ∧ (state.version = later.version → state.Same later)

instance [DecidableEq ρ] (daemon : DeviceDaemon ρ) : Decidable daemon.Versioned :=
  inferInstanceAs (Decidable (∀ _, List.Pairwise _ _))

/-- The client has dropped nothing. -/
def Received (daemon : DeviceDaemon ρ) : Prop := daemon.client.staleUpdates = 0

instance (daemon : DeviceDaemon ρ) : Decidable daemon.Received := inferInstanceAs (Decidable (_ = _))

/-- The failure stands already. -/
def Failed (daemon : DeviceDaemon ρ) (domain : DeviceDomain) (error : String) : Prop :=
  (daemon.states domain).lifecycle = .degraded ∧ (daemon.states domain).error = some error

/-- What is stored does not come too late, and does not change a state under its version. -/
def Orderly (daemon : DeviceDaemon ρ) : DaemonStep ρ → Prop
  | .work domain _ =>
    match daemon.executions domain with
    | none => True
    | some execution =>
      match execution.phase with
      | .storing _ state => state.Follows (daemon.states domain)
      | .failing => daemon.Failed domain "Device command rejected"
      | .overdueObserved _ _ => daemon.Failed domain "Command timed out"
      | _ => True
  | .task index =>
    match daemon.tasks[index]? with
    | some (.refreshing generation) =>
      ∀ domain, ¬ (daemon.states domain).Same (daemon.adapter domain) →
        (daemon.states domain).version.ownerGeneration < generation ∨
          (daemon.states domain).version.ownerGeneration = generation ∧
            (daemon.states domain).version.revision < 2 ^ 64 - 1
    | some (.replacing generation) =>
      ∀ domain, (daemon.states domain).version.ownerGeneration < generation ∨
        daemon.states domain = (daemon.states domain).reconnecting generation
    | _ => True
  | _ => True

/-- A state is sent after no newer one of its domain. -/
def InTurn (daemon : DeviceDaemon ρ) : DaemonStep ρ → Prop
  | .task index =>
    match daemon.tasks[index]? with
    | some (.emitting ((domain, state) :: _)) =>
      ∀ entry ∈ daemon.emitted, entry.1 = domain → entry.2.version ≤ state.version
    | _ => True
  | _ => True

/-- The owner stays. -/
def KeepsOwner (_ : DeviceDaemon ρ) (step : DaemonStep ρ) : Prop := step ≠ .replace

/-- The revision of an adapter does not go back, and grows when its payload changes. -/
def Lawful (daemon : DeviceDaemon ρ) : DaemonStep ρ → Prop
  | .change domain state =>
    (daemon.adapter domain).version.revision ≤ state.version.revision ∧
      ((daemon.adapter domain).payload = state.payload ∧
          (daemon.adapter domain).other = state.other ∨
        (daemon.adapter domain).version.revision < state.version.revision)
  | _ => True

instance [DecidableEq ρ] (daemon : DeviceDaemon ρ) : ∀ step, Decidable (daemon.Lawful step)
  | .change _ _ => inferInstanceAs (Decidable (_ ∧ (_ ∧ _ ∨ _)))
  | .begin _ | .work _ _ | .refresh | .replace | .task _ => inferInstanceAs (Decidable True)

theorem versioned_iff : daemon.Versioned ↔
    ∀ domain, Revisioned DomainState.version DomainState.content (daemon.stored domain) := by
  refine forall_congr' fun domain => ?_
  rw [revisioned_iff_pairwise]
  refine List.Pairwise.iff fun _ _ => ?_
  rw [Theory.follows_iff, DomainState.content_eq_iff]
  constructor
  · rintro ⟨hle, hsame⟩
    exact hle.lt_or_eq.imp_right fun heq => ⟨heq, hsame heq⟩
  · rintro (hlt | ⟨heq, hsame⟩)
    · exact ⟨hlt.le, fun heq => absurd heq hlt.ne⟩
    · exact ⟨heq.le, fun _ => hsame⟩

/-! ### What is stored -/

/-- The last that has been stored is in the states. -/
def Synced (daemon : DeviceDaemon ρ) : Prop :=
  ∀ domain, (daemon.stored domain).getLast? = some (daemon.states domain)

variable {after : DeviceDaemon ρ}

theorem Synced.of_same (h : daemon.Synced) (hstates : after.states = daemon.states)
    (hstored : after.stored = daemon.stored) :
    after.Synced := by
  intro domain
  rw [hstates, hstored]
  exact h domain

theorem Synced.write (h : daemon.Synced) (written : DeviceDomain → Option (DomainState ρ)) :
    (daemon.write written).Synced := by
  intro domain
  simp only [DeviceDaemon.write]
  cases written domain with
  | none => simpa using h domain
  | some state => simp

theorem versioned_write_iff (h : daemon.Synced) (written : DeviceDomain → Option (DomainState ρ)) :
    (daemon.write written).Versioned ↔ daemon.Versioned ∧
      ∀ domain state, written domain = some state → state.Follows (daemon.states domain) := by
  rw [versioned_iff, versioned_iff, ← forall_and]
  refine forall_congr' fun domain => ?_
  simp only [DeviceDaemon.write]
  cases hwritten : written domain with
  | none => simp
  | some state =>
    rw [Option.toList_some, revisioned_append_iff (h domain)]
    simp [DomainState.Follows]

/-- The states and the history after this has been stored. -/
structure Wrote (daemon after : DeviceDaemon ρ) (written : DeviceDomain → Option (DomainState ρ)) :
    Prop where
  states : after.states = (daemon.write written).states
  stored : after.stored = (daemon.write written).stored

theorem Wrote.none {after : DeviceDaemon ρ} (hstates : after.states = daemon.states)
    (hstored : after.stored = daemon.stored) : daemon.Wrote after fun _ => Option.none :=
  ⟨hstates, by simpa [DeviceDaemon.write] using hstored⟩

variable {written : DeviceDomain → Option (DomainState ρ)}

theorem Wrote.synced (hwrote : daemon.Wrote after written) (h : daemon.Synced) : after.Synced :=
  (h.write written).of_same hwrote.states hwrote.stored

theorem Wrote.versioned_iff (hwrote : daemon.Wrote after written) (h : daemon.Synced) :
    after.Versioned ↔ daemon.Versioned ∧
      ∀ domain state, written domain = some state → state.Follows (daemon.states domain) := by
  rw [← versioned_write_iff h]
  unfold Versioned
  rw [hwrote.stored]

variable {domain : DeviceDomain}

/-- What has been stored stays. -/
theorem Wrote.mem_stored (hwrote : daemon.Wrote after written) {state : DomainState ρ}
    (h : state ∈ daemon.stored domain) :
    state ∈ after.stored domain := by
  rw [hwrote.stored]
  exact List.mem_append_left _ h

/-- A state of a single domain. -/
def only (domain : DeviceDomain) (state : DomainState ρ) : DeviceDomain → Option (DomainState ρ) :=
  Function.update (fun _ => Option.none) domain (some state)

theorem forall_only {state : DomainState ρ} {p : DeviceDomain → DomainState ρ → Prop} :
    (∀ other later, only domain state other = some later → p other later) ↔ p domain state := by
  constructor
  · exact fun h => h domain state (Function.update_self _ _ _)
  · intro h other later hlater
    by_cases heq : other = domain
    · subst heq
      rw [only, Function.update_self] at hlater
      exact Option.some.inj hlater ▸ h
    · rw [only, Function.update_of_ne heq] at hlater
      cases hlater

theorem Failed.follows_iff {error : String} :
    ((daemon.states domain).degraded error).Follows (daemon.states domain) ↔
      daemon.Failed domain error := by
  rw [DomainState.follows_iff]
  simp [DomainState.degraded, DomainState.Same, Failed]

/-- What a worker stores when it goes on, and when this keeps to the rule. -/
theorem wrote_executeSingle (domain : DeviceDomain) (execution : Execution ρ) (found : Found)
    (hexecution : daemon.executions domain = some execution) :
    ∃ written, daemon.Wrote (daemon.executeSingle domain execution found) written ∧
      ((∀ other state, written other = some state → state.Follows (daemon.states other)) ↔
        daemon.Orderly (.work domain found)) := by
  have hnone : ∀ {after : DeviceDaemon ρ}, after.states = daemon.states →
      after.stored = daemon.stored → daemon.Orderly (.work domain found) →
      ∃ written, daemon.Wrote after written ∧
        ((∀ other state, written other = some state → state.Follows (daemon.states other)) ↔
          daemon.Orderly (.work domain found)) :=
    fun hstates hstored horderly => ⟨_, .none hstates hstored,
      iff_of_true (fun _ _ heq => by cases heq) horderly⟩
  unfold executeSingle
  split
  case h_6 before state hphase =>
    refine ⟨only domain state, ⟨rfl, rfl⟩, ?_⟩
    rw [forall_only]
    simp [Orderly, hexecution, hphase]
  case h_9 hphase =>
    refine ⟨only domain ((daemon.states domain).degraded "Device command rejected"),
      ⟨rfl, rfl⟩, ?_⟩
    rw [forall_only, Failed.follows_iff]
    simp [Orderly, hexecution, hphase]
  case h_11 before observed hphase =>
    refine ⟨only domain ((daemon.states domain).degraded "Command timed out"), ⟨rfl, rfl⟩, ?_⟩
    rw [forall_only, Failed.follows_iff]
    simp [Orderly, hexecution, hphase]
  all_goals rename_i hphase
  all_goals
    have horderly : daemon.Orderly (.work domain found) := by simp [Orderly, hexecution, hphase]
  all_goals try split
  all_goals try split
  all_goals try split
  all_goals exact hnone rfl rfl horderly

section

variable [DecidableEq ρ]

variable {domain : DeviceDomain} {generation : ℕ}

/-- What a refresh stores is new. -/
theorem refreshed_eq_some_iff {state : DomainState ρ} :
    daemon.refreshed generation domain = some state ↔
      ¬ (daemon.states domain).Same (daemon.adapter domain) ∧
        { daemon.adapter domain with
          version := ⟨generation, saturatingAdd (daemon.states domain).version.revision 1⟩ } =
            state := by
  unfold refreshed DomainState.refreshed
  split_ifs with hsame <;> simp [hsame]

theorem follows_refreshed_iff :
    (∀ domain state, daemon.refreshed generation domain = some state →
      state.Follows (daemon.states domain)) ↔
    ∀ domain, ¬ (daemon.states domain).Same (daemon.adapter domain) →
      (daemon.states domain).version.ownerGeneration < generation ∨
        (daemon.states domain).version.ownerGeneration = generation ∧
          (daemon.states domain).version.revision < 2 ^ 64 - 1 := by
  refine forall_congr' fun domain => ?_
  have hfollows : ∀ hchanged : ¬ (daemon.states domain).Same (daemon.adapter domain),
      DomainState.Follows { daemon.adapter domain with
        version := ⟨generation, saturatingAdd (daemon.states domain).version.revision 1⟩ }
          (daemon.states domain) ↔
        (daemon.states domain).version.ownerGeneration < generation ∨
          (daemon.states domain).version.ownerGeneration = generation ∧
            (daemon.states domain).version.revision < 2 ^ 64 - 1 := by
    intro hchanged
    have hnot : ∀ version, ¬ (daemon.states domain).Same
        { daemon.adapter domain with version } := fun _ => hchanged
    rw [DomainState.follows_iff, DomainVersion.lt_iff, or_iff_left fun h => hnot _ h.2]
    refine or_congr_right (and_congr_right fun _ => ?_)
    simp only [saturatingAdd]
    omega
  constructor
  · exact fun h hchanged =>
      (hfollows hchanged).mp (h _ (refreshed_eq_some_iff.mpr ⟨hchanged, rfl⟩))
  · intro h state hstate
    obtain ⟨hchanged, rfl⟩ := refreshed_eq_some_iff.mp hstate
    exact (hfollows hchanged).mpr (h hchanged)

omit [DecidableEq ρ] in
theorem follows_reconnecting_iff :
    ((daemon.states domain).reconnecting generation).Follows (daemon.states domain) ↔
      (daemon.states domain).version.ownerGeneration < generation ∨
        daemon.states domain = (daemon.states domain).reconnecting generation := by
  rw [DomainState.follows_iff, DomainVersion.lt_iff]
  obtain ⟨⟨ownerGeneration, revision⟩, lifecycle, payload, other, error⟩ := daemon.states domain
  simp only [DomainState.reconnecting, DomainState.Same, DomainState.mk.injEq,
    DomainVersion.mk.injEq, Nat.not_lt_zero, and_false, or_false, true_and]

/-- What a step stores, and when this keeps to the rule. -/
theorem wrote_next (step : DaemonStep ρ) :
    ∃ written, daemon.Wrote (daemon.next step) written ∧
      ((∀ domain state, written domain = some state → state.Follows (daemon.states domain)) ↔
        daemon.Orderly step) := by
  have hnone : ∀ {after : DeviceDaemon ρ}, after.states = daemon.states →
      after.stored = daemon.stored → daemon.Orderly step →
      ∃ written, daemon.Wrote after written ∧
        ((∀ domain state, written domain = some state → state.Follows (daemon.states domain)) ↔
          daemon.Orderly step) :=
    fun hstates hstored horderly => ⟨_, .none hstates hstored,
      iff_of_true (fun _ _ heq => by cases heq) horderly⟩
  cases step with
  | change domain state => exact hnone rfl rfl trivial
  | «begin» command =>
    simp only [next]
    unfold beginCommand
    simp only
    split_ifs <;> exact hnone rfl rfl trivial
  | work domain found =>
    simp only [next]
    split
    · rename_i hexecution
      exact hnone rfl rfl (by simp [Orderly, hexecution])
    · rename_i execution hexecution
      exact wrote_executeSingle domain execution found hexecution
  | refresh => exact hnone rfl rfl trivial
  | replace => exact hnone rfl rfl trivial
  | task index =>
    simp only [next]
    split
    · rename_i htask
      exact hnone rfl rfl (by simp [Orderly, htask])
    · rename_i task htask
      cases task with
      | refreshing generation =>
        refine ⟨daemon.refreshed generation, ⟨rfl, rfl⟩, ?_⟩
        rw [follows_refreshed_iff]
        simp [Orderly, htask]
      | emitting states =>
        have horderly : daemon.Orderly (.task index) := by simp [Orderly, htask]
        cases states <;> exact hnone rfl rfl horderly
      | applied domain version => exact hnone rfl rfl (by simp [Orderly, htask])
      | replacing generation =>
        refine ⟨_, ⟨rfl, rfl⟩, ?_⟩
        simp only [Option.some.injEq, forall_eq', follows_reconnecting_iff]
        simp [Orderly, htask]
      | notifying => exact hnone rfl rfl (by simp [Orderly, htask])

theorem Synced.next (h : daemon.Synced) (step : DaemonStep ρ) : (daemon.next step).Synced := by
  obtain ⟨written, hwrote, -⟩ := @wrote_next ρ daemon _ step
  exact hwrote.synced h

/-- **A step keeps to the rule** exactly when what it stores does. -/
theorem versioned_next_iff (h : daemon.Synced) (step : DaemonStep ρ) :
    (daemon.next step).Versioned ↔ daemon.Versioned ∧ daemon.Orderly step := by
  obtain ⟨written, hwrote, horderly⟩ := @wrote_next ρ daemon _ step
  rw [hwrote.versioned_iff h, horderly]

/-! ### What the client receives -/

omit [DecidableEq ρ] in
/-- A state may be sent: it has been stored, by the first owner. -/
def Sendable (daemon : DeviceDaemon ρ) (domain : DeviceDomain) (state : DomainState ρ) : Prop :=
  state ∈ daemon.stored domain ∧ state.version.ownerGeneration = 1

/-- What the tasks hold while the owner stays. -/
def Holds (daemon : DeviceDaemon ρ) : DaemonTask ρ → Prop
  | .refreshing generation => generation = 1
  | .emitting states => ∀ entry ∈ states, daemon.Sendable entry.1 entry.2
  | .applied _ version => version.ownerGeneration = 1
  | .replacing _ => False
  | .notifying => False

/-- The client knows of the last state that was sent to it, if any. -/
def Knows (daemon : DeviceDaemon ρ) (domain : DeviceDomain) : Prop :=
  (daemon.client.domains domain).version = .zero ∧ (∀ entry ∈ daemon.emitted, entry.1 ≠ domain) ∨
    ∃ state, (domain, state) ∈ daemon.emitted ∧
      daemon.client.domains domain = stateFromWire 1 state ∧
        ∀ entry ∈ daemon.emitted, entry.1 = domain → entry.2.version ≤ state.version

/-- What holds while the owner stays, and the states are sent in their turn. -/
structure InStep (daemon : DeviceDaemon ρ) : Prop where
  ownerGeneration : daemon.ownerGeneration = 1
  installed : daemon.client.installedOwnerGeneration = 1
  executions : ∀ domain execution, daemon.executions domain = some execution →
    execution.generation = 1 ∧ ∀ before state, execution.phase = .storing before state →
      state.version.ownerGeneration = 1
  tasks : ∀ task ∈ daemon.tasks, daemon.Holds task
  emitted : ∀ entry ∈ daemon.emitted, daemon.Sendable entry.1 entry.2
  knows : ∀ domain, daemon.Knows domain
  received : daemon.Received

omit [DecidableEq ρ] in
theorem Versioned.same (h : daemon.Versioned) {state later : DomainState ρ}
    (hstate : state ∈ daemon.stored domain) (hlater : later ∈ daemon.stored domain)
    (hversion : state.version = later.version) : state.Same later := by
  have hsymm : Std.Symm fun a b : DomainState ρ => a.version = b.version → a.Same b :=
    ⟨fun a b hab heq => (hab heq.symm).symm⟩
  have hpairs : (daemon.stored domain).Pairwise fun a b => a.version = b.version → a.Same b :=
    (h domain).imp And.right
  exact hpairs.forall_of_forall (fun _ _ _ => DomainState.Same.rfl) hstate hlater hversion

omit [DecidableEq ρ] in
theorem Holds.mono {after : DeviceDaemon ρ} (hmono : ∀ domain state, daemon.Sendable domain state →
    after.Sendable domain state) {task : DaemonTask ρ} (h : daemon.Holds task) :
    after.Holds task := by
  cases task with
  | emitting states => exact fun entry hmem => hmono _ _ (h entry hmem)
  | _ => exact h

omit [DecidableEq ρ] in
/-- A step that sends nothing. -/
theorem InStep.of_kept (h : daemon.InStep) {after : DeviceDaemon ρ}
    (howner : after.ownerGeneration = daemon.ownerGeneration) (hclient : after.client = daemon.client)
    (hemitted : after.emitted = daemon.emitted)
    (hmono : ∀ domain state, daemon.Sendable domain state → after.Sendable domain state)
    (hexecutions : ∀ domain execution, after.executions domain = some execution →
      execution.generation = 1 ∧ ∀ before state, execution.phase = .storing before state →
        state.version.ownerGeneration = 1)
    (htasks : ∀ task ∈ after.tasks, task ∈ daemon.tasks ∨ after.Holds task) : after.InStep where
  ownerGeneration := howner.trans h.ownerGeneration
  installed := by rw [hclient]; exact h.installed
  executions := hexecutions
  tasks := fun task hmem => (htasks task hmem).elim (fun hold => (h.tasks task hold).mono hmono) id
  emitted := fun entry hmem => hmono _ _ (h.emitted entry (hemitted ▸ hmem))
  knows := by
    intro domain
    unfold Knows
    rw [hclient, hemitted]
    exact h.knows domain
  received := by
    unfold Received
    rw [hclient]
    exact h.received

/-- A state is sent in its turn: the client takes it, or knows of it. -/
theorem InStep.emit (h : daemon.InStep) (hversioned : daemon.Versioned) {state : DomainState ρ}
    (hsendable : daemon.Sendable domain state)
    (hturn : ∀ entry ∈ daemon.emitted, entry.1 = domain → entry.2.version ≤ state.version) :
    (daemon.emit domain state).InStep := by
  have hemitted : ∀ entry ∈ (daemon.emit domain state).emitted,
      entry ∈ daemon.emitted ∨ entry = (domain, state) := by
    intro entry hmem
    exact (List.mem_append.mp hmem).imp_right List.mem_singleton.mp
  have hlast : ∀ entry ∈ (daemon.emit domain state).emitted, entry.1 = domain →
      entry.2.version ≤ state.version := by
    intro entry hmem hdomain
    rcases hemitted entry hmem with hmem | rfl
    · exact hturn entry hmem hdomain
    · exact le_rfl
  have hsent : (domain, state) ∈ (daemon.emit domain state).emitted :=
    List.mem_append_right _ List.mem_cons_self
  -- what the client does with it
  have hupdate : daemon.client.updateLocalDomainState domain (stateFromWire 1 state) =
        { daemon.client with
          domains := Function.update daemon.client.domains domain (stateFromWire 1 state) } ∨
      daemon.client.updateLocalDomainState domain (stateFromWire 1 state) = daemon.client ∧
        daemon.client.domains domain = stateFromWire 1 state := by
    have hinstalled : ¬ daemon.client.installedOwnerGeneration <
        (stateFromWire 1 state).version.ownerGeneration := by
      rw [h.installed]
      exact lt_irrefl 1
    unfold ClientDomains.updateLocalDomainState
    rw [if_neg hinstalled]
    rcases h.knows domain with ⟨hzero, -⟩ | ⟨known, hknown, hdomains, -⟩
    · have hlt : DomainVersion.zero < (stateFromWire 1 state).version :=
        DomainVersion.lt_iff.mpr (.inl one_pos)
      rw [hzero, if_neg (not_lt_of_gt hlt), if_neg hlt.ne']
      exact .inl rfl
    · have hknownSent := h.emitted _ hknown
      have hle := hturn _ hknown rfl
      rcases hle.lt_or_eq with hlt | heq
      · have hwire : (stateFromWire 1 known).version < (stateFromWire 1 state).version := by
          rw [DomainVersion.lt_iff, hknownSent.2, hsendable.2] at hlt
          exact DomainVersion.lt_iff.mpr (hlt.imp_left fun h => absurd h (lt_irrefl 1))
        rw [hdomains, if_neg (not_lt_of_gt hwire), if_neg hwire.ne']
        exact .inl rfl
      · have hsame := hversioned.same hknownSent.1 hsendable.1 heq
        obtain rfl : known = state := by
          obtain ⟨hpayload, hother, hlifecycle, herror⟩ := hsame
          cases known
          cases state
          simp_all
        rw [hdomains, if_neg (lt_irrefl _), if_pos rfl, if_pos .rfl]
        exact .inr ⟨rfl, rfl⟩
  have hinstalled : daemon.client.installedOwnerGeneration = 1 := h.installed
  have hclient : (daemon.emit domain state).client =
      daemon.client.updateLocalDomainState domain (stateFromWire 1 state) := by
    simp only [DeviceDaemon.emit, hinstalled]
  refine ⟨h.ownerGeneration, ?_, h.executions, h.tasks, fun entry hmem => ?_, fun other => ?_, ?_⟩
  · rw [hclient]
    rcases hupdate with heq | ⟨heq, -⟩ <;> rw [heq] <;> exact h.installed
  · rcases hemitted entry hmem with hmem | rfl
    · exact h.emitted entry hmem
    · exact hsendable
  · unfold Knows
    rw [hclient]
    by_cases heq : other = domain
    · subst heq
      refine .inr ⟨state, hsent, ?_, hlast⟩
      rcases hupdate with heq | ⟨heq, hdomains⟩
      · rw [heq]
        exact Function.update_self _ _ _
      · rw [heq, hdomains]
    · have hdomains : (daemon.client.updateLocalDomainState domain
          (stateFromWire 1 state)).domains other = daemon.client.domains other := by
        rcases hupdate with hupdate | ⟨hupdate, -⟩ <;> rw [hupdate]
        exact Function.update_of_ne heq _ _
      rw [hdomains]
      refine (h.knows other).imp ?_ ?_
      · rintro ⟨hzero, hnone⟩
        refine ⟨hzero, fun entry hmem => ?_⟩
        rcases hemitted entry hmem with hmem | rfl
        · exact hnone entry hmem
        · exact Ne.symm heq
      · rintro ⟨known, hknown, hdomains, hle⟩
        refine ⟨known, List.mem_append_left _ hknown, hdomains, fun entry hmem hother => ?_⟩
        rcases hemitted entry hmem with hmem | rfl
        · exact hle entry hmem hother
        · exact absurd hother.symm heq
  · unfold Received
    rw [hclient]
    rcases hupdate with heq | ⟨heq, -⟩ <;> rw [heq] <;> exact h.received

theorem InStep.next (h : daemon.InStep) (hsynced : daemon.Synced) (hversioned : daemon.Versioned)
    {step : DaemonStep ρ} (hturn : daemon.InTurn step) (hkeeps : daemon.KeepsOwner step) :
    (daemon.next step).InStep := by
  have hmono : ∀ domain state, daemon.Sendable domain state →
      (daemon.next step).Sendable domain state := by
    obtain ⟨written, hwrote, -⟩ := @wrote_next ρ daemon _ step
    exact fun domain state hsendable => ⟨hwrote.mem_stored hsendable.1, hsendable.2⟩
  cases step with
  | change domain state => exact h.of_kept rfl rfl rfl hmono h.executions fun _ => .inl
  | «begin» command =>
    simp only [DeviceDaemon.next] at hmono ⊢
    unfold beginCommand at hmono ⊢
    simp only at hmono ⊢
    split_ifs
    · refine h.of_kept rfl rfl rfl (fun _ _ => id) (fun domain execution hexecution => ?_)
        fun _ => .inl
      by_cases heq : domain = command.domain
      · subst heq
        simp only [Function.update_self, Option.some.injEq] at hexecution
        subst hexecution
        exact ⟨h.ownerGeneration, fun _ _ hphase => by cases hphase⟩
      · simp only [Function.update_of_ne heq] at hexecution
        exact h.executions domain execution hexecution
    · exact h
  | work domain found =>
    simp only [DeviceDaemon.next] at hmono ⊢
    split
    · exact h
    · rename_i execution hexecution
      simp only [hexecution] at hmono
      obtain ⟨hgeneration, hstoring⟩ := h.executions domain execution hexecution
      have hframe := @workFrame_executeSingle ρ daemon domain execution found
      refine h.of_kept hframe.ownerGeneration hframe.client hframe.emitted hmono
        (fun other later hlater => ?_) fun task hmem => ?_
      · by_cases heq : other = domain
        · subst heq
          obtain ⟨hsame, -, hstored⟩ := storing_executeSingle hexecution hlater
          refine ⟨hsame.trans hgeneration, fun before state hphase => ?_⟩
          rcases hstored before state hphase with rfl | ⟨observed, -, rfl⟩
          · exact hstoring before state hphase
          · exact hgeneration
        · exact h.executions other later ((hframe.executions other heq).symm.trans hlater)
      · rcases @tasks_executeSingle ρ daemon domain execution found with
          htasks | ⟨before, state, hphase, htasks⟩
        · exact .inl (htasks ▸ hmem)
        · rw [htasks] at hmem
          refine (List.mem_append.mp hmem).imp_right fun hlast => ?_
          obtain rfl := List.mem_singleton.mp hlast
          exact hstoring before state hphase
  | refresh =>
    refine h.of_kept rfl rfl rfl hmono h.executions fun task hmem => ?_
    refine (List.mem_append.mp hmem).imp_right fun hlast => ?_
    obtain rfl := List.mem_singleton.mp hlast
    exact h.ownerGeneration
  | replace => exact absurd rfl hkeeps
  | task index =>
    simp only [DeviceDaemon.next] at hmono ⊢
    split
    · exact h
    · rename_i task htask
      simp only [htask] at hmono
      have hholds := h.tasks task (List.mem_of_getElem? htask)
      have hset : ∀ {after : DeviceDaemon ρ} {other : DaemonTask ρ}, after.tasks =
          daemon.tasks.set index other → after.Holds other →
            ∀ later ∈ after.tasks, later ∈ daemon.tasks ∨ after.Holds later := by
        intro after other htasks hother later hmem
        rw [htasks] at hmem
        rcases List.mem_or_eq_of_mem_set hmem with hold | rfl
        · exact .inl hold
        · exact .inr hother
      cases task with
      | refreshing generation =>
        refine h.of_kept rfl rfl rfl hmono h.executions (hset rfl ?_)
        rintro ⟨domain, state⟩ hmem
        obtain ⟨other, -, hsome⟩ := List.mem_filterMap.mp hmem
        obtain ⟨found, hfound, heq⟩ := Option.map_eq_some_iff.mp hsome
        obtain ⟨rfl, rfl⟩ := Prod.mk.inj heq
        refine ⟨?_, ?_⟩
        · change found ∈ daemon.stored other ++ (daemon.refreshed generation other).toList
          rw [hfound]
          exact List.mem_append_right _ List.mem_cons_self
        · obtain ⟨-, rfl⟩ := refreshed_eq_some_iff.mp hfound
          exact hholds
      | emitting states =>
        cases states with
        | nil => exact h
        | cons entry rest =>
          obtain ⟨domain, state⟩ := entry
          have hlater : ∀ entry ∈ daemon.emitted, entry.1 = domain →
              entry.2.version ≤ state.version := by
            simpa [InTurn, htask] using hturn
          have hemit := h.emit hversioned (hholds _ List.mem_cons_self) hlater
          exact hemit.of_kept rfl rfl rfl (fun _ _ => id) hemit.executions
            (hset rfl fun entry hmem => hholds entry (List.mem_cons_of_mem _ hmem))
      | applied domain version =>
        refine h.of_kept rfl rfl rfl hmono h.executions (hset rfl ?_)
        intro entry hmem
        split_ifs at hmem with hversion
        · obtain rfl := List.mem_singleton.mp hmem
          exact ⟨List.mem_of_getLast? (hsynced domain), hversion ▸ hholds⟩
        · cases hmem
      | replacing generation => exact hholds.elim
      | notifying => exact hholds.elim

end

end DeviceDaemon

/-! ### Runs -/

/-- **The versions of a domain go up, and one stands for one state**, in exactly the runs whose
steps are orderly. If besides the owner stays and the states are sent in the order of their
versions, the client drops none of them. -/
theorem versions_identify [DecidableEq ρ] [Inhabited ρ] (adapter : DeviceDomain → DomainState ρ)
    (steps : List (DaemonStep ρ)) :
    (Always DeviceDaemon.next DeviceDaemon.Versioned (.start adapter) steps ↔
      Along DeviceDaemon.next DeviceDaemon.Orderly (.start adapter) steps) ∧
    (Along DeviceDaemon.next DeviceDaemon.Orderly (.start adapter) steps →
      Along DeviceDaemon.next (fun daemon step => daemon.InTurn step ∧ daemon.KeepsOwner step)
        (.start adapter) steps →
      Always DeviceDaemon.next DeviceDaemon.Received (.start adapter) steps) := by
  have hsynced : (DeviceDaemon.start adapter).Synced := fun _ => rfl
  have hversioned : (DeviceDaemon.start adapter).Versioned := fun _ => List.pairwise_singleton _ _
  refine ⟨?_, fun horderly hturn => ?_⟩
  · exact always_iff_along (I := DeviceDaemon.Synced) (fun daemon step h => h.next step)
      (fun daemon step h hversioned => by
        rw [DeviceDaemon.versioned_next_iff h step, and_iff_right hversioned]) hsynced hversioned
      steps
  · have hstart : (DeviceDaemon.start adapter).InStep := by
      refine ⟨rfl, rfl, (fun _ _ heq => by cases heq), (fun _ hmem => by cases hmem),
        (fun _ hmem => by cases hmem), fun _ => .inl ⟨rfl, fun _ hmem => by cases hmem⟩, rfl⟩
    have hboth : Along DeviceDaemon.next (fun daemon step => daemon.Orderly step ∧
        daemon.InTurn step ∧ daemon.KeepsOwner step) (.start adapter) steps := by
      rw [along_iff] at horderly hturn ⊢
      exact fun pre step post hsplit => ⟨horderly pre step post hsplit, hturn pre step post hsplit⟩
    have hstep : ∀ (daemon : DeviceDaemon ρ) (step : DaemonStep ρ),
        daemon.Synced ∧ daemon.Versioned ∧ daemon.InStep →
          daemon.Orderly step ∧ daemon.InTurn step ∧ daemon.KeepsOwner step →
            (daemon.next step).Synced ∧ (daemon.next step).Versioned ∧
              (daemon.next step).InStep := by
      rintro daemon step ⟨hsynced, hversioned, h⟩ ⟨horderly, hturn, hkeeps⟩
      exact ⟨hsynced.next step,
        (DeviceDaemon.versioned_next_iff hsynced step).mpr ⟨hversioned, horderly⟩,
        h.next hsynced hversioned hturn hkeeps⟩
    refine (always_iff _ _).mpr ?_
    rintro pre post rfl
    exact (Along.holds hstep ⟨hsynced, hversioned, hstart⟩
      ((along_append _ pre post).mp hboth).1).2.2.received

namespace Sample

/-- The audio device reports this volume, under this revision. -/
def volume (revision : ℕ) (volume : UInt8) : DomainState Unit :=
  ⟨⟨1, revision⟩, .ready, .audio ⟨volume, false⟩, (), none⟩

def quiet : DeviceDaemon Unit := .start fun _ => volume 1 50

/-- The volume changes, and a refresh tells the client. -/
def refreshed : List (DaemonStep Unit) := [.change .audio (volume 2 60), .refresh, .task 0, .task 0]

/-- A command fails. -/
def failing : List (DaemonStep Unit) :=
  [.begin (.audio (.setVolume 70)), .work .audio .prompt, .work .audio ⟨some .failed, false⟩,
    .work .audio .prompt, .work .audio .prompt]

/-- It fails, a refresh sees the device well, it fails again, and a third command is applied. -/
def recovered : List (DaemonStep Unit) :=
  failing ++ [DaemonStep.refresh, .task 0] ++ failing ++ [DaemonStep.refresh, .task 1] ++
    [DaemonStep.begin (.audio (.setVolume 70)), .work .audio .prompt,
      .change .audio (volume 2 70)] ++
      List.replicate 5 (DaemonStep.work .audio .prompt)

/-- The owner is replaced after two refreshes; the next one begins with the first revision. -/
def replacedOwner : List (DaemonStep Unit) :=
  [.change .audio (volume 2 60), .refresh, .task 0, .task 0, .change .audio (volume 3 70),
    .refresh, .task 1, .task 1, .replace, .task 2, .refresh, .task 3, .task 3]

end Sample

/-- A refreshed volume reaches the client. -/
theorem versions_identify_refreshed :
    Always DeviceDaemon.next DeviceDaemon.Received Sample.quiet Sample.refreshed := by
  refine (versions_identify (fun _ => Sample.volume 1 50) Sample.refreshed).2 ?_ ?_
  · exact (versions_identify (fun _ => Sample.volume 1 50) Sample.refreshed).1.mp
      (by decide +kernel)
  · exact ⟨⟨trivial, fun heq => by cases heq⟩, ⟨trivial, fun heq => by cases heq⟩,
      ⟨trivial, fun heq => by cases heq⟩, ⟨(fun _ hmem => by cases hmem), fun heq => by cases heq⟩,
      trivial⟩

/-- With an adapter that keeps to the rule: one version stands for two states, versions go back, and
a state is dropped. -/
theorem versions_collide :
    (Along DeviceDaemon.next DeviceDaemon.Lawful Sample.quiet Sample.failing ∧
      ¬ Always DeviceDaemon.next DeviceDaemon.Versioned Sample.quiet Sample.failing) ∧
    (Along DeviceDaemon.next DeviceDaemon.Lawful Sample.quiet Sample.recovered ∧
      ((run DeviceDaemon.next Sample.quiet Sample.recovered).stored .audio).map
        DomainState.version = [⟨1, 1⟩, ⟨1, 1⟩, ⟨1, 2⟩, ⟨1, 2⟩, ⟨1, 3⟩, ⟨1, 2⟩]) ∧
    (Along DeviceDaemon.next DeviceDaemon.Lawful Sample.quiet Sample.replacedOwner ∧
      ¬ Always DeviceDaemon.next DeviceDaemon.Received Sample.quiet Sample.replacedOwner) := by
  decide +kernel

end Shilpo.Device
