import Shilpo.Domain.Supervisor
import Shilpo.Theory.Runs

/-!
# Losing the device daemon

`maintain_connection` connects the device client to its daemon, and looks after the connection in a
loop; and each connection has a task of its own, which waits until the connection is closed, clears
the slot and reports the failure (`desktop/device/src/client.rs`). When the loop finds the slot
empty it reports the failure too: it looks between the two steps of the task, or had read that the
supervisor is running before them. Then one loss counts twice; the report of the task may come when
the next connection is up; and so a connection is replaced that is alive, and its task clears the
slot of another (`losses_miscounted`).

Losses are counted once in exactly the runs in which the loop reports none; and in these the rest
holds as well (`losses_counted`).
-/

namespace Shilpo.Device

open Domain Theory

/-! ### The client -/

/-- The task that waits for the end of a connection. -/
inductive WatcherPhase where
  | absent
  | waiting
  | cleared
  | reported
  deriving DecidableEq

/-- A connection that has been established; it is named by its place among all. -/
structure DeviceConnection where
  closed : Bool
  watcher : WatcherPhase
  deriving DecidableEq

/-- Where `maintain_connection` is; `published` and `marked` are parts of `connect_on`. -/
inductive MaintainPhase where
  | looping
  | ticked (nowMs : ℕ)
  | running (nowMs : ℕ)
  | disconnected (nowMs : ℕ)
  | backoff (retryAtMs : ℕ)
  | connecting
  | failed
  | published (connection : ℕ)
  | marked (connection : ℕ)
  | connected
  | sleeping
  | ended
  deriving DecidableEq

/-- The client; `failures` are the calls of `record_failure`, and `failedAttempts` those for an
attempt that has failed. -/
structure ConnectionClient where
  now : ℕ
  supervisor : DomainSupervisor
  connection : Option ℕ
  connections : List DeviceConnection
  maintain : MaintainPhase
  failures : ℕ
  failedAttempts : ℕ
  deriving DecidableEq

inductive ConnectionStep where
  | wait (time : ℕ)
  /-- The loop goes on; an attempt to connect succeeds or not. -/
  | maintain (connects : Bool)
  | close (connection : ℕ)
  | watch (connection : ℕ)
  | resetQuarantine
  deriving DecidableEq

namespace ConnectionClient

variable (client : ConnectionClient)

def start : ConnectionClient := ⟨0, .new, none, [], .looping, 0, 0⟩

def setWatcher (index : ℕ) (connection : DeviceConnection) (watcher : WatcherPhase) :
    ConnectionClient :=
  { client with connections := client.connections.set index { connection with watcher } }

def reportOwnerFailure (nowMs : ℕ) : ConnectionClient :=
  { client with
    supervisor := client.supervisor.recordFailure nowMs, failures := client.failures + 1 }

def markReady : ConnectionClient :=
  { client with supervisor := client.supervisor.markRunning client.now }

/-- What the loop does when it has read the state. -/
def afterState (nowMs : ℕ) : MaintainPhase :=
  match client.supervisor.state with
  | .running => .running nowMs
  | .backoff _ retryAtMs => .backoff retryAtMs
  | .quarantined => .sleeping
  | .starting => .connecting
  | .stopping | .stopped => .ended

/-- The connection is put into the slot when all is set up. -/
def publish : ConnectionClient :=
  { client with
    connection := some client.connections.length,
    connections := client.connections ++ [⟨false, .absent⟩],
    maintain := .published client.connections.length }

/-- The task of the connection is started. -/
def spawnWatcher (index : ℕ) : ConnectionClient :=
  match client.connections[index]? with
  | none => client
  | some connection =>
    { client.setWatcher index connection .waiting with maintain := .connected }

/-- The loop goes on. -/
def maintainConnection (connects : Bool) : ConnectionClient :=
  match client.maintain with
  | .looping =>
    { client with
      supervisor := client.supervisor.tick client.now, maintain := .ticked client.now }
  | .ticked nowMs => { client with maintain := client.afterState nowMs }
  | .running nowMs =>
    { client with
      maintain := if client.connection.isSome then .sleeping else .disconnected nowMs }
  | .disconnected nowMs => { client.reportOwnerFailure nowMs with maintain := .looping }
  | .backoff retryAtMs =>
    if client.now < retryAtMs then { client with maintain := .sleeping }
    else
      { client with supervisor := client.supervisor.tick client.now, maintain := .looping }
  | .connecting => if connects then client.publish else { client with maintain := .failed }
  | .failed =>
    { client.reportOwnerFailure client.now with
      maintain := .looping, failedAttempts := client.failedAttempts + 1 }
  | .published index => { client.markReady with maintain := .marked index }
  | .marked index => client.spawnWatcher index
  | .connected => { client.markReady with maintain := .looping }
  | .sleeping => { client with maintain := .looping }
  | .ended => client

/-- The task goes on: it clears the slot, whatever is in it, and then reports. -/
def watch (index : ℕ) (connection : DeviceConnection) : ConnectionClient :=
  match connection.watcher with
  | .waiting =>
    if connection.closed then
      { client.setWatcher index connection .cleared with connection := none }
    else client
  | .cleared =>
    (client.setWatcher index connection .reported).reportOwnerFailure client.now
  | _ => client

def next : ConnectionStep → ConnectionClient
  | .wait time => { client with now := client.now + time }
  | .maintain connects => client.maintainConnection connects
  | .close index =>
    match client.connections[index]? with
    | none => client
    | some connection =>
      { client with connections := client.connections.set index { connection with closed := true } }
  | .watch index =>
    match client.connections[index]? with
    | none => client
    | some connection => client.watch index connection
  | .resetQuarantine => { client with supervisor := client.supervisor.resetQuarantine.1 }

/-! ### What is promised -/

/-- The connections whose loss has been reported by their tasks. -/
def lost : ℕ := client.connections.countP (·.watcher = .reported)

/-- A failure is counted for each attempt that has failed, and for each connection that is lost. -/
def Counted : Prop := client.failures = client.failedAttempts + client.lost

instance : Decidable client.Counted := inferInstanceAs (Decidable (_ = _))

/-- The slot is cleared when its connection has closed. -/
def ClearsOwn (step : ConnectionStep) : Prop :=
  ∀ index, client.connection = some index → (client.next step).connection = none →
    ∃ connection, client.connections[index]? = some connection ∧ connection.closed

/-- While the loop sleeps and the connection in the slot is alive, the supervisor is running. -/
def RunsConnected : Prop :=
  client.maintain = .sleeping → ∀ index, client.connection = some index → ∀ connection,
    client.connections[index]? = some connection → connection.closed = false →
      client.supervisor.state = .running

/-- The loop does not report a loss itself. -/
def LeavesReport (step : ConnectionStep) : Prop :=
  ∀ connects, step = .maintain connects → ∀ nowMs, client.maintain ≠ .disconnected nowMs

/-! ### What is counted -/

variable {client}

/-- The connections after one of them has changed. -/
theorem getElem?_set_cases {connections : List DeviceConnection} {index other : ℕ}
    {later found : DeviceConnection} (h : (connections.set index later)[other]? = some found) :
    other = index ∧ found = later ∨ other ≠ index ∧ connections[other]? = some found := by
  by_cases heq : index = other
  · subst heq
    rw [List.getElem?_set_self'] at h
    cases hget : connections[index]? with
    | none => rw [hget] at h; cases h
    | some old =>
      rw [hget] at h
      exact .inl ⟨rfl, (Option.some.inj h).symm⟩
  · rw [List.getElem?_set_ne heq] at h
    exact .inr ⟨Ne.symm heq, h⟩

/-- A connection that is being established has no task yet. -/
def Fresh (client : ConnectionClient) : Prop :=
  ∀ index, client.maintain = .published index ∨ client.maintain = .marked index →
    ∃ connection, client.connections[index]? = some connection ∧ connection.watcher = .absent

variable {after : ConnectionClient} {index : ℕ}

/-- A connection without a task stays so when another one changes, or it is closed. -/
theorem Fresh.set (h : client.Fresh) {connection later : DeviceConnection}
    (hfound : client.connections[index]? = some connection)
    (hconnections : after.connections = client.connections.set index later)
    (hmaintain : after.maintain = client.maintain)
    (hwatcher : connection.watcher = .absent → later.watcher = .absent) : after.Fresh := by
  intro other hphase
  rw [hmaintain] at hphase
  obtain ⟨found, hother, habsent⟩ := h other hphase
  rw [hconnections]
  by_cases heq : index = other
  · subst heq
    obtain rfl := Option.some.inj (hfound.symm.trans hother)
    obtain ⟨hlt, -⟩ := List.getElem?_eq_some_iff.mp hfound
    exact ⟨later, List.getElem?_set_self hlt, hwatcher habsent⟩
  · exact ⟨found, (List.getElem?_set_ne heq).trans hother, habsent⟩

theorem Fresh.next (h : client.Fresh) (step : ConnectionStep) : (client.next step).Fresh := by
  cases step with
  | wait time => exact h
  | maintain connects =>
    simp only [ConnectionClient.next]
    unfold maintainConnection
    split
    all_goals try (intro index hphase; rcases hphase with hphase | hphase <;> cases hphase; done)
    · intro index hphase
      change client.afterState _ = .published index ∨ client.afterState _ = .marked index at hphase
      unfold afterState at hphase
      split at hphase <;> rcases hphase with hphase | hphase <;> cases hphase
    · intro index hphase
      rcases hphase with hphase | hphase <;> simp only at hphase <;> split_ifs at hphase
    · split_ifs <;> intro index hphase <;> rcases hphase with hphase | hphase <;> cases hphase
    · split_ifs
      · intro index hphase
        rcases hphase with hphase | hphase <;> cases hphase
        exact ⟨⟨false, .absent⟩, by simp [publish], rfl⟩
      · intro index hphase
        rcases hphase with hphase | hphase <;> cases hphase
    · rename_i index hpublished
      intro other hphase
      rcases hphase with hphase | hphase <;> cases hphase
      exact h index (.inl hpublished)
    · unfold spawnWatcher
      split
      · exact h
      · intro index hphase
        rcases hphase with hphase | hphase <;> cases hphase
    · exact h
  | close index =>
    simp only [ConnectionClient.next]
    split
    · exact h
    · rename_i connection hfound
      exact h.set hfound rfl rfl id
  | watch index =>
    simp only [ConnectionClient.next]
    split
    · exact h
    · rename_i connection hfound
      unfold watch
      split
      · rename_i hwaiting
        split_ifs
        · refine h.set hfound rfl rfl fun habsent => ?_
          rw [hwaiting] at habsent
          cases habsent
        · exact h
      · rename_i hcleared
        refine h.set hfound rfl rfl fun habsent => ?_
        rw [hcleared] at habsent
        cases habsent
      · exact h
  | resetQuarantine => exact h

variable {connection : DeviceConnection}

/-- A task goes on that has not reported. -/
theorem lost_setWatcher (watcher : WatcherPhase)
    (hfound : client.connections[index]? = some connection)
    (hbefore : connection.watcher ≠ .reported) :
    (client.setWatcher index connection watcher).lost =
      client.lost + if watcher = .reported then 1 else 0 := by
  obtain ⟨hlt, hget⟩ := List.getElem?_eq_some_iff.mp hfound
  simp only [lost, setWatcher]
  rw [List.countP_set hlt, hget]
  simp [hbefore]

/-- A step that counts nothing. -/
theorem Counted.of_same (h : client.Counted) (hfailures : after.failures = client.failures)
    (hattempts : after.failedAttempts = client.failedAttempts) (hlost : after.lost = client.lost) :
    after.Counted := by
  unfold Counted at h ⊢
  omega

theorem Counted.maintainConnection (h : client.Counted) (hfresh : client.Fresh) (connects : Bool)
    (hother : ∀ nowMs, client.maintain ≠ .disconnected nowMs) :
    (client.maintainConnection connects).Counted := by
  unfold ConnectionClient.maintainConnection
  split
  · exact h
  · exact h
  · exact h
  · rename_i nowMs hphase
    exact absurd hphase (hother nowMs)
  · split_ifs <;> exact h
  · split_ifs
    · refine h.of_same rfl rfl ?_
      simp [lost, publish]
    · exact h
  · unfold Counted at h ⊢
    change client.failures + 1 = client.failedAttempts + 1 + client.lost
    omega
  · exact h
  · rename_i index hphase
    unfold spawnWatcher
    split
    · exact h
    · rename_i connection hfound
      obtain ⟨found, hindex, habsent⟩ := hfresh index (.inr hphase)
      obtain rfl := Option.some.inj (hfound.symm.trans hindex)
      refine h.of_same rfl rfl (lost_setWatcher .waiting hfound ?_)
      rw [habsent]
      exact fun heq => by cases heq
  · exact h
  · exact h
  · exact h

/-- A failure is counted rightly, unless the loop reports a loss. -/
theorem counted_next_iff (hfresh : client.Fresh) (h : client.Counted) (step : ConnectionStep) :
    (client.next step).Counted ↔ client.LeavesReport step := by
  cases step with
  | wait time => exact iff_of_true h fun _ heq => by cases heq
  | maintain connects =>
    by_cases hphase : ∃ nowMs, client.maintain = .disconnected nowMs
    · obtain ⟨nowMs, hphase⟩ := hphase
      refine iff_of_false (fun hcounted => ?_) fun hleaves => hleaves connects rfl nowMs hphase
      unfold Counted at h hcounted
      simp only [ConnectionClient.next, ConnectionClient.maintainConnection, hphase] at hcounted
      change client.failures + 1 = client.failedAttempts + client.lost at hcounted
      omega
    · have hother : ∀ nowMs, client.maintain ≠ .disconnected nowMs :=
        fun nowMs heq => hphase ⟨nowMs, heq⟩
      exact iff_of_true (h.maintainConnection hfresh connects hother) fun _ _ => hother
  | close index =>
    refine iff_of_true ?_ fun _ heq => by cases heq
    simp only [ConnectionClient.next]
    split
    · exact h
    · rename_i connection hfound
      refine h.of_same rfl rfl ?_
      obtain ⟨hlt, hget⟩ := List.getElem?_eq_some_iff.mp hfound
      simp only [lost]
      rw [List.countP_set hlt, hget]
      have hpos : connection.watcher = .reported →
          0 < client.connections.countP (·.watcher = .reported) := by
        intro hreported
        exact List.countP_pos_iff.mpr
          ⟨connection, List.mem_of_getElem? hfound, decide_eq_true hreported⟩
      by_cases hreported : connection.watcher = .reported
      · have := hpos hreported
        simp only [hreported, decide_true, if_true]
        omega
      · simp [hreported]
  | watch index =>
    refine iff_of_true ?_ fun _ heq => by cases heq
    simp only [ConnectionClient.next]
    split
    · exact h
    · rename_i connection hfound
      unfold watch
      split
      · rename_i hwaiting
        split_ifs
        · refine h.of_same rfl rfl (lost_setWatcher .cleared hfound ?_)
          rw [hwaiting]
          exact fun heq => by cases heq
        · exact h
      · rename_i hcleared
        have hlost : ((client.setWatcher index connection .reported).reportOwnerFailure
            client.now).lost = client.lost + 1 :=
          lost_setWatcher .reported hfound (by rw [hcleared]; exact fun heq => by cases heq)
        unfold Counted at h ⊢
        rw [hlost]
        change client.failures + 1 = client.failedAttempts + (client.lost + 1)
        omega
      · exact h
  | resetQuarantine => exact iff_of_true h fun _ heq => by cases heq

/-! ### One connection at a time -/

/-- A task that has not reported is one of the last connection, and has its connection in the slot
until it clears it; and meanwhile the supervisor is running, or about to be. -/
structure Tidy (client : ConnectionClient) : Prop where
  last : ∀ (index : ℕ) (connection : DeviceConnection),
    client.connections[index]? = some connection → connection.watcher ≠ .reported →
      index + 1 = client.connections.length
  slot : ∀ index, client.connection = some index → ∃ connection,
    client.connections[index]? = some connection ∧
      (connection.watcher = .absent ∨ connection.watcher = .waiting)
  connecting : client.maintain = .connecting ∨ client.maintain = .failed →
    ∀ connection ∈ client.connections, connection.watcher = .reported
  running : ∀ connection ∈ client.connections, connection.watcher ≠ .reported →
    client.supervisor.state = .running ∨ ∃ index, client.maintain = .published index

theorem Tidy.runsConnected (h : client.Tidy) : client.RunsConnected := by
  intro hsleeping index hslot connection hfound _
  obtain ⟨found, hindex, hwatcher⟩ := h.slot index hslot
  obtain rfl := Option.some.inj (hfound.symm.trans hindex)
  have hopen : connection.watcher ≠ .reported := by
    rcases hwatcher with hwatcher | hwatcher <;> rw [hwatcher] <;> exact fun heq => by cases heq
  rcases h.running connection (List.mem_of_getElem? hfound) hopen with hrunning | ⟨place, hphase⟩
  · exact hrunning
  · rw [hsleeping] at hphase
    cases hphase

/-- Supervision goes on, and the connections stay as they are. -/
theorem Tidy.of_same (h : client.Tidy) (hconnections : after.connections = client.connections)
    (hconnection : after.connection = client.connection)
    (hphase : after.maintain = .connecting ∨ after.maintain = .failed →
      ∀ connection ∈ client.connections, connection.watcher = .reported)
    (hrunning : ∀ connection ∈ client.connections, connection.watcher ≠ .reported →
      after.supervisor.state = .running ∨ ∃ index, after.maintain = .published index) :
    after.Tidy := by
  refine ⟨?_, ?_, ?_, ?_⟩
  · rw [hconnections]; exact h.last
  · rw [hconnections, hconnection]; exact h.slot
  · rw [hconnections]; exact hphase
  · rw [hconnections]; exact hrunning

/-- A task that has not reported keeps the supervisor running when no connection is being put
in. -/
theorem Tidy.state (h : client.Tidy) (hphase : ∀ index, client.maintain ≠ .published index)
    (hmem : connection ∈ client.connections) (hopen : connection.watcher ≠ .reported) :
    client.supervisor.state = .running := by
  rcases h.running connection hmem hopen with hrunning | ⟨index, hpublished⟩
  · exact hrunning
  · exact absurd hpublished (hphase index)

theorem state_tick (supervisor : DomainSupervisor) (nowMs : ℕ)
    (hrunning : supervisor.state = .running) : (supervisor.tick nowMs).state = .running := by
  unfold DomainSupervisor.tick
  simp only [hrunning]
  split
  · split_ifs
    · rfl
    · exact hrunning
  · exact hrunning

theorem Tidy.publish (h : client.Tidy) (hconnecting : client.maintain = .connecting) :
    client.publish.Tidy := by
  have hreported := h.connecting (.inl hconnecting)
  refine ⟨fun index connection hfound hopen => ?_, fun index hslot => ?_, fun hphase => ?_,
    fun _ _ _ => .inr ⟨_, rfl⟩⟩
  · simp only [ConnectionClient.publish, List.length_append, List.length_singleton] at hfound ⊢
    rcases Nat.lt_or_ge index client.connections.length with hlt | hge
    · rw [List.getElem?_append_left hlt] at hfound
      exact absurd (hreported connection (List.mem_of_getElem? hfound)) hopen
    · have hlt := (List.getElem?_eq_some_iff.mp hfound).1
      rw [List.length_append, List.length_singleton] at hlt
      omega
  · obtain rfl := Option.some.inj hslot
    exact ⟨⟨false, .absent⟩, by simp [ConnectionClient.publish], .inl rfl⟩
  · rcases hphase with hphase | hphase <;> cases hphase

theorem Tidy.spawnWatcher (h : client.Tidy) (hfresh : client.Fresh)
    (hmarked : client.maintain = .marked index) : (client.spawnWatcher index).Tidy := by
  obtain ⟨connection, hfound, habsent⟩ := hfresh index (.inr hmarked)
  have hopen : connection.watcher ≠ .reported := by rw [habsent]; exact fun heq => by cases heq
  obtain ⟨hlt, -⟩ := List.getElem?_eq_some_iff.mp hfound
  have hstate := h.state (fun place heq => by rw [hmarked] at heq; cases heq)
    (List.mem_of_getElem? hfound) hopen
  unfold ConnectionClient.spawnWatcher
  rw [hfound]
  refine ⟨fun other found hother hnot => ?_, fun other hslot => ?_, fun hphase => ?_,
    fun _ _ _ => .inl hstate⟩
  · simp only [setWatcher, List.length_set] at hother ⊢
    rcases getElem?_set_cases hother with ⟨rfl, -⟩ | ⟨-, hother⟩
    · exact h.last other connection hfound hopen
    · exact h.last other found hother hnot
  · obtain ⟨found, hother, hwatcher⟩ := h.slot other hslot
    simp only [setWatcher]
    by_cases heq : index = other
    · subst heq
      exact ⟨_, List.getElem?_set_self hlt, .inr rfl⟩
    · exact ⟨found, (List.getElem?_set_ne heq).trans hother, hwatcher⟩
  · rcases hphase with hphase | hphase <;> cases hphase

theorem Tidy.maintainConnection (h : client.Tidy) (hfresh : client.Fresh) {connects : Bool}
    (hother : ∀ nowMs, client.maintain ≠ .disconnected nowMs) :
    (client.maintainConnection connects).Tidy := by
  unfold ConnectionClient.maintainConnection
  split
  · rename_i hphase
    refine h.of_same rfl rfl (fun hphase => by rcases hphase with h | h <;> cases h)
      fun connection hmem hopen => .inl (state_tick _ _ ?_)
    exact h.state (fun index heq => by rw [hphase] at heq; cases heq) hmem hopen
  · rename_i nowMs hphase
    have hstate : ∀ connection ∈ client.connections, connection.watcher ≠ .reported →
        client.supervisor.state = .running := fun connection hmem hopen =>
      h.state (fun index heq => by rw [hphase] at heq; cases heq) hmem hopen
    refine h.of_same rfl rfl (fun hafter connection hmem => ?_)
      fun connection hmem hopen => .inl (hstate connection hmem hopen)
    -- an attempt is made in `Starting` only
    by_contra hopen
    have hrunning := hstate connection hmem hopen
    change client.afterState nowMs = .connecting ∨ client.afterState nowMs = .failed at hafter
    unfold afterState at hafter
    rw [hrunning] at hafter
    rcases hafter with hafter | hafter <;> cases hafter
  · rename_i nowMs hphase
    refine h.of_same rfl rfl (fun hafter => ?_) fun connection hmem hopen => .inl
      (h.state (fun index heq => by rw [hphase] at heq; cases heq) hmem hopen)
    rcases hafter with hafter | hafter <;> simp only at hafter <;> split_ifs at hafter
  · rename_i nowMs hphase
    exact absurd hphase (hother nowMs)
  · rename_i retryAtMs hphase
    have hstate : ∀ connection ∈ client.connections, connection.watcher ≠ .reported →
        client.supervisor.state = .running := fun connection hmem hopen =>
      h.state (fun index heq => by rw [hphase] at heq; cases heq) hmem hopen
    split_ifs
    · exact h.of_same rfl rfl (fun hphase => by rcases hphase with h | h <;> cases h)
        fun connection hmem hopen => .inl (hstate connection hmem hopen)
    · exact h.of_same rfl rfl (fun hphase => by rcases hphase with h | h <;> cases h)
        fun connection hmem hopen => .inl (state_tick _ _ (hstate connection hmem hopen))
  · rename_i hphase
    split_ifs
    · exact h.publish hphase
    · exact h.of_same rfl rfl (fun _ => h.connecting (.inl hphase))
        fun connection hmem hopen => absurd (h.connecting (.inl hphase) connection hmem) hopen
  · rename_i hphase
    exact h.of_same rfl rfl (fun hphase => by rcases hphase with h | h <;> cases h)
      fun connection hmem hopen => absurd (h.connecting (.inr hphase) connection hmem) hopen
  · exact h.of_same rfl rfl (fun hphase => by rcases hphase with h | h <;> cases h)
      fun _ _ _ => .inl rfl
  · exact h.spawnWatcher hfresh ‹_›
  · exact h.of_same rfl rfl (fun hphase => by rcases hphase with h | h <;> cases h)
      fun _ _ _ => .inl rfl
  · rename_i hphase
    refine h.of_same rfl rfl (fun hphase => by rcases hphase with h | h <;> cases h)
      fun connection hmem hopen => .inl ?_
    exact h.state (fun index heq => by rw [hphase] at heq; cases heq) hmem hopen
  · exact h

/-- The task of a connection is the only one that has not reported. -/
theorem Tidy.only (h : client.Tidy) {index other : ℕ} {connection found : DeviceConnection}
    (hfound : client.connections[index]? = some connection)
    (hopen : connection.watcher ≠ .reported) (hother : client.connections[other]? = some found)
    (hotherOpen : found.watcher ≠ .reported) : other = index := by
  have hindex := h.last index connection hfound hopen
  have hplace := h.last other found hother hotherOpen
  omega

theorem Tidy.watch (h : client.Tidy) (hfound : client.connections[index]? = some connection) :
    (client.watch index connection).Tidy := by
  unfold ConnectionClient.watch
  split
  · rename_i hwaiting
    have hopen : connection.watcher ≠ .reported := by rw [hwaiting]; exact fun heq => by cases heq
    split_ifs
    · refine ⟨fun other found hother hnot => ?_, (fun _ hslot => by cases hslot),
        fun hphase => ?_, fun found hmem hnot => ?_⟩
      · simp only [setWatcher, List.length_set] at hother ⊢
        rcases getElem?_set_cases hother with ⟨rfl, -⟩ | ⟨-, hother⟩
        · exact h.last other connection hfound hopen
        · exact h.last other found hother hnot
      · exact absurd (h.connecting hphase connection (List.mem_of_getElem? hfound)) hopen
      · exact h.running connection (List.mem_of_getElem? hfound) hopen
    · exact h
  · rename_i hcleared
    have hopen : connection.watcher ≠ .reported := by rw [hcleared]; exact fun heq => by cases heq
    -- now every task has reported
    have hreported : ∀ found ∈ client.connections.set index
        { connection with watcher := .reported }, found.watcher = .reported := by
      intro found hmem
      obtain ⟨other, hother⟩ := List.getElem?_of_mem hmem
      rcases getElem?_set_cases hother with ⟨-, rfl⟩ | ⟨hne, hother⟩
      · rfl
      · by_contra hnot
        exact hne (h.only hfound hopen hother hnot)
    refine ⟨fun other found hother hnot => ?_, fun other hslot => ?_, fun _ => hreported,
      fun found hmem hnot => absurd (hreported found hmem) hnot⟩
    · exact absurd (hreported found (List.mem_of_getElem? hother)) hnot
    · obtain ⟨found, hother, hwatcher⟩ := h.slot other hslot
      have hotherOpen : found.watcher ≠ .reported := by
        rcases hwatcher with heq | heq <;> rw [heq] <;> exact fun heq => by cases heq
      obtain rfl := h.only hfound hopen hother hotherOpen
      obtain rfl := Option.some.inj (hfound.symm.trans hother)
      rw [hcleared] at hwatcher
      rcases hwatcher with heq | heq <;> cases heq
  · exact h

theorem Tidy.next (h : client.Tidy) (hfresh : client.Fresh) {step : ConnectionStep}
    (hleaves : client.LeavesReport step) : (client.next step).Tidy := by
  cases step with
  | wait time => exact ⟨h.last, h.slot, h.connecting, h.running⟩
  | maintain connects => exact h.maintainConnection hfresh (hleaves connects rfl)
  | close index =>
    simp only [ConnectionClient.next]
    split
    · exact h
    · rename_i connection hfound
      obtain ⟨hlt, -⟩ := List.getElem?_eq_some_iff.mp hfound
      -- a connection of before, with the same task
      have hcases : ∀ (other : ℕ) (found : DeviceConnection), (client.connections.set index
          { connection with closed := true })[other]? = some found →
            ∃ before, client.connections[other]? = some before ∧
              before.watcher = found.watcher := by
        intro other found hother
        rcases getElem?_set_cases hother with ⟨rfl, rfl⟩ | ⟨-, hother⟩
        · exact ⟨connection, hfound, rfl⟩
        · exact ⟨found, hother, rfl⟩
      refine ⟨fun other found hother hnot => ?_, fun other hslot => ?_, fun hphase found hmem => ?_,
        fun found hmem hnot => ?_⟩
      · obtain ⟨before, hbefore, hsame⟩ := hcases other found hother
        simp only [List.length_set]
        exact h.last other before hbefore (hsame ▸ hnot)
      · obtain ⟨found, hother, hwatcher⟩ := h.slot other hslot
        by_cases heq : index = other
        · subst heq
          obtain rfl := Option.some.inj (hfound.symm.trans hother)
          exact ⟨_, List.getElem?_set_self hlt, hwatcher⟩
        · exact ⟨found, (List.getElem?_set_ne heq).trans hother, hwatcher⟩
      · obtain ⟨other, hother⟩ := List.getElem?_of_mem hmem
        obtain ⟨before, hbefore, hsame⟩ := hcases other found hother
        rw [← hsame]
        exact h.connecting hphase before (List.mem_of_getElem? hbefore)
      · obtain ⟨other, hother⟩ := List.getElem?_of_mem hmem
        obtain ⟨before, hbefore, hsame⟩ := hcases other found hother
        exact h.running before (List.mem_of_getElem? hbefore) (hsame ▸ hnot)
  | watch index =>
    simp only [ConnectionClient.next]
    split
    · exact h
    · exact h.watch ‹_›
  | resetQuarantine =>
    refine h.of_same rfl rfl h.connecting fun connection hmem hopen => ?_
    refine (h.running connection hmem hopen).imp_left fun hrunning => ?_
    change (client.supervisor.resetQuarantine.1).state = .running
    unfold DomainSupervisor.resetQuarantine
    rw [if_neg (by rw [hrunning]; exact fun heq => by cases heq)]
    exact hrunning

/-- The loop clears nothing. -/
theorem connection_maintainConnection (hslot : client.connection = some index) (connects : Bool) :
    (client.maintainConnection connects).connection ≠ none := by
  have hsome : client.connection ≠ none := by rw [hslot]; exact fun heq => by cases heq
  unfold ConnectionClient.maintainConnection
  split
  · exact hsome
  · exact hsome
  · exact hsome
  · exact hsome
  · split_ifs <;> exact hsome
  · split_ifs
    · exact fun heq => by cases heq
    · exact hsome
  · exact hsome
  · exact hsome
  · unfold ConnectionClient.spawnWatcher
    split <;> exact hsome
  · exact hsome
  · exact hsome
  · exact hsome

/-- The slot is cleared by the task of the connection that is in it. -/
theorem Tidy.clearsOwn (h : client.Tidy) (step : ConnectionStep) : client.ClearsOwn step := by
  intro index hslot hcleared
  have hsome : client.connection ≠ none := by rw [hslot]; exact fun heq => by cases heq
  cases step with
  | wait time => exact absurd hcleared hsome
  | maintain connects => exact absurd hcleared (connection_maintainConnection hslot connects)
  | close place =>
    simp only [ConnectionClient.next] at hcleared
    split at hcleared <;> exact absurd hcleared hsome
  | watch place =>
    simp only [ConnectionClient.next] at hcleared
    split at hcleared
    · exact absurd hcleared hsome
    · rename_i connection hfound
      unfold ConnectionClient.watch at hcleared
      split at hcleared
      · rename_i hwaiting
        split_ifs at hcleared with hclosed
        · obtain ⟨found, hindex, hwatcher⟩ := h.slot index hslot
          obtain rfl : index = place := by
            refine h.only hfound ?_ hindex ?_
            · rw [hwaiting]
              exact fun heq => by cases heq
            · rcases hwatcher with heq | heq <;> rw [heq] <;> exact fun heq => by cases heq
          exact ⟨connection, hfound, hclosed⟩
        · exact absurd hcleared hsome
      · exact absurd hcleared hsome
      · exact absurd hcleared hsome
  | resetQuarantine => exact absurd hcleared hsome

end ConnectionClient

/-! ### Runs -/

/-- **A lost connection is counted once** in exactly the runs in which the loop reports no loss; and
in these a slot is cleared for its own connection only, and the supervisor is running while the loop
sleeps with a connection that is alive. -/
theorem losses_counted (steps : List ConnectionStep) :
    (Always ConnectionClient.next ConnectionClient.Counted .start steps ↔
      Along ConnectionClient.next ConnectionClient.LeavesReport .start steps) ∧
    (Along ConnectionClient.next ConnectionClient.LeavesReport .start steps →
      Along ConnectionClient.next ConnectionClient.ClearsOwn .start steps ∧
        Always ConnectionClient.next ConnectionClient.RunsConnected .start steps) := by
  have hfresh : ConnectionClient.start.Fresh := by
    intro index hphase
    rcases hphase with hphase | hphase <;> cases hphase
  have htidy : ConnectionClient.start.Tidy :=
    ⟨(fun _ _ hfound => by cases hfound), (fun _ hslot => by cases hslot),
      (fun _ _ hmem => by cases hmem), fun _ hmem => by cases hmem⟩
  have hstep : ∀ (client : ConnectionClient) (step : ConnectionStep),
      client.Tidy ∧ client.Fresh → client.LeavesReport step →
        (client.next step).Tidy ∧ (client.next step).Fresh :=
    fun client step h hleaves => ⟨h.1.next h.2 hleaves, h.2.next step⟩
  refine ⟨?_, fun hleaves => ⟨?_, ?_⟩⟩
  · exact always_iff_along (I := ConnectionClient.Fresh) (fun client step h => h.next step)
      (fun client step h hcounted => ConnectionClient.counted_next_iff h hcounted step) hfresh rfl
      steps
  · exact Along.imp hstep (fun client step h _ => h.1.clearsOwn step) ⟨htidy, hfresh⟩ hleaves
  · refine (always_iff _ _).mpr ?_
    rintro pre post rfl
    exact (Along.holds hstep ⟨htidy, hfresh⟩
      ((along_append _ pre post).mp hleaves).1).1.runsConnected

namespace Sample

/-- The loop connects, from its start, and sleeps. -/
def connects : List ConnectionStep := List.replicate 9 (.maintain true)

/-- The connection is lost; the loop looks between the two steps of the task. -/
def lostTwice : List ConnectionStep :=
  connects ++ [ConnectionStep.close 0, .watch 0] ++ List.replicate 5 (ConnectionStep.maintain true)

/-- It connects again, and the report of the task comes late. -/
def reportedLate : List ConnectionStep :=
  lostTwice ++ [ConnectionStep.wait 1000] ++ connects ++ [ConnectionStep.watch 0]

/-- It connects for a third time, and the second connection is closed. -/
def replaced : List ConnectionStep :=
  reportedLate ++ [ConnectionStep.wait 1000, .maintain true] ++ connects ++ [ConnectionStep.close 1]

/-- The task of the connection reports while the loop sleeps. -/
def lostOnce : List ConnectionStep := connects ++ [ConnectionStep.close 0, .watch 0, .watch 0]

end Sample

/-- A loss that the loop does not see is counted once. -/
theorem losses_counted_once :
    Along ConnectionClient.next ConnectionClient.ClearsOwn .start Sample.lostOnce ∧
      Always ConnectionClient.next ConnectionClient.RunsConnected .start Sample.lostOnce := by
  refine (losses_counted Sample.lostOnce).2 ?_
  refine (losses_counted Sample.lostOnce).1.mp ?_
  decide +kernel

/-- A loss counts twice; the supervisor backs off while the next connection is alive; and the slot
is cleared of a connection that is alive. -/
theorem losses_miscounted :
    ¬ Always ConnectionClient.next ConnectionClient.Counted .start
      (Sample.lostTwice ++ [ConnectionStep.watch 0]) ∧
    ¬ Always ConnectionClient.next ConnectionClient.RunsConnected .start Sample.reportedLate ∧
    ¬ Along ConnectionClient.next ConnectionClient.ClearsOwn .start
      (Sample.replaced ++ [ConnectionStep.watch 1]) := by
  refine ⟨fun h => ?_, fun h => ?_, fun h => ?_⟩
  · have hcounted := (always_iff _ _).mp h _ [] (List.append_nil _).symm
    revert hcounted
    decide +kernel
  · have hruns := (always_iff _ _).mp h _ [] (List.append_nil _).symm
    have hrunning := hruns (by decide +kernel) 1 (by decide +kernel) ⟨false, .waiting⟩
      (by decide +kernel) rfl
    revert hrunning
    decide +kernel
  · have hclears := (along_append _ Sample.replaced [.watch 1]).mp h
    obtain ⟨connection, hfound, hclosed⟩ :=
      hclears.2.1 2 (by decide +kernel) (by decide +kernel)
    have halive : (run ConnectionClient.next .start Sample.replaced).connections[2]? =
        some ⟨false, .waiting⟩ := by
      decide +kernel
    obtain rfl := Option.some.inj (halive.symm.trans hfound)
    cases hclosed

end Shilpo.Device
