import Shilpo.Device.States
import Shilpo.Theory.Runs

/-!
# Coalescing in the queues of the device daemon

`submit_command` (`desktop/services/src/device_daemon/mod.rs`) takes a command that is still in the
queue of its domain out of it when one with the same key comes, and puts the new one last.
On the adapter that keeps its states in memory (`in_memory_adapter.rs`) this changes nothing: what a
setter has written is overwritten by a later one with its key, and no command between the two
carries it anywhere else (`payload_coalesced`).
-/

namespace Shilpo.Device

open Theory

universe u

variable {ρ : Type u}

/-! ### The queue of a domain -/

structure PendingDeviceCommand where
  arrivalSequence : ℕ
  generation : ℕ
  command : DeviceCommand
  deriving DecidableEq

structure DomainQueue where
  pending : List PendingDeviceCommand
  inFlight : Bool
  deriving DecidableEq

/-- The commands have the same key. -/
def sharesKey (command : DeviceCommand) (item : PendingDeviceCommand) : Bool :=
  match command.coalescingKey, item.command.coalescingKey with
  | some key, some existingKey => existingKey == key
  | _, _ => false

namespace DomainQueue

variable (queue : DomainQueue) (capacity : ℕ) (item : PendingDeviceCommand)

/-- The queue without the command that is to be replaced. -/
def replaceLatest : DomainQueue :=
  { queue with pending := queue.pending.eraseP (sharesKey item.command) }

/-- There is no room for another command. -/
def isFull : Bool := capacity ≤ queue.pending.length + queue.inFlight.toNat

/-- `submit_command` while it holds the queue. -/
def submitCommand : DomainQueue :=
  let queue := queue.replaceLatest item
  if queue.isFull capacity then queue else { queue with pending := queue.pending ++ [item] }

/-- The command is not turned away. -/
def Accepts : Prop := (queue.replaceLatest item).isFull capacity = false

instance : Decidable (queue.Accepts capacity item) := inferInstanceAs (Decidable (_ = _))

end DomainQueue

/-! ### The adapter -/

def AudioAction.execute (action : AudioAction) (payload : AudioPayload) : AudioPayload :=
  match action with
  | setVolume v => { payload with volume := v }
  | setMuted m => { payload with isMuted := m }
  | toggleMute => { payload with isMuted := !payload.isMuted }

/-- The percentage is a byte, and its sum wraps. -/
def BrightnessAction.execute (action : BrightnessAction) (payload : BrightnessPayload) :
    BrightnessPayload :=
  match action with
  | setBrightness b => { payload with percentage := b }
  | setDisplay _ percentage => { payload with percentage }
  | stepUp => { payload with percentage := min (payload.percentage + 10) 100 }
  | stepDown =>
    { payload with percentage := if payload.percentage < 10 then 0 else payload.percentage - 10 }

def NightLightAction.execute (action : NightLightAction) (payload : NightLightPayload) :
    NightLightPayload :=
  match action with
  | setEnabled e => { payload with enabled := e }
  | toggleEnabled => { payload with enabled := !payload.enabled }
  | setTemperature t => { payload with temperature := t }

def CaffeineAction.execute (action : CaffeineAction) (payload : CaffeinePayload) :
    CaffeinePayload :=
  match action with
  | setEnabled e => { payload with enabled := e }
  | toggle => { payload with enabled := !payload.enabled }

/-- What a command makes of a payload: nothing, if the payload is not of its domain, or the adapter
does not know it. -/
def DeviceCommand.execute : DeviceCommand → DomainPayload → DomainPayload
  | audio action, .audio payload => .audio (action.execute payload)
  | brightness action, .brightness payload => .brightness (action.execute payload)
  | nightLight action, .nightLight payload => .nightLight (action.execute payload)
  | caffeine action, .caffeine payload => .caffeine (action.execute payload)
  | _, payload => payload

/-- `InMemoryDeviceAdapter`, where no error is forced. -/
structure InMemoryDeviceAdapter (ρ : Type u) where
  states : DeviceDomain → DomainState ρ

namespace InMemoryDeviceAdapter

def executeCommand (adapter : InMemoryDeviceAdapter ρ) (command : DeviceCommand) :
    InMemoryDeviceAdapter ρ where
  states := Function.update adapter.states command.domain
    { adapter.states command.domain with
      version := ⟨(adapter.states command.domain).version.ownerGeneration,
        (adapter.states command.domain).version.revision + 1⟩
      payload := command.execute (adapter.states command.domain).payload }

/-- The commands are executed one after another. -/
def executeAll (adapter : InMemoryDeviceAdapter ρ) (commands : List DeviceCommand) :
    InMemoryDeviceAdapter ρ :=
  run executeCommand adapter commands

end InMemoryDeviceAdapter

/-! ### Setters -/

section

variable {setter earlier : DeviceCommand}

/-- A later setter overwrites an earlier one. -/
theorem execute_setter (hkey : earlier.coalescingKey = setter.coalescingKey)
    (hsome : setter.coalescingKey ≠ none) (payload : DomainPayload) :
    setter.execute (earlier.execute payload) = setter.execute payload := by
  simp only [DeviceCommand.coalescingKey.eq_def] at hkey hsome
  split at hsome
  all_goals
    simp only at hkey
    split at hkey
    all_goals
      first
      | cases payload <;> rfl
      | exact absurd hkey (by decide)
      | exact absurd rfl hsome

/-- What a setter overwrites, another command does not carry elsewhere. -/
theorem execute_absorbs (hsome : setter.coalescingKey ≠ none) (command : DeviceCommand)
    (payload : DomainPayload) :
    setter.execute (command.execute (setter.execute payload)) =
      setter.execute (command.execute payload) := by
  cases setter
  all_goals
    rename_i action
    cases action
    all_goals
      first
      | exact absurd rfl hsome
      | cases payload
        all_goals
          cases command
          all_goals
            first
            | rfl
            | rename_i action
              cases action <;> rfl

/-- The payload after the commands. -/
def executePayload (payload : DomainPayload) (commands : List DeviceCommand) : DomainPayload :=
  run (fun payload command => command.execute payload) payload commands

theorem executePayload_append (payload : DomainPayload) (commands later : List DeviceCommand) :
    executePayload payload (commands ++ later) =
      executePayload (executePayload payload commands) later :=
  run_append _ _ _ _

/-- What a setter has written is gone when it is written again. -/
theorem executePayload_absorbs (hsome : setter.coalescingKey ≠ none)
    (commands : List DeviceCommand) (payload : DomainPayload) :
    setter.execute (executePayload (setter.execute payload) commands) =
      setter.execute (executePayload payload commands) := by
  induction commands generalizing payload with
  | nil => exact execute_setter rfl hsome payload
  | cons command commands ih =>
    show setter.execute (executePayload (command.execute (setter.execute payload)) commands) =
      setter.execute (executePayload (command.execute payload) commands)
    rw [← ih, execute_absorbs hsome, ih]

/-- An earlier setter may be left out. -/
theorem executePayload_without (hkey : earlier.coalescingKey = setter.coalescingKey)
    (hsome : setter.coalescingKey ≠ none) (commands : List DeviceCommand)
    (payload : DomainPayload) :
    setter.execute (executePayload (earlier.execute payload) commands) =
      setter.execute (executePayload payload commands) := by
  rw [← executePayload_absorbs hsome, execute_setter hkey hsome, executePayload_absorbs hsome]

end

/-! ### The queue -/

theorem sharesKey_iff {command : DeviceCommand} {item : PendingDeviceCommand} :
    sharesKey command item = true ↔
      item.command.coalescingKey = command.coalescingKey ∧ command.coalescingKey ≠ none := by
  rw [sharesKey]
  cases command.coalescingKey <;> cases item.command.coalescingKey <;> simp

namespace DomainQueue

variable {queue : DomainQueue} {capacity : ℕ} {item : PendingDeviceCommand}

/-- The commands of a queue, in their order. -/
def commands (queue : DomainQueue) : List DeviceCommand :=
  queue.pending.map PendingDeviceCommand.command

theorem submitCommand_of_accepts (h : queue.Accepts capacity item) :
    (queue.submitCommand capacity item).pending =
      queue.pending.eraseP (sharesKey item.command) ++ [item] := by
  have hroom : (queue.replaceLatest item).isFull capacity = false := h
  simp only [submitCommand, hroom, Bool.false_eq_true, if_false]
  rfl

theorem executePayload_submitCommand (h : queue.Accepts capacity item) (payload : DomainPayload) :
    executePayload payload (queue.submitCommand capacity item).commands =
      executePayload payload (queue.commands ++ [item.command]) := by
  rw [commands, submitCommand_of_accepts h]
  obtain hsame | ⟨displaced, before, after, -, hshares, hpending, hrest⟩ :=
    List.exists_or_eq_self_of_eraseP (sharesKey item.command) queue.pending
  · rw [hsame, List.map_append, commands]
    rfl
  · obtain ⟨hkey, hsome⟩ := sharesKey_iff.mp hshares
    rw [hrest, commands, hpending]
    simp only [List.map_append, List.map_cons, List.map_nil, executePayload_append]
    exact (executePayload_without hkey hsome _ _).symm

/-- A command without a key is not displaced. -/
theorem filter_submitCommand (h : queue.Accepts capacity item) :
    (queue.submitCommand capacity item).pending.filter (·.command.coalescingKey = none) =
      (queue.pending ++ [item]).filter (·.command.coalescingKey = none) := by
  rw [submitCommand_of_accepts h, List.filter_append, List.filter_append]
  obtain hsame | ⟨displaced, before, after, -, hshares, hpending, hrest⟩ :=
    List.exists_or_eq_self_of_eraseP (sharesKey item.command) queue.pending
  · rw [hsame]
  · obtain ⟨hkey, hsome⟩ := sharesKey_iff.mp hshares
    have hkept : ¬ decide (displaced.command.coalescingKey = none) = true := by
      simpa [hkey] using hsome
    rw [hrest, hpending, List.filter_append, List.filter_append,
      List.filter_cons_of_neg (a := displaced) hkept]

/-- The queue when the commands have been submitted, while none is taken out. -/
def submitAll (queue : DomainQueue) (capacity : ℕ) (items : List PendingDeviceCommand) :
    DomainQueue :=
  run (submitCommand · capacity) queue items

variable {items : List PendingDeviceCommand}

theorem executePayload_submitAll
    (h : Along (submitCommand · capacity) (Accepts · capacity) queue items)
    (payload : DomainPayload) :
    executePayload payload (queue.submitAll capacity items).commands =
      executePayload payload ((queue.pending ++ items).map PendingDeviceCommand.command) := by
  induction items generalizing queue with
  | nil =>
    rw [List.append_nil]
    rfl
  | cons item items ih =>
    obtain ⟨haccepts, hrest⟩ := h
    have hstep := executePayload_submitCommand haccepts payload
    calc executePayload payload (queue.submitAll capacity (item :: items)).commands
      _ = executePayload (executePayload payload (queue.submitCommand capacity item).commands)
            (items.map PendingDeviceCommand.command) := by
          refine (ih hrest).trans ?_
          rw [← executePayload_append, commands, List.map_append]
      _ = executePayload payload
            ((queue.pending ++ item :: items).map PendingDeviceCommand.command) := by
          rw [hstep, ← executePayload_append]
          simp [commands]

theorem filter_submitAll (h : Along (submitCommand · capacity) (Accepts · capacity) queue items) :
    (queue.submitAll capacity items).pending.filter (·.command.coalescingKey = none) =
      (queue.pending ++ items).filter (·.command.coalescingKey = none) := by
  induction items generalizing queue with
  | nil =>
    rw [List.append_nil]
    rfl
  | cons item items ih =>
    obtain ⟨haccepts, hrest⟩ := h
    have hstep := filter_submitCommand haccepts
    rw [List.filter_append] at hstep
    refine (ih hrest).trans ?_
    rw [List.filter_append, hstep, List.filter_append, List.append_assoc, ← List.filter_append,
      List.singleton_append]

theorem mem_submitCommand {left : PendingDeviceCommand}
    (h : left ∈ (queue.submitCommand capacity item).pending) : left ∈ queue.pending ++ [item] := by
  by_cases haccepts : queue.Accepts capacity item
  · rw [submitCommand_of_accepts haccepts] at h
    obtain h | h := List.mem_append.mp h
    · exact List.mem_append_left _ (List.mem_of_mem_eraseP h)
    · exact List.mem_append_right _ h
  · have hfull : (queue.replaceLatest item).isFull capacity = true := by
      simpa [Accepts] using haccepts
    simp only [submitCommand, hfull, if_true] at h
    exact List.mem_append_left _ (List.mem_of_mem_eraseP h)

theorem mem_submitAll {left : PendingDeviceCommand}
    (h : left ∈ (queue.submitAll capacity items).pending) : left ∈ queue.pending ++ items := by
  induction items generalizing queue with
  | nil => exact List.mem_append_left [] h
  | cons item items ih =>
    obtain hleft | hleft := List.mem_append.mp (ih h)
    · simpa using List.mem_append_left items (mem_submitCommand hleft)
    · exact List.mem_append_right _ (List.mem_cons_of_mem _ hleft)

end DomainQueue

/-! ### Main result -/

namespace InMemoryDeviceAdapter

variable {domain : DeviceDomain} {commands : List DeviceCommand}

/-- The commands of a domain are executed on its payload, and on nothing else of its state that is
not its version. -/
theorem states_executeAll (adapter : InMemoryDeviceAdapter ρ)
    (h : ∀ command ∈ commands, command.domain = domain) :
    ((adapter.executeAll commands).states domain).payload =
        executePayload (adapter.states domain).payload commands ∧
      ((adapter.executeAll commands).states domain).other = (adapter.states domain).other := by
  induction commands generalizing adapter with
  | nil => exact ⟨rfl, rfl⟩
  | cons command commands ih =>
    obtain rfl := h command List.mem_cons_self
    obtain ⟨hpayload, hother⟩ := ih (adapter.executeCommand command)
      fun later hlater => h later (List.mem_cons_of_mem _ hlater)
    have hstate : (adapter.executeCommand command).states command.domain =
        { adapter.states command.domain with
          version := ⟨(adapter.states command.domain).version.ownerGeneration,
            (adapter.states command.domain).version.revision + 1⟩
          payload := command.execute (adapter.states command.domain).payload } :=
      Function.update_self _ _ _
    rw [hstate] at hpayload hother
    exact ⟨hpayload, hother⟩

end InMemoryDeviceAdapter

/-- **Coalescing does not change the result**: what is left in the queue of a domain makes of the
payload what all of the commands would, and those without a key are all left in their order. -/
theorem payload_coalesced (adapter : InMemoryDeviceAdapter ρ) (domain : DeviceDomain)
    (capacity : ℕ) (queue : DomainQueue) (items : List PendingDeviceCommand)
    (hdomain : ∀ item ∈ queue.pending ++ items, item.command.domain = domain)
    (hroom : Along (DomainQueue.submitCommand · capacity) (DomainQueue.Accepts · capacity) queue
      items) :
    let left := (queue.submitAll capacity items).pending
    let coalesced := adapter.executeAll (left.map PendingDeviceCommand.command)
    let uncoalesced :=
      adapter.executeAll ((queue.pending ++ items).map PendingDeviceCommand.command)
    (coalesced.states domain).payload = (uncoalesced.states domain).payload ∧
      (coalesced.states domain).other = (uncoalesced.states domain).other ∧
      left.filter (·.command.coalescingKey = none) =
        (queue.pending ++ items).filter (·.command.coalescingKey = none) := by
  have hall : ∀ command ∈ (queue.pending ++ items).map PendingDeviceCommand.command,
      command.domain = domain := by
    intro command hcommand
    obtain ⟨item, hitem, rfl⟩ := List.mem_map.mp hcommand
    exact hdomain item hitem
  have hleft : ∀ command ∈ (queue.submitAll capacity items).pending.map
      PendingDeviceCommand.command, command.domain = domain := by
    intro command hcommand
    obtain ⟨item, hitem, rfl⟩ := List.mem_map.mp hcommand
    exact hdomain item (DomainQueue.mem_submitAll hitem)
  obtain ⟨hpayload, hother⟩ := adapter.states_executeAll hall
  obtain ⟨hleftPayload, hleftOther⟩ := adapter.states_executeAll hleft
  refine ⟨?_, hleftOther.trans hother.symm, DomainQueue.filter_submitAll hroom⟩
  rw [hleftPayload, hpayload]
  exact DomainQueue.executePayload_submitAll hroom _

/-- A volume that is set again behind a toggle. -/
theorem payload_coalesced_volume :
    let adapter : InMemoryDeviceAdapter Unit :=
      ⟨fun _ => ⟨⟨1, 1⟩, .ready, .audio ⟨50, false⟩, (), none⟩⟩
    let left := ((⟨[], true⟩ : DomainQueue).submitAll 8
      [⟨0, 1, .audio (.setVolume 10)⟩, ⟨1, 1, .audio .toggleMute⟩,
        ⟨2, 1, .audio (.setVolume 30)⟩]).pending
    left = [⟨1, 1, .audio .toggleMute⟩, ⟨2, 1, .audio (.setVolume 30)⟩] ∧
      ((adapter.executeAll (left.map PendingDeviceCommand.command)).states .audio).payload =
        .audio ⟨30, true⟩ :=
  ⟨by decide +kernel,
    (payload_coalesced _ .audio 8 ⟨[], true⟩
      [⟨0, 1, .audio (.setVolume 10)⟩, ⟨1, 1, .audio .toggleMute⟩, ⟨2, 1, .audio (.setVolume 30)⟩]
      (by decide +kernel) (by decide +kernel)).1.trans (by decide +kernel)⟩

end Shilpo.Device
