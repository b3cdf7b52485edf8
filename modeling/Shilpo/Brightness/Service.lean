import Shilpo.Theory.Runs

/-!
# The brightness service

`BrightnessService` of `brightness/mod.rs`: the displays with their percentages are published in a
watch channel, which the methods of the service change at once; what the hardware is to do goes
through a bounded channel to a worker, which keeps the last percentage for each display
and writes these when no more have come for a while. At the start the internal display is listed,
if there is one, and the worker is given the displays listed then. Displays behind DDC are
discovered later, and again when displays are plugged in.

* `CallPhase` — where a call of a method is: each reads the published value once or more, sends
  a changed one and then a command, as separate steps, so that other threads come between;
* `WorkerPhase` — where the worker is; it writes what is pending in the order of a
  hash map, which is any order;
* `BrightnessStep`, `next` — one atomic step.

Every write succeeds, and what is written is recorded as a percentage: the raw value that goes to
a device is computed from that. Backlight events are left out.

`requested` is kept for what is proved: the displays that a change was requested for since they
were listed.
-/

namespace Shilpo.Brightness

open Shilpo.Theory

/-! ### Displays -/

/-- How a display's hardware is reached. -/
inductive BrightnessBackend where
  | sysfsLogind (deviceName : String)
  | ddcCiDirect (i2cBus : ℕ)
  | ddcciSysfs (sysfsPath : String)
  deriving DecidableEq

/-- `is_ddc`. -/
def BrightnessBackend.isDdc : BrightnessBackend → Bool
  | .sysfsLogind _ => false
  | .ddcCiDirect _ | .ddcciSysfs _ => true

/-- A display. -/
structure DisplayBrightnessInfo where
  id : String
  connector : Option String
  percentage : ℕ
  backend : BrightnessBackend
  deriving DecidableEq

/-- What is published. -/
structure BrightnessInfo where
  percentage : ℕ
  available : Bool
  displays : List DisplayBrightnessInfo
  primaryDisplayId : Option String
  permissionsOk : Bool
  deriving DecidableEq

/-- A command to the worker. -/
inductive BrightnessCmd where
  | setDisplay (id : String) (percentage : ℕ)
  | setAll (percentage : ℕ)
  deriving DecidableEq

/-- The internal display, as `discover_initial_displays` finds it. -/
structure Backlight where
  deviceName : String
  percentage : ℕ

/-- The display that is listed for a backlight. -/
def Backlight.display (b : Backlight) : DisplayBrightnessInfo where
  id := "sysfs:" ++ b.deviceName
  connector := some "eDP-1"
  percentage := b.percentage
  backend := .sysfsLogind b.deviceName

/-- A display that `discover_ddc_displays` finds; `slug` is made of what its EDID says. -/
structure DdcDisplay where
  i2cBus : ℕ
  slug : Option String
  connector : Option String
  percentage : ℕ

/-- The display that is listed for one behind DDC. -/
def DdcDisplay.display (d : DdcDisplay) : DisplayBrightnessInfo where
  id := "ddc:i2c-" ++ (toString d.i2cBus ++ (d.slug.map (":" ++ ·)).getD "")
  connector := d.connector
  percentage := min d.percentage 100
  backend := .ddcCiDirect d.i2cBus

/-- `apply_brightness_delta`. -/
def applyBrightnessDelta (current : ℕ) (delta : ℤ) : ℕ :=
  (max 0 (min ((current : ℤ) + delta) 100)).toNat

namespace BrightnessInfo

/-- The display of the published list that has this id, the first one. -/
def display (info : BrightnessInfo) (id : String) : Option DisplayBrightnessInfo :=
  info.displays.find? (·.id = id)

/-- The primary display, where it is listed. -/
def primary (info : BrightnessInfo) : Option DisplayBrightnessInfo :=
  info.primaryDisplayId.bind info.display

/-- The first display with the id gets the percentage. -/
def setFirst (id : String) (percentage : ℕ) :
    List DisplayBrightnessInfo → List DisplayBrightnessInfo
  | [] => []
  | d :: displays =>
    if d.id = id then { d with percentage := percentage } :: displays
    else d :: setFirst id percentage displays

/-- What a method publishes, with the command it sends. -/
def applied (info : BrightnessInfo) : BrightnessCmd → BrightnessInfo
  | .setAll percentage =>
    { info with
      percentage := percentage
      displays := info.displays.map fun d => { d with percentage := percentage } }
  | .setDisplay id percentage =>
    { info with
      percentage := if info.primaryDisplayId = some id then percentage else info.percentage
      displays := setFirst id percentage info.displays }

/-- The listed displays that the command is to change. -/
def changed (info : BrightnessInfo) : BrightnessCmd → List String
  | .setAll _ => info.displays.map (·.id)
  | .setDisplay id _ => (info.displays.map (·.id)).filter (· = id)

/-- The closure that the discovery at the start passes to `send_if_modified`. -/
def discovered (info : BrightnessInfo) (new : List DisplayBrightnessInfo) (permissionsOk : Bool) :
    BrightnessInfo :=
  let info :=
    if new.isEmpty then info
    else
      let displays := info.displays ++ new
      match info.primaryDisplayId with
      | some _ => { info with displays := displays, available := true }
      | none =>
        { info with
          displays := displays
          available := true
          primaryDisplayId := displays.head?.map (·.id)
          percentage := (displays.head?.map (·.percentage)).getD 0 }
  if permissionsOk then info else { info with permissionsOk := false }

/-- The closure that `rescan_displays` passes to `send_if_modified`. -/
def rescanned (info : BrightnessInfo) (new : List DisplayBrightnessInfo) (permissionsOk : Bool) :
    BrightnessInfo :=
  let info := { info with displays := info.displays.filter fun d => !d.backend.isDdc }
  let info :=
    if new.isEmpty then info
    else { info with displays := info.displays ++ new, available := true }
  if permissionsOk then info else { info with permissionsOk := false }

end BrightnessInfo

/-! ### The service -/

/-- Where the worker is. -/
inductive WorkerPhase where
  /-- It waits for a command. -/
  | idle
  /-- It takes what else has come. -/
  | collecting
  | sleeping
  /-- It drains what is pending. -/
  | writing
  deriving DecidableEq

/-- Where a call is. -/
inductive CallPhase where
  /-- `adjust_focused_brightness`. -/
  | adjustFocused (connector : String) (delta : ℤ)
  /-- `adjust_display_brightness`. -/
  | adjustDisplay (id : String) (delta : ℤ)
  /-- `set_brightness` or `set_display_brightness`, for what the command says. -/
  | set (command : BrightnessCmd)
  /-- The published value has been read, and found available where that is asked. -/
  | publishing (read : BrightnessInfo) (command : BrightnessCmd)
  /-- The changed value is published, the command is not sent. -/
  | sending (command : BrightnessCmd)
  | returned
  deriving DecidableEq

/-- The capacity of the command channel. -/
def channelCapacity : ℕ := 64

/-- The service with its worker and the calls under way. -/
structure BrightnessService where
  /-- The value of the watch channel. -/
  info : BrightnessInfo
  /-- The command channel. -/
  channel : List BrightnessCmd
  /-- `display_map` of the worker: the displays at the start. -/
  displayMap : List DisplayBrightnessInfo
  worker : WorkerPhase
  /-- `pending` of the worker. -/
  pending : List (String × ℕ)
  /-- What has been written to displays, the latest first. -/
  written : List (String × ℕ)
  calls : List CallPhase
  /-- The displays that a change was requested for since they were listed. -/
  requested : List String

/-- What can happen. -/
inductive BrightnessStep where
  | setBrightness (percentage : ℕ)
  | setDisplayBrightness (id : String) (percentage : ℕ)
  | adjustDisplayBrightness (id : String) (delta : ℤ)
  | adjustFocusedBrightness (connector : String) (delta : ℤ)
  /-- The call takes its next step. -/
  | advance (i : ℕ)
  /-- The discovery at the start ends. -/
  | discovered (new : List DdcDisplay) (permissionsOk : Bool)
  /-- A rescan ends. -/
  | rescanned (new : List DdcDisplay) (permissionsOk : Bool)
  /-- `recv`, `try_recv`, the end of the sleep, a write and the end of the drain. -/
  | receive
  | tryReceive
  | wake
  | write (k : ℕ)
  | finish

/-- The calls that have published and are to send a command. -/
def CallPhase.sending? : CallPhase → Option BrightnessCmd
  | .sending command => some command
  | _ => none

namespace BrightnessService

/-- `new_with_adapters`, with the internal display that is found. -/
def new (initial : Option Backlight) : BrightnessService :=
  let displays := (initial.map Backlight.display).toList
  { info :=
      { percentage := (initial.map (·.percentage)).getD 0
        available := initial.isSome
        displays := displays
        primaryDisplayId := displays.head?.map (·.id)
        permissionsOk := true }
    channel := []
    displayMap := displays
    worker := .idle
    pending := []
    written := []
    calls := []
    requested := [] }

/-- `pending.insert`. -/
def insert (id : String) (percentage : ℕ) (pending : List (String × ℕ)) : List (String × ℕ) :=
  (id, percentage) :: pending.filter (·.1 ≠ id)

/-- The closure `queue_cmd`. -/
def queueCmd (displayMap : List DisplayBrightnessInfo) (pending : List (String × ℕ)) :
    BrightnessCmd → List (String × ℕ)
  | .setDisplay id percentage => insert id (min percentage 100) pending
  | .setAll percentage =>
    displayMap.foldl (fun pending d => insert d.id (min percentage 100) pending) pending

/-- The published value is `info`, in which the displays of `stay` are still listed. -/
def publish (s : BrightnessService) (info : BrightnessInfo) (stay : List String) :
    BrightnessService :=
  { s with info := info, requested := s.requested.filter (· ∈ stay) }

/-- The next step of a call: the state, and where the call is then. -/
def advanceCall (s : BrightnessService) : CallPhase → BrightnessService × CallPhase
  | .adjustFocused connector delta =>
    match s.info.displays.find? (·.connector = some connector) with
    | some d => (s, .adjustDisplay d.id delta)
    | none =>
      match s.info.primaryDisplayId with
      | some id => (s, .adjustDisplay id delta)
      | none => (s, .set (.setAll (min (applyBrightnessDelta s.info.percentage delta) 100)))
  | .adjustDisplay id delta =>
    match s.info.display id with
    | some d => (s, .set (.setDisplay id (min (applyBrightnessDelta d.percentage delta) 100)))
    | none => (s, .returned)
  | .set (.setAll percentage) =>
    if s.info.available then (s, .publishing s.info (.setAll percentage)) else (s, .returned)
  | .set (.setDisplay id percentage) => (s, .publishing s.info (.setDisplay id percentage))
  | .publishing read command =>
    ({ s with
        info := read.applied command
        requested := (s.requested ++ read.changed command).filter (· ∈ read.displays.map (·.id)) },
      .sending command)
  | .sending command =>
    -- a command that finds the channel full is dropped
    (if s.channel.length < channelCapacity then { s with channel := s.channel ++ [command] } else s,
      .returned)
  | .returned => (s, .returned)

/-- One step; one that cannot be taken does nothing. -/
def next (s : BrightnessService) : BrightnessStep → BrightnessService
  | .setBrightness percentage =>
    { s with calls := s.calls ++ [CallPhase.set (.setAll (min percentage 100))] }
  | .setDisplayBrightness id percentage =>
    { s with calls := s.calls ++ [CallPhase.set (.setDisplay id (min percentage 100))] }
  | .adjustDisplayBrightness id delta =>
    { s with calls := s.calls ++ [CallPhase.adjustDisplay id delta] }
  | .adjustFocusedBrightness connector delta =>
    { s with calls := s.calls ++ [CallPhase.adjustFocused connector delta] }
  | .advance i =>
    match s.calls[i]? with
    | some call =>
      let (s, call) := s.advanceCall call
      { s with calls := s.calls.set i call }
    | none => s
  | .discovered new permissionsOk =>
    s.publish (s.info.discovered (new.map DdcDisplay.display) permissionsOk)
      (s.info.displays.map (·.id))
  | .rescanned new permissionsOk =>
    s.publish (s.info.rescanned (new.map DdcDisplay.display) permissionsOk)
      ((s.info.displays.filter fun d => !d.backend.isDdc).map (·.id))
  | .receive =>
    match s.worker, s.channel with
    | .idle, command :: channel =>
      { s with
        channel := channel
        pending := queueCmd s.displayMap s.pending command
        worker := .collecting }
    | _, _ => s
  | .tryReceive =>
    match s.worker, s.channel with
    | .collecting, command :: channel =>
      { s with channel := channel, pending := queueCmd s.displayMap s.pending command }
    | .collecting, [] => { s with worker := .sleeping }
    | _, _ => s
  | .wake => if s.worker = .sleeping then { s with worker := .writing } else s
  | .write k =>
    match s.worker, s.pending[k]? with
    | .writing, some (id, percentage) =>
      { s with
        pending := s.pending.eraseIdx k
        written :=
          if id ∈ s.displayMap.map (·.id) then (id, percentage) :: s.written else s.written }
    | _, _ => s
  | .finish => if s.worker = .writing ∧ s.pending = [] then { s with worker := .idle } else s

/-- The channel is empty, the worker is idle and no call is under way. -/
def Quiet (s : BrightnessService) : Prop :=
  s.channel = [] ∧ s.worker = .idle ∧ ∀ call ∈ s.calls, call = .returned

instance (s : BrightnessService) : Decidable s.Quiet := inferInstanceAs (Decidable (_ ∧ _ ∧ _))

/-- A listed display shows what was last written to it, if a change was requested; and the
percentage of the whole is that of the primary display. -/
structure Shown (s : BrightnessService) : Prop where
  displays : ∀ d ∈ s.info.displays, d.id ∈ s.requested →
    s.written.lookup d.id = some d.percentage
  overall : ∀ d, s.info.primary = some d → d.percentage = s.info.percentage

end BrightnessService

end Shilpo.Brightness
