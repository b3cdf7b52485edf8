import Shilpo.Device.Types
import Shilpo.Domain.Supervisor

/-!
# The states of the device daemon

What the daemon knows of each domain, and how a command comes to be confirmed
(`desktop/device/src/protocol.rs`, `desktop/services/src/device_daemon/mod.rs`): a command is handed
to the adapter, which is then asked for its state until it shows what was commanded, or the time is
over. Apart from that the daemon asks the adapter for all its states at times, and stores what
has changed.

Of a payload those fields are named that a command sets or a confirmation reads; `other` is the
rest, which is only compared.
-/

namespace Shilpo.Device

open Domain

/-! ### Payloads -/

structure AudioPayload where
  volume : UInt8
  isMuted : Bool
  deriving DecidableEq

structure BluetoothDevicePayload where
  address : String
  connected : Bool
  deriving DecidableEq

structure BluetoothPayload where
  powered : Bool
  devices : List BluetoothDevicePayload
  deriving DecidableEq

structure DisplayBrightnessPayload where
  id : String
  percentage : UInt8
  deriving DecidableEq

structure BrightnessPayload where
  percentage : UInt8
  displays : List DisplayBrightnessPayload
  primaryDisplayId : String
  deriving DecidableEq

structure VpnPayload where
  id : String
  uuid : String
  isActive : Bool
  deriving DecidableEq

structure NetworkPayload where
  ssid : String
  wifiEnabled : Bool
  activeVpns : List VpnPayload
  deriving DecidableEq

structure NightLightPayload where
  enabled : Bool
  temperature : UInt32
  deriving DecidableEq

structure PowerProfilePayload where
  profile : String
  deriving DecidableEq

structure MediaPayload where
  playerId : String
  title : String
  playbackState : String
  deriving DecidableEq

structure CaffeinePayload where
  enabled : Bool
  deriving DecidableEq

inductive DomainPayload where
  | audio (payload : AudioPayload)
  | bluetooth (payload : BluetoothPayload)
  | brightness (payload : BrightnessPayload)
  | network (payload : NetworkPayload)
  | nightLight (payload : NightLightPayload)
  | powerProfile (payload : PowerProfilePayload)
  | media (payload : MediaPayload)
  | battery
  | caffeine (payload : CaffeinePayload)
  deriving DecidableEq

def DomainPayload.empty : DeviceDomain → DomainPayload
  | .audio => .audio ⟨0, false⟩
  | .bluetooth => .bluetooth ⟨false, []⟩
  | .brightness => .brightness ⟨0, [], ""⟩
  | .network => .network ⟨"", false, []⟩
  | .nightLight => .nightLight ⟨false, 0⟩
  | .powerProfile => .powerProfile ⟨""⟩
  | .media => .media ⟨"", "", ""⟩
  | .battery => .battery
  | .caffeine => .caffeine ⟨false⟩

universe u

variable {ρ : Type u}

/-- What is known of a domain. -/
structure DomainState (ρ : Type u) where
  version : DomainVersion
  lifecycle : DomainLifecycle
  payload : DomainPayload
  other : ρ
  error : Option String
  deriving DecidableEq

/-- The states say the same, whatever their versions. -/
def DomainState.Same (state later : DomainState ρ) : Prop :=
  state.payload = later.payload ∧ state.other = later.other ∧
    state.lifecycle = later.lifecycle ∧ state.error = later.error

instance [DecidableEq ρ] (state later : DomainState ρ) : Decidable (state.Same later) :=
  inferInstanceAs (Decidable (_ ∧ _ ∧ _ ∧ _))

theorem DomainState.Same.rfl {state : DomainState ρ} : state.Same state :=
  ⟨Eq.refl _, Eq.refl _, Eq.refl _, Eq.refl _⟩

theorem DomainState.Same.symm {state later : DomainState ρ} (h : state.Same later) :
    later.Same state :=
  ⟨h.1.symm, h.2.1.symm, h.2.2.1.symm, h.2.2.2.symm⟩

/-! ### Confirmation -/

def deviceConnected (payload : BluetoothPayload) (address : String) : Bool :=
  payload.devices.any fun device => device.address == address && device.connected

def vpnActive (payload : NetworkPayload) (name : String) : Bool :=
  payload.activeVpns.any fun vpn => (vpn.id == name || vpn.uuid == name) && vpn.isActive

/-- The adapter shows what was commanded. -/
def commandConfirmed (command : DeviceCommand) (before after : DomainPayload) : Bool :=
  match command, before, after with
  | .audio (.setVolume v), _, .audio new => new.volume == v
  | .audio (.setMuted v), _, .audio new => new.isMuted == v
  | .audio .toggleMute, .audio old, .audio new => new.isMuted != old.isMuted
  | .brightness (.setBrightness v), _, .brightness new => new.percentage == v
  | .brightness (.setDisplay _ percentage), _, .brightness new => new.percentage == percentage
  | .brightness .stepUp, .brightness old, .brightness new => old.percentage < new.percentage
  | .brightness .stepDown, .brightness old, .brightness new => new.percentage < old.percentage
  | .bluetooth (.setPowered v), _, .bluetooth new => new.powered == v
  | .bluetooth .togglePowered, .bluetooth old, .bluetooth new => new.powered != old.powered
  | .bluetooth (.connect address), _, .bluetooth new => deviceConnected new address
  | .bluetooth (.disconnect address), _, .bluetooth new => !deviceConnected new address
  | .network (.setWifiEnabled v), _, .network new => new.wifiEnabled == v
  | .network .toggleWifi, .network old, .network new => new.wifiEnabled != old.wifiEnabled
  | .network (.connectWifi ssid), _, .network new => new.ssid == ssid
  | .network (.connectVpn name), _, .network new => vpnActive new name
  | .network (.disconnectVpn name), _, .network new => !vpnActive new name
  | .nightLight (.setEnabled v), _, .nightLight new => new.enabled == v
  | .nightLight .toggleEnabled, .nightLight old, .nightLight new => new.enabled != old.enabled
  | .nightLight (.setTemperature v), _, .nightLight new => new.temperature == v
  | .powerProfile (.setProfile profile), _, .powerProfile new => new.profile == profile
  | .media .play, _, .media new => new.playbackState == "playing"
  | .media .pause, _, .media new => new.playbackState == "paused"
  | .media .playPause, .media old, .media new => new.playbackState != old.playbackState
  | .media .next, .media old, .media new =>
    new.title != old.title || new.playerId != old.playerId
  | .media .previous, .media old, .media new =>
    new.title != old.title || new.playerId != old.playerId
  | .caffeine (.setEnabled v), _, .caffeine new => new.enabled == v
  | .caffeine .toggle, .caffeine old, .caffeine new => new.enabled != old.enabled
  | _, _, _ => false

/-! ### What the daemon stores -/

/-- What a confirmation stores: the state that the adapter shows, with the generation in which the
command was taken. -/
def DomainState.confirmed (observed : DomainState ρ) (generation : ℕ) : DomainState ρ :=
  { observed with version := ⟨generation, observed.version.revision⟩ }

/-- What a refresh stores, if anything has changed. -/
def DomainState.refreshed [DecidableEq ρ] (previous observed : DomainState ρ) (generation : ℕ) :
    Option (DomainState ρ) :=
  if previous.Same observed then none
  else some { observed with
    version := ⟨generation, saturatingAdd previous.version.revision 1⟩ }

/-- A command has failed: the version stays. -/
def DomainState.degraded (state : DomainState ρ) (error : String) : DomainState ρ :=
  { state with lifecycle := .degraded, error := some error }

/-- The owner has been replaced. -/
def DomainState.reconnecting (state : DomainState ρ) (generation : ℕ) : DomainState ρ :=
  { state with
    version := ⟨generation, 0⟩, lifecycle := .reconnecting,
    error := some "device owner replaced" }

end Shilpo.Device
