import Mathlib

/-!
# Commands for devices

The domains of the device service, and the commands that it takes
(`desktop/device/src/protocol.rs`). A command that sets a value has a coalescing key: a later one
with that key may take its place.
-/

namespace Shilpo.Device

inductive DeviceDomain where
  | audio
  | bluetooth
  | brightness
  | network
  | nightLight
  | powerProfile
  | media
  | battery
  | caffeine
  deriving DecidableEq

def DeviceDomain.all : List DeviceDomain :=
  [.audio, .bluetooth, .brightness, .network, .nightLight, .powerProfile, .media, .battery,
    .caffeine]

theorem DeviceDomain.mem_all (domain : DeviceDomain) : domain ∈ DeviceDomain.all := by
  cases domain <;> decide

instance : Fintype DeviceDomain := ⟨⟨DeviceDomain.all, by decide⟩, DeviceDomain.mem_all⟩

inductive AudioAction where
  | setVolume (volume : UInt8)
  | setMuted (muted : Bool)
  | toggleMute
  deriving DecidableEq

inductive BrightnessAction where
  | setBrightness (percentage : UInt8)
  | setDisplay (id : String) (percentage : UInt8)
  | stepUp
  | stepDown
  deriving DecidableEq

inductive BluetoothAction where
  | setPowered (powered : Bool)
  | togglePowered
  | connect (address : String)
  | disconnect (address : String)
  deriving DecidableEq

inductive NetworkAction where
  | setWifiEnabled (enabled : Bool)
  | toggleWifi
  | connectWifi (ssid : String)
  | connectVpn (id : String)
  | disconnectVpn (id : String)
  deriving DecidableEq

inductive NightLightAction where
  | setEnabled (enabled : Bool)
  | toggleEnabled
  | setTemperature (temperature : UInt32)
  deriving DecidableEq

inductive PowerProfileAction where
  | setProfile (profile : String)
  deriving DecidableEq

inductive MediaAction where
  | play
  | pause
  | playPause
  | next
  | previous
  deriving DecidableEq

inductive CaffeineAction where
  | setEnabled (enabled : Bool)
  | toggle
  deriving DecidableEq

inductive DeviceCommand where
  | audio (action : AudioAction)
  | bluetooth (action : BluetoothAction)
  | brightness (action : BrightnessAction)
  | network (action : NetworkAction)
  | nightLight (action : NightLightAction)
  | powerProfile (action : PowerProfileAction)
  | media (action : MediaAction)
  | caffeine (action : CaffeineAction)
  deriving DecidableEq

/-- Why a command is not taken. -/
inductive RejectionReason where
  | unavailable
  | overloaded
  deriving DecidableEq

namespace DeviceCommand

def domain : DeviceCommand → DeviceDomain
  | audio _ => .audio
  | bluetooth _ => .bluetooth
  | brightness _ => .brightness
  | network _ => .network
  | nightLight _ => .nightLight
  | powerProfile _ => .powerProfile
  | media _ => .media
  | caffeine _ => .caffeine

/-- The key of a setter of which only the last counts. -/
def coalescingKey : DeviceCommand → Option String
  | audio (.setVolume _) => some "audio.volume"
  | audio (.setMuted _) => some "audio.muted"
  | brightness (.setBrightness _) => some "brightness.level"
  | nightLight (.setEnabled _) => some "night_light.enabled"
  | nightLight (.setTemperature _) => some "night_light.temperature"
  | bluetooth (.setPowered _) => some "bluetooth.powered"
  | network (.setWifiEnabled _) => some "network.wifi_enabled"
  | powerProfile (.setProfile _) => some "power_profile.profile"
  | caffeine (.setEnabled _) => some "caffeine.enabled"
  | _ => none

end DeviceCommand

end Shilpo.Device
