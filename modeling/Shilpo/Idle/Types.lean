import Shilpo.Domain.Mailbox
import Shilpo.Theory.BTreeMap

/-!
# The idle domain's types

Behaviours, inhibitors, commands and snapshots of the idle domain
(`idle/types.rs`, `idle/backend.rs`). A behaviour's `timeout_seconds` and the
`grace_seconds` of a configuration are `f64`, here `Float`, which has the same
arithmetic; the two conversions to milliseconds are `timeoutMs` and `fadeMs`. A
configuration's behaviours are a `BTreeMap` from their names, here `Behaviors`.

A behaviour's `resume_command` is left out: nothing in the domain reads it.
-/

namespace Shilpo.Idle

open Shilpo.Domain Shilpo.Theory

/-! ### Behaviours -/

/-- What a behaviour does when it fires. -/
inductive IdleAction where
  | none
  | lock
  | screenOff
  | screenOn
  | suspend
  | lockAndSuspend
  | command (command : String)
  deriving DecidableEq

/-- A named behaviour's configuration. -/
structure IdleBehaviorConfig where
  /-- Whether it is active. -/
  enabled : Bool
  /-- How long the user must be idle. -/
  timeoutSeconds : Float
  /-- What it does. -/
  action : IdleAction
  /-- Whether to try to lock before suspending. -/
  lockBeforeSuspend : Bool
  deriving DecidableEq

/-- `x.ceil() as u64`: rounding towards zero stops at the ends of `u64`, and one is
added when that lost something. -/
def ceilAsU64 (x : Float) : ℕ :=
  let t := x.toUInt64
  if t.toFloat < x then t.toNat + 1 else t.toNat

/-- The timeout asked of the backend: whole milliseconds, from `1` to the largest `u32`. -/
def timeoutMs (timeoutSeconds : Float) : ℕ :=
  max 1 (min (ceilAsU64 (timeoutSeconds * 1000.0)) (2 ^ 32 - 1))

/-- The length of the fade: `(grace_seconds * 1000.0).max(1.0) as u32`. -/
def fadeMs (graceSeconds : Float) : ℕ :=
  let ms := graceSeconds * 1000.0
  (if 1.0 ≤ ms then ms else 1.0).toUInt32.toNat

/-- The behaviour is registered with the backend: enabled, with a positive finite timeout. -/
def IdleBehaviorConfig.registrable (cfg : IdleBehaviorConfig) : Bool :=
  cfg.enabled && !decide (cfg.timeoutSeconds ≤ 0.0) && cfg.timeoutSeconds.isFinite

/-- Behaviours by name. -/
abbrev Behaviors := BTreeMap String IdleBehaviorConfig

/-! ### Inhibitors -/

/-- Who inhibits idling. -/
inductive InhibitSource where
  /-- A client of `org.freedesktop.ScreenSaver`. -/
  | screenSaver (cookie : ℕ) (app reason sender : String)
  | logindBlockInhibited
  | caffeine
  | named (name : String)
  deriving DecidableEq

/-- Two sources are the same inhibit: a client releases its own with the cookie alone,
so application and reason do not count. -/
def InhibitSource.sameIdentity : InhibitSource → InhibitSource → Bool
  | .screenSaver cookie _ _ sender, .screenSaver cookie' _ _ sender' =>
    cookie = cookie' && sender = sender'
  | a, b => a = b

/-- The source is an inhibit of this D-Bus sender. -/
def InhibitSource.isFrom (sender : String) : InhibitSource → Bool
  | .screenSaver _ _ _ s => s = sender
  | _ => false

/-! ### Commands -/

/-- Commands of the idle domain. -/
inductive IdleCommand where
  | configureBehaviors (behaviors : Behaviors) (graceSeconds : Float)
  | addInhibit (source : InhibitSource)
  | removeInhibit (source : InhibitSource)
  | clearInhibitsForSender (sender : String)
  | reportGraceCompleted (graceGeneration : ℕ)
  | cancelGrace
  | resetQuarantine

/-- The newest configuration replaces one still pending; all else is kept. -/
def IdleCommand.policy : IdleCommand → MailboxPolicy
  | .configureBehaviors _ _ => .replaceLatest "configure_behaviors"
  | _ => .lossless

/-- Why a command is rejected. -/
inductive IdleRejectionReason where
  | unavailable
  | overloaded
  | unsupported (action : String)
  | invalidConfig (reason : String)
  | notFound
  deriving DecidableEq

/-- How a command of the idle domain ends. -/
abbrev IdleCommandOutcome := CommandOutcome IdleRejectionReason

/-! ### The backend -/

/-- A message from the notifier backend: it carries only the notification's id. -/
inductive IdleBackendEvent where
  | idled (id : ℕ)
  | resumed (id : ℕ)
  deriving DecidableEq

/-- A notification registered with the backend. Its `epoch` and `madeFor` are not in the
program: they say which registrations it came with, and the behaviour it was made for. -/
structure Registration where
  /-- The id the domain chose. -/
  id : ℕ
  /-- The timeout asked for. -/
  timeoutMs : ℕ
  /-- How many times the backend had been cleared. -/
  epoch : ℕ
  /-- The behaviour and its configuration; none for the heartbeat. -/
  madeFor : Option (String × IdleBehaviorConfig)
  deriving DecidableEq

/-- The notifier backend, as `MockIdleNotifier` has it. -/
structure Backend where
  /-- Whether the backend is connected. -/
  available : Bool
  /-- The live registrations, each id once. -/
  registered : List Registration
  /-- How many times it has been cleared. -/
  epoch : ℕ

/-- A backend that is connected and has nothing registered. -/
def Backend.connected : Backend := ⟨true, [], 0⟩

/-- `register_notification`: an unavailable backend refuses; an id already registered is
replaced. -/
def Backend.registerNotification (b : Backend) (id timeoutMs : ℕ)
    (madeFor : Option (String × IdleBehaviorConfig)) : Backend :=
  if b.available then
    { b with registered := b.registered.filter (·.id ≠ id) ++ [⟨id, timeoutMs, b.epoch, madeFor⟩] }
  else b

/-- `unregister_all`. -/
def Backend.unregisterAll (b : Backend) : Backend :=
  { b with registered := [], epoch := b.epoch + 1 }

/-! ### Snapshots -/

/-- A grace overlay in progress. -/
structure ActiveGraceInfo where
  /-- Which overlay it is. -/
  graceGeneration : ℕ
  /-- How long it fades. -/
  fadeMs : ℕ
  /-- The behaviours that fire when it ends, in the order they idled. -/
  behaviors : List String
  deriving DecidableEq

/-- What subscribers see of the idle domain. -/
structure IdleSnapshot where
  version : DomainVersion
  lifecycle : DomainLifecycle
  notifierAvailable : Bool
  registeredBehaviors : ℕ
  activeGrace : Option ActiveGraceInfo
  liveIdleSeconds : ℕ
  inhibitCount : ℕ
  unsupportedActions : List String
  lastError : Option String
  deriving DecidableEq

end Shilpo.Idle
