import Shilpo.Domain.Conversation
import Shilpo.Domain.Mailbox

/-!
# The authentication domain's types

Commands, prompts and snapshots of the domain that talks to PAM (`auth/types.rs`), and
the helper process it talks through (`auth/helper.rs`). The helper is outside the
program: `AuthHelper` is what its three calls answer, from a state of the world that
each of them may change and that anything else may change between two calls.
-/

namespace Shilpo.Auth

open Shilpo.Domain

universe u v

/-! ### Prompts and outcomes -/

/-- The prompt shown to the user. -/
abbrev AuthPromptState := PromptState

/-- How a completed attempt ended. -/
inductive AuthOutcome where
  | succeeded
  | failed (message : String)
  deriving DecidableEq

/-- What subscribers see of the authentication domain. -/
structure AuthSnapshot where
  version : DomainVersion
  lifecycle : DomainLifecycle
  authenticating : Bool
  promptState : Option AuthPromptState
  lastOutcome : Option AuthOutcome
  lastError : Option String
  deriving DecidableEq

/-- `AuthSnapshot::default()`. -/
def AuthSnapshot.default : AuthSnapshot := ⟨.zero, .unavailable, false, none, none, none⟩

/-! ### Commands -/

/-- Commands of the authentication domain. -/
inductive AuthCommand where
  | beginAuthentication (service : String)
  | provideResponse (response : String)
  | cancelAuthentication
  | resetQuarantine

/-- A newer attempt replaces one not begun yet. -/
def AuthCommand.policy : AuthCommand → MailboxPolicy
  | .beginAuthentication _ => .replaceLatest "begin_authentication"
  | _ => .lossless

/-- Why a command is rejected. -/
inductive AuthRejectionReason where
  | unavailable
  | overloaded
  | notAuthenticating
  deriving DecidableEq

/-- How a command of the authentication domain ends. -/
abbrev AuthCommandOutcome := CommandOutcome AuthRejectionReason

/-! ### The helper -/

/-- What the helper says. -/
inductive AuthHelperEvent where
  | promptEchoOff (prompt : String)
  | promptEchoOn (prompt : String)
  | errorMessage (text : String)
  | textInfo (text : String)
  | success
  | failure (message : String)
  deriving DecidableEq

/-- The helper process, in a world `W`, its sessions `S`. -/
structure AuthHelper (W : Type u) (S : Type v) where
  /-- `spawn_session`. -/
  spawnSession : W → String → Except String S × W
  /-- `write_response`. -/
  writeResponse : W → S → String → Except String Unit × W
  /-- `try_recv_event`. -/
  tryRecvEvent : W → S → Option AuthHelperEvent × W
  /-- `kill`; the domain ignores whether it worked. -/
  kill : W → S → W

/-- A helper that always starts, takes every response and says what the world has it say. -/
def scriptedHelper : AuthHelper (List AuthHelperEvent) Unit where
  spawnSession world _ := (.ok (), world)
  writeResponse world _ _ := (.ok (), world)
  tryRecvEvent world _ := (world.head?, world.tail)
  kill world _ := world

end Shilpo.Auth
