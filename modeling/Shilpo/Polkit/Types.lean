import Shilpo.Domain.Conversation
import Shilpo.Domain.Mailbox

/-!
# The PolicyKit agent's types

Requests, commands and snapshots of the PolicyKit agent (`polkit/types.rs`), and the
helper process that talks to PAM for it (`polkit/helper.rs`). As for the
authentication domain, `PolkitHelper` is what the helper's calls answer, from a state
of the world that each of them may change.

A helper session also carries what it was spawned for, and a completion its outcome;
neither is passed in the program.
-/

namespace Shilpo.Polkit

open Shilpo.Domain

universe u v

/-! ### Requests -/

/-- A user who may authenticate. -/
structure PolkitIdentity where
  kind : String
  uid : ℕ
  userName : String
  realName : Option String
  deriving DecidableEq

/-- A request of the PolicyKit authority. -/
structure PolkitRequest where
  actionId : String
  message : String
  iconName : String
  cookie : String
  isInternal : Bool
  identities : List PolkitIdentity
  selectedIdentity : Option String
  deriving DecidableEq

/-- The prompt shown to the user. -/
abbrev PolkitPromptState := PromptState

/-- A request with this cookie, for these users. -/
def PolkitRequest.asking (cookie : String) (users : List String) : PolkitRequest where
  actionId := "org.example.action"
  message := "Authentication is required"
  iconName := ""
  cookie := cookie
  isInternal := false
  identities := users.map fun user => ⟨"unix-user", 1000, user, none⟩
  selectedIdentity := none

/-- What subscribers see of the PolicyKit agent. -/
structure PolkitSnapshot where
  version : DomainVersion
  lifecycle : DomainLifecycle
  request : Option PolkitRequest
  promptState : Option PolkitPromptState
  lastError : Option String
  helperPath : Option String
  deriving DecidableEq

/-! ### Commands -/

/-- Commands of the PolicyKit agent. -/
inductive PolkitCommand where
  | selectIdentity (cookie username : String)
  | provideResponse (cookie response : String)
  | cancel (cookie : String)
  | dismiss
  | markNextRequestInternal

/-- Marking the next request twice is marking it once. -/
def PolkitCommand.policy : PolkitCommand → MailboxPolicy
  | .markNextRequestInternal => .replaceLatest "mark_internal"
  | _ => .lossless

/-- Why a command is rejected. -/
inductive PolkitRejectionReason where
  | unavailable
  | overloaded
  | notFound
  | invalidState
  deriving DecidableEq

/-- How a command of the PolicyKit agent ends. -/
abbrev PolkitCommandOutcome := CommandOutcome PolkitRejectionReason

/-! ### The helper -/

/-- What the helper says. -/
inductive HelperEvent where
  | promptEchoOff (prompt : String)
  | promptEchoOn (prompt : String)
  | errorMessage (text : String)
  | textInfo (text : String)
  | success
  | failure
  deriving DecidableEq

/-- The helper process, in a world `W`, its sessions `S`. -/
structure PolkitHelper (W : Type u) (S : Type v) where
  /-- `spawn_session`, for a username and a cookie. -/
  spawnSession : W → String → String → Except String S × W
  /-- `probe_path`. -/
  probePath : W → Option String
  /-- `write_response`. -/
  writeResponse : W → S → String → Except String Unit × W
  /-- `try_recv_event`. -/
  tryRecvEvent : W → S → Option HelperEvent × W
  /-- `kill`; the domain ignores whether it worked. -/
  kill : W → S → W

/-- A helper that always starts, takes every response and says what the world has it say. -/
def scriptedHelper : PolkitHelper (List HelperEvent) Unit where
  spawnSession world _ _ := (.ok (), world)
  probePath _ := none
  writeResponse world _ _ := (.ok (), world)
  tryRecvEvent world _ := (world.head?, world.tail)
  kill world _ := world

/-- A helper session, and what it was spawned for. -/
structure Spawned (S : Type v) where
  /-- The session. -/
  handle : S
  /-- The user it authenticates. -/
  username : String
  /-- The request's cookie. -/
  cookie : String
  /-- Which request of the authority it was spawned for, counted from `0`. -/
  origin : ℕ

/-- A response written to a helper, and the identity that the dialog showed. -/
structure Written where
  /-- What was written. -/
  response : String
  /-- The user whom the helper authenticates. -/
  username : String
  /-- The identity selected in the request on display. -/
  shown : Option String
  deriving DecidableEq

/-- What the authority is told of a request. -/
abbrev Completion := Except String Unit

end Shilpo.Polkit
