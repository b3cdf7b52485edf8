import Shilpo.Domain.Mailbox
import Shilpo.Theory.BTreeMap

/-!
# The compositor port's data

The snapshots a compositor backend publishes, the commands it takes and what may
become of one (`desktop/services/src/compositor/mod.rs` and the first part of
`broker.rs`). Snapshots are compared whole, by the comparison the source derives:
field by field, with the numbers of a layout compared as `f64`.
-/

namespace Shilpo.Compositor

open Domain Theory

/-! ### Snapshots -/

/-- An output. -/
structure CompositorOutput where
  name : String
  make : Option String
  model : Option String
  logicalPosition : ℤ × ℤ
  logicalSize : ℕ × ℕ
  scale : Float
  deriving BEq

/-- How well a backend can tell windows apart. -/
inductive WindowIdentity where
  | none
  | fuzzy
  | exact
  deriving DecidableEq

/-- What a backend can do. -/
structure CompositorCapabilities where
  windowIdentity : WindowIdentity := .none
  canCreateWorkspace : Bool := false
  canMoveWindow : Bool := false
  canFocusWindow : Bool := false
  canFocusWorkspace : Bool := false
  canCloseWindow : Bool := false
  deriving DecidableEq

/-- A workspace. -/
structure WorkspaceInfo where
  id : ℕ
  name : Option String
  idx : ℕ
  isActive : Bool
  isFocused : Bool
  isUrgent : Bool
  outputName : Option String
  activeWindowId : Option ℕ
  deriving DecidableEq

/-- A window. -/
structure WindowInfo where
  id : ℕ
  title : Option String
  appId : Option String
  workspaceId : Option ℕ
  isFocused : Bool
  isFloating : Bool
  isUrgent : Bool
  layoutX : Option Float
  layoutY : Option Float
  deriving BEq

/-- A special workspace of Hyprland. -/
structure HyprlandSpecialWorkspace where
  id : ℤ
  name : String
  monitor : Option String
  deriving DecidableEq

/-- What only some backends report. A `HashMap` is its entries in the order of their keys. -/
inductive CompositorExtras where
  | none
  | niri (windowPositions : BTreeMap ℕ (ℕ × ℕ))
  | hyprland (specialWorkspaces : List HyprlandSpecialWorkspace)

instance : BEq CompositorExtras where
  beq
    | .none, .none => true
    | .niri m, .niri m' => m.entries == m'.entries
    | .hyprland l, .hyprland l' => l == l'
    | _, _ => false

/-- What a backend publishes. The fields' defaults are those of the source. -/
structure CompositorSnapshot where
  version : DomainVersion := .zero
  connection : DomainLifecycle := .unavailable
  capabilities : CompositorCapabilities := {}
  outputs : List CompositorOutput := []
  workspaces : List WorkspaceInfo := []
  windows : List WindowInfo := []
  focusedOutput : Option String := .none
  focusedWorkspaceId : Option ℕ := .none
  focusedWindowId : Option ℕ := .none
  activeKeyboardLayout : Option String := .none
  extras : CompositorExtras := .none
  lastError : Option String := .none
  deriving BEq

/-- The snapshot lists this workspace. -/
def CompositorSnapshot.hasWorkspace (s : CompositorSnapshot) (workspaceId : ℕ) : Bool :=
  s.workspaces.any fun workspace => workspace.id == workspaceId

/-- The snapshot lists this window. -/
def CompositorSnapshot.hasWindow (s : CompositorSnapshot) (windowId : ℕ) : Bool :=
  s.windows.any fun window => window.id == windowId

/-- The snapshot lists this window, on this workspace. -/
def CompositorSnapshot.hasWindowOn (s : CompositorSnapshot) (windowId workspaceId : ℕ) : Bool :=
  s.windows.any fun window => window.id == windowId && window.workspaceId == some workspaceId

/-! ### Commands -/

/-- A command for the compositor. -/
inductive CompositorCommand where
  | focusWorkspace (workspaceId : ℕ)
  | focusWindow (windowId : ℕ)
  | focusPreviousWindow
  | closeWindow (windowId : ℕ)
  | createWorkspace
  | moveWindowToWorkspace (windowId workspaceId : ℕ)
  deriving DecidableEq

/-- What a command is about. -/
inductive CompositorTarget where
  | workspace (id : ℕ)
  | window (id : ℕ)
  deriving DecidableEq

/-- Why a command was rejected. -/
inductive RejectionReason where
  | unavailable
  | overloaded
  | unsupported
  | invalidTarget (target : CompositorTarget)
  | targetDisappeared (target : CompositorTarget)
  | backendRejected (message : String)
  | transport (message : String)
  | timedOut
  | cancelled (reason : CancellationReason)
  deriving DecidableEq

/-- How a command ended. -/
abbrev CommandOutcome := Domain.CommandOutcome RejectionReason

/-- Why a snapshot was refused. -/
inductive StaleUpdateError where
  | staleVersion (current attempted : DomainVersion)
  | conflictingSnapshot (version : DomainVersion)
  | uninstalledGeneration (installed attempted : ℕ)
  deriving DecidableEq

/-- What the backend says when it has taken a command. -/
inductive ExecutorAck where
  | success
  | workspaceCreated (workspaceId : ℕ)
  deriving DecidableEq

/-- The capability a command needs. -/
def CompositorCapabilities.allows (capabilities : CompositorCapabilities) :
    CompositorCommand → Bool
  | .createWorkspace => capabilities.canCreateWorkspace
  | .moveWindowToWorkspace _ _ => capabilities.canMoveWindow
  | .focusWindow _ | .focusPreviousWindow => capabilities.canFocusWindow
  | .focusWorkspace _ => capabilities.canFocusWorkspace
  | .closeWindow _ => capabilities.canCloseWindow

/-- The target the command names that the snapshot does not list. -/
def targetInvalid (command : CompositorCommand) (snapshot : CompositorSnapshot) :
    Option RejectionReason :=
  match command with
  | .focusWorkspace workspaceId =>
    if snapshot.hasWorkspace workspaceId then none
    else some (.invalidTarget (.workspace workspaceId))
  | .focusWindow windowId =>
    if snapshot.hasWindow windowId then none else some (.invalidTarget (.window windowId))
  | .moveWindowToWorkspace windowId workspaceId =>
    if !snapshot.hasWindow windowId then some (.invalidTarget (.window windowId))
    else if !snapshot.hasWorkspace workspaceId then
      some (.invalidTarget (.workspace workspaceId))
    else none
  | _ => none

/-- The command has nothing to do. -/
def alreadySatisfied (command : CompositorCommand) (snapshot : CompositorSnapshot) : Bool :=
  match command with
  | .focusWorkspace workspaceId => snapshot.focusedWorkspaceId == some workspaceId
  | .focusWindow windowId => snapshot.focusedWindowId == some windowId
  | .moveWindowToWorkspace windowId workspaceId => snapshot.hasWindowOn windowId workspaceId
  | .focusPreviousWindow => snapshot.windows.length ≤ 1
  | .createWorkspace => false
  | .closeWindow _ => false

end Shilpo.Compositor
