import Shilpo.Extensions.State

/-!
# Manifests of extensions

The crate `core/ext-api`: what an extension is called, what it contributes, which
capabilities it asks for, which events it gets and which operations it can ask the host
for. `ExtensionManifest.validate` is the check that a manifest passes before anything is
done with it; of what a manifest says, the description, the repository and the license are
left out, which nothing reads here.

`toUppercase` is the upper case of a character by Unicode's tables.
-/

namespace Shilpo.Extensions

open Config

/-! ### Names -/

/-- A name that cannot be one. -/
inductive IdError where
  | invalidExtensionId (value : String)
  | invalidContributionId (value : String)
  | invalidCanonicalId (value : String)
  deriving DecidableEq

/-- The name of a contribution within its extension. -/
structure ContributionId where
  text : String
  deriving DecidableEq

/-- The name of a contribution, if the text is one. -/
def ContributionId.new (value : String) : Except IdError ContributionId :=
  if value.toList.head?.any isLowerOrDigit &&
      value.toList.all fun c => isLowerOrDigit c || c = '-' || c = '_' then .ok ⟨value⟩
  else .error (.invalidContributionId value)

/-- The name of a contribution among all. -/
structure CanonicalId where
  extensionId : ExtensionId
  contributionId : ContributionId
  deriving DecidableEq

/-! ### Versions -/

/-- A part of what stands behind the numbers of a version. A number can have zeros before it
behind a plus sign, so that its digits are kept count of. -/
inductive VersionIdentifier where
  | numeric (value digits : ℕ)
  | alphanumeric (text : String)
  deriving DecidableEq

/-- A version, as semantic versioning has them. -/
structure Version where
  major : ℕ
  minor : ℕ
  patch : ℕ
  pre : List VersionIdentifier
  build : List VersionIdentifier
  deriving DecidableEq

/-! ### Events -/

/-- What can be subscribed to. -/
inductive EventKind where
  | outputsChanged
  | themeChanged
  | paletteGenerated
  | wallpaperChanged
  | networkChanged
  | mediaChanged
  | powerChanged
  | timerFired
  | workspaceChanged
  deriving DecidableEq

/-- The kind as the source prints it for developers. -/
def EventKind.debug : EventKind → String
  | .outputsChanged => "OutputsChanged"
  | .themeChanged => "ThemeChanged"
  | .paletteGenerated => "PaletteGenerated"
  | .wallpaperChanged => "WallpaperChanged"
  | .networkChanged => "NetworkChanged"
  | .mediaChanged => "MediaChanged"
  | .powerChanged => "PowerChanged"
  | .timerFired => "TimerFired"
  | .workspaceChanged => "WorkspaceChanged"

/-- Why the menu of a bar has been closed. -/
inductive BarMenuCloseReason where
  | sourceToggle
  | escape
  | focusLost
  | outsideClick
  | overviewOpened
  | barClosed
  | displayRemoved
  | ownerRemoved
  | sourceUnavailable

/-- How wallpapers follow each other. -/
inductive WallpaperMode where
  | manual
  | slideshow
  deriving DecidableEq

/-- What a wallpaper is for. -/
inductive WallpaperTarget where
  | «global»
  | workspace (workspaceId : String) (outputName : Option String)

/-- Why a wallpaper is asked for. -/
inductive WallpaperRequestReason where
  | activate
  | userNext
  | slideshowTick
  | workspaceChanged
  | settingsChanged

/-- A wallpaper is asked for. -/
structure WallpaperRequest where
  requestId : String
  contributionId : String
  reason : WallpaperRequestReason
  mode : WallpaperMode
  target : WallpaperTarget

/-- What an extension can be told. -/
inductive ExtensionEvent where
  | shellStarted
  | shellStopping
  | outputsChanged
  | themeChanged (mode : String)
  | paletteGenerated (accent : String)
  | wallpaperChanged (path : String)
  | networkChanged (connected : Bool)
  | mediaChanged (title artist : Option String) (playing : Bool)
  | powerChanged (percentage : Option Float32) (charging : Bool)
  | timerFired (name : String)
  | workspaceChanged (workspaceId : String) (workspaceName outputName : Option String)
  | wallpaperRequest (request : WallpaperRequest)
  | wallpaperResult (requestId : String) (success : Bool) (error : Option String)
  | contributionMounted (contributionId : String) (instanceId : Option String)
      (width height : Float32)
  | contributionUnmounted (contributionId : String) (instanceId : Option String)
  | contributionResized (contributionId : String) (instanceId : Option String)
      (width height : Float32)
  | contributionSettingsChanged (contributionId : String) (instanceId : Option String)
      (settings : JsonValue)
  | barMenuOpened (contributionId instanceId : String)
  | barMenuClosed (contributionId instanceId : String) (reason : BarMenuCloseReason)
  | input (contributionId : String) (instanceId : Option String) (eventId : String)
      (value : Option JsonValue)
  | stateValue (watchId : UInt64) (key : String) (value : Option JsonValue) (revision : UInt64)
  | httpResponse (requestId : String) (status : Option UInt16) (body : String)
      (error : Option String)
  | locationResponse (latitude longitude accuracyMeters : Option Float) (error : Option String)

/-- The kind of an event that has to be subscribed to. -/
def ExtensionEvent.subscriptionKind : ExtensionEvent → Option EventKind
  | .outputsChanged => some .outputsChanged
  | .themeChanged _ => some .themeChanged
  | .paletteGenerated _ => some .paletteGenerated
  | .wallpaperChanged _ => some .wallpaperChanged
  | .networkChanged _ => some .networkChanged
  | .mediaChanged .. => some .mediaChanged
  | .powerChanged .. => some .powerChanged
  | .timerFired _ => some .timerFired
  | .workspaceChanged .. => some .workspaceChanged
  | _ => none

/-! ### Operations -/

/-- Where a wallpaper comes from. -/
inductive WallpaperSource where
  | extensionAsset
  | localFile
  | remote
  deriving DecidableEq

/-- What an extension can ask of the host. -/
inductive HostOperation where
  | showNotification (title body : String) (icon : Option String)
  | invokeAction (actionId : String) (payloadJson : Option String)
  | setWallpaper (path : String) (source : WallpaperSource) (requestId : Option String)
      (target : Option WallpaperTarget)
  | setThemeSource (color : String)
  | clipboardWrite (text : String)
  | httpRequest (requestId url method : String)
  | locationRead

/-! ### Capabilities -/

/-- What a secret is for. -/
structure SecretPurpose where
  text : String
  deriving DecidableEq

/-- A purpose has a lower case letter, then lower case letters, digits and dashes, 64 at most. -/
def SecretPurpose.isValid (value : String) : Bool :=
  1 ≤ byteLength value.toList && byteLength value.toList ≤ 64 &&
    value.toList.head?.any (fun c => 'a' ≤ c && c ≤ 'z') &&
    value.toList.all fun c => isLowerOrDigit c || c = '-'

/-- The kinds of capabilities. -/
inductive CapabilityKind where
  | eventsSubscribe
  | wallpaperSet
  | wallpaperRead
  | themeRead
  | themeSetSource
  | notificationsShow
  | clipboardRead
  | clipboardWrite
  | actionsInvoke
  | networkHttp
  | filesystemRead
  | filesystemWrite
  | locationRead
  | secrets
  | searchProvide
  deriving DecidableEq

/-- The kind as the source prints it for developers. -/
def CapabilityKind.debug : CapabilityKind → String
  | .eventsSubscribe => "EventsSubscribe"
  | .wallpaperSet => "WallpaperSet"
  | .wallpaperRead => "WallpaperRead"
  | .themeRead => "ThemeRead"
  | .themeSetSource => "ThemeSetSource"
  | .notificationsShow => "NotificationsShow"
  | .clipboardRead => "ClipboardRead"
  | .clipboardWrite => "ClipboardWrite"
  | .actionsInvoke => "ActionsInvoke"
  | .networkHttp => "NetworkHttp"
  | .filesystemRead => "FilesystemRead"
  | .filesystemWrite => "FilesystemWrite"
  | .locationRead => "LocationRead"
  | .secrets => "Secrets"
  | .searchProvide => "SearchProvide"

/-- What an extension asks for, or may do. -/
inductive Capability where
  | eventsSubscribe (events : List EventKind)
  | wallpaperSet (sources : List WallpaperSource)
  | wallpaperRead
  | themeRead
  | themeSetSource
  | notificationsShow
  | clipboardRead
  | clipboardWrite
  | actionsInvoke (actions : List String)
  | networkHttp (hosts paths : List String)
  | filesystemRead (paths : List String)
  | filesystemWrite (paths : List String)
  | locationRead
  | secrets (purposes : List SecretPurpose)
  | searchProvide
  deriving DecidableEq

namespace Capability

/-- Its kind. -/
def kind : Capability → CapabilityKind
  | .eventsSubscribe _ => .eventsSubscribe
  | .wallpaperSet _ => .wallpaperSet
  | .wallpaperRead => .wallpaperRead
  | .themeRead => .themeRead
  | .themeSetSource => .themeSetSource
  | .notificationsShow => .notificationsShow
  | .clipboardRead => .clipboardRead
  | .clipboardWrite => .clipboardWrite
  | .actionsInvoke _ => .actionsInvoke
  | .networkHttp .. => .networkHttp
  | .filesystemRead _ => .filesystemRead
  | .filesystemWrite _ => .filesystemWrite
  | .locationRead => .locationRead
  | .secrets _ => .secrets
  | .searchProvide => .searchProvide

/-- Whether the event may be heard of. -/
def allowsEvent (capability : Capability) (event : EventKind) : Bool :=
  match capability with
  | .eventsSubscribe events => events.contains event
  | _ => false

/-- A capability that is asked for covers one that is granted: they are of one kind, and the
secrets that are granted are asked for. -/
def covers (requested grant : Capability) : Bool :=
  requested.kind = grant.kind &&
    match requested, grant with
    | .secrets declared, .secrets granted => granted.all (declared.contains ·)
    | _, _ => true

end Capability

/-- The first capability that is granted but not asked for. -/
def undeclaredGrant (capabilities grants : List Capability) : Option Capability :=
  grants.find? fun grant => !capabilities.any (·.covers grant)

/-! ### Patterns -/

/-- The comparison with a pattern, from the rests of pattern and value on. `star` is what comes
behind the last star, and the rest of the value it was tried on last. -/
def wildcardLoop : ℕ → Bytes → Bytes → Option (Bytes × Bytes) → Bool
  | 0, _, _, _ => false
  | _ + 1, pattern, [], _ => pattern.all (· = 42)
  | fuel + 1, pattern, v :: value, star =>
    if pattern.head? = some v then wildcardLoop fuel pattern.tail value star
    else if pattern.head? = some 42 then
      wildcardLoop fuel pattern.tail (v :: value) (some (pattern.tail, v :: value))
    else
      match star with
      | some (afterStar, retry) =>
        wildcardLoop fuel afterStar retry.tail (some (afterStar, retry.tail))
      | none => false

/-- Whether a value is as the pattern has it, in which a star stands for anything. Between two
steps of the value that the last star was tried on, the pattern is gone through at most once. -/
def wildcardMatches (pattern value : String) : Bool :=
  wildcardLoop ((utf8 pattern).length + 1 + ((utf8 pattern).length + 1) * (utf8 value).length)
    (utf8 pattern) (utf8 value) none

/-! ### Contributions -/

/-- What all contributions have. -/
structure Contribution where
  id : ContributionId
  name : String

/-- The menu of a bar widget. -/
structure BarMenuContribution extends Contribution where
  barWidget : ContributionId

/-- A widget of the desktop. -/
structure DesktopWidgetContribution extends Contribution where
  defaultWidth : Option ℕ
  defaultHeight : Option ℕ
  minWidth : Option ℕ
  minHeight : Option ℕ

/-- A page of settings. -/
structure SettingsPageContribution extends Contribution where
  schema : String

/-- What a search can be about. -/
inductive SearchProviderMode where
  | default
  | apps
  | actions
  | clipboard
  | calculator
  | command
  | webSearch
  | keybindings
  deriving DecidableEq

/-- The mode as the source prints it for developers. -/
def SearchProviderMode.debug : SearchProviderMode → String
  | .default => "Default"
  | .apps => "Apps"
  | .actions => "Actions"
  | .clipboard => "Clipboard"
  | .calculator => "Calculator"
  | .command => "Command"
  | .webSearch => "WebSearch"
  | .keybindings => "Keybindings"

/-- What finds something. -/
structure SearchProviderContribution extends Contribution where
  modes : List SearchProviderMode

/-- The mode as the source prints it for developers. -/
def WallpaperMode.debug : WallpaperMode → String
  | .manual => "Manual"
  | .slideshow => "Slideshow"

/-- What a wallpaper can be for. -/
inductive WallpaperTargetKind where
  | «global»
  | workspace
  deriving DecidableEq

/-- The target as the source prints it for developers. -/
def WallpaperTargetKind.debug : WallpaperTargetKind → String
  | .global => "Global"
  | .workspace => "Workspace"

/-- What has wallpapers. -/
structure WallpaperProviderContribution extends Contribution where
  modes : List WallpaperMode
  targets : List WallpaperTargetKind

/-- A shortcut for an action. -/
structure KeyboardShortcutContribution extends Contribution where
  action : ContributionId
  defaultBinding : Option String

/-- What an extension contributes. -/
structure Contributions where
  barWidgets : List Contribution
  barMenus : List BarMenuContribution
  desktopWidgets : List DesktopWidgetContribution
  settingsPages : List SettingsPageContribution
  sidePanels : List Contribution
  searchProviders : List SearchProviderContribution
  actions : List Contribution
  keyboardShortcuts : List KeyboardShortcutContribution
  backgroundTasks : List Contribution
  wallpaperProviders : List WallpaperProviderContribution

/-- All contributions. -/
def Contributions.entries (c : Contributions) : List Contribution :=
  c.barWidgets ++ c.barMenus.map (·.toContribution) ++ c.desktopWidgets.map (·.toContribution) ++
    c.settingsPages.map (·.toContribution) ++ c.sidePanels ++
    c.searchProviders.map (·.toContribution) ++ c.actions ++
    c.keyboardShortcuts.map (·.toContribution) ++ c.backgroundTasks ++
    c.wallpaperProviders.map (·.toContribution)

/-- Whether a contribution is among them. -/
def Contributions.contains (c : Contributions) (id : ContributionId) : Bool :=
  c.entries.any fun entry => entry.id = id

/-! ### Manifests -/

/-- A manifest. Of its library the path is kept, of its subscriptions the events. -/
structure ExtensionManifest where
  id : ExtensionId
  name : String
  version : Version
  schemaVersion : ℕ
  apiVersion : Version
  minShilpoVersion : Version
  authors : List String
  library : Option String
  contributions : Contributions
  subscriptions : List EventKind
  capabilities : List Capability

/-- What is wrong with a manifest. -/
inductive ManifestError where
  | id (err : IdError)
  | parseError (message : String)
  | validation (message : String)
  deriving DecidableEq

/-- The version of manifests. -/
def supportedSchemaVersion : ℕ := 1

/-- The version of the interface between host and extensions. -/
def supportedApiVersion : Version := ⟨0, 1, 0, [], []⟩

/-- A version as it is written. -/
def VersionIdentifier.text : VersionIdentifier → String
  | .numeric value digits =>
    String.ofList (List.replicate (digits - (toString value).length) '0') ++ toString value
  | .alphanumeric text => text

@[inherit_doc VersionIdentifier.text]
def Version.text (version : Version) : String :=
  toString version.major ++ "." ++ toString version.minor ++ "." ++ toString version.patch ++
    (if version.pre = [] then ""
      else "-" ++ String.intercalate "." (version.pre.map VersionIdentifier.text)) ++
    (if version.build = [] then ""
      else "+" ++ String.intercalate "." (version.build.map VersionIdentifier.text))

/-- A part of a path. -/
inductive Component where
  | rootDir
  | curDir
  | parentDir
  | normal (name : List Char)
  deriving DecidableEq

/-- The parts of a path. A dot counts only where the path starts with it. -/
def components (path : String) : List Component :=
  let segments := path.toList.splitOn '/'
  (if path.toList.head? = some '/' then [.rootDir]
    else if segments.head? = some ['.'] then [.curDir] else []) ++
  segments.filterMap fun segment =>
    if segment = [] || segment = ['.'] then none
    else if segment = ['.', '.'] then some .parentDir
    else some (.normal segment)

/-- A path into the package: its parts are names. -/
def isNormalPath (value : String) : Bool :=
  (components value).all fun component =>
    match component with
    | .normal _ => true
    | _ => false

/-- An error, if something is wrong. -/
def reject (wrong : Bool) (message : String) : Except ManifestError Unit :=
  if wrong then .error (.validation message) else .ok ()

/-- A path has to lead into the package. -/
def validateRelativePath (field value : String) : Except ManifestError Unit :=
  reject (isBlank value || !isNormalPath value) (field ++ " must be a safe relative path")

/-- A path within what an extension can see: its assets, its data or the user's. -/
def validVirtualPathPattern (value : String) : Bool :=
  !isBlank value && isNormalPath value &&
    (components value).head?.any fun component =>
      component ∈ [.normal "assets".toList, .normal "data".toList, .normal "user".toList]

/-- An author has a name and a mail address. -/
def validateAuthor (author : String) : Except ManifestError Unit := do
  let trimmed := trim author.toList
  reject (trimmed = []) "author entry cannot be empty"
  reject (trimmed.getLast? ≠ some '>' || trimmed.count '<' ≠ 1 || trimmed.count '>' ≠ 1)
    ("author '" ++ author ++ "' must be in mailbox format 'Display Name <local@domain>'")
  let name := trim (trimmed.takeWhile (· ≠ '<'))
  reject (name = []) ("author '" ++ author ++ "' is missing display name")
  let email := trim ((trimmed.dropWhile (· ≠ '<')).tail.dropLast)
  reject (email = []) ("author '" ++ author ++ "' has empty email address")
  reject (email.any isWhitespace)
    ("author '" ++ author ++ "' email address cannot contain whitespace")
  reject (!email.contains '@') ("author '" ++ author ++ "' email address is missing '@'")
  let part := email.takeWhile (· ≠ '@')
  let domain := (email.dropWhile (· ≠ '@')).tail
  reject (part = [] || domain = [])
    ("author '" ++ author ++ "' email address must have both local and domain parts")
  reject (domain.contains '@')
    ("author '" ++ author ++ "' email address cannot contain multiple '@'")
  -- a dot at either end, or two in a row, leave an empty part
  reject (!domain.contains '.' || (domain.splitOn '.').any (· = []))
    ("author '" ++ author ++ "' email domain is invalid")

/-- The first element that has been there before. -/
def firstRepeated {α : Type} [DecidableEq α] : List α → List α → Option α
  | _, [] => none
  | seen, x :: xs => if x ∈ seen then some x else firstRepeated (x :: seen) xs

/-- An error for the first element that has been there before. -/
def rejectRepeated {α : Type} [DecidableEq α] (xs : List α) (message : α → String) :
    Except ManifestError Unit :=
  match firstRepeated [] xs with
  | some x => .error (.validation (message x))
  | none => .ok ()

/-- The names of contributions are distinct, and what they are called is not empty. -/
def validateEntries : List ContributionId → List Contribution → Except ManifestError Unit
  | _, [] => .ok ()
  | seen, entry :: entries => do
    reject (entry.id ∈ seen) ("duplicate contribution ID '" ++ entry.id.text ++ "'")
    reject (isBlank entry.name) ("contribution '" ++ entry.id.text ++ "' has an empty name")
    validateEntries (entry.id :: seen) entries

/-- Menus belong to widgets that are there, one to each. -/
def validateBarMenus (barWidgets : List Contribution) :
    List ContributionId → List BarMenuContribution → Except ManifestError Unit
  | _, [] => .ok ()
  | seen, menu :: menus => do
    reject (!barWidgets.any fun widget => widget.id = menu.barWidget)
      ("bar menu '" ++ menu.id.text ++ "' targets unknown bar widget '" ++ menu.barWidget.text ++
        "'")
    reject (menu.barWidget ∈ seen)
      ("multiple bar menus target bar widget '" ++ menu.barWidget.text ++ "'")
    validateBarMenus barWidgets (menu.barWidget :: seen) menus

/-- One number is below the other, if both are there. -/
def isBelow (default minimum : Option ℕ) : Bool :=
  match minimum, default with
  | some minimum, some default => default < minimum
  | _, _ => false

/-- A widget is at first as large as it has to be. -/
def validateDesktopWidget (widget : DesktopWidgetContribution) : Except ManifestError Unit := do
  reject (isBelow widget.defaultWidth widget.minWidth)
    ("desktop widget '" ++ widget.id.text ++ "' default width is below its minimum")
  reject (isBelow widget.defaultHeight widget.minHeight)
    ("desktop widget '" ++ widget.id.text ++ "' default height is below its minimum")

/-- A shortcut is for an action that is there, and can be bound. -/
def validateKeyboardShortcut (toUppercase : Char → String) (actions : List Contribution)
    (shortcut : KeyboardShortcutContribution) : Except ManifestError Unit := do
  reject (!actions.any fun action => action.id = shortcut.action)
    ("keyboard shortcut '" ++ shortcut.id.text ++ "' targets unknown action '" ++
      shortcut.action.text ++ "'")
  match shortcut.defaultBinding.map (validateShortcutSpec toUppercase) with
  | some (.error err) =>
    .error (.validation
      ("keyboard shortcut '" ++ shortcut.id.text ++ "' default binding is invalid: " ++ err))
  | _ => .ok ()

/-- A provider of wallpapers has modes and targets, each once. -/
def validateWallpaperProvider (provider : WallpaperProviderContribution) :
    Except ManifestError Unit := do
  let named := "wallpaper provider '" ++ provider.id.text
  reject (provider.modes = []) (named ++ "' must declare at least one mode")
  rejectRepeated provider.modes fun mode => named ++ "' has duplicate mode '" ++ mode.debug ++ "'"
  reject (provider.targets = []) (named ++ "' must declare at least one target")
  rejectRepeated provider.targets fun target =>
    named ++ "' has duplicate target '" ++ target.debug ++ "'"

/-- A provider of searches has modes, each once. -/
def validateSearchProvider (provider : SearchProviderContribution) : Except ManifestError Unit := do
  let named := "search provider '" ++ provider.id.text
  reject (provider.modes = []) (named ++ "' must declare at least one mode")
  rejectRepeated provider.modes fun mode => named ++ "' has duplicate mode '" ++ mode.debug ++ "'"

/-- Subscriptions are made once, and covered by a capability. -/
def validateSubscriptions (capabilities : List Capability) :
    List EventKind → List EventKind → Except ManifestError Unit
  | _, [] => .ok ()
  | seen, event :: events => do
    reject (event ∈ seen) ("duplicate subscription for " ++ event.debug)
    reject (!capabilities.any (·.allowsEvent event))
      ("subscription " ++ event.debug ++ " is not covered by events:subscribe")
    validateSubscriptions capabilities (event :: seen) events

/-- A host can be written in a pattern. -/
def isHostPattern (host : String) : Bool := !isBlank host && !host.toList.contains '/'

/-- A capability is about something, and that is well formed. -/
def Capability.hasScope : Capability → Bool
  | .eventsSubscribe events => events ≠ []
  | .wallpaperSet sources => sources ≠ []
  | .actionsInvoke actions => actions ≠ [] && actions.all fun action => !isBlank action
  | .networkHttp hosts paths =>
    hosts ≠ [] && hosts.all isHostPattern && paths.all fun path => path.toList.head? = some '/'
  | .filesystemRead paths | .filesystemWrite paths => paths ≠ [] && paths.all validVirtualPathPattern
  | .secrets purposes =>
    purposes ≠ [] && purposes.all (fun purpose => SecretPurpose.isValid purpose.text) &&
      (firstRepeated [] purposes).isNone
  | _ => true

/-- Capabilities are of distinct kinds, and about something. -/
def validateCapabilities : List CapabilityKind → List Capability → Except ManifestError Unit
  | _, [] => .ok ()
  | seen, capability :: capabilities => do
    reject (capability.kind ∈ seen) ("duplicate capability " ++ capability.kind.debug)
    reject (!capability.hasScope)
      ("capability " ++ capability.kind.debug ++ " has an empty or invalid scope")
    validateCapabilities (capability.kind :: seen) capabilities

/-- The check of a manifest. -/
def ExtensionManifest.validate (toUppercase : Char → String) (manifest : ExtensionManifest) :
    Except ManifestError Unit := do
  let contributions := manifest.contributions
  reject (isBlank manifest.name) "the extension name cannot be empty"
  manifest.authors.forM validateAuthor
  reject (manifest.schemaVersion ≠ supportedSchemaVersion)
    ("schema version " ++ toString manifest.schemaVersion ++ " is unsupported; expected " ++
      toString supportedSchemaVersion)
  reject (manifest.apiVersion ≠ supportedApiVersion)
    ("API version " ++ manifest.apiVersion.text ++ " is unsupported; expected " ++
      supportedApiVersion.text)
  manifest.library.forM (validateRelativePath "library.path")
  validateEntries [] contributions.entries
  contributions.settingsPages.forM fun page =>
    validateRelativePath "settings page schema" page.schema
  validateBarMenus contributions.barWidgets [] contributions.barMenus
  contributions.desktopWidgets.forM validateDesktopWidget
  contributions.keyboardShortcuts.forM (validateKeyboardShortcut toUppercase contributions.actions)
  contributions.wallpaperProviders.forM validateWallpaperProvider
  contributions.searchProviders.forM validateSearchProvider
  reject (contributions.searchProviders ≠ [] && !manifest.capabilities.contains .searchProvide)
    "search_providers contribution requires the 'search:provide' capability"
  validateSubscriptions manifest.capabilities [] manifest.subscriptions
  validateCapabilities [] manifest.capabilities

end Shilpo.Extensions
