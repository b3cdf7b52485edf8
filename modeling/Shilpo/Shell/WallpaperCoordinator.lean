import Shilpo.Extensions.Manifest

/-!
# The wallpaper coordinator

`desktop/shilpo/src/shell/runtime/wallpaper_coordinator.rs`: an extension that provides wallpapers
is asked for them, and what it answers is checked against what it has been asked. Each request
that has not been answered is pending, and each target has an active one, its latest.

A `HashMap` is a list of entries with distinct keys. The requests that are pending stand newest
first; in which order the source comes to the keys of the map is a `HashOrder`. Readings of the
clock are natural numbers of nanoseconds. The setting of a wallpaper that is known is another
service's.
-/

namespace Shilpo.Shell

open Extensions

deriving instance DecidableEq for WallpaperTarget
deriving instance DecidableEq for WallpaperRequestReason
deriving instance DecidableEq for WallpaperRequest

/-! ### Providers -/

inductive WallpaperTargetKind where
  | «global»
  | workspace
  deriving DecidableEq

inductive ContributionSurface where
  | bar
  | barMenu
  | desktop
  | settings
  | sidePanel
  | action
  | background
  | shortcut
  | wallpaper
  | searchProvider
  deriving DecidableEq

structure ContributionDescriptor where
  id : CanonicalId
  surface : ContributionSurface
  wallpaperModes : Option (List WallpaperMode)
  wallpaperTargets : Option (List WallpaperTargetKind)

/-- The settings of an extension: their text as JSON, and what they say of the slideshow. -/
structure ExtensionSettings where
  text : String
  slideshowIntervalSeconds : Option ℕ

structure ExtensionsConfig where
  /-- By the extension's name. -/
  settings : AList fun _ : String => ExtensionSettings
  wallpaperProvider : Option CanonicalId

/-! ### The coordinator -/

structure PendingWallpaperRequest where
  generation : ℕ
  extensionId : ExtensionId
  target : WallpaperTarget
  mode : WallpaperMode
  reason : WallpaperRequestReason
  deriving DecidableEq

structure WallpaperCoordinator where
  activeProvider : Option CanonicalId
  activeModes : List WallpaperMode
  activeTargets : List WallpaperTargetKind
  providerGeneration : Option ℕ
  pendingRequests : AList fun _ : String => PendingWallpaperRequest
  activeRequestByTarget : AList fun _ : WallpaperTarget => String
  lastValidWallpapers : AList fun _ : WallpaperTarget => String
  lastActiveWorkspace : Option String
  nextRequestSeq : ℕ
  slideshowInterval : ℕ
  lastSlideshowTick : ℕ
  settingsSignature : Option String

/-- The order in which a `HashMap` is visited. -/
structure HashOrder where
  arrange : List String → List String
  arrange_perm : ∀ keys, (arrange keys).Perm keys

/-- How many requests are pending at most. -/
def maxPendingRequests : ℕ := 32

/-- The id of the request with this number. -/
def requestId (seq : ℕ) : String := s!"wp-req-{seq}"

/-- The kind of a target. -/
def targetKind : WallpaperTarget → WallpaperTargetKind
  | .global => .global
  | .workspace .. => .workspace

/-- A request to an extension. -/
abbrev Dispatched := Option (ExtensionId × WallpaperRequest)

namespace WallpaperCoordinator

def new (now : ℕ) : WallpaperCoordinator where
  activeProvider := none
  activeModes := []
  activeTargets := []
  providerGeneration := none
  pendingRequests := ∅
  activeRequestByTarget := ∅
  lastValidWallpapers := ∅
  lastActiveWorkspace := none
  nextRequestSeq := 0
  slideshowInterval := 300 * second
  lastSlideshowTick := now
  settingsSignature := none

variable (c : WallpaperCoordinator) (order : HashOrder)

/-! ### Requests -/

/-- The requests without the one that the target's next supersedes. -/
def coalesced (target : WallpaperTarget) : AList fun _ : String => PendingWallpaperRequest :=
  match c.activeRequestByTarget.lookup target with
  | some oldReqId => c.pendingRequests.erase oldReqId
  | none => c.pendingRequests

/-- The requests without the first that is come to, where there are too many. -/
def bounded (pending : AList fun _ : String => PendingWallpaperRequest) :
    AList fun _ : String => PendingWallpaperRequest :=
  if maxPendingRequests < pending.entries.length then
    match (order.arrange pending.keys).head? with
    | some oldestKey => pending.erase oldestKey
    | none => pending
  else pending

/-- Ask the provider for a wallpaper. -/
def dispatchRequest (reason : WallpaperRequestReason) (mode : WallpaperMode)
    (target : WallpaperTarget) : WallpaperCoordinator × Dispatched :=
  match c.activeProvider, c.providerGeneration with
  | some provider, some generation =>
    if mode ∉ c.activeModes then (c, none)
    else if targetKind target ∉ c.activeTargets then (c, none)
    else
      let seq := (c.nextRequestSeq + 1) % 2 ^ 64
      let reqId := requestId seq
      ({ c with
          nextRequestSeq := seq
          activeRequestByTarget := c.activeRequestByTarget.insert target reqId
          pendingRequests := bounded order ((c.coalesced target).insert reqId
            ⟨generation, provider.extensionId, target, mode, reason⟩) },
        some (provider.extensionId,
          ⟨reqId, provider.contributionId.text, reason, mode, target⟩))
  | _, _ => (c, none)

/-- A slideshow, if the provider has them. -/
def preferredMode : WallpaperMode :=
  if .slideshow ∈ c.activeModes then .slideshow else .manual

def requestNextWallpaper : WallpaperCoordinator × Dispatched :=
  match c.activeProvider with
  | none => (c, none)
  | some _ =>
    let target :=
      match c.lastActiveWorkspace with
      | some workspaceId =>
        if .workspace ∈ c.activeTargets then .workspace workspaceId none else .global
      | none => .global
    c.dispatchRequest order .userNext c.preferredMode target

def onWorkspaceChanged (workspaceId : String) (outputName : Option String) :
    WallpaperCoordinator × Dispatched :=
  let c := { c with lastActiveWorkspace := some workspaceId }
  if .workspace ∉ c.activeTargets then (c, none)
  else
    let target := .workspace workspaceId outputName
    match c.lastValidWallpapers.lookup target with
    | some _ => (c, none)
    | none => c.dispatchRequest order .workspaceChanged .manual target

def onSettingsChanged : WallpaperCoordinator × Dispatched :=
  if c.activeProvider.isSome then c.dispatchRequest order .settingsChanged .manual .global
  else (c, none)

def onSlideshowTick : WallpaperCoordinator × Dispatched :=
  if c.activeProvider.isSome ∧ .slideshow ∈ c.activeModes then
    c.dispatchRequest order .slideshowTick .slideshow .global
  else (c, none)

def onWallpaperTick (now : ℕ) : WallpaperCoordinator × Dispatched :=
  if now - c.lastSlideshowTick < c.slideshowInterval then (c, none)
  else { c with lastSlideshowTick := now }.onSlideshowTick order

/-! ### The provider -/

def onProviderDisabledOrUnloaded : WallpaperCoordinator :=
  { c with
    pendingRequests := ∅
    activeRequestByTarget := ∅
    activeProvider := none
    activeModes := []
    activeTargets := []
    providerGeneration := none }

/-- The descriptor of the provider that is configured. -/
def chosen (config : ExtensionsConfig) (descriptors : List ContributionDescriptor) :
    Option ContributionDescriptor :=
  config.wallpaperProvider.bind fun configured =>
    (descriptors.filter fun desc => desc.surface = .wallpaper).find? fun desc =>
      desc.id = configured

/-- The settings of the provider, if there are any. -/
def settingsOf (config : ExtensionsConfig) (desc : ContributionDescriptor) :
    Option ExtensionSettings :=
  config.settings.lookup desc.id.extensionId.text

/-- The provider is another, or of another generation. -/
def isNew (desc : ContributionDescriptor) (generation : ℕ) : Bool :=
  c.activeProvider ≠ some desc.id || c.providerGeneration ≠ some generation

/-- The interval of the slideshow is what the settings say, within bounds. -/
def withInterval (settings : Option ExtensionSettings) : WallpaperCoordinator :=
  match settings.bind (·.slideshowIntervalSeconds) with
  | some seconds => { c with slideshowInterval := max 30 (min seconds 86400) * second }
  | none => c

/-- The provider is this one from now on. -/
def adopt (desc : ContributionDescriptor) (generation now : ℕ) (signature : Option String) :
    WallpaperCoordinator :=
  { c with
    pendingRequests := ∅
    activeRequestByTarget := ∅
    activeProvider := some desc.id
    activeModes := desc.wallpaperModes.getD [.manual, .slideshow]
    activeTargets := desc.wallpaperTargets.getD [.global, .workspace]
    providerGeneration := some generation
    lastSlideshowTick := now
    settingsSignature := signature }

def syncActiveProvider (config : ExtensionsConfig) (descriptors : List ContributionDescriptor)
    (generation now : ℕ) : WallpaperCoordinator × Dispatched :=
  match chosen config descriptors with
  | none => (c.onProviderDisabledOrUnloaded, none)
  | some desc =>
    let settings := settingsOf config desc
    let signature := settings.map (·.text)
    if c.isNew desc generation then
      let c := (c.withInterval settings).adopt desc generation now signature
      c.dispatchRequest order .activate c.preferredMode .global
    else if c.settingsSignature ≠ signature then
      ({ c.withInterval settings with settingsSignature := signature }).onSettingsChanged order
    else (c.withInterval settings, none)

/-! ### Answers -/

/-- The answer to a request, or a wallpaper of the extension's own accord; the target, if it is
accepted. An error without a text is not told. -/
def validateWallpaperEffect (source : WallpaperSource) (requestId : Option String)
    (target : Option WallpaperTarget) (extensionId : ExtensionId) (generation : ℕ) :
    WallpaperCoordinator × Except (Option String) WallpaperTarget :=
  if source = .remote then
    (c, .error (some
      "remote wallpaper source is unsupported without a host-owned downloader"))
  else
    match requestId with
    | none => (c, .ok (target.getD .global))
    | some reqId =>
      match c.pendingRequests.lookup reqId with
      | none => (c, .error none)
      | some pending =>
        let c := { c with pendingRequests := c.pendingRequests.erase reqId }
        if pending.generation ≠ generation ∨ pending.extensionId ≠ extensionId then
          (c, .error none)
        else if c.activeRequestByTarget.lookup pending.target ≠ some reqId then (c, .error none)
        else (c, .ok pending.target)

def recordSuccessfulWallpaper (target : WallpaperTarget) (path : String) : WallpaperCoordinator :=
  { c with lastValidWallpapers := c.lastValidWallpapers.insert target path }

end WallpaperCoordinator

end Shilpo.Shell
