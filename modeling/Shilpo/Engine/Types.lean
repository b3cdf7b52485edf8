import Shilpo.Extensions.Host

/-!
# What the engine of extensions works with

`ext-runtime/src/worker/protocol.rs`, and what `worker/engine.rs` has beside its functions: the
commands of the shell, the updates that answer them, and the surroundings of the engine. These are
the runtime of the guests and that of the scripts, which are any machines; the clock, which is read
anew by every call of the host; the order in which a hash map gives its entries, which is any; and
the files and the catalog, which are as they are while a call of the engine lasts (`Files`) and may
be otherwise at the next.

Of a snapshot the sources stand for what is made of them: the descriptors, the settings schemas and
the asset roots.
-/

namespace Shilpo.Extensions

/-! ### Names -/

/-- The name of an extension, if the text is one. -/
def ExtensionId.new (value : String) : Except IdError ExtensionId :=
  if Config.isExtensionId value then .ok ⟨value⟩ else .error (.invalidExtensionId value)

namespace CanonicalId

/-- The name as it is written. -/
def text (canonical : CanonicalId) : String :=
  canonical.extensionId.text ++ "/" ++ canonical.contributionId.text

/-- The name that is written so. -/
def parse (value : String) : Except IdError CanonicalId :=
  match value.toList.dropWhile (· ≠ '/') with
  | [] => .error (.invalidCanonicalId value)
  | _ :: contributionId =>
    if '/' ∈ contributionId then .error (.invalidCanonicalId value)
    else do
      let extensionId ← ExtensionId.new (String.ofList (value.toList.takeWhile (· ≠ '/')))
      let contributionId ← ContributionId.new (String.ofList contributionId)
      return ⟨extensionId, contributionId⟩

end CanonicalId

/-! ### Errors as they are written -/

/-- `IdError` as it is written. -/
def IdError.text : IdError → String
  | .invalidExtensionId value =>
    s!"invalid extension ID '{value}': expected lowercase reverse-domain segments"
  | .invalidContributionId value =>
    s!"invalid contribution ID '{value}': expected lowercase letters, digits, dashes, " ++
      "or underscores"
  | .invalidCanonicalId value => s!"invalid canonical contribution ID '{value}'"

/-- `ManifestError` as it is written. -/
def ManifestError.text : ManifestError → String
  | .id err => err.text
  | .parseError message => "failed to parse TOML manifest: " ++ message
  | .validation message => "invalid extension manifest: " ++ message

/-- `HostError` as it is written. -/
def ExtensionHost.Error.text : ExtensionHost.Error → String
  | .manifest err => err.text
  | .runtime err => err.message
  | .view message => "invalid extension view: " ++ message
  | .alreadyRegistered id => s!"extension '{id.text}' is already registered"
  | .notRegistered id => s!"extension '{id.text}' is not registered"
  | .unknownContribution id => s!"unknown extension contribution '{id.text}'"
  | .undeclaredGrant kind => s!"cannot grant undeclared capability '{kind}'"
  | .disabled id => s!"extension '{id.text}' is disabled for this session"

deriving instance DecidableEq for Contribution, BarMenuContribution, DesktopWidgetContribution,
  SettingsPageContribution, SearchProviderContribution, WallpaperProviderContribution,
  KeyboardShortcutContribution, Contributions, ExtensionManifest

end Shilpo.Extensions

namespace Shilpo.Engine

open Extensions
open Config (JsonValue)

/-! ### Commands -/

/-- An event of which only the last counts. -/
inductive ReplaceableEvent where
  | power (percentage : Option Float32) (charging : Bool)
  | network (connected : Bool)
  | media (title artist : Option String) (playing : Bool)
  | timerFired (name : String)

/-- `std::mem::Discriminant` of a replaceable event. -/
inductive ReplaceableKind where
  | power
  | network
  | media
  | timerFired
  deriving DecidableEq

namespace ReplaceableEvent

/-- `std::mem::discriminant`. -/
def kind : ReplaceableEvent → ReplaceableKind
  | .power .. => .power
  | .network _ => .network
  | .media .. => .media
  | .timerFired _ => .timerFired

/-- The event that extensions are told. -/
def event : ReplaceableEvent → ExtensionEvent
  | .power percentage charging => .powerChanged percentage charging
  | .network connected => .networkChanged connected
  | .media title artist playing => .mediaChanged title artist playing
  | .timerFired name => .timerFired name

end ReplaceableEvent

/-- A contribution as it stands somewhere on the screen. -/
structure ContributionInstance where
  id : String
  contribution : CanonicalId
  output : Option String
  width : Float32
  height : Float32
  settings : JsonValue

/-- What a development session asks for when it has built. -/
structure DevReloadRequest where
  sessionId : String
  extensionId : ExtensionId
  canonicalRoot : String
  artifactPath : String
  buildSequence : ℕ

/-- `ExtensionCommand`. A search is answered elsewhere. -/
inductive ExtensionCommand where
  | lifecycle (expected : ℕ) (event : ExtensionEvent)
  | input (expected : ℕ) (contribution : CanonicalId) (instanceId : Option String)
      (eventId : String) (value : Option JsonValue)
  | response (expected : ℕ) (extensionId : ExtensionId) (event : ExtensionEvent)
  | replaceable (event : ReplaceableEvent)
  | reconcileInstances (expected : ℕ) (desired : List ContributionInstance)
  | sourcesChanged
  | devReload (request : DevReloadRequest)
  | devUnload (sessionId : String) (extensionId : ExtensionId)
  | search
  | recordSearchTimeout (extensionId : ExtensionId)
  | shutdown

/-! ### Updates -/

/-- Where an extension is from. -/
structure ActiveSource where
  manifest : ExtensionManifest
  root : String
  grants : List Capability
  fingerprint : ℕ
  deriving DecidableEq

/-- Sources by the names they are found under. -/
abbrev Sources := AList fun _ : ExtensionId => ActiveSource

/-- What events have changed. -/
structure ExtensionChanges where
  effects : List (ExtensionId × AuthorizedHostOperation)
  invalidatedViews : List CanonicalId

/-- Nothing has changed. -/
def ExtensionChanges.default : ExtensionChanges := ⟨[], []⟩

/-- `ExtensionChanges::merge`. -/
def ExtensionChanges.merge (changes other : ExtensionChanges) : ExtensionChanges :=
  ⟨changes.effects ++ other.effects, changes.invalidatedViews ++ other.invalidatedViews⟩

/-- What the shell shows. -/
structure ExtensionSnapshot (T : Payloads) where
  generation : ℕ
  sources : Sources
  views : List (CanonicalId × T.View)
  diagnostics : List String
  catalogChangedAt : Option ℕ
  wasmExtensions : List (ExtensionId × Option CircuitState)
  devOverrides : List ExtensionId

/-- What the shell is told. -/
structure ExtensionUpdate (T : Payloads) where
  generation : ℕ
  snapshot : Option (ExtensionSnapshot T)
  effects : List (ExtensionId × AuthorizedHostOperation)
  invalidatedViews : List CanonicalId
  circuitNotices : List CircuitNotice

/-- What has become of a build; `update` is there where it has been applied. -/
structure DevReloadOutcome (T : Payloads) where
  sessionId : String
  buildSequence : ℕ
  outcome : String
  engineGeneration : ℕ
  diagnosticCode : String
  message : String
  update : Option (ExtensionUpdate T)

/-- `DevReloadOutcome::applied`. -/
def DevReloadOutcome.applied {T : Payloads} (request : DevReloadRequest) (engineGeneration : ℕ)
    (message : String) (update : Option (ExtensionUpdate T)) : DevReloadOutcome T :=
  ⟨request.sessionId, request.buildSequence, "applied", engineGeneration, "OK", message, update⟩

/-- `DevReloadOutcome::rejected`. -/
def DevReloadOutcome.rejected {T : Payloads} (request : DevReloadRequest) (engineGeneration : ℕ)
    (diagnosticCode message : String) : DevReloadOutcome T :=
  ⟨request.sessionId, request.buildSequence, "rejected", engineGeneration, diagnosticCode, message,
    none⟩

/-! ### Surroundings -/

/-- An extension of the catalog, as far as it matters here. -/
structure InstalledExtension where
  packageDir : String
  manifest : ExtensionManifest
  grants : List Capability

/-- What the catalog and the files say while a call lasts. -/
structure Files where
  /-- `ExtensionCatalog::installed`. -/
  installed : Except String (List InstalledExtension)
  /-- `development_registrations`: where extensions are developed, and what is wrong with the rest. -/
  developmentRegistrations : List (ExtensionId × String) × List String
  /-- `ExtensionCatalog::load_grants`. -/
  loadGrants : ExtensionId → Except String (List Capability)
  /-- `compute_fingerprint`. -/
  computeFingerprint : String → ExtensionManifest → ℕ
  /-- `catalog_mtime`. -/
  catalogMtime : Option ℕ
  /-- `fs::read_to_string`. -/
  readToString : String → Except String String
  /-- `fs::read`. -/
  read : String → Except String (List UInt8)
  /-- `Path::canonicalize`. -/
  canonicalize : String → Except String String
  isDir : String → Bool
  isFile : String → Bool

/-- The runtime of guests, with what the engine asks of it beside the host. -/
structure EngineRuntime (T : Payloads) (ρ : Type) extends ExtensionRuntime T ρ where
  compileModule : ρ → List UInt8 → Except String T.Module
  validateModule : ρ → ExtensionId → T.Module → RuntimeBudget → List Capability →
    List Capability → Except RuntimeError Unit × ρ

/-- The runtime of scripts with states `σ`. -/
structure ScriptRuntime (T : Payloads) (σ : Type) where
  tick : σ → Bool × σ
  reconcile : σ → List ExtensionId → σ
  shutdown : σ → σ
  views : σ → List (CanonicalId × T.View)
  diagnostics : σ → List String

/-- What does not change while the engine runs. -/
structure EngineEnv (T : Payloads) (ρ σ : Type) where
  host : HostEnv T
  runtime : EngineRuntime T ρ
  scripts : ScriptRuntime T σ
  /-- `ExtensionManifest::from_toml`. -/
  fromToml : String → Except ManifestError ExtensionManifest
  /-- The version is above that of the shell, `CURRENT_SHILPO_VERSION`. -/
  aboveShilpo : Version → Bool
  /-- What the clock says in the `n`-th call of the host. -/
  clock : ℕ → ClockReadings
  /-- The order in which a map gives its entries. -/
  arrange : {α : Type} → List α → List α
  arrange_perm : ∀ {α : Type} (l : List α), (arrange l).Perm l

/-- `Path::join`. -/
def join (root name : String) : String := root ++ "/" ++ name

end Shilpo.Engine
