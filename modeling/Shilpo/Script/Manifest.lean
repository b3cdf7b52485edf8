import Shilpo.Extensions.Manifest

/-!
# Manifests of script bundles

`desktop/ext-runtime/src/script/manifest.rs`: what the `manifest.toml` of a bundle says, and the
check that it passes before the bundle is run. A bundle is a directory of the user's; that its
executable is there, and is in it, is looked up on the disk. Reading TOML is a library's:
`ManifestFile` holds what comes of it.
-/

namespace Shilpo.Script

open Config (PathBuf)
open Extensions

/-! ### Manifests -/

def scriptSchemaVersion : ℕ := 1

/-- A script is run at intervals, or once and for as long as it runs. -/
inductive ScriptMode where
  | poll
  | stream
  deriving DecidableEq

structure ScriptRuntimeConfig where
  mode : ScriptMode
  executable : String
  args : List String
  intervalMs : Option ℕ
  timeoutMs : ℕ
  deriving DecidableEq

structure ScriptBarWidgetContribution where
  id : ContributionId
  name : String
  description : Option String
  deriving DecidableEq

structure ScriptContributions where
  barWidgets : List ScriptBarWidgetContribution
  deriving DecidableEq

structure ScriptManifest where
  schemaVersion : ℕ
  id : ExtensionId
  name : String
  version : Version
  runtime : ScriptRuntimeConfig
  contributions : ScriptContributions
  deriving DecidableEq

inductive ScriptManifestError where
  | parse (message : String)
  | validation (message : String)
  deriving DecidableEq

def ScriptManifestError.display : ScriptManifestError → String
  | .parse message => s!"script manifest parse error: {message}"
  | .validation message => s!"script manifest validation error: {message}"

/-! ### Bundles on the disk -/

/-- What a path of a bundle leads to. -/
inductive BundleEntry where
  | missing
  /-- Something that is not a regular file. -/
  | irregular
  /-- A regular file; `inside` says whether it is in the bundle once links are followed, where
  they can be. -/
  | file (inside : Option Bool)
  deriving DecidableEq

/-- What stands at the `manifest.toml` of a bundle. -/
inductive ManifestFile where
  /-- No regular file. -/
  | absent
  | unreadable (error : String)
  /-- A text, and what it is as TOML. -/
  | toml (parsed : Except String ScriptManifest)

/-- A directory that can be a bundle; what is not listed in it is missing. -/
structure BundleDirectory where
  manifestFile : ManifestFile
  entries : AList fun _ : String => BundleEntry

def BundleDirectory.entry (dir : BundleDirectory) (path : String) : BundleEntry :=
  (dir.entries.lookup path).getD .missing

/-! ### The check -/

/-- The first widget's name that is in `seen` or an earlier widget's. -/
def duplicateContribution : List ContributionId → List ScriptBarWidgetContribution →
    Option ContributionId
  | _, [] => none
  | seen, widget :: rest =>
    if widget.id ∈ seen then some widget.id
    else duplicateContribution (widget.id :: seen) rest

namespace ScriptManifest

/-- The executable is named by a path that stays in the bundle. -/
def validatePath (exec : String) : Except String Unit :=
  if exec.isEmpty then .error "executable path cannot be empty"
  else if exec.toList.contains '\x00' then .error "executable path contains NUL byte"
  else if (PathBuf.mk exec).components.1 then .error s!"executable path '{exec}' must be relative"
  else if (PathBuf.mk exec).components.2.contains ['.', '.'] then
    .error s!"executable path '{exec}' cannot contain '..'"
  else .ok ()

/-- The executable is a regular file of the bundle. -/
def validateFile (root : PathBuf) (exec : String) : BundleEntry → Except String Unit
  | .missing => .error s!"executable file '{root.text}/{exec}' does not exist in bundle root"
  | .irregular => .error s!"executable path '{root.text}/{exec}' is not a regular file"
  | .file none => .error "failed to canonicalize bundle paths"
  | .file (some false) => .error s!"executable path '{exec}' escapes bundle root via symlink"
  | .file (some true) => .ok ()

def validateContributions (widgets : List ScriptBarWidgetContribution) : Except String Unit :=
  if widgets.isEmpty then .error "bundle must declare at least one bar_widget contribution"
  else
    match duplicateContribution [] widgets with
    | some id => .error s!"duplicate contribution ID '{id.text}'"
    | none => .ok ()

def validateTimes (runtime : ScriptRuntimeConfig) : Except String Unit :=
  if ¬ (100 ≤ runtime.timeoutMs ∧ runtime.timeoutMs ≤ 60000) then
    .error s!"timeout_ms must be between 100 and 60,000 (got {runtime.timeoutMs})"
  else
    match runtime.mode, runtime.intervalMs with
    | .poll, none => .error "interval_ms is required for poll mode"
    | .poll, some interval =>
      if ¬ (1000 ≤ interval ∧ interval ≤ 86400000) then
        .error s!"interval_ms must be between 1,000 and 86,400,000 (got {interval})"
      else if interval ≤ runtime.timeoutMs then
        .error (s!"timeout_ms ({runtime.timeoutMs}) must be strictly less than interval_ms " ++
          s!"({interval})")
      else .ok ()
    | .stream, some _ => .error "interval_ms is not permitted for stream mode"
    | .stream, none => .ok ()

def validate (manifest : ScriptManifest) (root : PathBuf) (dir : BundleDirectory) :
    Except ScriptManifestError Unit :=
  Except.mapError .validation <| do
    if manifest.schemaVersion ≠ scriptSchemaVersion then
      .error s!"unsupported schema_version {manifest.schemaVersion}; expected 1"
    validatePath manifest.runtime.executable
    validateFile root manifest.runtime.executable (dir.entry manifest.runtime.executable)
    validateContributions manifest.contributions.barWidgets
    validateTimes manifest.runtime

end ScriptManifest

/-- The manifest of a bundle, read and checked. -/
def parseAndValidateBundle (root : PathBuf) (dir : BundleDirectory) :
    Except String ScriptManifest :=
  match dir.manifestFile with
  | .absent => .error "failed to read manifest: not a file"
  | .unreadable error => .error s!"failed to read manifest: {error}"
  | .toml (.error error) => .error (ScriptManifestError.parse error).display
  | .toml (.ok manifest) =>
    match manifest.validate root dir with
    | .error error => .error error.display
    | .ok () => .ok manifest

end Shilpo.Script
