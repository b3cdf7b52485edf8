import Shilpo.Config.Recovery
import Shilpo.Config.Sources
import Shilpo.Config.UnknownKeys

/-!
# The resolver

`ConfigResolver` of `desktop/shilpo/src/config/resolver.rs`: the documents of a
configuration are merged over the defaults and read as a configuration, which is taken as
it is, repaired or rejected. `resolve_reload` does so beside the configuration in use, and
reports what has changed by a `ConfigChangeSet` (`changeset.rs`).

The change set compares eleven of the sections, and leaves out `idle`, `lock` and
`keybindings`: a reload that changes nothing else reports no change
(`lock_change_unreported`). `reload_safe_iff` says when it reports what it should.
-/

namespace Shilpo.Config

open Theory

/-! ### Changes -/

/-- Which sections have changed. -/
structure ConfigChangeSet where
  theme : Bool
  bar : Bool
  desktop : Bool
  extensions : Bool
  outputs : Bool
  startup : Bool
  capture : Bool
  clipboard : Bool
  clockFormat : Bool
  temperatureUnit : Bool
  locale : Bool
  deriving DecidableEq

namespace ConfigChangeSet

/-- No change. -/
def default : ConfigChangeSet :=
  ⟨false, false, false, false, false, false, false, false, false, false, false⟩

/-- Whether there is no change. -/
def isEmpty (c : ConfigChangeSet) : Bool :=
  !c.theme && !c.bar && !c.desktop && !c.extensions && !c.outputs && !c.startup && !c.capture &&
    !c.clipboard && !c.clockFormat && !c.temperatureUnit && !c.locale

/-- The sections that two configurations differ in. -/
def compute (old new : ShellConfig) : ConfigChangeSet where
  theme := old.theme != new.theme
  bar := old.bar != new.bar
  desktop := old.desktop != new.desktop
  extensions := old.extensions != new.extensions
  outputs := old.outputs != new.outputs
  startup := old.startup != new.startup
  capture := old.capture != new.capture
  clipboard := old.clipboard != new.clipboard
  clockFormat := old.clockFormat != new.clockFormat
  temperatureUnit := old.temperatureUnit != new.temperatureUnit
  locale := old.locale != new.locale

end ConfigChangeSet

/-- The sections that are compared are equal. -/
structure ComparedEqual (old new : ShellConfig) : Prop where
  theme : old.theme == new.theme
  bar : old.bar == new.bar
  desktop : old.desktop == new.desktop
  extensions : old.extensions == new.extensions
  outputs : old.outputs == new.outputs
  startup : old.startup == new.startup
  capture : old.capture == new.capture
  clipboard : old.clipboard == new.clipboard
  clockFormat : old.clockFormat == new.clockFormat
  temperatureUnit : old.temperatureUnit == new.temperatureUnit
  locale : old.locale == new.locale

/-- The sections that are not compared are equal. -/
structure OmittedEqual (old new : ShellConfig) : Prop where
  idle : old.idle == new.idle
  lock : old.lock == new.lock
  keybindings : old.keybindings == new.keybindings

theorem isEmpty_compute {old new : ShellConfig} :
    (ConfigChangeSet.compute old new).isEmpty = true ↔ ComparedEqual old new := by
  simp only [ConfigChangeSet.isEmpty, ConfigChangeSet.compute, bne, Bool.not_not,
    Bool.and_eq_true]
  constructor
  · rintro ⟨⟨⟨⟨⟨⟨⟨⟨⟨⟨h1, h2⟩, h3⟩, h4⟩, h5⟩, h6⟩, h7⟩, h8⟩, h9⟩, h10⟩, h11⟩
    exact ⟨h1, h2, h3, h4, h5, h6, h7, h8, h9, h10, h11⟩
  · rintro ⟨h1, h2, h3, h4, h5, h6, h7, h8, h9, h10, h11⟩
    exact ⟨⟨⟨⟨⟨⟨⟨⟨⟨⟨h1, h2⟩, h3⟩, h4⟩, h5⟩, h6⟩, h7⟩, h8⟩, h9⟩, h10⟩, h11⟩

/-- Configurations are equal by their versions, the sections that are compared and those that are
not. -/
theorem ShellConfig.beq_iff {old new : ShellConfig} :
    (old == new) = true ↔
      old.version = new.version ∧ ComparedEqual old new ∧ OmittedEqual old new := by
  have hfields : (old == new) = (old.version == new.version && (old.theme == new.theme &&
      (old.bar == new.bar && (old.desktop == new.desktop && (old.extensions == new.extensions &&
      (old.outputs == new.outputs && (old.clockFormat == new.clockFormat &&
      (old.temperatureUnit == new.temperatureUnit && (old.locale == new.locale &&
      (old.startup == new.startup && (old.capture == new.capture &&
      (old.clipboard == new.clipboard && (old.idle == new.idle && (old.lock == new.lock &&
      old.keybindings == new.keybindings)))))))))))))) := rfl
  rw [hfields]
  simp only [Bool.and_eq_true]
  constructor
  · rintro ⟨h, h1, h2, h3, h4, h5, h9, h10, h11, h6, h7, h8, h12, h13, h14⟩
    exact ⟨eq_of_beq h, ⟨h1, h2, h3, h4, h5, h6, h7, h8, h9, h10, h11⟩, ⟨h12, h13, h14⟩⟩
  · rintro ⟨h, ⟨h1, h2, h3, h4, h5, h6, h7, h8, h9, h10, h11⟩, ⟨h12, h13, h14⟩⟩
    exact ⟨beq_of_eq h, h1, h2, h3, h4, h5, h9, h10, h11, h6, h7, h8, h12, h13, h14⟩

/-! ### Candidates -/

/-- What the resolver uses: the upper case of a character, the TOML library (its parser, the
document of a configuration, and the configuration of a document), and the removal of unknown
keys. -/
structure Library where
  toUppercase : Char → String
  parseToml : String → Except TomlError Document
  renderConfig : ShellConfig → Document
  readConfig : Document → Except TomlError ShellConfig
  sanitizeDocument : Document → ConfigSource → String → Document × List UnknownConfigKey

/-- The documents that have been merged, and what is noted of them. -/
structure Merged where
  document : Document
  provenance : ConfigProvenance
  sourcesLoaded : List ConfigSource
  unknownKeys : List UnknownConfigKey

/-- A configuration that has been read, and what is noted of it. -/
structure Candidate where
  config : ShellConfig
  provenance : ConfigProvenance
  sourcesLoaded : List ConfigSource
  unknownKeys : List UnknownConfigKey

/-- What is reported of a configuration. -/
structure ResolutionReport where
  diagnostics : List ConfigDiagnostic
  recoveryScope : Option RecoveryScope
  sourcesLoaded : List ConfigSource
  unknownKeys : List UnknownConfigKey

/-- Where the configuration is. -/
structure ConfigResolver where
  configDir : String
  primaryPath : String

/-- The configuration of a directory. -/
def ConfigResolver.new (configDir : String) : ConfigResolver :=
  ⟨configDir, joinPath configDir "config.toml"⟩

section

variable (lib : Library)

/-- The document of the defaults. -/
def initialMergedDocument : Document × ConfigProvenance :=
  let doc := lib.renderConfig .default
  (doc, recordProvenanceTree ⟨.defaults, none, none⟩ (.table doc.entries) "" .new)

/-- A document over those before it. -/
def mergeLoadedSource (merged : Merged) (loaded : LoadedSource) : Merged :=
  let (doc, warnings) := lib.sanitizeDocument loaded.doc loaded.source loaded.text
  let (document, provenance) :=
    mergeDocument loaded.source loaded.text merged.document doc merged.provenance
  { document
    provenance
    sourcesLoaded := merged.sourcesLoaded ++ [loaded.source]
    unknownKeys := merged.unknownKeys ++ warnings }

/-- All documents over the defaults. -/
def mergeLoadedSources (loaded : List LoadedSource) : Merged :=
  let (document, provenance) := initialMergedDocument lib
  loaded.foldl (mergeLoadedSource lib) ⟨document, provenance, [.defaults], []⟩

/-- The defaults, as a configuration in use. -/
def ConfigSnapshot.default : ConfigSnapshot := ⟨.default, (initialMergedDocument lib).2⟩

namespace ConfigResolver

variable (fs : FileSystem) (resolver : ConfigResolver)

/-- The documents that there are. -/
def loadSourceDocuments : Except ConfigError (List LoadedSource) := do
  let discovered ← fs.tryDiscoverSources resolver.configDir resolver.primaryPath
  let loaded ← discovered.mapM (loadSource lib.parseToml fs)
  return loaded.reduceOption

/-- The configuration of a document. -/
def parseMerged (doc : Document) : Except ConfigError ShellConfig :=
  tomlAt resolver.primaryPath (lib.readConfig doc)

/-- The configuration of the documents, whether valid or not. -/
def resolveCandidate : Except ConfigError Candidate := do
  let loaded ← resolver.loadSourceDocuments lib fs
  let merged := mergeLoadedSources lib loaded
  let config ← resolver.parseMerged lib merged.document
  return ⟨config, merged.provenance, merged.sourcesLoaded, merged.unknownKeys⟩

/-- The configuration that the shell starts with: what is wrong is replaced by the defaults. -/
def resolveInitial : Except ConfigError (ConfigSnapshot × ResolutionReport) := do
  let candidate ← resolver.resolveCandidate lib fs
  match candidate.config.validate lib.toUppercase with
  | .ok () =>
    return (⟨candidate.config, candidate.provenance⟩,
      ⟨[], none, candidate.sourcesLoaded, candidate.unknownKeys⟩)
  | .error (.validation diagnostics) =>
    let (snapshot, scope) :=
      applyScopedRecovery lib.toUppercase ⟨candidate.config, candidate.provenance⟩ (.default lib)
        diagnostics
    if scope = .rejectCandidate then .error (.validation diagnostics)
    else
      return (snapshot, ⟨diagnostics, some scope, candidate.sourcesLoaded, candidate.unknownKeys⟩)
  | .error other => .error other

/-- What is reported of an error. -/
def diagnosticOf : ConfigError → ConfigDiagnostic
  | .parse diagnostic => diagnostic
  | err => .new resolver.primaryPath err.text

/-- The configuration that the shell goes on with: what is wrong is as it was before, all of it if
the candidate is rejected. -/
def resolveReload (previous : ConfigSnapshot) :
    ConfigSnapshot × ConfigChangeSet × ResolutionReport :=
  match resolver.resolveCandidate lib fs with
  | .error err =>
    (previous, .default, ⟨[resolver.diagnosticOf err], some .rejectCandidate, [], []⟩)
  | .ok candidate =>
    match candidate.config.validate lib.toUppercase with
    | .ok () =>
      (⟨candidate.config, candidate.provenance⟩, .compute previous.config candidate.config,
        ⟨[], none, candidate.sourcesLoaded, candidate.unknownKeys⟩)
    | .error (.validation diagnostics) =>
      let (snapshot, scope) :=
        applyScopedRecovery lib.toUppercase ⟨candidate.config, candidate.provenance⟩ previous
          diagnostics
      if scope = .rejectCandidate then
        (previous, .default,
          ⟨diagnostics, some .rejectCandidate, candidate.sourcesLoaded, candidate.unknownKeys⟩)
      else
        (snapshot, .compute previous.config snapshot.config,
          ⟨diagnostics, some scope, candidate.sourcesLoaded, candidate.unknownKeys⟩)
    | .error other =>
      (previous, .default,
        ⟨[.new resolver.primaryPath other.text], some .rejectCandidate, candidate.sourcesLoaded,
          candidate.unknownKeys⟩)

end ConfigResolver

/-! ### What a reload goes on with -/

/-- What becomes of a configuration that has been read: none if it is rejected, or else itself with
what is wrong taken from the one before. -/
def accepted (previous candidate : ShellConfig) : Option ShellConfig :=
  let diagnostics := candidate.diagnostics lib.toUppercase
  let config := repaired candidate previous diagnostics
  if diagnostics.any (classifyDiagnostic · = .rejectCandidate) then none
  else if config.diagnostics lib.toUppercase = [] then some config
  else none

theorem repaired_nil (candidate fallback : ShellConfig) :
    repaired candidate fallback [] = candidate := by
  simp [repaired, Rejects, Retains]

theorem diagnostics_accepted {previous candidate config : ShellConfig}
    (h : accepted lib previous candidate = some config) :
    config.diagnostics lib.toUppercase = [] := by
  simp only [accepted] at h
  split_ifs at h with hreject hvalid
  cases h
  exact hvalid

/-- Where something is accepted, it is what recovery ends with. -/
theorem applyScopedRecovery_of_some (candidate fallback : ConfigSnapshot) {config : ShellConfig}
    (h : accepted lib fallback.config candidate.config = some config) :
    (applyScopedRecovery lib.toUppercase candidate fallback
        (candidate.config.diagnostics lib.toUppercase)).1.config = config ∧
      (applyScopedRecovery lib.toUppercase candidate fallback
        (candidate.config.diagnostics lib.toUppercase)).2 ≠ .rejectCandidate := by
  have hvalid := diagnostics_accepted lib h
  simp only [accepted] at h
  split_ifs at h with hreject
  cases h
  unfold applyScopedRecovery
  rw [if_neg hreject]
  simp only [config_recover, (ShellConfig.validate_eq_ok _).mpr hvalid, true_and]
  split_ifs <;> decide

/-- Where nothing is, recovery rejects. -/
theorem applyScopedRecovery_of_none (candidate fallback : ConfigSnapshot)
    (h : accepted lib fallback.config candidate.config = none) :
    (applyScopedRecovery lib.toUppercase candidate fallback
      (candidate.config.diagnostics lib.toUppercase)).2 = .rejectCandidate := by
  simp only [accepted] at h
  unfold applyScopedRecovery
  split_ifs at h with hreject hvalid
  · rw [if_pos hreject]
  · rw [if_neg hreject]
    simp only [config_recover, ShellConfig.validate, if_neg hvalid]

section

variable (fs : FileSystem) (resolver : ConfigResolver) (previous : ConfigSnapshot)

/-- What a reload goes on with: none if it goes on as before. -/
def reloaded : Option ShellConfig :=
  match resolver.resolveCandidate lib fs with
  | .error _ => none
  | .ok candidate => accepted lib previous.config candidate.config

theorem diagnostics_reloaded {config : ShellConfig}
    (h : reloaded lib fs resolver previous = some config) :
    config.diagnostics lib.toUppercase = [] := by
  unfold reloaded at h
  split at h
  · cases h
  · exact diagnostics_accepted lib h

theorem resolveReload_of_none (h : reloaded lib fs resolver previous = none) :
    ∃ report : ResolutionReport, report.recoveryScope = some .rejectCandidate ∧
      resolver.resolveReload lib fs previous = (previous, .default, report) := by
  unfold reloaded at h
  unfold ConfigResolver.resolveReload
  cases hcandidate : resolver.resolveCandidate lib fs with
  | error err => exact ⟨_, rfl, rfl⟩
  | ok candidate =>
    simp only [hcandidate] at h
    have hscope :=
      applyScopedRecovery_of_none lib ⟨candidate.config, candidate.provenance⟩ previous h
    by_cases hvalid : candidate.config.diagnostics lib.toUppercase = []
    · simp [accepted, hvalid, repaired_nil] at h
    · simp only [ShellConfig.validate, if_neg hvalid, hscope, if_true]
      exact ⟨_, rfl, rfl⟩

theorem resolveReload_of_some {config : ShellConfig}
    (h : reloaded lib fs resolver previous = some config) :
    ∃ (provenance : ConfigProvenance) (report : ResolutionReport),
      report.recoveryScope ≠ some .rejectCandidate ∧
      resolver.resolveReload lib fs previous =
        (⟨config, provenance⟩, .compute previous.config config, report) := by
  unfold reloaded at h
  unfold ConfigResolver.resolveReload
  cases hcandidate : resolver.resolveCandidate lib fs with
  | error err =>
    rw [hcandidate] at h
    cases h
  | ok candidate =>
    simp only [hcandidate] at h
    by_cases hvalid : candidate.config.diagnostics lib.toUppercase = []
    · simp only [accepted, hvalid, repaired_nil] at h
      cases h
      simp only [ShellConfig.validate, if_pos hvalid]
      exact ⟨_, _, by simp, rfl⟩
    · obtain ⟨hconfig, hscope⟩ :=
        applyScopedRecovery_of_some lib ⟨candidate.config, candidate.provenance⟩ previous h
      generalize hrecovery : applyScopedRecovery lib.toUppercase
        ⟨candidate.config, candidate.provenance⟩ previous
        (candidate.config.diagnostics lib.toUppercase) = recovery at hconfig hscope
      simp only [ShellConfig.validate, if_neg hvalid, hrecovery, if_neg hscope]
      rw [← hconfig]
      exact ⟨_, _, fun hreject => hscope (Option.some.inj hreject), rfl⟩

/-- What the shell starts with is valid. -/
theorem validate_resolveInitial {snapshot : ConfigSnapshot} {report : ResolutionReport}
    (h : resolver.resolveInitial lib fs = .ok (snapshot, report)) :
    snapshot.config.validate lib.toUppercase = .ok () := by
  obtain ⟨candidate, -, h⟩ := bind_eq_ok.mp h
  by_cases hvalid : candidate.config.diagnostics lib.toUppercase = []
  · simp only [ShellConfig.validate, if_pos hvalid] at h
    cases h
    exact (ShellConfig.validate_eq_ok _).mpr hvalid
  · simp only [ShellConfig.validate, if_neg hvalid] at h
    split_ifs at h with hscope
    cases haccepted : accepted lib (ConfigSnapshot.default lib).config candidate.config with
    | none =>
      exact absurd (applyScopedRecovery_of_none lib ⟨candidate.config, candidate.provenance⟩
        (.default lib) haccepted) hscope
    | some config =>
      obtain ⟨hconfig, -⟩ := applyScopedRecovery_of_some lib
        ⟨candidate.config, candidate.provenance⟩ (.default lib) haccepted
      generalize applyScopedRecovery lib.toUppercase ⟨candidate.config, candidate.provenance⟩
        (.default lib) (candidate.config.diagnostics lib.toUppercase) = recovery at h hconfig
      cases h
      rw [hconfig]
      exact (ShellConfig.validate_eq_ok _).mpr (diagnostics_accepted lib haccepted)

/-! ### Safety -/

/-- A reload goes on with a valid configuration, with the one before if it rejects the candidate,
and reports no change exactly if there is none; and the shell starts with a valid one. -/
structure ReloadSafe : Prop where
  valid : (resolver.resolveReload lib fs previous).1.config.validate lib.toUppercase = .ok ()
  rejected :
    (resolver.resolveReload lib fs previous).2.2.recoveryScope = some .rejectCandidate →
      (resolver.resolveReload lib fs previous).1 = previous
  reported : (resolver.resolveReload lib fs previous).2.1.isEmpty = true ↔
    (previous.config == (resolver.resolveReload lib fs previous).1.config) = true
  initial : ∀ (snapshot : ConfigSnapshot) (report : ResolutionReport),
    resolver.resolveInitial lib fs = .ok (snapshot, report) →
      snapshot.config.validate lib.toUppercase = .ok ()

/-- Where the candidate is rejected, the configuration before equals itself: no number in it is
NaN. Where it is not, the sections that are left out are as before if all others are. -/
def Reported : Prop :=
  match reloaded lib fs resolver previous with
  | none => previous.config == previous.config
  | some config => ComparedEqual previous.config config → OmittedEqual previous.config config

theorem isEmpty_default : ConfigChangeSet.default.isEmpty = true := rfl

theorem version_of_validate {config : ShellConfig} (h : config.diagnostics lib.toUppercase = []) :
    config.version = latestConfigVersion := by
  by_contra hversion
  simp [ShellConfig.diagnostics, check, hversion] at h

/-- **Reload safety.** A reload from a valid configuration is safe exactly if what has changed is
in a section that is compared. -/
theorem reload_safe_iff (h : previous.config.validate lib.toUppercase = .ok ()) :
    ReloadSafe lib fs resolver previous ↔ Reported lib fs resolver previous := by
  unfold Reported
  cases hreloaded : reloaded lib fs resolver previous with
  | none =>
    obtain ⟨report, hscope, hreload⟩ := resolveReload_of_none lib fs resolver previous hreloaded
    constructor
    · intro hsafe
      have hreported := hsafe.reported
      rw [hreload] at hreported
      exact hreported.mp isEmpty_default
    · intro hself
      constructor
      · rw [hreload]
        exact h
      · intro _
        rw [hreload]
      · rw [hreload]
        exact iff_of_true isEmpty_default hself
      · exact fun snapshot report => validate_resolveInitial lib fs resolver
  | some config =>
    obtain ⟨provenance, report, hscope, hreload⟩ :=
      resolveReload_of_some lib fs resolver previous hreloaded
    have hvalid := diagnostics_reloaded lib fs resolver previous hreloaded
    have hversion : previous.config.version = config.version := by
      rw [version_of_validate lib hvalid,
        version_of_validate lib ((ShellConfig.validate_eq_ok _).mp h)]
    have hreported : ((resolver.resolveReload lib fs previous).2.1.isEmpty = true ↔
        (previous.config == (resolver.resolveReload lib fs previous).1.config) = true) ↔
        (ComparedEqual previous.config config → OmittedEqual previous.config config) := by
      rw [hreload, isEmpty_compute, ShellConfig.beq_iff]
      exact ⟨fun hiff hcompared => (hiff.mp hcompared).2.2,
        fun homitted => ⟨fun hcompared => ⟨hversion, hcompared, homitted hcompared⟩,
          fun hequal => hequal.2.1⟩⟩
    constructor
    · exact fun hsafe => hreported.mp hsafe.reported
    · intro homitted
      constructor
      · rw [hreload]
        exact (ShellConfig.validate_eq_ok _).mpr hvalid
      · rw [hreload]
        exact fun hreject => absurd hreject hscope
      · exact hreported.mpr homitted
      · exact fun snapshot report => validate_resolveInitial lib fs resolver

end

end

/-! ### A change that is not reported -/

/-- The document of the defaults. -/
def defaultDocument : Document where
  entries :=
    [("version", .scalar (.integer 1)), ("keybindings", .array []),
      ("theme", .table
        [("font_family", .scalar (.string "sans-serif")),
          ("corner_radius_scale", .scalar (.float 0x3FF0000000000000)),
          ("high_contrast", .scalar (.boolean false)),
          ("reduced_motion", .scalar (.boolean false)),
          ("transition_duration_ms", .scalar (.integer 300))]),
      ("bar", .table
        [("position", .scalar (.string "Top")), ("style", .scalar (.string "Hug")),
          ("height", .scalar (.integer 48)), ("padding", .scalar (.integer 8)),
          ("widget_spacing", .scalar (.integer 6)),
          ("opacity", .scalar (.float 0x3FED70A3D70A3D71)),
          ("margin", .table
            [("horizontal", .scalar (.integer 8)), ("vertical", .scalar (.integer 8))]),
          ("widgets", .table
            [("start", .array
                [.scalar (.string "builtin:workspaces"), .scalar (.string "builtin:running_apps")]),
              ("center", .array
                [.scalar (.string "builtin:clock"), .scalar (.string "builtin:date"),
                  .scalar (.string "builtin:media")]),
              ("end", .array
                [.scalar (.string "builtin:sysinfo"), .scalar (.string "builtin:network"),
                  .scalar (.string "builtin:bluetooth"), .scalar (.string "builtin:caffeine"),
                  .scalar (.string "builtin:audio"), .scalar (.string "builtin:battery"),
                  .scalar (.string "builtin:settings")])])]),
      ("desktop", .table
        [("widgets", .array []), ("wallpaper_dir", .scalar (.string "~/Pictures/Wallpapers"))]),
      ("extensions", .table [("settings", .table [])]),
      ("outputs", .table []),
      ("startup", .table
        [("autostart_apps", .array []), ("compositor_wait_timeout_ms", .scalar (.integer 3000))]),
      ("capture", .table
        [("screenshot_dir", .scalar (.string "~/Pictures/Screenshots")),
          ("show_pointer", .scalar (.boolean true)),
          ("default_selection", .scalar (.string "rectangle"))]),
      ("clipboard", .table [("history_limit", .scalar (.integer 100))]),
      ("idle", .table
        [("grace_seconds", .scalar (.float 0x4000000000000000)),
          ("behaviors", .table
            [("lock", .table
                [("enabled", .scalar (.boolean true)),
                  ("timeout_seconds", .scalar (.float 0x4082C00000000000)),
                  ("action", .scalar (.string "lock")),
                  ("lock_before_suspend", .scalar (.boolean false)),
                  ("resume_command", .scalar (.string ""))]),
              ("screen-off", .table
                [("enabled", .scalar (.boolean false)),
                  ("timeout_seconds", .scalar (.float 0x4084A00000000000)),
                  ("action", .scalar (.string "screen_off")),
                  ("lock_before_suspend", .scalar (.boolean false)),
                  ("resume_command", .scalar (.string ""))]),
              ("suspend", .table
                [("enabled", .scalar (.boolean false)),
                  ("timeout_seconds", .scalar (.float 0x409C200000000000)),
                  ("action", .scalar (.string "suspend")),
                  ("lock_before_suspend", .scalar (.boolean true)),
                  ("resume_command", .scalar (.string ""))])])]),
      ("lock", .table
        [("pam_service", .scalar (.string "login")), ("lock_on_suspend", .scalar (.boolean true)),
          ("show_clock", .scalar (.boolean true)),
          ("clear_input_after_seconds", .scalar (.integer 10))])]
  wellFormed := by
    simp [Item.WellFormed, EntriesWellFormed, ValuesWellFormed, Item.isValue]

/-- Whether the lock screen of a document shows the clock. -/
def readShowClock (doc : Document) : Bool :=
  match doc.entries.lookup "lock" with
  | some (.table entries) =>
    match entries.lookup "show_clock" with
    | some (.scalar (.boolean value)) => value
    | _ => true
  | _ => true

/-- The library where nothing but this is set. -/
def clockLibrary : Library where
  toUppercase c := String.singleton c.toUpper
  parseToml _ :=
    .ok ⟨[("lock", .table [("show_clock", .scalar (.boolean false))])],
      by simp [Item.WellFormed, EntriesWellFormed]⟩
  renderConfig _ := defaultDocument
  readConfig doc :=
    .ok { ShellConfig.default with
      lock := { ShellConfig.default.lock with showClock := readShowClock doc } }
  sanitizeDocument doc _ _ := (doc, [])

/-- The files, where there is none but perhaps `config.toml`. -/
def filesWith (configToml : Option String) : FileSystem where
  metadata path :=
    match configToml with
    | some text =>
      if path = "/etc/shilpo/config.toml" then .ok ⟨true, byteLength text.toList⟩
      else .error ⟨true, "not found"⟩
    | none => .error ⟨true, "not found"⟩
  readDir _ := .error ⟨true, "not found"⟩
  readToString path :=
    match configToml with
    | some text =>
      if path = "/etc/shilpo/config.toml" then .ok text else .error ⟨true, "not found"⟩
    | none => .error ⟨true, "not found"⟩

/-- Beside no file at all, a reload is safe. -/
theorem reload_safe_of_no_file :
    ReloadSafe clockLibrary (filesWith none) (.new "/etc/shilpo") (.default clockLibrary) :=
  (reload_safe_iff clockLibrary (filesWith none) (.new "/etc/shilpo") (.default clockLibrary)
    (ShellConfig.validate_default _)).mpr fun _ => ⟨by decide, by decide, by decide⟩

/-- The clock of the lock screen is turned off, and no change is reported. -/
theorem lock_change_unreported :
    (ConfigSnapshot.default clockLibrary).config.validate clockLibrary.toUppercase = .ok () ∧
      ¬ ReloadSafe clockLibrary (filesWith (some "[lock]\nshow_clock = false\n"))
        (.new "/etc/shilpo") (.default clockLibrary) := by
  refine ⟨ShellConfig.validate_default _, fun hsafe => ?_⟩
  have hempty := hsafe.reported.mp (by decide)
  revert hempty
  decide

end Shilpo.Config
