import Shilpo.Idle.Types

/-!
# The shell's configuration

`desktop/shilpo/src/config/types.rs`: the sections of the configuration, their defaults,
and the comparison the source derives for them, field by field, with numbers compared as
`f32` and `f64`. An `f32` is a `Float32` and an `f64` a `Float`. A `HashMap` is a
`BTreeMap`: nothing depends on the order in which its entries are visited but that of
the diagnostics.
-/

namespace Shilpo.Config

open Theory

/-! ### Paths and JSON -/

/-- A path of the file system. -/
structure PathBuf where
  text : String
  deriving DecidableEq

/-- Whether a path is absolute, and its components: empty ones are left out, and so is a dot but
for one that a relative path begins with. -/
def PathBuf.components (p : PathBuf) : Bool × List (List Char) :=
  let parts := (p.text.toList.splitOn '/').filter (· ≠ [])
  if p.text.toList.head? = some '/' then (true, parts.filter (· ≠ ['.']))
  else
    match parts with
    | [] => (false, [])
    | first :: rest => (false, first :: rest.filter (· ≠ ['.']))

/-- Paths are compared by their components. -/
instance : BEq PathBuf := ⟨fun a b => a.components == b.components⟩

/-- A number of a JSON text. -/
inductive JsonNumber where
  | posInt (n : ℕ)
  | negInt (n : ℤ)
  | float (x : Float)
  deriving BEq

/-- A JSON value. -/
inductive JsonValue where
  | null
  | bool (b : Bool)
  | number (n : JsonNumber)
  | string (text : String)
  | array (elems : List JsonValue)
  | object (entries : List (String × JsonValue))

mutual

/-- The comparison of JSON values; objects are compared as maps. -/
def JsonValue.beq : JsonValue → JsonValue → Bool
  | .null, .null => true
  | .bool b, .bool b' => b == b'
  | .number n, .number n' => n == n'
  | .string text, .string text' => text == text'
  | .array elems, .array elems' => beqElems elems elems'
  | .object entries, .object entries' =>
    entries.length == entries'.length && beqEntries entries entries'
  | _, _ => false

/-- Element by element. -/
def beqElems : List JsonValue → List JsonValue → Bool
  | [], [] => true
  | v :: elems, v' :: elems' => v.beq v' && beqElems elems elems'
  | _, _ => false

/-- Each entry has its equal in the other map. -/
def beqEntries : List (String × JsonValue) → List (String × JsonValue) → Bool
  | [], _ => true
  | (k, v) :: entries, entries' =>
    (match entries'.lookup k with
      | some v' => v.beq v'
      | none => false) && beqEntries entries entries'

end

instance : BEq JsonValue := ⟨JsonValue.beq⟩

/-- A JSON object. -/
def JsonValue.isObject : JsonValue → Bool
  | .object _ => true
  | _ => false

/-! ### The bar -/

/-- Where the bar is. -/
inductive BarPosition where
  | top
  | bottom
  | left
  | right
  deriving DecidableEq

/-- How it is drawn. -/
inductive BarStyle where
  | hug
  | float
  | rect
  deriving DecidableEq

/-- A widget that comes with the shell. -/
inductive BuiltinBarWidget where
  | workspaces
  | runningApps
  | clock
  | date
  | media
  | sysinfo
  | network
  | bluetooth
  | caffeine
  | audio
  | battery
  | settings
  deriving DecidableEq

/-- The name of a contribution of an extension. -/
structure CanonicalId where
  extensionId : String
  contributionId : String
  deriving DecidableEq

/-- A widget of the bar. -/
inductive BarWidget where
  | builtin (widget : BuiltinBarWidget)
  | extension (id : CanonicalId)
  deriving DecidableEq

/-- The bar's margins. -/
structure BarMargin where
  horizontal : ℕ
  vertical : ℕ
  deriving DecidableEq

/-- The widgets in the three parts of the bar. -/
structure BarWidgets where
  start : List BarWidget
  center : List BarWidget
  «end» : List BarWidget
  deriving DecidableEq

/-- The bar. -/
structure BarConfig where
  position : BarPosition
  style : BarStyle
  height : ℕ
  padding : ℕ
  margin : BarMargin
  widgetSpacing : ℕ
  opacity : Float32
  exclusiveZone : Option ℕ
  widgets : BarWidgets
  deriving BEq

/-! ### The other sections -/

/-- The theme. -/
structure ThemeConfig where
  fontFamily : String
  headingFontFamily : Option String
  monoFontFamily : Option String
  cornerRadiusScale : Float32
  highContrast : Bool
  reducedMotion : Bool
  provider : Option String
  gtkThemeLight : Option String
  gtkThemeDark : Option String
  customAdapterCmd : Option (List String)
  transitionDurationMs : ℕ
  schemeVariant : Option String
  deriving BEq

/-- A widget on the desktop. -/
structure DesktopWidgetConfig where
  «instance» : String
  contribution : CanonicalId
  output : String
  x : ℤ
  y : ℤ
  width : ℕ
  height : ℕ
  settings : JsonValue
  deriving BEq

/-- The desktop. -/
structure DesktopConfig where
  widgets : List DesktopWidgetConfig
  wallpaperDir : PathBuf
  deriving BEq

/-- The extensions' settings. -/
structure ExtensionsConfig where
  settings : BTreeMap String JsonValue
  wallpaperProvider : Option CanonicalId
  deriving BEq

/-- What an output has in place of the bar's own settings. -/
structure OutputConfig where
  enabled : Bool
  scale : Option Float32
  position : Option BarPosition
  style : Option BarStyle
  height : Option ℕ
  padding : Option ℕ
  margin : Option BarMargin
  widgetSpacing : Option ℕ
  opacity : Option Float32
  exclusiveZone : Option ℕ
  widgets : Option BarWidgets
  deriving BEq

/-- What is started with the shell. -/
structure StartupConfig where
  autostartApps : List String
  compositorWaitTimeoutMs : ℕ
  deriving BEq

/-- Screenshots. -/
structure CaptureConfig where
  screenshotDir : PathBuf
  showPointer : Bool
  defaultSelection : String
  deriving BEq

/-- The clipboard. -/
structure ClipboardConfig where
  historyLimit : ℕ
  deriving BEq

/-- What is done when the user is idle, with the field that the idle domain does not read. -/
structure IdleBehaviorConfig where
  enabled : Bool
  timeoutSeconds : Float
  action : Idle.IdleAction
  lockBeforeSuspend : Bool
  resumeCommand : String
  deriving BEq

/-- Idling. -/
structure IdleConfig where
  graceSeconds : Float
  behaviors : BTreeMap String IdleBehaviorConfig
  deriving BEq

/-- The lock screen. -/
structure LockConfig where
  pamService : String
  lockOnSuspend : Bool
  showClock : Bool
  clearInputAfterSeconds : ℕ
  deriving BEq

/-- A key binding. -/
structure KeybindingConfig where
  action : String
  shortcut : Option String
  enabled : Bool
  deriving BEq

/-- The configuration. -/
structure ShellConfig where
  version : ℕ
  theme : ThemeConfig
  bar : BarConfig
  desktop : DesktopConfig
  extensions : ExtensionsConfig
  outputs : BTreeMap String OutputConfig
  clockFormat : Option String
  temperatureUnit : Option String
  locale : Option String
  startup : StartupConfig
  capture : CaptureConfig
  clipboard : ClipboardConfig
  idle : IdleConfig
  lock : LockConfig
  keybindings : List KeybindingConfig
  deriving BEq

/-! ### Defaults -/

/-- The version of the configurations that this program reads. -/
def latestConfigVersion : ℕ := 1

/-- The source's default. -/
def ThemeConfig.default : ThemeConfig where
  fontFamily := "sans-serif"
  headingFontFamily := none
  monoFontFamily := none
  cornerRadiusScale := 1.0
  highContrast := false
  reducedMotion := false
  provider := none
  gtkThemeLight := none
  gtkThemeDark := none
  customAdapterCmd := none
  transitionDurationMs := 300
  schemeVariant := none

/-- The source's default. -/
def BarConfig.default : BarConfig where
  position := .top
  style := .hug
  height := 48
  padding := 8
  margin := ⟨8, 8⟩
  widgetSpacing := 6
  opacity := 0.92
  exclusiveZone := none
  widgets :=
    { start := [.builtin .workspaces, .builtin .runningApps]
      center := [.builtin .clock, .builtin .date, .builtin .media]
      «end» :=
        [.builtin .sysinfo, .builtin .network, .builtin .bluetooth, .builtin .caffeine,
          .builtin .audio, .builtin .battery, .builtin .settings] }

/-- The source's default: lock, turn the screen off and suspend, of which only the first is
enabled. -/
def defaultIdleBehaviors : BTreeMap String IdleBehaviorConfig where
  entries :=
    [("lock", ⟨true, 600.0, .lock, false, ""⟩), ("screen-off", ⟨false, 660.0, .screenOff, false, ""⟩),
      ("suspend", ⟨false, 1800.0, .suspend, true, ""⟩)]
  sorted := by decide

/-- The source's default. -/
def ShellConfig.default : ShellConfig where
  version := latestConfigVersion
  theme := .default
  bar := .default
  desktop := ⟨[], ⟨"~/Pictures/Wallpapers"⟩⟩
  extensions := ⟨.empty, none⟩
  outputs := .empty
  clockFormat := none
  temperatureUnit := none
  locale := none
  startup := ⟨[], 3000⟩
  capture := ⟨⟨"~/Pictures/Screenshots"⟩, true, "rectangle"⟩
  clipboard := ⟨100⟩
  idle := ⟨2.0, defaultIdleBehaviors⟩
  lock := ⟨"login", true, true, 10⟩
  keybindings := []

end Shilpo.Config
