import Shilpo.Config.Document
import Shilpo.Config.Types

/-!
# Validation

`ShellConfig::validate` with what it calls: `BarConfig::validate` for the bar and for the
bar of each output, `ExtensionId::new` for the keys of the extensions' settings and
`validate_shortcut_spec` for shortcuts. Each check that fails is a diagnostic with the
path of what it is about.

`toUppercase` is the upper case of a character by Unicode's tables. Of the lower case,
only which words it makes matters, and these have no letter that a character outside
ASCII has as its lower case.
-/

namespace Shilpo.Config

open Theory

/-! ### Diagnostics and errors -/

/-- What is wrong, and where. -/
structure ConfigDiagnostic where
  path : String
  message : String
  span : Option (ℕ × ℕ)
  deriving DecidableEq

/-- A diagnostic without a place in the text. -/
def ConfigDiagnostic.new (path message : String) : ConfigDiagnostic := ⟨path, message, none⟩

/-- Why there is no configuration. -/
inductive ConfigError where
  | io (path source : String)
  | parse (diagnostic : ConfigDiagnostic)
  | validation (diagnostics : List ConfigDiagnostic)
  | serialize (source : String)

/-- The error's text. -/
def ConfigError.text : ConfigError → String
  | .io path source => "cannot access config " ++ path ++ ": " ++ source
  | .parse diagnostic => "config " ++ diagnostic.path ++ ": " ++ diagnostic.message
  | .validation diagnostics =>
    String.intercalate "; " (diagnostics.map fun d => d.path ++ ": " ++ d.message)
  | .serialize source => "cannot serialize config: " ++ source

/-- A diagnostic, if something is wrong. -/
def check (wrong : Bool) (path message : String) : List ConfigDiagnostic :=
  if wrong then [.new path message] else []

/-- Nothing but white space. -/
def isBlank (text : String) : Bool := text.toList.all isWhitespace

/-! ### The bar -/

/-- The widget as the source prints it for developers. -/
def BuiltinBarWidget.debug : BuiltinBarWidget → String
  | .workspaces => "Workspaces"
  | .runningApps => "RunningApps"
  | .clock => "Clock"
  | .date => "Date"
  | .media => "Media"
  | .sysinfo => "Sysinfo"
  | .network => "Network"
  | .bluetooth => "Bluetooth"
  | .caffeine => "Caffeine"
  | .audio => "Audio"
  | .battery => "Battery"
  | .settings => "Settings"

/-- The widget as the source prints it for developers. -/
def BarWidget.debug : BarWidget → String
  | .builtin widget => "Builtin(" ++ widget.debug ++ ")"
  | .extension id =>
    "Extension(CanonicalId \x7b extension_id: ExtensionId(\"" ++ id.extensionId ++
      "\"), contribution_id: ContributionId(\"" ++ id.contributionId ++ "\") \x7d)"

/-- Widgets that have been seen before. -/
def duplicateWidgets (path : String) :
    List BarWidget → List (String × BarWidget) → List ConfigDiagnostic
  | _, [] => []
  | seen, (part, widget) :: widgets =>
    check (widget ∈ seen) (path ++ ".widgets." ++ part) ("duplicate widget " ++ widget.debug) ++
      duplicateWidgets path (widget :: seen) widgets

/-- What is wrong with a bar. -/
def BarConfig.validate (bar : BarConfig) (path : String) : List ConfigDiagnostic :=
  check (!(16 ≤ bar.height && bar.height ≤ 128)) (path ++ ".height")
    "must be between 16 and 128" ++
  check (64 < bar.padding) (path ++ ".padding") "must be at most 64" ++
  check (64 < bar.widgetSpacing) (path ++ ".widget_spacing") "must be at most 64" ++
  check (512 < bar.margin.horizontal) (path ++ ".margin.horizontal") "must be at most 512" ++
  check (512 < bar.margin.vertical) (path ++ ".margin.vertical") "must be at most 512" ++
  duplicateWidgets path []
    (bar.widgets.start.map (("start", ·)) ++ bar.widgets.center.map (("center", ·)) ++
      bar.widgets.end.map (("end", ·)))

/-- The bar of an output, with what the output has in place of the bar's own; none if the output is
disabled. -/
def ShellConfig.barForOutput (config : ShellConfig) (outputName : Option String)
    (isPrimary : Bool) : Option BarConfig :=
  let overrideConfig :=
    match outputName.bind config.outputs.get with
    | some overrides => some overrides
    | none => if isPrimary then config.outputs.get "primary" else none
  match overrideConfig with
  | none => some config.bar
  | some overrides =>
    if overrides.enabled then
      some
        { position := overrides.position.getD config.bar.position
          style := overrides.style.getD config.bar.style
          height := overrides.height.getD config.bar.height
          padding := overrides.padding.getD config.bar.padding
          margin := overrides.margin.getD config.bar.margin
          widgetSpacing := overrides.widgetSpacing.getD config.bar.widgetSpacing
          opacity := overrides.opacity.getD config.bar.opacity
          exclusiveZone := overrides.exclusiveZone.or config.bar.exclusiveZone
          widgets := overrides.widgets.getD config.bar.widgets }
    else none

/-! ### The other sections -/

/-- What is wrong with the widgets of the desktop, from `index` on; `seen` are the instances
before. -/
def validateDesktopWidgets :
    List String → ℕ → List DesktopWidgetConfig → List ConfigDiagnostic
  | _, _, [] => []
  | seen, index, widget :: widgets =>
    let path := "desktop.widgets[" ++ toString index ++ "]"
    (if isBlank widget.instance then
      [.new (path ++ ".instance") "must not be empty"]
    else check (widget.instance ∈ seen) (path ++ ".instance") "must be unique") ++
    check (isBlank widget.output) (path ++ ".output") "must not be empty" ++
    check (widget.width = 0 || widget.height = 0) path
      "width and height must be greater than zero" ++
    validateDesktopWidgets
      (if isBlank widget.instance then seen else widget.instance :: seen) (index + 1) widgets

/-- A lower case letter or a digit, of ASCII. -/
def isLowerOrDigit (c : Char) : Bool := ('a' ≤ c && c ≤ 'z') || ('0' ≤ c && c ≤ '9')

/-- The name of an extension: three segments or more, in reverse domain notation. -/
def isExtensionId (text : String) : Bool :=
  let segments := text.toList.splitOn '.'
  3 ≤ segments.length && segments.all fun segment =>
    segment.head?.any isLowerOrDigit && segment.all fun c => isLowerOrDigit c || c = '-'

/-- What is wrong with the settings of an extension. -/
def validateExtensionSettings (e : String × JsonValue) : List ConfigDiagnostic :=
  let path := "extensions.settings.\"" ++ e.1 ++ "\""
  check (!isExtensionId e.1) path "key must be a lowercase reverse-domain extension ID" ++
    check (!e.2.isObject) path "must be an object"

/-- A time that can be waited for. -/
def isTime (x : Float) : Bool := x.isFinite && !(x < 0.0)

/-- What is wrong with something that is done when the user is idle. -/
def validateIdleBehavior (e : String × IdleBehaviorConfig) : List ConfigDiagnostic :=
  let path := "idle.behaviors.\"" ++ e.1 ++ "\""
  check (!isTime e.2.timeoutSeconds) (path ++ ".timeout_seconds")
      "must be a finite non-negative number" ++
    match e.2.action with
    | .command command =>
      check (isBlank command) (path ++ ".action.command") "command must not be empty"
    | _ => []

/-! ### Shortcuts -/

section

variable (toUppercase : Char → String)

/-- A text without the white space around it. -/
def trim (text : List Char) : List Char :=
  ((text.dropWhile isWhitespace).reverse.dropWhile isWhitespace).reverse

/-- Which modifiers a shortcut has. -/
structure Modifiers where
  superMod : Bool
  ctrlMod : Bool
  altMod : Bool
  shiftMod : Bool

/-- The parts of a shortcut, sorted into modifiers and keys. -/
def readShortcutParts : List (List Char) → Modifiers → List (List Char) →
    Except String (Modifiers × List (List Char))
  | [], mods, keys => .ok (mods, keys)
  | part :: parts, mods, keys =>
    let lower := String.ofList (part.map Char.toLower)
    if lower ∈ ["super", "mod", "meta"] then
      if mods.superMod then .error "duplicate modifier 'Super'"
      else readShortcutParts parts { mods with superMod := true } keys
    else if lower ∈ ["ctrl", "control"] then
      if mods.ctrlMod then .error "duplicate modifier 'Ctrl'"
      else readShortcutParts parts { mods with ctrlMod := true } keys
    else if lower = "alt" then
      if mods.altMod then .error "duplicate modifier 'Alt'"
      else readShortcutParts parts { mods with altMod := true } keys
    else if lower = "shift" then
      if mods.shiftMod then .error "duplicate modifier 'Shift'"
      else readShortcutParts parts { mods with shiftMod := true } keys
    else readShortcutParts parts mods (keys ++ [part])

/-- The main key as it is written. -/
def canonicalKey (key : List Char) : String :=
  if byteLength key = 1 then String.join (key.map toUppercase)
  else
    match key with
    | [] => ""
    | first :: rest => toUppercase first ++ String.ofList rest

/-- A quote, a backslash, the end of a line, a brace or a semicolon. -/
def isUnsafeKeyChar (c : Char) : Bool := c.toNat ∈ [0x22, 0x5C, 0x0A, 0x0D, 0x7B, 0x7D, 0x3B]

/-- A shortcut as it is written, or why it is none. -/
def validateShortcutSpec (spec : String) : Except String String :=
  let trimmed := trim spec.toList
  if trimmed = [] then .error "shortcut specification cannot be empty"
  else
    let parts := (trimmed.splitOn '+').map trim
    if parts.any (· = []) then .error "shortcut contains an empty key or modifier"
    else
      match readShortcutParts parts ⟨false, false, false, false⟩ [] with
      | .error err => .error err
      | .ok (mods, [key]) =>
        let canonicalMods :=
          (if mods.superMod then ["Super"] else []) ++ (if mods.ctrlMod then ["Ctrl"] else []) ++
            (if mods.altMod then ["Alt"] else []) ++ if mods.shiftMod then ["Shift"] else []
        if key.any isUnsafeKeyChar then
          .error "shortcut key contains a character unsafe for compositor projection"
        else if canonicalMods = [] then .ok (canonicalKey toUppercase key)
        else
          .ok (String.intercalate "+" canonicalMods ++ "+" ++ canonicalKey toUppercase key)
      | .ok (_, keys) =>
        .error ("shortcut must have exactly one main key, found " ++ toString keys.length)

/-- What is wrong with a shortcut, and the shortcuts with it. -/
def validateShortcut (path : String) (binding : KeybindingConfig)
    (shortcuts : List (String × String)) : List ConfigDiagnostic × List (String × String) :=
  match binding.shortcut with
  | some spec =>
    if isBlank spec then
      ([.new path "enabled keybinding must specify a non-empty shortcut"], shortcuts)
    else
      match validateShortcutSpec toUppercase spec with
      | .ok canonical =>
        (match shortcuts.lookup canonical with
          | some prevAction =>
            [.new path ("duplicate shortcut binding '" ++ canonical ++ "' for actions '" ++
              prevAction ++ "' and '" ++ binding.action ++ "'")]
          | none => [],
          (canonical, binding.action) :: shortcuts)
      | .error err =>
        ([.new path ("invalid shortcut specification '" ++ spec ++ "': " ++ err)], shortcuts)
  | none => ([.new path "enabled keybinding must specify a non-empty shortcut"], shortcuts)

/-- What is wrong with the key bindings, from `index` on, after those with the actions and
shortcuts before. -/
def validateKeybindings : List String → List (String × String) → ℕ → List KeybindingConfig →
    List ConfigDiagnostic
  | _, _, _, [] => []
  | actions, shortcuts, index, binding :: bindings =>
    let path := "keybindings[" ++ toString index ++ "]"
    let shortcut :=
      if binding.enabled then
        validateShortcut toUppercase (path ++ ".shortcut") binding shortcuts
      else ([], shortcuts)
    (if isBlank binding.action then
      [.new (path ++ ".action") "action ID must not be empty"]
    else
      check (binding.action ∈ actions) (path ++ ".action")
        ("duplicate keybinding entry for action '" ++ binding.action ++ "'")) ++
    shortcut.1 ++
    validateKeybindings
      (if isBlank binding.action then actions else binding.action :: actions) shortcut.2
      (index + 1) bindings

/-! ### The configuration -/

namespace ShellConfig

/-- All that is wrong. -/
def diagnostics (config : ShellConfig) : List ConfigDiagnostic :=
  check (config.version ≠ latestConfigVersion) "version"
    ("must be " ++ toString latestConfigVersion) ++
  check (isBlank config.theme.fontFamily) "theme.font_family" "must not be empty" ++
  check (!config.theme.cornerRadiusScale.isFinite ||
      !(0.0 ≤ config.theme.cornerRadiusScale && config.theme.cornerRadiusScale ≤ 4.0))
    "theme.corner_radius_scale" "must be finite and between 0.0 and 4.0" ++
  check (5000 < config.theme.transitionDurationMs) "theme.transition_duration_ms"
    "must be at most 5000" ++
  config.bar.validate "bar" ++
  (config.outputs.entries.flatMap fun e =>
    ((config.barForOutput (some e.1) false).map fun bar =>
      bar.validate ("outputs.\"" ++ e.1 ++ "\"")).getD []) ++
  validateDesktopWidgets [] 0 config.desktop.widgets ++
  config.extensions.settings.entries.flatMap validateExtensionSettings ++
  check (config.capture.defaultSelection ∉ ["rectangle", "ellipse"]) "capture.default_selection"
    "must be 'rectangle' or 'ellipse'" ++
  check (config.clipboard.historyLimit = 0) "clipboard.history_limit"
    "must be greater than zero" ++
  check (!isTime config.idle.graceSeconds) "idle.grace_seconds"
    "must be a finite non-negative number" ++
  config.idle.behaviors.entries.flatMap validateIdleBehavior ++
  validateKeybindings toUppercase [] [] 0 config.keybindings

/-- Whether the configuration is valid. -/
def validate (config : ShellConfig) : Except ConfigError Unit :=
  if config.diagnostics toUppercase = [] then .ok ()
  else .error (.validation (config.diagnostics toUppercase))

theorem validate_eq_ok {config : ShellConfig} :
    config.validate toUppercase = .ok () ↔ config.diagnostics toUppercase = [] := by
  unfold validate
  split_ifs with h <;> simp [h]

/-- The default is valid. -/
theorem validate_default : ShellConfig.default.validate toUppercase = .ok () := by
  rw [validate_eq_ok]
  rfl

end ShellConfig

end

end Shilpo.Config
