import Shilpo.Config.Validation
import Shilpo.Config.Merge

/-!
# Recovery

`desktop/shilpo/src/config/validation.rs`: what is wrong with a configuration decides
whether a value or a whole section of it is taken from a fallback, or all of it is
rejected. The source goes through the diagnostics one by one; what comes out
(`config_recover`) is each section either the fallback's or the candidate's own, with the
values that are wrong taken from the fallback (`repaired`).
-/

namespace Shilpo.Config

open Theory

/-! ### Where a value comes from, or what it is part of -/

/-- The text before each `c`, the longest first. -/
def cutsAt (c : Char) (text : List Char) : List (List Char) :=
  ((List.range text.length).reverse.filter fun i => text[i]? = some c).map text.take

/-- The paths that a path is part of: it is cut at its dots from the end, and then what is before
the first dot at its brackets. -/
def parentPaths (path : String) : List String :=
  (cutsAt '.' path.toList ++ cutsAt '[' (path.toList.takeWhile (· ≠ '.'))).map String.ofList

namespace ConfigProvenance

/-- Where the value of a path comes from, or what it is part of. -/
def get (p : ConfigProvenance) (path : String) : Option SourceLocation :=
  (path :: parentPaths path).findSome? fun q => p.map.lookup q

/-- The place of a path is the fallback's again, or the defaults' if that has none. -/
def restorePath (p fallback : ConfigProvenance) (path : String) : ConfigProvenance :=
  (p.removePrefix path).set path ((fallback.get path).getD ⟨.defaults, none, none⟩)

/-- The places of a section are the fallback's again. -/
def restoreComponent (p fallback : ConfigProvenance) (component : String) : ConfigProvenance :=
  fallback.map.entries.foldl
    (fun p e => if Below component e.1 then p.set e.1 e.2 else p) (p.removePrefix component)

end ConfigProvenance

/-! ### Recovery -/

/-- What becomes of a configuration with something wrong. -/
inductive RecoveryScope where
  | rejectValue
  | retainPreviousComponent
  | rejectCandidate
  deriving DecidableEq

/-- The text starts so. -/
def startsWith (text start : String) : Bool := start.toList.isPrefixOf text.toList

/-- Values that are taken from the fallback by themselves. -/
def rejectValuePaths : List String :=
  ["theme.font_family", "theme.corner_radius_scale", "bar.height", "bar.padding",
    "bar.widget_spacing", "bar.margin.horizontal", "bar.margin.vertical",
    "capture.default_selection", "clipboard.history_limit", "idle.grace_seconds",
    "lock.clear_input_after_seconds"]

/-- What the paths of values start with that are taken from the fallback with their sections. -/
def componentPrefixes : List String :=
  ["theme.", "bar.", "desktop.", "extensions.", "outputs.", "startup.", "capture.", "clipboard.",
    "idle.", "lock."]

/-- What to do about a diagnostic. -/
def classifyDiagnostic (diagnostic : ConfigDiagnostic) : RecoveryScope :=
  if diagnostic.path = "version" then .rejectCandidate
  else if diagnostic.path ∈ rejectValuePaths then .rejectValue
  else if componentPrefixes.any (startsWith diagnostic.path) || diagnostic.path = "outputs" then
    .retainPreviousComponent
  else .rejectCandidate

/-- The section of a path. -/
def component (path : String) : String := String.ofList (path.toList.takeWhile (· ≠ '.'))

/-- The value of a path is taken from the fallback, if it is one of these. -/
def restoreValue (fallback candidate : ShellConfig) (path : String) : ShellConfig :=
  { candidate with
    theme :=
      { candidate.theme with
        fontFamily :=
          if path = "theme.font_family" then fallback.theme.fontFamily
          else candidate.theme.fontFamily
        cornerRadiusScale :=
          if path = "theme.corner_radius_scale" then fallback.theme.cornerRadiusScale
          else candidate.theme.cornerRadiusScale }
    bar :=
      { candidate.bar with
        height := if path = "bar.height" then fallback.bar.height else candidate.bar.height
        padding := if path = "bar.padding" then fallback.bar.padding else candidate.bar.padding
        widgetSpacing :=
          if path = "bar.widget_spacing" then fallback.bar.widgetSpacing
          else candidate.bar.widgetSpacing
        margin :=
          ⟨if path = "bar.margin.horizontal" then fallback.bar.margin.horizontal
            else candidate.bar.margin.horizontal,
            if path = "bar.margin.vertical" then fallback.bar.margin.vertical
            else candidate.bar.margin.vertical⟩ }
    capture :=
      { candidate.capture with
        defaultSelection :=
          if path = "capture.default_selection" then fallback.capture.defaultSelection
          else candidate.capture.defaultSelection }
    clipboard :=
      ⟨if path = "clipboard.history_limit" then fallback.clipboard.historyLimit
        else candidate.clipboard.historyLimit⟩
    idle :=
      { candidate.idle with
        graceSeconds :=
          if path = "idle.grace_seconds" then fallback.idle.graceSeconds
          else candidate.idle.graceSeconds }
    lock :=
      { candidate.lock with
        clearInputAfterSeconds :=
          if path = "lock.clear_input_after_seconds" then fallback.lock.clearInputAfterSeconds
          else candidate.lock.clearInputAfterSeconds } }

/-- A section is taken from the fallback, if it is one of these. -/
def restoreSection (fallback candidate : ShellConfig) (component : String) : ShellConfig :=
  { candidate with
    theme := if component = "theme" then fallback.theme else candidate.theme
    bar := if component = "bar" then fallback.bar else candidate.bar
    desktop := if component = "desktop" then fallback.desktop else candidate.desktop
    extensions := if component = "extensions" then fallback.extensions else candidate.extensions
    outputs := if component = "outputs" then fallback.outputs else candidate.outputs
    startup := if component = "startup" then fallback.startup else candidate.startup
    capture := if component = "capture" then fallback.capture else candidate.capture
    clipboard := if component = "clipboard" then fallback.clipboard else candidate.clipboard
    idle := if component = "idle" then fallback.idle else candidate.idle
    lock := if component = "lock" then fallback.lock else candidate.lock }

/-- A configuration, and where its values come from. -/
structure ConfigSnapshot where
  config : ShellConfig
  provenance : ConfigProvenance

/-- What is done about one diagnostic. -/
def recover (fallback candidate : ConfigSnapshot) (diagnostic : ConfigDiagnostic) :
    ConfigSnapshot :=
  match classifyDiagnostic diagnostic with
  | .rejectValue =>
    ⟨restoreValue fallback.config candidate.config diagnostic.path,
      candidate.provenance.restorePath fallback.provenance diagnostic.path⟩
  | .retainPreviousComponent =>
    ⟨restoreSection fallback.config candidate.config (component diagnostic.path),
      candidate.provenance.restoreComponent fallback.provenance (component diagnostic.path)⟩
  | .rejectCandidate => candidate

/-- What is done about all of them, and how far it went. -/
def applyScopedRecovery (toUppercase : Char → String) (candidate fallback : ConfigSnapshot)
    (diagnostics : List ConfigDiagnostic) : ConfigSnapshot × RecoveryScope :=
  if diagnostics.any (classifyDiagnostic · = .rejectCandidate) then (candidate, .rejectCandidate)
  else
    let recovered := diagnostics.foldl (recover fallback) candidate
    match recovered.config.validate toUppercase with
    | .ok () =>
      (recovered,
        if diagnostics.any (classifyDiagnostic · = .retainPreviousComponent) then
          .retainPreviousComponent
        else .rejectValue)
    | .error _ => (recovered, .rejectCandidate)

/-! ### What comes out -/

/-- One of the diagnostics is about the value of this path. -/
def Rejects (diagnostics : List ConfigDiagnostic) (path : String) : Prop :=
  ∃ d ∈ diagnostics, d.path = path

/-- One of the diagnostics has this section retained. -/
def Retains (diagnostics : List ConfigDiagnostic) (section' : String) : Prop :=
  ∃ d ∈ diagnostics, classifyDiagnostic d = .retainPreviousComponent ∧
    component d.path = section'

instance (diagnostics : List ConfigDiagnostic) (path : String) :
    Decidable (Rejects diagnostics path) :=
  inferInstanceAs (Decidable (∃ d ∈ diagnostics, _))

instance (diagnostics : List ConfigDiagnostic) (section' : String) :
    Decidable (Retains diagnostics section') :=
  inferInstanceAs (Decidable (∃ d ∈ diagnostics, _))

/-- The configuration with each section either the fallback's or its own, with the values that are
wrong taken from the fallback. -/
def repaired (candidate fallback : ShellConfig) (diagnostics : List ConfigDiagnostic) :
    ShellConfig :=
  { candidate with
    theme :=
      if Retains diagnostics "theme" then fallback.theme
      else
        { candidate.theme with
          fontFamily :=
            if Rejects diagnostics "theme.font_family" then fallback.theme.fontFamily
            else candidate.theme.fontFamily
          cornerRadiusScale :=
            if Rejects diagnostics "theme.corner_radius_scale" then
              fallback.theme.cornerRadiusScale
            else candidate.theme.cornerRadiusScale }
    bar :=
      if Retains diagnostics "bar" then fallback.bar
      else
        { candidate.bar with
          height :=
            if Rejects diagnostics "bar.height" then fallback.bar.height
            else candidate.bar.height
          padding :=
            if Rejects diagnostics "bar.padding" then fallback.bar.padding
            else candidate.bar.padding
          widgetSpacing :=
            if Rejects diagnostics "bar.widget_spacing" then fallback.bar.widgetSpacing
            else candidate.bar.widgetSpacing
          margin :=
            ⟨if Rejects diagnostics "bar.margin.horizontal" then fallback.bar.margin.horizontal
              else candidate.bar.margin.horizontal,
              if Rejects diagnostics "bar.margin.vertical" then fallback.bar.margin.vertical
              else candidate.bar.margin.vertical⟩ }
    desktop := if Retains diagnostics "desktop" then fallback.desktop else candidate.desktop
    extensions :=
      if Retains diagnostics "extensions" then fallback.extensions else candidate.extensions
    outputs := if Retains diagnostics "outputs" then fallback.outputs else candidate.outputs
    startup := if Retains diagnostics "startup" then fallback.startup else candidate.startup
    capture :=
      if Retains diagnostics "capture" then fallback.capture
      else
        { candidate.capture with
          defaultSelection :=
            if Rejects diagnostics "capture.default_selection" then
              fallback.capture.defaultSelection
            else candidate.capture.defaultSelection }
    clipboard :=
      if Retains diagnostics "clipboard" then fallback.clipboard
      else
        ⟨if Rejects diagnostics "clipboard.history_limit" then fallback.clipboard.historyLimit
          else candidate.clipboard.historyLimit⟩
    idle :=
      if Retains diagnostics "idle" then fallback.idle
      else
        { candidate.idle with
          graceSeconds :=
            if Rejects diagnostics "idle.grace_seconds" then fallback.idle.graceSeconds
            else candidate.idle.graceSeconds }
    lock :=
      if Retains diagnostics "lock" then fallback.lock
      else
        { candidate.lock with
          clearInputAfterSeconds :=
            if Rejects diagnostics "lock.clear_input_after_seconds" then
              fallback.lock.clearInputAfterSeconds
            else candidate.lock.clearInputAfterSeconds } }

theorem rejects_snoc {diagnostics : List ConfigDiagnostic} {d : ConfigDiagnostic}
    {path : String} :
    Rejects (diagnostics ++ [d]) path ↔ Rejects diagnostics path ∨ d.path = path := by
  simp [Rejects, or_and_right, exists_or]

theorem retains_snoc {diagnostics : List ConfigDiagnostic} {d : ConfigDiagnostic}
    {section' : String} :
    Retains (diagnostics ++ [d]) section' ↔ Retains diagnostics section' ∨
      classifyDiagnostic d = .retainPreviousComponent ∧ component d.path = section' := by
  simp [Retains, or_and_right, exists_or]

theorem classifyDiagnostic_of_mem {d : ConfigDiagnostic} (h : d.path ∈ rejectValuePaths) :
    classifyDiagnostic d = .rejectValue := by
  unfold classifyDiagnostic
  rw [if_neg, if_pos h]
  intro hversion
  rw [hversion] at h
  revert h
  decide

/-- A choice made earlier or now. -/
theorem ite_or_eq {α : Type} {p q : Prop} [Decidable p] [Decidable q] (a b : α) :
    (if p ∨ q then a else b) = if q then a else if p then a else b := by
  split_ifs <;> simp_all

theorem repaired_snoc (candidate fallback : ShellConfig) (diagnostics : List ConfigDiagnostic)
    (d : ConfigDiagnostic) :
    repaired candidate fallback (diagnostics ++ [d]) =
      match classifyDiagnostic d with
      | .rejectValue => restoreValue fallback (repaired candidate fallback diagnostics) d.path
      | .retainPreviousComponent =>
        restoreSection fallback (repaired candidate fallback diagnostics) (component d.path)
      | .rejectCandidate => repaired candidate fallback diagnostics := by
  cases hclass : classifyDiagnostic d with
  | rejectValue =>
    simp only [repaired, restoreValue, rejects_snoc, retains_snoc, hclass, reduceCtorEq,
      false_and, or_false, ite_or_eq]
    -- a section that is retained already is the fallback's, whatever value of it is wrong
    congr 1
    · by_cases h : Retains diagnostics "theme" <;> simp only [h, if_true, if_false, ite_self]
    · by_cases h : Retains diagnostics "bar" <;> simp only [h, if_true, if_false, ite_self]
    · by_cases h : Retains diagnostics "capture" <;> simp only [h, if_true, if_false, ite_self]
    · by_cases h : Retains diagnostics "clipboard" <;> simp only [h, if_true, if_false, ite_self]
    · by_cases h : Retains diagnostics "idle" <;> simp only [h, if_true, if_false, ite_self]
    · by_cases h : Retains diagnostics "lock" <;> simp only [h, if_true, if_false, ite_self]
  | retainPreviousComponent =>
    have hvalue : ∀ path ∈ rejectValuePaths, d.path ≠ path := by
      rintro path hpath rfl
      rw [classifyDiagnostic_of_mem hpath] at hclass
      cases hclass
    simp only [rejectValuePaths, List.forall_mem_cons] at hvalue
    simp only [repaired, restoreSection, rejects_snoc, retains_snoc, hclass, true_and, ite_or_eq,
      hvalue, or_false]
  | rejectCandidate =>
    have hvalue : ∀ path ∈ rejectValuePaths, d.path ≠ path := by
      rintro path hpath rfl
      rw [classifyDiagnostic_of_mem hpath] at hclass
      cases hclass
    simp only [rejectValuePaths, List.forall_mem_cons] at hvalue
    simp only [repaired, rejects_snoc, retains_snoc, hclass, reduceCtorEq, false_and, or_false,
      hvalue]

/-- **Recovery section by section.** Going through the diagnostics one by one leaves each section
the fallback's or its own, with the values that are wrong taken from the fallback. -/
theorem config_recover (candidate fallback : ConfigSnapshot)
    (diagnostics : List ConfigDiagnostic) :
    (diagnostics.foldl (recover fallback) candidate).config =
      repaired candidate.config fallback.config diagnostics := by
  induction diagnostics using List.reverseRecOn with
  | nil => simp [repaired, Rejects, Retains]
  | append_singleton diagnostics d ih =>
    rw [List.foldl_append, List.foldl_cons, List.foldl_nil, repaired_snoc, ← ih, recover]
    cases classifyDiagnostic d <;> rfl

end Shilpo.Config
