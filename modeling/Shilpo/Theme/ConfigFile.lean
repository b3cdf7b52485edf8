import Shilpo.Theme.Commands

/-!
# Writing the configuration back

The theme daemon changes two values of `config.toml`: the scheme variant, in a task of its own for
each command, and the directory of the wallpapers, while it handles the command. Each reads the
file, and writes it; nothing keeps one from writing what another has read before. So an update may
be lost; and a file that does not parse is replaced when the directory is set (`config_lost`). No
other key is touched exactly in the runs in which none writes a file that does not parse; and the two
values are those that were set last where each writer reads when no other is about to write, and the
writers of the variant do so in turn (`config_written_back`).
-/

namespace Shilpo.Theme

open Theory

variable {Value Text : Type}

/-! ### Tables -/

/-- What is found in a section; `other` is no string. -/
inductive SectionEntry (Value : Type) where
  | text (content : String)
  | other (value : Value)
  deriving DecidableEq

/-- What is found at the top; `other` is no table. -/
inductive ConfigEntry (Value : Type) where
  | table (entries : Finmap fun _ : String => SectionEntry Value)
  | other (value : Value)
  deriving DecidableEq

abbrev ConfigTable (Value : Type) := Finmap fun _ : String => ConfigEntry Value

namespace ConfigTable

variable (table : ConfigTable Value)

/-- The entry of a key of a section. -/
def entryAt (section_ key : String) : Option (SectionEntry Value) :=
  match table.lookup section_ with
  | some (.table entries) => entries.lookup key
  | _ => none

/-- A text is set in a section, which is made if there is none; one that is no table stays. -/
def insertText (section_ key content : String) : Option (ConfigTable Value) :=
  match (table.lookup section_).getD (.table ∅) with
  | .table entries => some (table.insert section_ (.table (entries.insert key (.text content))))
  | .other _ => none

end ConfigTable

/-- How texts are read as tables, and written; `blank` is the empty one. -/
structure TomlText (Text Value : Type) where
  parse : Text → Option (ConfigTable Value)
  print : ConfigTable Value → Text
  blank : Text
  parse_print : ∀ table, parse (print table) = some table
  parse_blank : parse blank = some ∅

/-! ### The file and its writers -/

/-- The file; `unreadable` is no text. -/
inductive ConfigFile (Text : Type) where
  | missing
  | unreadable (bytes : List UInt8)
  | text (content : Text)
  deriving DecidableEq

namespace ConfigFile

variable (toml : TomlText Text Value)

/-- `read_to_string`, or nothing. -/
def read : ConfigFile Text → Text
  | .text content => content
  | _ => toml.blank

/-- The table that the file holds, if it can be told. -/
def table : ConfigFile Text → Option (ConfigTable Value)
  | .missing => some ∅
  | .unreadable _ => none
  | .text content => toml.parse content

end ConfigFile

/-- A task that writes a scheme variant; `loaded` is what it is about to write. -/
structure VariantTask (Value : Type) where
  variant : SchemeVariant
  loaded : Option (ConfigTable Value)
  deriving DecidableEq

/-- The file, the tasks that write the variant, the directory that the daemon is writing, if it is,
and the one that it knows; and what has been accepted last. -/
structure ConfigWriters (Text Value : Type) where
  file : ConfigFile Text
  tasks : List (VariantTask Value)
  directory : Option (String × ConfigTable Value)
  wallpaperDir : String
  lastVariant : Option SchemeVariant
  lastDirectory : Option String

/-- What happens next; a task is named by its place among those that have not ended. -/
inductive ConfigStep where
  /-- The variant is set, and the command accepted or not; the task starts in both cases. -/
  | setSchemeVariant (variant : SchemeVariant) (accepted : Bool)
  /-- The directory is set, if it is one and the command is accepted; the file is read. -/
  | setWallpaperDirectory (dir : String) (accepted : Bool)
  /-- The file is written, or cannot be. -/
  | writeDirectory (written : Bool)
  | readVariant (index : ℕ)
  | writeVariant (index : ℕ) (written : Bool)
  | getState
  deriving DecidableEq

namespace ConfigWriters

variable (toml : TomlText Text Value) (expandTilde : String → String)
  (writers : ConfigWriters Text Value)

def start (file : ConfigFile Text) (wallpaperDir : String) : ConfigWriters Text Value :=
  ⟨file, [], none, wallpaperDir, none, none⟩

def persistWallpaperDirectoryConfig (dir : String) : ConfigTable Value :=
  let table := (toml.parse (writers.file.read toml)).getD ∅
  (table.insertText "desktop" "wallpaper_dir" dir).getD table

/-- What a task is about to write, if it finds a table, and `theme` is one. -/
def withSchemeVariant (variant : SchemeVariant) : Option (ConfigTable Value) :=
  (toml.parse (writers.file.read toml)).bind
    (·.insertText "theme" "scheme_variant" variant.name)

def syncWallpaperDirFromConfig : ConfigWriters Text Value :=
  match writers.file with
  | .text content =>
    match (toml.parse content).bind (·.entryAt "desktop" "wallpaper_dir") with
    | some (.text dir) => { writers with wallpaperDir := expandTilde dir }
    | _ => writers
  | _ => writers

/-- A task reads the file, and ends if there is nothing to write. -/
def readVariant (index : ℕ) (task : VariantTask Value) : ConfigWriters Text Value :=
  match task.loaded, writers.withSchemeVariant toml task.variant with
  | none, some table =>
    { writers with tasks := writers.tasks.set index { task with loaded := some table } }
  | none, none => { writers with tasks := writers.tasks.eraseIdx index }
  | some _, _ => writers

def writeVariant (index : ℕ) (task : VariantTask Value) (written : Bool) :
    ConfigWriters Text Value :=
  match task.loaded with
  | none => writers
  | some table =>
    { writers with
      file := if written then .text (toml.print table) else writers.file,
      tasks := writers.tasks.eraseIdx index }

/-- While it writes the directory the daemon handles nothing else. -/
def next : ConfigStep → ConfigWriters Text Value
  | .setSchemeVariant variant accepted =>
    if writers.directory.isSome then writers
    else
      { writers with
        tasks := writers.tasks ++ [⟨variant, none⟩],
        lastVariant := if accepted then some variant else writers.lastVariant }
  | .setWallpaperDirectory dir accepted =>
    if writers.directory.isSome || !accepted then writers
    else
      { writers with
        wallpaperDir := dir,
        directory := some (dir, writers.persistWallpaperDirectoryConfig toml dir) }
  | .writeDirectory written =>
    match writers.directory with
    | none => writers
    | some (dir, table) =>
      if written then
        { writers with
          file := .text (toml.print table), directory := none, lastDirectory := some dir }
      else { writers with directory := none }
  | .readVariant index =>
    match writers.tasks[index]? with
    | none => writers
    | some task => writers.readVariant toml index task
  | .writeVariant index written =>
    match writers.tasks[index]? with
    | none => writers
    | some task => writers.writeVariant toml index task written
  | .getState =>
    if writers.directory.isSome then writers
    else writers.syncWallpaperDirFromConfig toml expandTilde

/-! ### What is promised -/

/-- The two keys that the daemon may write. -/
def IsOwn (section_ key : String) : Prop :=
  section_ = "theme" ∧ key = "scheme_variant" ∨ section_ = "desktop" ∧ key = "wallpaper_dir"

/-- But for the two keys, two tables are the same. -/
structure SameElse (before after : ConfigTable Value) : Prop where
  sections : ∀ section_, section_ ≠ "theme" → section_ ≠ "desktop" →
    after.lookup section_ = before.lookup section_
  values : ∀ section_ value, after.lookup section_ = some (.other value) ↔
    before.lookup section_ = some (.other value)
  entries : ∀ section_ key, ¬ IsOwn section_ key →
    ConfigTable.entryAt after section_ key = ConfigTable.entryAt before section_ key

/-- No other key is changed, and a file that does not parse stays as it is. -/
def KeepsKeys (step : ConfigStep) : Prop :=
  match writers.file.table toml with
  | none => (writers.next toml expandTilde step).file = writers.file
  | some before =>
    ∃ after, (writers.next toml expandTilde step).file.table toml = some after ∧
      SameElse before after

/-- When every writer has ended, the file has what was accepted last. -/
def Settled : Prop :=
  writers.tasks = [] → writers.directory = none → ∀ table, writers.file.table toml = some table →
    (∀ variant ∈ writers.lastVariant,
      ConfigTable.entryAt table "theme" "scheme_variant" = some (.text variant.name)) ∧
    (∀ dir ∈ writers.lastDirectory,
      ConfigTable.entryAt table "desktop" "wallpaper_dir" = some (.text dir))

/-! ### What keeps it -/

/-- The file is written in the step. -/
def Writes : ConfigStep → Prop
  | .writeDirectory written => written = true ∧ writers.directory.isSome
  | .writeVariant index written =>
    written = true ∧ ∃ task ∈ writers.tasks[index]?, task.loaded.isSome
  | _ => False

/-- A file that does not parse is not written. -/
def Spares (step : ConfigStep) : Prop := writers.file.table toml = none → ¬ writers.Writes step

/-- No task is about to write. -/
def Unloaded : Prop := ∀ task ∈ writers.tasks, task.loaded = none

/-- A section of the file is a table, or is not there. -/
def HasSection (section_ : String) : Prop :=
  ∀ table, writers.file.table toml = some table →
    ∀ value, table.lookup section_ ≠ some (.other value)

/-- The variant is accepted; a writer reads when no other is about to write, and finds its section;
the tasks do so in turn; and what is written can be. -/
def InTurn : ConfigStep → Prop
  | .setSchemeVariant _ accepted => accepted = true
  | .setWallpaperDirectory _ accepted =>
    accepted = true → writers.Unloaded ∧ writers.HasSection toml "desktop"
  | .writeDirectory written => written = true
  | .readVariant index => index = 0 ∧ writers.directory = none ∧ writers.HasSection toml "theme"
  | .writeVariant _ written => written = true
  | .getState => True

end ConfigWriters

/-! ### Setting a text -/

namespace ConfigTable

variable {table next : ConfigTable Value} {section_ key content : String}

theorem insertText_cases (h : table.insertText section_ key content = some next) :
    ∃ entries, ((table.lookup section_).getD (.table ∅) = .table entries) ∧
      next = table.insert section_ (.table (entries.insert key (.text content))) := by
  unfold insertText at h
  split at h
  · rename_i entries hentries
    exact ⟨entries, hentries, (Option.some.inj h).symm⟩
  · cases h

theorem entryAt_insertText (h : table.insertText section_ key content = some next) :
    next.entryAt section_ key = some (.text content) := by
  obtain ⟨entries, -, rfl⟩ := insertText_cases h
  simp only [entryAt, Finmap.lookup_insert]

theorem entryAt_insertText_of_ne (h : table.insertText section_ key content = some next)
    {otherSection otherKey : String} (hne : ¬ (otherSection = section_ ∧ otherKey = key)) :
    next.entryAt otherSection otherKey = table.entryAt otherSection otherKey := by
  obtain ⟨entries, hentries, rfl⟩ := insertText_cases h
  by_cases hsection : otherSection = section_
  · subst hsection
    have hkey : otherKey ≠ key := fun heq => hne ⟨rfl, heq⟩
    simp only [entryAt, Finmap.lookup_insert, Finmap.lookup_insert_of_ne _ hkey]
    cases hlookup : table.lookup otherSection with
    | none =>
      rw [hlookup] at hentries
      cases hentries
      rfl
    | some entry =>
      rw [hlookup] at hentries
      cases hentries
      rfl
  · simp only [entryAt, Finmap.lookup_insert_of_ne _ hsection]

/-- A section that is a table, or is not there, takes a text. -/
theorem exists_insertText (h : ∀ value, table.lookup section_ ≠ some (.other value))
    (key content : String) : ∃ next, table.insertText section_ key content = some next := by
  unfold insertText
  cases hlookup : table.lookup section_ with
  | none => exact ⟨_, rfl⟩
  | some entry =>
    cases entry with
    | table entries => exact ⟨_, rfl⟩
    | other value => exact absurd hlookup (h value)

end ConfigTable

theorem ConfigFile.parse_read {toml : TomlText Text Value} {file : ConfigFile Text}
    {table : ConfigTable Value} (h : file.table toml = some table) :
    toml.parse (file.read toml) = some table := by
  cases file with
  | missing =>
    obtain rfl := Option.some.inj h
    exact toml.parse_blank
  | unreadable bytes => cases h
  | text content => exact h

/-- What a writer finds is what the file holds, or nothing. -/
theorem ConfigFile.getD_parse_read (toml : TomlText Text Value) (file : ConfigFile Text) :
    (toml.parse (file.read toml)).getD ∅ = (file.table toml).getD ∅ := by
  cases file with
  | missing => exact congrArg (Option.getD · ∅) toml.parse_blank
  | unreadable bytes =>
    rw [read, toml.parse_blank]
    · rfl
    · exact fun content heq => by cases heq
  | text content => rfl

namespace ConfigWriters

/-! ### The other keys -/

namespace SameElse

variable {base before after : ConfigTable Value}

theorem refl (table : ConfigTable Value) : SameElse table table :=
  ⟨fun _ _ _ => rfl, fun _ _ => Iff.rfl, fun _ _ _ => rfl⟩

theorem trans (h : SameElse base before) (h' : SameElse before after) : SameElse base after where
  sections section_ htheme hdesktop :=
    (h'.sections section_ htheme hdesktop).trans (h.sections section_ htheme hdesktop)
  values section_ value := (h'.values section_ value).trans (h.values section_ value)
  entries section_ key hother :=
    (h'.entries section_ key hother).trans (h.entries section_ key hother)

theorem symm (h : SameElse before after) : SameElse after before where
  sections section_ htheme hdesktop := (h.sections section_ htheme hdesktop).symm
  values section_ value := (h.values section_ value).symm
  entries section_ key hother := (h.entries section_ key hother).symm

theorem insertText {section_ key content : String} (hown : IsOwn section_ key)
    (h : before.insertText section_ key content = some after) : SameElse before after := by
  refine ⟨fun other htheme hdesktop => ?_, fun other value => ?_, fun other otherKey hother => ?_⟩
  · obtain ⟨entries, -, rfl⟩ := ConfigTable.insertText_cases h
    refine Finmap.lookup_insert_of_ne _ ?_
    rcases hown with ⟨rfl, -⟩ | ⟨rfl, -⟩
    · exact htheme
    · exact hdesktop
  · obtain ⟨entries, hentries, rfl⟩ := ConfigTable.insertText_cases h
    by_cases hsection : other = section_
    · subst hsection
      rw [Finmap.lookup_insert]
      refine iff_of_false (fun heq => by cases heq) fun heq => ?_
      rw [heq] at hentries
      cases hentries
    · rw [Finmap.lookup_insert_of_ne _ hsection]
  · refine ConfigTable.entryAt_insertText_of_ne h ?_
    rintro ⟨rfl, rfl⟩
    exact hother hown

end SameElse

section Keys

variable {toml : TomlText Text Value} {expandTilde : String → String}
  {writers : ConfigWriters Text Value} {base : ConfigTable Value}

/-- Whatever is in the file, or is about to be, is as it was but for the two keys. -/
structure Touched (toml : TomlText Text Value) (base : ConfigTable Value)
    (writers : ConfigWriters Text Value) : Prop where
  file : SameElse base ((writers.file.table toml).getD ∅)
  tasks : ∀ task ∈ writers.tasks, ∀ table ∈ task.loaded, SameElse base table
  directory : ∀ dir table, writers.directory = some (dir, table) → SameElse base table

theorem Touched.insertText (h : Touched toml base writers) {section_ key content : String}
    (hown : IsOwn section_ key) {table : ConfigTable Value}
    (htable : (toml.parse (writers.file.read toml)).bind
      (·.insertText section_ key content) = some table) : SameElse base table := by
  obtain ⟨old, hold, hinsert⟩ := Option.bind_eq_some_iff.mp htable
  have hfile := h.file
  rw [← ConfigFile.getD_parse_read, hold] at hfile
  exact hfile.trans (.insertText hown hinsert)

theorem Touched.persisted (h : Touched toml base writers) (dir : String) :
    SameElse base (writers.persistWallpaperDirectoryConfig toml dir) := by
  have hfile := h.file
  rw [← ConfigFile.getD_parse_read] at hfile
  simp only [persistWallpaperDirectoryConfig]
  cases hinsert : ConfigTable.insertText ((toml.parse (writers.file.read toml)).getD ∅)
      "desktop" "wallpaper_dir" dir with
  | none => exact hfile
  | some table => exact hfile.trans (.insertText (.inr ⟨rfl, rfl⟩) hinsert)

/-- What is written is what had been loaded. -/
theorem Touched.write (h : Touched toml base writers) {table : ConfigTable Value}
    (htable : SameElse base table) :
    Touched toml base { writers with file := .text (toml.print table) } := by
  refine ⟨?_, h.tasks, h.directory⟩
  rw [ConfigFile.table, toml.parse_print]
  exact htable

theorem Touched.next (h : Touched toml base writers) (step : ConfigStep) :
    Touched toml base (writers.next toml expandTilde step) := by
  cases step with
  | setSchemeVariant variant accepted =>
    simp only [ConfigWriters.next]
    split_ifs
    · exact h
    · refine ⟨h.file, fun task hmem => ?_, h.directory⟩
      rcases List.mem_append.mp hmem with hmem | hmem
      · exact h.tasks task hmem
      · obtain rfl := List.mem_singleton.mp hmem
        exact fun _ htable => by cases htable
    · refine ⟨h.file, fun task hmem => ?_, h.directory⟩
      rcases List.mem_append.mp hmem with hmem | hmem
      · exact h.tasks task hmem
      · obtain rfl := List.mem_singleton.mp hmem
        exact fun _ htable => by cases htable
  | setWallpaperDirectory dir accepted =>
    simp only [ConfigWriters.next]
    split_ifs
    · exact h
    · refine ⟨h.file, h.tasks, fun other table heq => ?_⟩
      cases heq
      exact h.persisted dir
  | writeDirectory written =>
    simp only [ConfigWriters.next]
    split
    · exact h
    · rename_i dir table hdirectory
      split_ifs
      · have hwritten := h.write (h.directory dir table hdirectory)
        exact ⟨hwritten.file, hwritten.tasks, fun _ _ heq => by cases heq⟩
      · exact ⟨h.file, h.tasks, fun _ _ heq => by cases heq⟩
  | readVariant index =>
    simp only [ConfigWriters.next]
    split
    · exact h
    · rename_i task htask
      unfold ConfigWriters.readVariant
      split
      · rename_i table _ htable
        refine ⟨h.file, fun other hmem => ?_, h.directory⟩
        rcases List.mem_or_eq_of_mem_set hmem with hmem | rfl
        · exact h.tasks other hmem
        · rintro loaded hloaded
          cases hloaded
          exact h.insertText (.inl ⟨rfl, rfl⟩) htable
      · exact ⟨h.file, fun other hmem => h.tasks other (List.mem_of_mem_eraseIdx hmem),
          h.directory⟩
      · exact h
  | writeVariant index written =>
    simp only [ConfigWriters.next]
    split
    · exact h
    · rename_i task htask
      unfold ConfigWriters.writeVariant
      split
      · exact h
      · rename_i table htable
        have hother : ∀ other ∈ writers.tasks.eraseIdx index, ∀ loaded ∈ other.loaded,
            SameElse base loaded :=
          fun other hmem => h.tasks other (List.mem_of_mem_eraseIdx hmem)
        cases written with
        | false => exact ⟨h.file, hother, h.directory⟩
        | true =>
          have hwritten := h.write (h.tasks task (List.mem_of_getElem? htask) table htable)
          exact ⟨hwritten.file, hother, h.directory⟩
  | getState =>
    simp only [ConfigWriters.next]
    split_ifs
    · exact h
    · unfold syncWallpaperDirFromConfig
      split
      · split
        · exact ⟨h.file, h.tasks, h.directory⟩
        · exact h
      · exact h

/-- What a step does to the file. -/
theorem file_next (step : ConfigStep) :
    (writers.Writes step → ∃ table, (writers.next toml expandTilde step).file =
      .text (toml.print table)) ∧
    (¬ writers.Writes step → (writers.next toml expandTilde step).file = writers.file) := by
  cases step with
  | setSchemeVariant variant accepted =>
    refine ⟨False.elim, fun _ => ?_⟩
    simp only [ConfigWriters.next]
    split_ifs <;> rfl
  | setWallpaperDirectory dir accepted =>
    refine ⟨False.elim, fun _ => ?_⟩
    simp only [ConfigWriters.next]
    split_ifs <;> rfl
  | writeDirectory written =>
    simp only [ConfigWriters.next, Writes]
    split
    · rename_i hnone
      refine ⟨fun ⟨_, hsome⟩ => ?_, fun _ => rfl⟩
      rw [hnone] at hsome
      cases hsome
    · rename_i dir table hsome
      cases written with
      | false => exact ⟨(fun ⟨hfalse, _⟩ => by cases hfalse), fun _ => rfl⟩
      | true => exact ⟨fun _ => ⟨table, rfl⟩, fun hnot => absurd ⟨rfl, by rw [hsome]; rfl⟩ hnot⟩
  | readVariant index =>
    refine ⟨False.elim, fun _ => ?_⟩
    simp only [ConfigWriters.next]
    split
    · rfl
    · unfold ConfigWriters.readVariant
      split <;> rfl
  | writeVariant index written =>
    simp only [ConfigWriters.next, Writes]
    split
    · rename_i hnone
      refine ⟨fun ⟨_, task, htask, _⟩ => ?_, fun _ => rfl⟩
      rw [hnone] at htask
      cases htask
    · rename_i task htask
      unfold ConfigWriters.writeVariant
      split
      · rename_i hloaded
        refine ⟨fun ⟨_, other, hother, hsome⟩ => ?_, fun _ => rfl⟩
        obtain rfl := Option.some.inj (htask.symm.trans hother)
        rw [hloaded] at hsome
        cases hsome
      · rename_i table hloaded
        cases written with
        | false => exact ⟨(fun ⟨hfalse, _⟩ => by cases hfalse), fun _ => rfl⟩
        | true =>
          refine ⟨fun _ => ⟨table, rfl⟩, fun hnot => absurd ⟨rfl, task, htask, ?_⟩ hnot⟩
          rw [hloaded]
          rfl
  | getState =>
    refine ⟨False.elim, fun _ => ?_⟩
    simp only [ConfigWriters.next]
    split_ifs
    · rfl
    · unfold syncWallpaperDirFromConfig
      split
      · split <;> rfl
      · rfl

theorem Touched.keepsKeys_iff (h : Touched toml base writers) (step : ConfigStep) :
    writers.KeepsKeys toml expandTilde step ↔ writers.Spares toml step := by
  obtain ⟨hwrites, hspares⟩ := @file_next _ _ toml expandTilde writers step
  unfold KeepsKeys Spares
  cases htable : writers.file.table toml with
  | none =>
    refine ⟨fun hkeeps _ hwrite => ?_, fun hnot => hspares (hnot rfl)⟩
    obtain ⟨table, hfile⟩ := hwrites hwrite
    rw [← hkeeps, hfile, ConfigFile.table, toml.parse_print] at htable
    cases htable
  | some before =>
    refine iff_of_true ?_ fun hnone => by cases hnone
    have hbefore := h.file
    have hnext : Touched toml base (writers.next toml expandTilde step) := h.next step
    have hafter := hnext.file
    rw [htable] at hbefore
    obtain ⟨after, hsome⟩ : ∃ after,
        (writers.next toml expandTilde step).file.table toml = some after := by
      by_cases hwrite : writers.Writes step
      · obtain ⟨table, hfile⟩ := hwrites hwrite
        exact ⟨table, by rw [hfile, ConfigFile.table, toml.parse_print]⟩
      · exact ⟨before, by rw [hspares hwrite, htable]⟩
    rw [hsome] at hafter
    exact ⟨after, hsome, hbefore.symm.trans hafter⟩

end Keys

/-! ### The values that were set last -/

section Values

variable {toml : TomlText Text Value} {expandTilde : String → String}
  {writers : ConfigWriters Text Value} {current table : ConfigTable Value}

def HasVariant (table : ConfigTable Value) (variant : SchemeVariant) : Prop :=
  table.entryAt "theme" "scheme_variant" = some (.text variant.name)

def HasDirectory (table : ConfigTable Value) (dir : String) : Prop :=
  table.entryAt "desktop" "wallpaper_dir" = some (.text dir)

/-- What a task has loaded differs from the file in the variant, and only the first has loaded. -/
structure Loaded (current : ConfigTable Value) (task : VariantTask Value) : Prop where
  variant : ∀ table ∈ task.loaded, HasVariant table task.variant
  directory : ∀ table ∈ task.loaded, ∀ dir, HasDirectory current dir → HasDirectory table dir

/-- One at most is about to write, with what the others have written; and the last of the tasks has
the variant that was set last. -/
structure Orderly (toml : TomlText Text Value) (writers : ConfigWriters Text Value)
    (current : ConfigTable Value) : Prop where
  file : writers.file.table toml = some current
  alone : writers.directory.isSome → writers.Unloaded
  first : ∀ task ∈ writers.tasks.tail, task.loaded = none
  loaded : ∀ task ∈ writers.tasks, Loaded current task
  directory : ∀ dir table, writers.directory = some (dir, table) → HasDirectory table dir ∧
    ∀ variant, HasVariant current variant → HasVariant table variant
  lastTask : ∀ task ∈ writers.tasks.getLast?, writers.lastVariant = some task.variant
  variantSet : writers.tasks = [] → ∀ variant ∈ writers.lastVariant, HasVariant current variant
  directorySet : ∀ dir ∈ writers.lastDirectory, HasDirectory current dir

theorem Orderly.settled (h : Orderly toml writers current) : writers.Settled toml := by
  intro htasks _ table htable
  obtain rfl := Option.some.inj (h.file.symm.trans htable)
  exact ⟨h.variantSet htasks, h.directorySet⟩

theorem Loaded.of_none {task : VariantTask Value} (h : task.loaded = none) :
    Loaded current task := by
  constructor <;> intro table htable <;> rw [h] at htable <;> cases htable

theorem Orderly.setSchemeVariant (h : Orderly toml writers current) (variant : SchemeVariant)
    (hdirectory : ¬ writers.directory.isSome) :
    Orderly toml { writers with
      tasks := writers.tasks ++ [⟨variant, none⟩], lastVariant := some variant } current := by
  refine ⟨h.file, fun hsome => absurd hsome hdirectory, fun task hmem => ?_, fun task hmem => ?_,
    h.directory, fun task hlast => ?_, fun hnil => ?_, h.directorySet⟩
  · have htail : task ∈ writers.tasks.tail ++ [⟨variant, none⟩] := by
      cases htasks : writers.tasks with
      | nil => rw [htasks] at hmem; cases hmem
      | cons first rest => rw [htasks] at hmem; exact hmem
    rcases List.mem_append.mp htail with hmem | hmem
    · exact h.first task hmem
    · obtain rfl := List.mem_singleton.mp hmem
      rfl
  · rcases List.mem_append.mp hmem with hmem | hmem
    · exact h.loaded task hmem
    · obtain rfl := List.mem_singleton.mp hmem
      exact .of_none rfl
  · rw [List.getLast?_concat] at hlast
    obtain rfl := Option.some.inj hlast
    rfl
  · exact absurd hnil (by simp)

theorem Orderly.setWallpaperDirectory (h : Orderly toml writers current) (dir : String)
    (hunloaded : writers.Unloaded) (hsection : writers.HasSection toml "desktop") :
    Orderly toml { writers with
      wallpaperDir := dir,
      directory := some (dir, writers.persistWallpaperDirectoryConfig toml dir) } current := by
  obtain ⟨table, htable⟩ :=
    ConfigTable.exists_insertText (hsection current h.file) "wallpaper_dir" dir
  have hpersist : writers.persistWallpaperDirectoryConfig toml dir = table := by
    simp only [persistWallpaperDirectoryConfig, ConfigFile.parse_read h.file, Option.getD_some,
      htable]
  refine ⟨h.file, fun _ => hunloaded, h.first, h.loaded, ?_, h.lastTask, h.variantSet,
    h.directorySet⟩
  intro other written heq
  obtain ⟨rfl, rfl⟩ := Prod.mk.inj (Option.some.inj heq)
  rw [hpersist]
  refine ⟨ConfigTable.entryAt_insertText htable, fun variant hvariant => ?_⟩
  exact (ConfigTable.entryAt_insertText_of_ne htable (by decide)).trans hvariant

theorem Orderly.writeDirectory (h : Orderly toml writers current) {dir : String}
    (hdirectory : writers.directory = some (dir, table)) :
    Orderly toml { writers with
      file := .text (toml.print table), directory := none, lastDirectory := some dir } table := by
  obtain ⟨hset, hkept⟩ := h.directory dir table hdirectory
  have hunloaded : writers.Unloaded := h.alone (by rw [hdirectory]; rfl)
  refine ⟨toml.parse_print table, (fun hsome => by cases hsome), h.first, fun task hmem => ?_,
    (fun _ _ heq => by cases heq), h.lastTask, ?_, ?_⟩
  · exact .of_none (hunloaded task hmem)
  · exact fun hnil variant hlast => hkept variant (h.variantSet hnil variant hlast)
  · rintro other hlast
    obtain rfl := Option.some.inj hlast
    exact hset

/-- The first task reads. -/
theorem Orderly.readVariant (h : Orderly toml writers current) {task : VariantTask Value}
    {rest : List (VariantTask Value)} (htasks : writers.tasks = task :: rest)
    (hdirectory : writers.directory = none) (hsection : writers.HasSection toml "theme") :
    Orderly toml (writers.readVariant toml 0 task) current := by
  obtain ⟨table, htable⟩ :=
    ConfigTable.exists_insertText (hsection current h.file) "scheme_variant" task.variant.name
  have hwith : writers.withSchemeVariant toml task.variant = some table := by
    rw [withSchemeVariant, ConfigFile.parse_read h.file]
    exact htable
  have hfirst := h.first
  have hloaded := h.loaded
  have hlast := h.lastTask
  rw [htasks] at hfirst hloaded hlast
  unfold ConfigWriters.readVariant
  rw [hwith]
  cases htask : task.loaded with
  | some _ => exact h
  | none =>
    simp only [htasks, List.set_cons_zero]
    refine ⟨h.file, fun hsome => ?_, hfirst, fun other hmem => ?_, h.directory,
      fun other hother => ?_, (fun hnil => by cases hnil), h.directorySet⟩
    · rw [hdirectory] at hsome
      cases hsome
    · rcases List.mem_cons.mp hmem with rfl | hmem
      · refine ⟨?_, ?_⟩ <;> intro loaded hmem <;> obtain rfl := Option.some.inj hmem
        · exact ConfigTable.entryAt_insertText htable
        · exact fun dir hdir =>
            (ConfigTable.entryAt_insertText_of_ne htable (by decide)).trans hdir
      · exact hloaded other (List.mem_cons_of_mem _ hmem)
    · cases rest with
      | nil =>
        obtain rfl := Option.some.inj hother
        exact hlast task rfl
      | cons next rest => exact hlast other hother

/-- Only the first task can write. -/
theorem Orderly.writeVariant (h : Orderly toml writers current) {index : ℕ}
    {task : VariantTask Value} (htask : writers.tasks[index]? = some task)
    (htable : task.loaded = some table) :
    Orderly toml { writers with
      file := .text (toml.print table), tasks := writers.tasks.eraseIdx index } table := by
  have hmem := List.mem_of_getElem? htask
  obtain ⟨hvariant, hkept⟩ := h.loaded task hmem
  have hdirectory : writers.directory = none := by
    by_contra hne
    have hnone := h.alone (Option.isSome_iff_ne_none.mpr hne) task hmem
    rw [hnone] at htable
    cases htable
  obtain ⟨first, rest, htasks⟩ := List.exists_cons_of_ne_nil (List.ne_nil_of_mem hmem)
  have hfirst := h.first
  have hlast := h.lastTask
  rw [htasks] at hfirst hlast htask
  -- a task that is not the first has loaded nothing
  have hindex : index = 0 := by
    cases index with
    | zero => rfl
    | succ index =>
      have hnone := hfirst task (List.mem_of_getElem? htask)
      rw [hnone] at htable
      cases htable
  subst hindex
  obtain rfl : first = task := Option.some.inj htask
  rw [htasks, List.eraseIdx_cons_zero]
  refine ⟨toml.parse_print table, fun hsome => ?_, ?_, fun other hother => ?_, ?_, ?_, ?_, ?_⟩
  · rw [hdirectory] at hsome
    cases hsome
  · exact fun other hother => hfirst other (List.mem_of_mem_tail hother)
  · exact .of_none (hfirst other hother)
  · intro dir other heq
    rw [hdirectory] at heq
    cases heq
  · intro other hother
    cases rest with
    | nil => cases hother
    | cons next rest => exact hlast other hother
  · rintro rfl variant hset
    have hsame := hlast first rfl
    obtain rfl := Option.some.inj (hsame.symm.trans hset)
    exact hvariant table htable
  · exact fun dir hset => hkept table htable dir (h.directorySet dir hset)

theorem Orderly.sync (h : Orderly toml writers current) :
    Orderly toml (writers.syncWallpaperDirFromConfig toml expandTilde) current := by
  unfold syncWallpaperDirFromConfig
  split
  · split
    · exact ⟨h.file, h.alone, h.first, h.loaded, h.directory, h.lastTask, h.variantSet,
        h.directorySet⟩
    · exact h
  · exact h

theorem Orderly.next (h : Orderly toml writers current) {step : ConfigStep}
    (hturn : writers.InTurn toml step) :
    ∃ after, Orderly toml (writers.next toml expandTilde step) after := by
  cases step with
  | setSchemeVariant variant accepted =>
    obtain rfl : accepted = true := hturn
    simp only [ConfigWriters.next]
    split_ifs with hdirectory
    · exact ⟨current, h⟩
    · exact ⟨current, h.setSchemeVariant variant hdirectory⟩
  | setWallpaperDirectory dir accepted =>
    simp only [ConfigWriters.next]
    split_ifs with hbusy
    · exact ⟨current, h⟩
    · have haccepted : accepted = true := by
        cases accepted with
        | false => exact absurd (Bool.or_true _) hbusy
        | true => rfl
      obtain ⟨hunloaded, hsection⟩ := hturn haccepted
      exact ⟨current, h.setWallpaperDirectory dir hunloaded hsection⟩
  | writeDirectory written =>
    obtain rfl : written = true := hturn
    simp only [ConfigWriters.next]
    split
    · exact ⟨current, h⟩
    · rename_i dir table hdirectory
      exact ⟨table, h.writeDirectory hdirectory⟩
  | readVariant index =>
    obtain ⟨rfl, hdirectory, hsection⟩ := hturn
    simp only [ConfigWriters.next]
    split
    · exact ⟨current, h⟩
    · rename_i task htask
      obtain ⟨rest, htasks⟩ : ∃ rest, writers.tasks = task :: rest := by
        cases htasks : writers.tasks with
        | nil => rw [htasks] at htask; cases htask
        | cons first rest =>
          rw [htasks] at htask
          exact ⟨rest, by rw [Option.some.inj htask]⟩
      exact ⟨current, h.readVariant htasks hdirectory hsection⟩
  | writeVariant index written =>
    obtain rfl : written = true := hturn
    simp only [ConfigWriters.next]
    split
    · exact ⟨current, h⟩
    · rename_i task htask
      unfold ConfigWriters.writeVariant
      split
      · exact ⟨current, h⟩
      · rename_i table htable
        exact ⟨table, h.writeVariant htask htable⟩
  | getState =>
    simp only [ConfigWriters.next]
    split_ifs
    · exact ⟨current, h⟩
    · exact ⟨current, h.sync⟩

end Values

end ConfigWriters

/-! ### Runs -/

variable (toml : TomlText Text Value) (expandTilde : String → String) (file : ConfigFile Text)
  (wallpaperDir : String)

theorem ConfigWriters.keepsKeys_iff (steps : List ConfigStep) :
    Along (ConfigWriters.next toml expandTilde) (ConfigWriters.KeepsKeys toml expandTilde)
      (.start file wallpaperDir) steps ↔
    Along (ConfigWriters.next toml expandTilde) (ConfigWriters.Spares toml)
      (.start file wallpaperDir) steps := by
  refine along_congr (I := ConfigWriters.Touched toml ((file.table toml).getD ∅))
    (fun _ step h => h.next step) (fun _ step h => h.keepsKeys_iff step) ?_ steps
  exact ⟨.refl _, (fun _ hmem => by cases hmem), fun _ _ heq => by cases heq⟩

theorem ConfigWriters.settled {steps : List ConfigStep}
    (hturn : Along (ConfigWriters.next toml expandTilde)
      (fun writers step => writers.InTurn toml step ∧ writers.Spares toml step)
      (.start file wallpaperDir) steps) :
    (run (ConfigWriters.next toml expandTilde) (.start file wallpaperDir) steps).Settled toml := by
  -- a file that does not parse stays so
  have hrun := Along.holds
    (I := fun writers => (∃ current, ConfigWriters.Orderly toml writers current) ∨
      writers.file.table toml = none)
    (fun writers step h hstep => ?_) ?_ hturn
  · rcases hrun with ⟨current, horderly⟩ | hnone
    · exact horderly.settled
    · intro _ _ table htable
      rw [hnone] at htable
      cases htable
  · rcases h with ⟨current, horderly⟩ | hnone
    · exact .inl (horderly.next hstep.1)
    · refine .inr ?_
      rw [(ConfigWriters.file_next step).2 (hstep.2 hnone)]
      exact hnone
  · cases htable : file.table toml with
    | none => exact .inr htable
    | some base =>
      exact .inl ⟨base, htable, (fun hsome => by cases hsome), (fun _ hmem => by cases hmem),
        (fun _ hmem => by cases hmem), (fun _ _ heq => by cases heq),
        (fun _ hmem => by cases hmem), (fun _ _ hmem => by cases hmem),
        fun _ hmem => by cases hmem⟩

namespace Sample

/-- Tables are their own text; a text that does not parse is `none`. -/
def plainText : TomlText (Option (ConfigTable Unit)) Unit where
  parse := id
  print := some
  blank := some ∅
  parse_print _ := rfl
  parse_blank := rfl

def lostDirectory : List ConfigStep :=
  [.setSchemeVariant .auto true, .readVariant 0, .setWallpaperDirectory "/pictures" true,
    .writeDirectory true, .writeVariant 0 true]

/-- The same commands, one after the other. -/
def bothSet : List ConfigStep :=
  [.setSchemeVariant .auto true, .readVariant 0, .writeVariant 0 true,
    .setWallpaperDirectory "/pictures" true, .writeDirectory true]

/-- The writers, from a file of theirs. -/
abbrev writers (file : ConfigFile (Option (ConfigTable Unit))) :
    ConfigWriters (Option (ConfigTable Unit)) Unit := .start file "/home"

end Sample

end Shilpo.Theme
