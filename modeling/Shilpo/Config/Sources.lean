import Shilpo.Config.Validation
import Shilpo.Theory.Fallible

/-!
# The files of the configuration

`desktop/shilpo/src/config/source.rs` and `read_source_document` of `merge.rs`: the
primary document, the fragments under `conf.d` and the overrides, in this order, each read
and parsed.

The file system is what it answers. Names and texts are text; reading a file whose text is
not UTF-8 is an error like any other. `parseToml` is the parser of the TOML library.
-/

namespace Shilpo.Config

open Theory

/-! ### The file system -/

/-- Why the file system has no answer. -/
structure IoError where
  notFound : Bool
  text : String

/-- What is known of a file without reading it. -/
structure Metadata where
  isFile : Bool
  len : ℕ

/-- A state of the file system. A directory is the names in it. -/
structure FileSystem where
  metadata : String → Except IoError Metadata
  readDir : String → Except IoError (List (Except IoError String))
  readToString : String → Except IoError String

/-- A name in a directory. -/
def joinPath (dir name : String) : String :=
  if dir = "" then name
  else if dir.toList.getLast? = some '/' then dir ++ name
  else dir ++ "/" ++ name

/-- What follows the last dot of a name, if something is before it. -/
def fileExtension (name : String) : Option String :=
  let after := (name.toList.reverse.takeWhile (· ≠ '.')).reverse
  if name = ".." || name.toList.length ≤ after.length + 1 then none
  else some (String.ofList after)

/-! ### Discovery -/

/-- A document, and where it is. -/
structure DiscoveredSource where
  source : ConfigSource
  path : String
  deriving DecidableEq

/-- An answer, with what went wrong at a path as an error of the configuration. -/
def ioAt {α : Type} (path : String) : Except IoError α → Except ConfigError α
  | .ok a => .ok a
  | .error e => .error (.io path e.text)

/-- The same where it is no error that something is not there. -/
def ioIfFound {α : Type} (path : String) : Except IoError α → Except ConfigError (Option α)
  | .ok a => .ok (some a)
  | .error e => if e.notFound then .ok none else .error (.io path e.text)

/-- A file that is not empty. -/
def Metadata.hasText (m : Metadata) : Bool := m.isFile && 0 < m.len

namespace FileSystem

variable (fs : FileSystem)

/-- The document at a path, if there is one. -/
def discoverFile (source : String → ConfigSource) (path : String) :
    Except ConfigError (List DiscoveredSource) := do
  match ← ioIfFound path (fs.metadata path) with
  | some m => return if m.hasText then [⟨source path, path⟩] else []
  | none => return []

/-- An entry of the directory of fragments, if it is one. -/
def discoverFragment (confD : String) (entry : Except IoError String) :
    Except ConfigError (Option String) := do
  let name ← ioAt confD entry
  let m ← ioAt (joinPath confD name) (fs.metadata (joinPath confD name))
  return if fileExtension name = some "toml" && m.hasText then some name else none

/-- The fragments, by their names. -/
def discoverFragments (confD : String) : Except ConfigError (List DiscoveredSource) := do
  match ← ioIfFound confD (fs.readDir confD) with
  | some entries =>
    let names ← entries.mapM (fs.discoverFragment confD)
    return (names.reduceOption.mergeSort fun a b => a ≤ b).map fun name =>
      ⟨.fragment (joinPath confD name), joinPath confD name⟩
  | none => return []

/-- All documents of a configuration. -/
def tryDiscoverSources (configDir primaryPath : String) :
    Except ConfigError (List DiscoveredSource) := do
  let primary ← fs.discoverFile .primary primaryPath
  let fragments ← fs.discoverFragments (joinPath configDir "conf.d")
  let overrides ← fs.discoverFile .overrides (joinPath configDir "overrides.toml")
  return primary ++ fragments ++ overrides

end FileSystem

/-! ### Precedence -/

/-- At most the document at a path. -/
theorem discoverFile_eq_ok {fs : FileSystem} {source : String → ConfigSource} {path : String}
    {found : List DiscoveredSource} (h : fs.discoverFile source path = .ok found) :
    found = [] ∨ found = [⟨source path, path⟩] := by
  obtain ⟨m, -, h⟩ := bind_eq_ok.mp h
  cases m with
  | none =>
    cases h
    exact .inl rfl
  | some m =>
    cases h
    by_cases hm : m.hasText
    · exact .inr (if_pos hm)
    · exact .inl (if_neg hm)

/-- Fragments in the order of their names. -/
theorem discoverFragments_eq_ok {fs : FileSystem} {confD : String}
    {found : List DiscoveredSource} (h : fs.discoverFragments confD = .ok found) :
    ∃ names : List String, names.Pairwise (· ≤ ·) ∧
      found = names.map fun name => ⟨.fragment (joinPath confD name), joinPath confD name⟩ := by
  obtain ⟨entries, -, h⟩ := bind_eq_ok.mp h
  cases entries with
  | none =>
    cases h
    exact ⟨[], .nil, rfl⟩
  | some entries =>
    obtain ⟨names, -, h⟩ := bind_eq_ok.mp h
    cases h
    refine ⟨names.reduceOption.mergeSort fun a b => a ≤ b, ?_, rfl⟩
    have hsorted := @List.pairwise_mergeSort String (fun a b => a ≤ b)
      (by simpa using fun a b c => le_trans) (by simpa using fun a b => le_total a b)
      names.reduceOption
    simpa using hsorted

/-- **Precedence.** What is laid over the defaults is the primary document, the fragments in the
order of their names and the overrides, in this order. -/
theorem tryDiscoverSources_eq_ok {fs : FileSystem} {configDir primaryPath : String}
    {sources : List DiscoveredSource}
    (h : fs.tryDiscoverSources configDir primaryPath = .ok sources) :
    ∃ (primary overrides : List DiscoveredSource) (names : List String),
      (primary = [] ∨ primary = [⟨.primary primaryPath, primaryPath⟩]) ∧
      names.Pairwise (· ≤ ·) ∧
      (overrides = [] ∨ overrides =
        [⟨.overrides (joinPath configDir "overrides.toml"),
          joinPath configDir "overrides.toml"⟩]) ∧
      sources = primary ++
        (names.map fun name =>
          ⟨.fragment (joinPath (joinPath configDir "conf.d") name),
            joinPath (joinPath configDir "conf.d") name⟩) ++ overrides := by
  obtain ⟨primary, hprimary, h⟩ := bind_eq_ok.mp h
  obtain ⟨fragments, hfragments, h⟩ := bind_eq_ok.mp h
  obtain ⟨overrides, hoverrides, h⟩ := bind_eq_ok.mp h
  obtain ⟨names, hnames, rfl⟩ := discoverFragments_eq_ok hfragments
  cases h
  exact ⟨primary, overrides, names, discoverFile_eq_ok hprimary, hnames,
    discoverFile_eq_ok hoverrides, rfl⟩

/-! ### Reading -/

/-- What the TOML library says in place of a value. -/
structure TomlError where
  message : String
  span : Option (ℕ × ℕ)

/-- A value, with the error of the TOML library as one about a path. -/
def tomlAt {α : Type} (path : String) : Except TomlError α → Except ConfigError α
  | .ok a => .ok a
  | .error e => .error (.parse ⟨path, e.message, e.span⟩)

section

variable (parseToml : String → Except TomlError Document) (fs : FileSystem)

/-- The document at a path, with its text. -/
def readSourceDocument (path : String) : Except ConfigError (Document × String) := do
  let text ← ioAt path (fs.readToString path)
  let doc ← tomlAt path (parseToml text)
  return (doc, text)

/-- A document that is laid over those before it. -/
structure LoadedSource where
  source : ConfigSource
  path : String
  doc : Document
  text : String

/-- A document that has been found, unless there is nothing but white space in it. -/
def loadSource (disc : DiscoveredSource) : Except ConfigError (Option LoadedSource) := do
  let (doc, text) ← readSourceDocument parseToml fs disc.path
  return if isBlank text then none else some ⟨disc.source, disc.path, doc, text⟩

end

end Shilpo.Config
