import Shilpo.Config.Resolver

/-!
# Validation before a write

`resolve_candidate_with_overrides` and `resolve_candidate_with_primary` of
`desktop/shilpo/src/config/resolver.rs` resolve the configuration with a text in place of
a file, before the text is written to it. What they accept is what `resolve_candidate`
finds after the write (`prewrite_agrees_iff`), but for a text of white space that is no
TOML: before the write it is not parsed, and after it it is (`blank_text_rejected_later`).
-/

namespace Shilpo.Config

open Theory

/-! ### Resolving with a text in place of a file -/

/-- The primary document. -/
def ConfigSource.isPrimary : ConfigSource → Bool
  | .primary _ => true
  | _ => false

/-- The overrides. -/
def ConfigSource.isOverrides : ConfigSource → Bool
  | .overrides _ => true
  | _ => false

/-- Whether the document has a key. -/
def Document.containsKey (doc : Document) (key : String) : Bool :=
  (doc.entries.lookup key).isSome

/-- What is wrong with overrides that have a version. -/
def overridesVersionError (path : String) (doc : Document) : ConfigError :=
  let message := "config " ++ path ++ ": 'version' belongs only to the primary document"
  match doc.entries.lookup "version" with
  | some (.scalar (.integer v)) =>
    -- the version as the 64 bits of it are read without a sign
    .validation [.new path (message ++ " (found version " ++ toString (v % 2 ^ 64) ++ ")")]
  | _ => .validation [.new path message]

section

variable (lib : Library) (fs : FileSystem)

/-- The document of the defaults, before anything is merged over it. -/
def initialMerged : Merged :=
  ⟨(initialMergedDocument lib).1, (initialMergedDocument lib).2, [.defaults], []⟩

/-- A document that has been found is read and merged. -/
def mergeDiscovered (merged : Merged) (disc : DiscoveredSource) : Except ConfigError Merged := do
  let (doc, text) ← readSourceDocument lib.parseToml fs disc.path
  return mergeLoadedSource lib merged ⟨disc.source, disc.path, doc, text⟩

/-- The same where no document but the primary one may have a version. -/
def mergeUnversioned (merged : Merged) (disc : DiscoveredSource) : Except ConfigError Merged := do
  let (doc, text) ← readSourceDocument lib.parseToml fs disc.path
  if !disc.source.isPrimary && doc.containsKey "version" then
    .error (.validation [.new disc.path "'version' belongs only to the primary document"])
  else
    return mergeLoadedSource lib merged ⟨disc.source, disc.path, doc, text⟩

namespace ConfigResolver

variable (resolver : ConfigResolver)

/-- Where overrides are. -/
def overridesPath : String := joinPath resolver.configDir "overrides.toml"

/-- The documents that there are, or none if that is not known. -/
def discoverSources : List DiscoveredSource :=
  match fs.tryDiscoverSources resolver.configDir resolver.primaryPath with
  | .ok discovered => discovered
  | .error _ => []

/-- The configuration of the merged documents. -/
def candidateOf (merged : Merged) : Except ConfigError Candidate := do
  let config ← resolver.parseMerged lib merged.document
  return ⟨config, merged.provenance, merged.sourcesLoaded, merged.unknownKeys⟩

/-- The configuration as it would be with this text as the primary document. -/
def resolveCandidateWithPrimary (primaryToml : String) : Except ConfigError Candidate := do
  let doc ← tomlAt resolver.primaryPath (lib.parseToml primaryToml)
  let merged := mergeLoadedSource lib (initialMerged lib)
    ⟨.primary resolver.primaryPath, resolver.primaryPath, doc, primaryToml⟩
  let merged ← ((resolver.discoverSources fs).filter fun disc => !disc.source.isPrimary).foldlM
    (mergeDiscovered lib fs) merged
  resolver.candidateOf lib merged

/-- The configuration as it would be with this text as the overrides. -/
def resolveCandidateWithOverrides (overridesToml : String) : Except ConfigError Candidate := do
  let merged ← ((resolver.discoverSources fs).filter fun disc =>
    !disc.source.isOverrides).foldlM (mergeUnversioned lib fs) (initialMerged lib)
  if isBlank overridesToml then resolver.candidateOf lib merged
  else
    let doc ← tomlAt resolver.overridesPath (lib.parseToml overridesToml)
    if doc.containsKey "version" then .error (overridesVersionError resolver.overridesPath doc)
    else
      resolver.candidateOf lib (mergeLoadedSource lib merged
        ⟨.overrides resolver.overridesPath, resolver.overridesPath, doc, overridesToml⟩)

end ConfigResolver

end

/-! ### Writing a file -/

/-- The file system with a text at a path. -/
def FileSystem.write (fs : FileSystem) (path text : String) : FileSystem where
  metadata p := if p = path then .ok ⟨true, byteLength text.toList⟩ else fs.metadata p
  readDir := fs.readDir
  readToString p := if p = path then .ok text else fs.readToString p

/-- Names in a directory have one start. -/
theorem joinPath_eq (dir : String) : ∃ start, ∀ name, joinPath dir name = start ++ name := by
  unfold joinPath
  split_ifs
  · exact ⟨"", fun name => String.empty_append.symm⟩
  · exact ⟨dir, fun name => rfl⟩
  · exact ⟨dir ++ "/", fun name => rfl⟩

theorem joinPath_inj {dir a b : String} (h : joinPath dir a = joinPath dir b) : a = b := by
  obtain ⟨start, hstart⟩ := joinPath_eq dir
  rw [hstart, hstart] at h
  exact (String.append_right_inj _).mp h

/-- A name in `conf.d` is one in the directory that starts so. -/
theorem joinPath_confD (dir name : String) :
    joinPath (joinPath dir "conf.d") name = joinPath dir ("conf.d" ++ "/" ++ name) := by
  obtain ⟨start, hstart⟩ := joinPath_eq dir
  rw [hstart, hstart]
  have hlast : (start ++ "conf.d").toList.getLast? = some 'd' := by
    simp [String.toList_append, List.getLast?_append]
  have hne : start ++ "conf.d" ≠ "" := by
    intro h
    rw [h] at hlast
    cases hlast
  rw [joinPath, if_neg hne, if_neg (by rw [hlast]; decide)]
  simp only [String.append_assoc]

theorem fragment_ne_overrides (dir name : String) :
    joinPath (joinPath dir "conf.d") name ≠ joinPath dir "overrides.toml" := by
  rw [joinPath_confD]
  intro h
  have hname := congrArg String.toList (joinPath_inj h)
  simp [String.toList_append] at hname

theorem fragment_ne_primary (dir name : String) :
    joinPath (joinPath dir "conf.d") name ≠ joinPath dir "config.toml" := by
  rw [joinPath_confD]
  intro h
  have hname := congrArg String.toList (joinPath_inj h)
  simp [String.toList_append] at hname

section

variable {fs : FileSystem} {path text : String}

theorem byteLength_pos : 0 < byteLength text.toList ↔ text ≠ "" := by
  rw [ne_eq, ← String.toList_eq_nil_iff]
  cases text.toList with
  | nil => simp [byteLength]
  | cons c rest => simp [byteLength, c.utf8Size_pos]

theorem discoverFile_write (source : String → ConfigSource) :
    (fs.write path text).discoverFile source path =
      .ok (if text = "" then [] else [⟨source path, path⟩]) := by
  simp only [FileSystem.discoverFile, FileSystem.write, if_true, ioIfFound, Metadata.hasText,
    bind, Except.bind, Bool.true_and, decide_eq_true_eq, byteLength_pos, ite_not]
  rfl

theorem discoverFile_write_of_ne {path' : String} (source : String → ConfigSource)
    (h : path' ≠ path) :
    (fs.write path text).discoverFile source path' = fs.discoverFile source path' := by
  simp only [FileSystem.discoverFile, FileSystem.write, if_neg h]

theorem discoverFragments_write {confD : String} (h : ∀ name, joinPath confD name ≠ path) :
    (fs.write path text).discoverFragments confD = fs.discoverFragments confD := by
  have hfragment : (fs.write path text).discoverFragment confD = fs.discoverFragment confD := by
    funext entry
    simp only [FileSystem.discoverFragment, FileSystem.write, if_neg (h _)]
  simp only [FileSystem.discoverFragments, hfragment]
  rfl

variable {parseToml : String → Except TomlError Document}

theorem loadSource_write_of_ne {disc : DiscoveredSource} (h : disc.path ≠ path) :
    loadSource parseToml (fs.write path text) disc = loadSource parseToml fs disc := by
  simp only [loadSource, readSourceDocument, FileSystem.write, if_neg h]

theorem loadSource_write {source : ConfigSource} {doc : Document} (h : parseToml text = .ok doc) :
    loadSource parseToml (fs.write path text) ⟨source, path⟩ =
      .ok (if isBlank text then none else some ⟨source, path, doc, text⟩) := by
  simp only [loadSource, readSourceDocument, FileSystem.write, if_true, ioAt, bind, Except.bind, h]
  rfl

theorem loadSource_write_of_error {source : ConfigSource} {e : TomlError}
    (h : parseToml text = .error e) :
    loadSource parseToml (fs.write path text) ⟨source, path⟩ =
      .error (.parse ⟨path, e.message, e.span⟩) := by
  simp only [loadSource, readSourceDocument, FileSystem.write, if_true, ioAt, bind, Except.bind, h]
  rfl

end

/-! ### The same documents merged -/

/-- The same but for the sources that are listed. -/
structure Merged.Agrees (m m' : Merged) : Prop where
  document : m.document = m'.document
  provenance : m.provenance = m'.provenance
  unknownKeys : m.unknownKeys = m'.unknownKeys

/-- The same but for the sources that are listed. -/
structure Candidate.Agrees (c c' : Candidate) : Prop where
  config : c.config = c'.config
  provenance : c.provenance = c'.provenance
  unknownKeys : c.unknownKeys = c'.unknownKeys

/-- The library with the walk that takes out what a shape does not have. -/
def Library.sanitizing (lib : Library) (shape : SchemaShape) : Library :=
  { lib with sanitizeDocument := Config.sanitizeDocument shape }

section

variable {lib : Library} {shape : SchemaShape} {m m' : Merged}

theorem Merged.Agrees.refl (m : Merged) : m.Agrees m := ⟨rfl, rfl, rfl⟩

theorem Merged.Agrees.merge (h : m.Agrees m') (loaded : LoadedSource) :
    (mergeLoadedSource lib m loaded).Agrees (mergeLoadedSource lib m' loaded) := by
  obtain ⟨hdocument, hprovenance, hunknown⟩ := h
  constructor
  · simp only [mergeLoadedSource, hdocument, hprovenance]
  · simp only [mergeLoadedSource, hdocument, hprovenance]
  · simp only [mergeLoadedSource, hunknown]

/-- Merging a document without entries changes nothing but the list of sources. -/
theorem merge_empty {loaded : LoadedSource} (h : loaded.doc.entries = []) (hm : m.Agrees m') :
    (mergeLoadedSource (lib.sanitizing shape) m loaded).Agrees m' := by
  obtain ⟨source, path, ⟨entries, hwf⟩, text⟩ := loaded
  obtain rfl : entries = [] := h
  obtain ⟨hdocument, hprovenance, hunknown⟩ := hm
  cases shape with
  | object fields additional =>
    exact ⟨hdocument, hprovenance, (List.append_nil _).trans hunknown⟩
  | array | «open» | leaf => exact ⟨hdocument, hprovenance, (List.append_nil _).trans hunknown⟩

theorem tomlAt_eq_ok {α : Type} {path : String} {result : Except TomlError α} {a : α} :
    tomlAt path result = .ok a ↔ result = .ok a := by
  cases result <;> simp [tomlAt]

theorem parseToml_of_read {parseToml : String → Except TomlError Document} {fs : FileSystem}
    {path text : String} {doc : Document}
    (h : readSourceDocument parseToml fs path = .ok (doc, text)) : parseToml text = .ok doc := by
  obtain ⟨text', -, h⟩ := bind_eq_ok.mp h
  obtain ⟨doc', hparse, h⟩ := bind_eq_ok.mp h
  cases h
  exact tomlAt_eq_ok.mp hparse

theorem loadSource_of_read {parseToml : String → Except TomlError Document} {fs : FileSystem}
    {disc : DiscoveredSource} {text : String} {doc : Document}
    (h : readSourceDocument parseToml fs disc.path = .ok (doc, text)) :
    loadSource parseToml fs disc =
      .ok (if isBlank text then none else some ⟨disc.source, disc.path, doc, text⟩) := by
  rw [loadSource, h]
  rfl

/-- A loop that merges what it reads has merged what is loaded without blank documents. -/
theorem foldlM_merge {fs : FileSystem}
    {step : Merged → DiscoveredSource → Except ConfigError Merged}
    (hblank : ∀ text doc, isBlank text → lib.parseToml text = .ok doc → doc.entries = [])
    (hstep : ∀ m disc result, step m disc = .ok result → ∃ doc text,
      readSourceDocument lib.parseToml fs disc.path = .ok (doc, text) ∧
        result = mergeLoadedSource (lib.sanitizing shape) m ⟨disc.source, disc.path, doc, text⟩)
    {discovered : List DiscoveredSource} {result : Merged} (hm : m.Agrees m')
    (h : discovered.foldlM step m = .ok result) :
    ∃ loaded, discovered.mapM (loadSource lib.parseToml fs) = .ok loaded ∧
      result.Agrees (loaded.reduceOption.foldl (mergeLoadedSource (lib.sanitizing shape)) m') := by
  induction discovered generalizing m m' with
  | nil =>
    cases h
    exact ⟨[], rfl, hm⟩
  | cons disc discovered ih =>
    rw [List.foldlM_cons] at h
    obtain ⟨next, hnext, h⟩ := bind_eq_ok.mp h
    obtain ⟨doc, text, hread, rfl⟩ := hstep m disc next hnext
    have hload := loadSource_of_read hread
    by_cases htext : isBlank text
    · -- what is blank has no entries, and is not loaded
      have hdoc := hblank text doc htext (parseToml_of_read hread)
      obtain ⟨loaded, hloaded, hresult⟩ := ih (merge_empty hdoc hm) h
      rw [if_pos htext] at hload
      refine ⟨none :: loaded, ?_, hresult⟩
      rw [List.mapM_cons, hload, hloaded]
      rfl
    · obtain ⟨loaded, hloaded, hresult⟩ := ih (hm.merge _) h
      rw [if_neg htext] at hload
      refine ⟨some _ :: loaded, ?_, hresult⟩
      rw [List.mapM_cons, hload, hloaded]
      rfl

theorem unversioned_step {fs : FileSystem} (m : Merged) (disc : DiscoveredSource)
    (result : Merged) (h : mergeUnversioned lib fs m disc = .ok result) :
    ∃ doc text, readSourceDocument lib.parseToml fs disc.path = .ok (doc, text) ∧
      result = mergeLoadedSource lib m ⟨disc.source, disc.path, doc, text⟩ := by
  obtain ⟨⟨doc, text⟩, hread, h⟩ := bind_eq_ok.mp h
  dsimp only at h
  split_ifs at h
  cases h
  exact ⟨doc, text, hread, rfl⟩

theorem discovered_step {fs : FileSystem} (m : Merged) (disc : DiscoveredSource)
    (result : Merged) (h : mergeDiscovered lib fs m disc = .ok result) :
    ∃ doc text, readSourceDocument lib.parseToml fs disc.path = .ok (doc, text) ∧
      result = mergeLoadedSource lib m ⟨disc.source, disc.path, doc, text⟩ := by
  obtain ⟨⟨doc, text⟩, hread, h⟩ := bind_eq_ok.mp h
  cases h
  exact ⟨doc, text, hread, rfl⟩

theorem Merged.Agrees.candidateOf {resolver : ConfigResolver} {candidate : Candidate}
    (hm : m.Agrees m') (h : resolver.candidateOf lib m = .ok candidate) :
    ∃ found, resolver.candidateOf lib m' = .ok found ∧ found.Agrees candidate := by
  obtain ⟨config, hconfig, h⟩ := bind_eq_ok.mp h
  cases h
  rw [hm.document] at hconfig
  refine ⟨_, bind_eq_ok.mpr ⟨config, hconfig, rfl⟩, ?_⟩
  exact ⟨rfl, hm.provenance.symm, hm.unknownKeys.symm⟩

theorem resolveCandidate_of_error {fs : FileSystem} {resolver : ConfigResolver}
    {discovered : List DiscoveredSource} {err : ConfigError}
    (hdiscovered :
      fs.tryDiscoverSources resolver.configDir resolver.primaryPath = .ok discovered)
    (hloaded : discovered.mapM (loadSource lib.parseToml fs) = .error err) :
    resolver.resolveCandidate lib fs = .error err := by
  simp only [ConfigResolver.resolveCandidate, ConfigResolver.loadSourceDocuments, hdiscovered,
    bind, Except.bind, hloaded]

theorem mergeLoadedSources_eq (lib : Library) (loaded : List LoadedSource) :
    mergeLoadedSources lib loaded = loaded.foldl (mergeLoadedSource lib) (initialMerged lib) :=
  rfl

/-- What is resolved from what is loaded. -/
theorem resolveCandidate_of_loaded {fs : FileSystem} {resolver : ConfigResolver}
    {discovered : List DiscoveredSource} {loaded : List (Option LoadedSource)}
    (hdiscovered :
      fs.tryDiscoverSources resolver.configDir resolver.primaryPath = .ok discovered)
    (hloaded : discovered.mapM (loadSource lib.parseToml fs) = .ok loaded) :
    resolver.resolveCandidate lib fs =
      resolver.candidateOf lib (mergeLoadedSources lib loaded.reduceOption) := by
  simp only [ConfigResolver.resolveCandidate, ConfigResolver.loadSourceDocuments, hdiscovered,
    bind, Except.bind, hloaded]
  rfl

end

/-! ### The same documents found -/

/-- Where the primary document is. -/
def primaryAt (configDir : String) : DiscoveredSource :=
  ⟨.primary (joinPath configDir "config.toml"), joinPath configDir "config.toml"⟩

/-- Where overrides are. -/
def overridesAt (configDir : String) : DiscoveredSource :=
  ⟨.overrides (joinPath configDir "overrides.toml"), joinPath configDir "overrides.toml"⟩

/-- A document that has been read. -/
def DiscoveredSource.loaded (disc : DiscoveredSource) (doc : Document) (text : String) :
    LoadedSource :=
  ⟨disc.source, disc.path, doc, text⟩

/-- What is found before and after a file is written, part by part. -/
structure Discovered (fs : FileSystem) (configDir : String) where
  primary : List DiscoveredSource
  fragments : List DiscoveredSource
  overrides : List DiscoveredSource
  primary_eq : fs.discoverFile .primary (joinPath configDir "config.toml") = .ok primary
  fragments_eq : fs.discoverFragments (joinPath configDir "conf.d") = .ok fragments
  overrides_eq :
    fs.discoverFile .overrides (joinPath configDir "overrides.toml") = .ok overrides

section

variable {fs : FileSystem} {configDir text : String}

theorem exists_discovered {discovered : List DiscoveredSource}
    (h : fs.tryDiscoverSources configDir (joinPath configDir "config.toml") = .ok discovered) :
    ∃ parts : Discovered fs configDir,
      discovered = parts.primary ++ parts.fragments ++ parts.overrides := by
  obtain ⟨primary, hprimary, h⟩ := bind_eq_ok.mp h
  obtain ⟨fragments, hfragments, h⟩ := bind_eq_ok.mp h
  obtain ⟨overrides, hoverrides, h⟩ := bind_eq_ok.mp h
  cases h
  exact ⟨⟨primary, fragments, overrides, hprimary, hfragments, hoverrides⟩, rfl⟩

namespace Discovered

variable (parts : Discovered fs configDir)

theorem fragment_of_mem {disc : DiscoveredSource} (h : disc ∈ parts.fragments) :
    ∃ name, disc = ⟨.fragment (joinPath (joinPath configDir "conf.d") name),
      joinPath (joinPath configDir "conf.d") name⟩ := by
  obtain ⟨names, -, hnames⟩ := discoverFragments_eq_ok parts.fragments_eq
  rw [hnames, List.mem_map] at h
  obtain ⟨name, -, rfl⟩ := h
  exact ⟨name, rfl⟩

theorem primary_of_mem {disc : DiscoveredSource} (h : disc ∈ parts.primary) :
    disc = primaryAt configDir := by
  obtain hnil | hone := discoverFile_eq_ok parts.primary_eq
  · rw [hnil] at h
    cases h
  · rw [hone] at h
    exact List.mem_singleton.mp h

theorem overrides_of_mem {disc : DiscoveredSource} (h : disc ∈ parts.overrides) :
    disc = overridesAt configDir := by
  obtain hnil | hone := discoverFile_eq_ok parts.overrides_eq
  · rw [hnil] at h
    cases h
  · rw [hone] at h
    exact List.mem_singleton.mp h

theorem filter_overrides :
    (parts.primary ++ parts.fragments ++ parts.overrides).filter
      (fun disc => !disc.source.isOverrides) = parts.primary ++ parts.fragments := by
  rw [List.filter_append, List.filter_eq_self.mpr, List.filter_eq_nil_iff.mpr, List.append_nil]
  · intro disc h
    rw [parts.overrides_of_mem h]
    exact Bool.false_ne_true
  · intro disc h
    obtain h | h := List.mem_append.mp h
    · rw [parts.primary_of_mem h]
      rfl
    · obtain ⟨name, rfl⟩ := parts.fragment_of_mem h
      rfl

theorem filter_primary :
    (parts.primary ++ parts.fragments ++ parts.overrides).filter
      (fun disc => !disc.source.isPrimary) = parts.fragments ++ parts.overrides := by
  rw [List.append_assoc, List.filter_append, List.filter_eq_nil_iff.mpr,
    List.filter_eq_self.mpr, List.nil_append]
  · intro disc h
    obtain h | h := List.mem_append.mp h
    · obtain ⟨name, rfl⟩ := parts.fragment_of_mem h
      rfl
    · rw [parts.overrides_of_mem h]
      rfl
  · intro disc h
    rw [parts.primary_of_mem h]
    exact Bool.false_ne_true

/-- With overrides written, these are found last, unless they are empty. -/
theorem write_overrides :
    (fs.write (joinPath configDir "overrides.toml") text).tryDiscoverSources configDir
        (joinPath configDir "config.toml") =
      .ok (parts.primary ++ parts.fragments ++
        if text = "" then [] else [overridesAt configDir]) := by
  have hne : joinPath configDir "config.toml" ≠ joinPath configDir "overrides.toml" :=
    fun h => absurd (joinPath_inj h) (by decide)
  rw [FileSystem.tryDiscoverSources, discoverFile_write_of_ne _ hne, parts.primary_eq,
    discoverFragments_write (fragment_ne_overrides configDir), parts.fragments_eq,
    discoverFile_write]
  rfl

/-- With a primary document written, it is found first. -/
theorem write_primary (htext : text ≠ "") :
    (fs.write (joinPath configDir "config.toml") text).tryDiscoverSources configDir
        (joinPath configDir "config.toml") =
      .ok (primaryAt configDir :: (parts.fragments ++ parts.overrides)) := by
  have hne : joinPath configDir "overrides.toml" ≠ joinPath configDir "config.toml" :=
    fun h => absurd (joinPath_inj h) (by decide)
  rw [FileSystem.tryDiscoverSources, discoverFile_write, if_neg htext,
    discoverFragments_write (fragment_ne_primary configDir), parts.fragments_eq,
    discoverFile_write_of_ne _ hne, parts.overrides_eq]
  rfl

end Discovered

theorem mapM_loadSource_write {parseToml : String → Except TomlError Document} {path : String}
    {discovered : List DiscoveredSource} (h : ∀ disc ∈ discovered, disc.path ≠ path) :
    discovered.mapM (loadSource parseToml (fs.write path text)) =
      discovered.mapM (loadSource parseToml fs) := by
  induction discovered with
  | nil => rfl
  | cons disc discovered ih =>
    rw [List.forall_mem_cons] at h
    rw [List.mapM_cons, List.mapM_cons, loadSource_write_of_ne h.1, ih h.2]

end

/-! ### Agreement -/

section

variable (lib : Library) (shape : SchemaShape) (fs : FileSystem) (configDir text : String)

/-- What is accepted with a text as the overrides, or as the primary document if the text is not
blank, is what is found once the text is written. -/
structure PrewriteAgrees : Prop where
  overrides : ∀ candidate : Candidate,
    (ConfigResolver.new configDir).resolveCandidateWithOverrides (lib.sanitizing shape) fs text =
        .ok candidate →
      ∃ found : Candidate, (ConfigResolver.new configDir).resolveCandidate
          (lib.sanitizing shape) (fs.write (joinPath configDir "overrides.toml") text) =
          .ok found ∧ found.Agrees candidate
  primary : ¬ isBlank text → ∀ candidate : Candidate,
    (ConfigResolver.new configDir).resolveCandidateWithPrimary (lib.sanitizing shape) fs text =
        .ok candidate →
      ∃ found : Candidate, (ConfigResolver.new configDir).resolveCandidate
          (lib.sanitizing shape) (fs.write (joinPath configDir "config.toml") text) =
          .ok found ∧ found.Agrees candidate

/-- What is in the directory can be listed. -/
def Readable : Prop :=
  ∃ discovered, fs.tryDiscoverSources configDir (joinPath configDir "config.toml") =
    .ok discovered

/-- A text of white space is empty, or is TOML. -/
def BlankParses : Prop := isBlank text → text = "" ∨ ∃ doc, lib.parseToml text = .ok doc

variable {lib shape fs configDir text}

/-- With a primary document that is not blank there is always agreement. -/
theorem primary_agrees {parts : Discovered fs configDir}
    (hdiscovered : fs.tryDiscoverSources configDir (joinPath configDir "config.toml") =
      .ok (parts.primary ++ parts.fragments ++ parts.overrides))
    (hblank : ∀ text doc, isBlank text → lib.parseToml text = .ok doc → doc.entries = [])
    (htext : ¬ isBlank text) {candidate : Candidate}
    (h : (ConfigResolver.new configDir).resolveCandidateWithPrimary (lib.sanitizing shape) fs
      text = .ok candidate) :
    ∃ found : Candidate, (ConfigResolver.new configDir).resolveCandidate (lib.sanitizing shape)
        (fs.write (joinPath configDir "config.toml") text) = .ok found ∧
      found.Agrees candidate := by
  have hne : text ≠ "" := by
    rintro rfl
    exact htext rfl
  obtain ⟨doc, hdoc, h⟩ := bind_eq_ok.mp h
  obtain ⟨merged, hmerged, h⟩ := bind_eq_ok.mp h
  simp only [ConfigResolver.discoverSources, ConfigResolver.new, hdiscovered,
    parts.filter_primary] at hmerged
  obtain ⟨loaded, hloaded, hagrees⟩ :=
    foldlM_merge hblank discovered_step (.refl _) hmerged
  have hrest : ∀ disc ∈ parts.fragments ++ parts.overrides,
      disc.path ≠ joinPath configDir "config.toml" := by
    intro disc hdisc
    obtain hdisc | hdisc := List.mem_append.mp hdisc
    · obtain ⟨name, rfl⟩ := parts.fragment_of_mem hdisc
      exact fragment_ne_primary configDir name
    · rw [parts.overrides_of_mem hdisc]
      exact fun h => absurd (joinPath_inj h) (by decide)
  have hparse : lib.parseToml text = .ok doc := tomlAt_eq_ok.mp hdoc
  have hwritten : (primaryAt configDir :: (parts.fragments ++ parts.overrides)).mapM
      (loadSource lib.parseToml (fs.write (joinPath configDir "config.toml") text)) =
      .ok (some ((primaryAt configDir).loaded doc text) :: loaded) := by
    rw [List.mapM_cons, primaryAt, loadSource_write hparse, mapM_loadSource_write hrest, hloaded,
      if_neg htext]
    rfl
  rw [@resolveCandidate_of_loaded (lib.sanitizing shape) _ (.new configDir) _ _
    (parts.write_primary hne) hwritten]
  exact hagrees.candidateOf h

/-- With overrides that are not blank too, and with blank ones if they are parsed. -/
theorem overrides_agree_iff {parts : Discovered fs configDir}
    (hdiscovered : fs.tryDiscoverSources configDir (joinPath configDir "config.toml") =
      .ok (parts.primary ++ parts.fragments ++ parts.overrides))
    (hblank : ∀ text doc, isBlank text → lib.parseToml text = .ok doc → doc.entries = [])
    {candidate : Candidate}
    (h : (ConfigResolver.new configDir).resolveCandidateWithOverrides (lib.sanitizing shape) fs
      text = .ok candidate) :
    (∃ found : Candidate, (ConfigResolver.new configDir).resolveCandidate (lib.sanitizing shape)
        (fs.write (joinPath configDir "overrides.toml") text) = .ok found ∧
      found.Agrees candidate) ↔ BlankParses lib text := by
  obtain ⟨merged, hmerged, h⟩ := bind_eq_ok.mp h
  simp only [ConfigResolver.discoverSources, ConfigResolver.new, hdiscovered,
    parts.filter_overrides] at hmerged
  obtain ⟨loaded, hloaded, hagrees⟩ :=
    foldlM_merge hblank unversioned_step (.refl _) hmerged
  have hrest : ∀ disc ∈ parts.primary ++ parts.fragments,
      disc.path ≠ joinPath configDir "overrides.toml" := by
    intro disc hdisc
    obtain hdisc | hdisc := List.mem_append.mp hdisc
    · rw [parts.primary_of_mem hdisc]
      exact fun h => absurd (joinPath_inj h) (by decide)
    · obtain ⟨name, rfl⟩ := parts.fragment_of_mem hdisc
      exact fragment_ne_overrides configDir name
  have hloaded' : (parts.primary ++ parts.fragments).mapM (loadSource lib.parseToml
      (fs.write (joinPath configDir "overrides.toml") text)) = .ok loaded := by
    rw [mapM_loadSource_write hrest, hloaded]
  by_cases hempty : text = ""
  · subst hempty
    have hnil : isBlank "" = true := rfl
    have hwritten := @Discovered.write_overrides fs configDir "" parts
    rw [if_pos rfl, List.append_nil] at hwritten
    rw [@resolveCandidate_of_loaded (lib.sanitizing shape) _ (.new configDir) _ _ hwritten
      hloaded']
    rw [if_pos hnil] at h
    exact iff_of_true (hagrees.candidateOf h) fun _ => .inl rfl
  · have hwritten := @Discovered.write_overrides fs configDir text parts
    rw [if_neg hempty] at hwritten
    cases hparse : lib.parseToml text with
    | error e =>
      -- the text is blank, or it would not have been accepted
      have htext : isBlank text := by
        by_contra htext
        rw [if_neg htext] at h
        obtain ⟨doc, hdoc, -⟩ := bind_eq_ok.mp h
        have hparse' : lib.parseToml text = .ok doc := tomlAt_eq_ok.mp hdoc
        rw [hparse] at hparse'
        cases hparse'
      refine iff_of_false ?_ fun hparses => ?_
      · rintro ⟨found, hfound, -⟩
        have hmapM : (parts.primary ++ parts.fragments ++ [overridesAt configDir]).mapM
            (loadSource lib.parseToml (fs.write (joinPath configDir "overrides.toml") text)) =
            .error (.parse ⟨joinPath configDir "overrides.toml", e.message, e.span⟩) := by
          rw [List.mapM_append, hloaded', List.mapM_cons, overridesAt,
            loadSource_write_of_error hparse]
          rfl
        rw [@resolveCandidate_of_error (lib.sanitizing shape) _ (.new configDir) _ _ hwritten
          hmapM] at hfound
        cases hfound
      · obtain hnil | ⟨doc, hdoc⟩ := hparses htext
        · exact hempty hnil
        · rw [hparse] at hdoc
          cases hdoc
    | ok doc =>
      have hmapM : (parts.primary ++ parts.fragments ++ [overridesAt configDir]).mapM
          (loadSource lib.parseToml (fs.write (joinPath configDir "overrides.toml") text)) =
          .ok (loaded ++ [if isBlank text then none else
            some ((overridesAt configDir).loaded doc text)]) := by
        rw [List.mapM_append, hloaded', List.mapM_cons, overridesAt, loadSource_write hparse]
        rfl
      refine iff_of_true ?_ fun _ => .inr ⟨doc, hparse⟩
      rw [@resolveCandidate_of_loaded (lib.sanitizing shape) _ (.new configDir) _ _ hwritten hmapM]
      by_cases htext : isBlank text
      · rw [if_pos htext] at h
        refine Merged.Agrees.candidateOf ?_ h
        rw [if_pos htext, List.reduceOption_append, mergeLoadedSources_eq]
        simpa using hagrees
      · rw [if_neg htext] at h
        obtain ⟨doc', hdoc, h⟩ := bind_eq_ok.mp h
        have hparse' : lib.parseToml text = .ok doc' := tomlAt_eq_ok.mp hdoc
        rw [hparse] at hparse'
        cases hparse'
        split_ifs at h
        refine Merged.Agrees.candidateOf ?_ h
        rw [if_neg htext, List.reduceOption_append, mergeLoadedSources_eq, List.foldl_append]
        exact hagrees.merge _

/-- **Validation before a write.** In a directory that can be listed, what is accepted before a
write is what is found after it, exactly if a blank text that is accepted as the overrides is
TOML. -/
theorem prewrite_agrees_iff (hreadable : Readable fs configDir)
    (hblank : ∀ text doc, isBlank text → lib.parseToml text = .ok doc → doc.entries = []) :
    PrewriteAgrees lib shape fs configDir text ↔
      ((∃ candidate, (ConfigResolver.new configDir).resolveCandidateWithOverrides
          (lib.sanitizing shape) fs text = .ok candidate) → BlankParses lib text) := by
  obtain ⟨discovered, hdiscovered⟩ := hreadable
  obtain ⟨parts, rfl⟩ := exists_discovered hdiscovered
  constructor
  · rintro hagrees ⟨candidate, hcandidate⟩
    exact (overrides_agree_iff hdiscovered hblank hcandidate).mp
      (hagrees.overrides candidate hcandidate)
  · intro hparses
    constructor
    · intro candidate hcandidate
      exact (overrides_agree_iff hdiscovered hblank hcandidate).mpr
        (hparses ⟨candidate, hcandidate⟩)
    · exact fun htext candidate => primary_agrees hdiscovered hblank htext

end

/-- A library whose parser knows documents without entries only. -/
def blankLibrary : Library :=
  { clockLibrary with
    parseToml := fun text =>
      if text.toList.all (· ∈ [' ', '\t', '\n', '\r']) then
        .ok ⟨[], List.nodup_nil, trivial⟩
      else .error ⟨"invalid key", none⟩ }

theorem entries_blankLibrary (text : String) (doc : Document) (_ : isBlank text)
    (h : blankLibrary.parseToml text = .ok doc) : doc.entries = [] := by
  simp only [blankLibrary] at h
  split_ifs at h
  cases h
  rfl

/-- There is agreement about overrides of one empty line. -/
theorem prewrite_agrees_newline :
    PrewriteAgrees blankLibrary (.object [] none) (filesWith none) "/etc/shilpo" "\n" :=
  (prewrite_agrees_iff ⟨[], rfl⟩ entries_blankLibrary).mpr fun _ _ => .inr ⟨_, rfl⟩

/-- Overrides of one no-break space are accepted, and cannot be parsed once they are written. -/
theorem blank_text_rejected_later :
    Readable (filesWith none) "/etc/shilpo" ∧
      ¬ PrewriteAgrees blankLibrary (.object [] none) (filesWith none) "/etc/shilpo"
        "\u00a0" := by
  refine ⟨⟨[], rfl⟩, fun hagrees => ?_⟩
  obtain ⟨found, hfound, -⟩ := hagrees.overrides _ rfl
  cases hfound

end Shilpo.Config
