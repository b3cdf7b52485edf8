import Shilpo.Script.Manager
import Shilpo.Theory.Runs
import Shilpo.Theory.Sweeps

/-!
# What a reconciliation makes of the disk

A reconciliation acts on each id by itself: what source the bundle with an id has afterwards
depends on the source it had, on the candidates with that id and on whether its old root is still
there (`source_adopt`, `resolve`). The ticks change no source (`source_tick`).

`Reconciled` is what the bundles should be afterwards. The passes over the bundles and over the
candidates leave gaps between them, for an id that has no valid candidate while its root is still
there, and for one with several candidates whose own root is not: `Calm` says that a bundle is not
in them.
-/

namespace Shilpo.Script

open Config (PathBuf)
open Extensions Theory

variable {View : Type}

/-! ### Candidates -/

/-- The manifest of a directory, if it is a valid bundle. -/
def validManifest (root : PathBuf) (dir : BundleDirectory) : Option ScriptManifest :=
  (parseAndValidateBundle root dir).toOption

namespace Disk

variable (disk : Disk)

/-- The valid manifest that a path holds. -/
def manifest (root : PathBuf) : Option ScriptManifest :=
  (disk.scriptsDir.bundles.lookup root).bind (validManifest root)

/-- The valid bundles with an id. -/
def candidates (id : ExtensionId) : List (ScriptManifest × PathBuf) :=
  disk.scriptsDir.bundles.entries.filterMap fun entry =>
    ((validManifest entry.1 entry.2).filter (·.id = id)).map (·, entry.1)

variable {disk} {id : ExtensionId} {root : PathBuf} {m : ScriptManifest}

theorem mem_candidates_iff :
    (m, root) ∈ disk.candidates id ↔ disk.manifest root = some m ∧ m.id = id := by
  simp only [candidates, List.mem_filterMap, Option.map_eq_some_iff, Option.filter_eq_some_iff,
    Prod.mk.injEq, decide_eq_true_eq, manifest, Option.bind_eq_some_iff]
  constructor
  · rintro ⟨⟨path, dir⟩, hmem, _, ⟨hvalid, hid⟩, rfl, rfl⟩
    exact ⟨⟨dir, AList.mem_lookup_iff.mpr hmem, hvalid⟩, hid⟩
  · rintro ⟨⟨dir, hlookup, hvalid⟩, hid⟩
    exact ⟨⟨root, dir⟩, AList.mem_lookup_iff.mp hlookup, m, ⟨hvalid, hid⟩, rfl, rfl⟩

end Disk

namespace Scan

variable {scan : Scan} {root path : PathBuf} {dir : BundleDirectory} {id : ExtensionId}

/-- What one directory does to a scan. -/
theorem look_cases (scan : Scan) (root : PathBuf) (dir : BundleDirectory) :
    (∃ m, validManifest root dir = some m ∧ scan.look root dir = { scan with
      candidates := scan.candidates.insert m.id (scan.entries m.id ++ [(m, root)]) }) ∨
    validManifest root dir = none ∧ (scan.look root dir).candidates = scan.candidates ∧
      ∀ path ∈ (scan.look root dir).invalidRoots, path = root ∨ path ∈ scan.invalidRoots := by
  simp only [look, validManifest]
  cases hfile : dir.manifestFile with
  | absent =>
    refine .inr ⟨?_, rfl, fun path hpath => .inr hpath⟩
    simp [parseAndValidateBundle, hfile, Except.toOption]
  | unreadable error =>
    refine .inr ⟨?_, ?_⟩
    all_goals simp [parseAndValidateBundle, hfile, Except.toOption]
  | toml parsed =>
    cases parseAndValidateBundle root dir with
    | error error => exact .inr ⟨rfl, rfl, fun path hpath => AList.mem_insert _ |>.mp hpath⟩
    | ok manifest => exact .inl ⟨manifest, rfl, rfl⟩

/-- What one directory adds to the candidates. -/
theorem entries_look (scan : Scan) (root : PathBuf) (dir : BundleDirectory) (id : ExtensionId) :
    (scan.look root dir).entries id =
      scan.entries id ++ (((validManifest root dir).filter (·.id = id)).map (·, root)).toList := by
  obtain ⟨m, hvalid, hlook⟩ | ⟨hvalid, hcandidates, -⟩ := scan.look_cases root dir
  · rw [hvalid, hlook]
    by_cases hid : m.id = id
    · subst hid
      simp [entries, Option.filter_some]
    · simp [entries, hid, AList.lookup_insert_ne (Ne.symm hid), Option.filter_some]
  · simp [entries, hcandidates, hvalid]

/-- An id that is listed has a candidate, and an invalid root is one of the directories. -/
structure Proper (scan : Scan) (roots : List PathBuf) : Prop where
  candidates : ∀ id ∈ scan.candidates, scan.entries id ≠ []
  invalidRoots : ∀ path ∈ scan.invalidRoots, path ∈ roots

theorem Proper.look {roots : List PathBuf} (h : scan.Proper roots) (hroot : root ∈ roots)
    (dir : BundleDirectory) : (scan.look root dir).Proper roots := by
  obtain ⟨m, -, hlook⟩ | ⟨-, hcandidates, hinvalid⟩ := scan.look_cases root dir
  · refine ⟨fun id hid => ?_, by rw [hlook]; exact h.invalidRoots⟩
    rw [hlook] at hid ⊢
    by_cases hm : id = m.id
    · subst hm
      simp [entries]
    · rw [AList.mem_insert] at hid
      simpa [entries, AList.lookup_insert_ne hm] using h.candidates id (hid.resolve_left hm)
  · refine ⟨fun id hid => ?_, fun path hpath => ?_⟩
    · rw [hcandidates] at hid
      simpa [entries, hcandidates] using h.candidates id hid
    · obtain rfl | hold := hinvalid path hpath
      · exact hroot
      · exact h.invalidRoots path hold

/-- What all directories add. -/
theorem entries_foldl (l : List (Σ _ : PathBuf, BundleDirectory)) (scan : Scan) (id : ExtensionId) :
    (l.foldl (fun scan entry => scan.look entry.1 entry.2) scan).entries id =
      scan.entries id ++ l.filterMap fun entry =>
        ((validManifest entry.1 entry.2).filter (·.id = id)).map (·, entry.1) := by
  induction l generalizing scan with
  | nil => simp
  | cons entry l ih =>
    rw [List.foldl_cons, ih, entries_look, List.append_assoc]
    cases h : ((validManifest entry.1 entry.2).filter (·.id = id)).map (·, entry.1) <;> simp [h]

theorem Proper.foldl {roots : List PathBuf} (l : List (Σ _ : PathBuf, BundleDirectory))
    (hl : ∀ entry ∈ l, entry.1 ∈ roots) (h : scan.Proper roots) :
    (l.foldl (fun scan entry => scan.look entry.1 entry.2) scan).Proper roots := by
  induction l generalizing scan with
  | nil => exact h
  | cons entry l ih =>
    rw [List.forall_mem_cons] at hl
    exact ih hl.2 (h.look hl.1 entry.2)

theorem proper_empty (roots : List PathBuf) : empty.Proper roots where
  candidates id hid := absurd hid (AList.notMem_empty id)
  invalidRoots path hpath := absurd hpath (AList.notMem_empty path)

end Scan

namespace Disk

variable (disk : Disk)

/-- The scan finds the candidates. -/
theorem entries_scan (id : ExtensionId) : disk.scan.entries id = disk.candidates id := by
  simp only [scan, candidates, ScriptsDirectory.bundles]
  cases disk.scriptsDir with
  | absent => rfl
  | unreadable error => rfl
  | listing bundles => exact Scan.entries_foldl bundles.entries .empty id

theorem proper_scan : disk.scan.Proper disk.scriptsDir.bundles.keys := by
  simp only [scan, ScriptsDirectory.bundles]
  cases disk.scriptsDir with
  | absent => exact Scan.proper_empty _
  | unreadable error =>
    exact ⟨(Scan.proper_empty []).candidates, (Scan.proper_empty _).invalidRoots⟩
  | listing bundles =>
    exact (Scan.proper_empty _).foldl bundles.entries fun entry he => List.mem_map_of_mem he

/-- An id is listed exactly if it has a candidate. -/
theorem lookup_scan (id : ExtensionId) :
    disk.scan.candidates.lookup id =
      if disk.candidates id = [] then none else some (disk.candidates id) := by
  rw [← disk.entries_scan id, Scan.entries]
  cases h : disk.scan.candidates.lookup id with
  | none => simp
  | some l =>
    have hne := disk.proper_scan.candidates id (AList.lookup_isSome.mp (h ▸ rfl))
    rw [Scan.entries, h] at hne
    rw [if_neg (by simpa using hne)]
    rfl

end Disk

/-! ### Ticks -/

namespace ScriptRuntime

/-- Where the bundle with an id comes from. -/
def source (rt : ScriptRuntime View) (id : ExtensionId) : Option (ScriptManifest × PathBuf) :=
  (rt.bundles.lookup id).map (·.source)

variable (rt : ScriptRuntime View) (decoders : Decoders View)

theorem source_insert (rt : ScriptRuntime View) {rt' : ScriptRuntime View} {id : ExtensionId}
    {state : ScriptBundleState View} (h : rt'.bundles = rt.bundles.insert id state)
    (id' : ExtensionId) :
    rt'.source id' = if id' = id then some state.source else rt.source id' := by
  simp only [source, h]
  split_ifs with hid
  · rw [hid, AList.lookup_insert]
    rfl
  · rw [AList.lookup_insert_ne hid]

theorem source_erase (rt : ScriptRuntime View) {rt' : ScriptRuntime View} {id : ExtensionId}
    (h : rt'.bundles = rt.bundles.erase id) (id' : ExtensionId) :
    rt'.source id' = if id' = id then none else rt.source id' := by
  simp only [source, h]
  split_ifs with hid
  · rw [hid, AList.lookup_erase]
    rfl
  · rw [AList.lookup_erase_ne hid]

theorem source_modify {f : ScriptBundleState View → ScriptBundleState View}
    (hf : ∀ state, (f state).source = state.source) (id : ExtensionId) :
    (rt.modify id f).source = rt.source := by
  funext id'
  simp only [modify]
  cases h : rt.bundles.lookup id with
  | none => rfl
  | some state =>
    rw [source_insert rt rfl]
    split_ifs with hid
    · rw [hf, source, hid, h]
      rfl
    · rfl

theorem source_countFailure (id : ExtensionId) (message : String) (now : ℕ) :
    (rt.countFailure id message now).1.source = rt.source := by
  refine rt.source_modify ?_ id
  exact fun _ => rfl

theorem source_countRecord (id : ExtensionId) (record : Bytes) (now : ℕ) :
    (rt.countRecord decoders id record now).1.source = rt.source := by
  simp only [countRecord]
  cases rt.bundles.lookup id with
  | none => rfl
  | some state =>
    dsimp only
    split
    · refine rt.source_modify ?_ id
      exact fun _ => rfl
    · exact rt.source_countFailure id _ now

theorem source_count (id : ExtensionId) (now later : ℕ) (outcome : Outcome) :
    (rt.count decoders id now later outcome).1.source = rt.source := by
  cases outcome with
  | record bytes => exact rt.source_countRecord decoders id bytes later
  | failure message => exact rt.source_countFailure id message now
  | nothing => rfl

theorem source_settle (id : ExtensionId) (now : ℕ) (event : TaskEvent) :
    (rt.settle id now event).source = rt.source := by
  cases event with
  | pollFinished result =>
    refine rt.source_modify ?_ id
    exact fun _ => rfl
  | streamRecord record => rfl
  | streamStopped result => rfl

theorem source_stop (id : ExtensionId) : (rt.stop id).source = rt.source := by
  refine rt.source_modify ?_ id
  exact fun _ => rfl

theorem source_handleEvent (id : ExtensionId) (now : ℕ) (event : TaskEvent × ℕ) :
    (rt.handleEvent decoders id now event).source = rt.source := by
  have hfinish : (if event.1.isFinal then rt.finishTask id else rt).source = rt.source := by
    split
    · exact rt.source_stop id
    · rfl
  simp only [handleEvent]
  generalize (if event.1.isFinal then rt.finishTask id else rt) = rt' at hfinish ⊢
  have hcount := rt'.source_count decoders id now event.2 (event.1.outcome decoders.lossy)
  rw [source_settle]
  split
  · rw [source_stop, hcount, hfinish]
  · rw [hcount, hfinish]

theorem source_schedule (id : ExtensionId) (now : ℕ) :
    (rt.schedule id now).source = rt.source := by
  simp only [schedule]
  split
  · refine rt.source_modify ?_ id
    exact fun _ => rfl
  · refine rt.source_modify ?_ id
    intro state
    split <;> rfl

theorem source_visit (tick : Tick) (id : ExtensionId) :
    (rt.visit decoders tick id).source = rt.source := by
  simp only [visit]
  rw [source_schedule]
  exact List.foldlRecOn _ _ (motive := fun rt' : ScriptRuntime View => rt'.source = rt.source) rfl
    fun rt' h event _ => (source_handleEvent rt' decoders id tick.now event).trans h

/-- **A tick leaves the sources alone.** -/
theorem source_tick (tick : Tick) : (rt.tick decoders tick).source = rt.source :=
  List.foldlRecOn _ _ (motive := fun rt' : ScriptRuntime View => rt'.source = rt.source) rfl
    fun rt' h id _ => (source_visit rt' decoders tick id).trans h

end ScriptRuntime

/-! ### Reconciliations -/

/-- The source of a bundle without a candidate, once what is gone is let go. -/
def Disk.keep (disk : Disk) (id : ExtensionId) (old : Option (ScriptManifest × PathBuf)) :
    Option (ScriptManifest × PathBuf) :=
  if disk.candidates id = [] then old.filter fun source => disk.contains source.2 else old

/-- The source of a bundle whose candidates have been considered. -/
def choose (active : List ExtensionId) (id : ExtensionId)
    (entries : List (ScriptManifest × PathBuf)) (old : Option (ScriptManifest × PathBuf)) :
    Option (ScriptManifest × PathBuf) :=
  if id ∈ active then none
  else
    match entries with
    | [candidate] => some candidate
    | _ => old

/-- The source that a reconciliation gives a bundle. -/
def Disk.resolve (disk : Disk) (active : List ExtensionId) (id : ExtensionId)
    (old : Option (ScriptManifest × PathBuf)) : Option (ScriptManifest × PathBuf) :=
  match disk.candidates id with
  | [] => old.filter fun source => disk.contains source.2
  | entries => choose active id entries old

namespace ScriptRuntime

variable (rt : ScriptRuntime View) (disk : Disk) (active : List ExtensionId)

theorem isGone_iff (id : ExtensionId) :
    rt.isGone disk disk.scan id = true ↔
      disk.candidates id = [] ∧
        ∃ source, rt.source id = some source ∧ ¬ disk.contains source.2 := by
  have hlisted : id ∉ disk.scan.candidates ↔ disk.candidates id = [] := by
    rw [← AList.lookup_eq_none, disk.lookup_scan]
    split_ifs with h <;> simp [h]
  simp only [isGone, source]
  cases rt.bundles.lookup id with
  | none => simp
  | some state =>
    -- an invalid root is one of the directories, so it is there
    have hinvalid : ¬ disk.contains state.bundleRoot → state.bundleRoot ∉ disk.scan.invalidRoots :=
      fun hroot hmem => hroot (.inl (disk.proper_scan.invalidRoots _ hmem))
    simp only [decide_eq_true_eq, hlisted, Option.map_some, Option.some.injEq, exists_eq_left',
      ScriptBundleState.source]
    exact ⟨fun ⟨hempty, _, hroot⟩ => ⟨hempty, hroot⟩,
      fun ⟨hempty, hroot⟩ => ⟨hempty, hinvalid hroot, hroot⟩⟩

theorem source_prune (id id' : ExtensionId) :
    (rt.prune disk disk.scan id).source id' =
      if id' = id then disk.keep id (rt.source id) else rt.source id' := by
  simp only [prune, Disk.keep]
  by_cases hgone : rt.isGone disk disk.scan id = true
  · obtain ⟨hempty, source, hsource, hroot⟩ := (rt.isGone_iff disk id).mp hgone
    rw [if_pos hgone, if_pos hempty, source_erase rt rfl, hsource, Option.filter_some,
      if_neg fun h => hroot (of_decide_eq_true h)]
  · rw [if_neg hgone]
    split_ifs with hid hempty
    · rw [hid]
      cases hsource : rt.source id with
      | none => rfl
      | some source =>
        have hroot : disk.contains source.2 := by
          by_contra hroot
          exact hgone ((rt.isGone_iff disk id).mpr ⟨hempty, source, hsource, hroot⟩)
        rw [Option.filter_some, if_pos (by simpa)]
    · rw [hid]
    · rfl

theorem source_replace (now : ℕ) (id : ExtensionId) (manifest : ScriptManifest) (root : PathBuf)
    (id' : ExtensionId) :
    (rt.replace id manifest root now).source id' =
      if id' = id then some (manifest, root) else rt.source id' := by
  simp only [replace]
  cases hlookup : rt.bundles.lookup id with
  | none =>
    have hnew : ({ rt with bundles := rt.bundles.insert id (.new manifest root now) } :
        ScriptRuntime View).source id' = _ := source_insert rt rfl id'
    exact hnew
  | some state =>
    dsimp only
    split_ifs with hsame hid hid
    · rw [hid, source, hlookup, ← hsame.1, ← hsame.2]
      rfl
    · rfl
    · rw [source_insert rt rfl, if_pos hid]
      rfl
    · rw [source_insert rt rfl, if_neg hid]

theorem source_consider (now : ℕ) (id : ExtensionId) (entries : List (ScriptManifest × PathBuf))
    (id' : ExtensionId) :
    (rt.consider active now id entries).source id' =
      if id' = id then choose active id entries (rt.source id) else rt.source id' := by
  simp only [consider, choose]
  by_cases hactive : id ∈ active
  · rw [if_pos hactive, if_pos hactive, source_erase rt rfl]
  · rw [if_neg hactive, if_neg hactive]
    match entries with
    | [(manifest, root)] => exact rt.source_replace now id manifest root id'
    | [] | _ :: _ :: _ =>
      split_ifs with hid
      · rw [hid]
        rfl
      · rfl

/-- **A reconciliation acts on each id by itself.** -/
theorem source_adopt (now : ℕ) (id : ExtensionId) :
    (rt.adopt active disk now).source id = disk.resolve active id (rt.source id) := by
  simp only [adopt]
  rw [sweep_entries source (fun rt id entries => rt.consider active now id entries) (choose active)
    fun rt id entries => rt.source_consider active now id entries]
  rw [sweep_keys source (fun rt id => rt.prune disk disk.scan id) disk.keep
    fun rt id => rt.source_prune disk id]
  have hprune : (if id ∈ rt.bundles then disk.keep id (rt.source id) else rt.source id) =
      disk.keep id (rt.source id) := by
    split_ifs with hid
    · rfl
    · rw [source, AList.lookup_eq_none.mpr hid, Disk.keep]
      split <;> rfl
  have hsource : source { rt with sourceDiagnostics := disk.scan.diagnostics } = rt.source := rfl
  rw [hsource, hprune, disk.lookup_scan, Disk.resolve, Disk.keep]
  cases disk.candidates id with
  | nil => rfl
  | cons candidate rest => rfl

end ScriptRuntime

/-! ### What the bundles should be -/

/-- The bundles before a reconciliation and after it, with the ids of the active extensions and
what is on the disk. -/
structure Reconciled (active : List ExtensionId) (disk : Disk) (rt rt' : ScriptRuntime View) :
    Prop where
  /-- No bundle has an active extension's id. -/
  inactive : ∀ id source, rt'.source id = some source → id ∉ active
  /-- No two bundles have one root. -/
  apart : ∀ id id' source source', rt'.source id = some source → rt'.source id' = some source' →
    source.2 = source'.2 → id = id'
  /-- An id with one candidate is the candidate's. -/
  unique : ∀ id candidate, disk.candidates id = [candidate] → id ∉ active →
    rt'.source id = some candidate
  /-- An id with several candidates has the source it had. -/
  several : ∀ id, 1 < (disk.candidates id).length → id ∉ active → rt'.source id = rt.source id
  /-- The root of another bundle is there, and is no valid bundle with another id. -/
  leftover : ∀ id source, rt'.source id = some source → (disk.candidates id).length ≠ 1 →
    disk.contains source.2 ∧ ∀ m, disk.manifest source.2 = some m → m.id = id

/-- A reconciliation makes the bundles what they should be. -/
def Reconciles (decoders : Decoders View) (rt : ScriptRuntime View) : ScriptOp → Prop
  | .reconcile active disk now tick =>
    Reconciled active disk rt (rt.reconcile decoders active disk now tick)
  | _ => True

/-- The bundle with this id and root is not between the passes: without a candidate, it has an id
that no active extension has, and its root, if it is there, is no valid bundle; with several, its
root is there, and is no valid bundle with another id. -/
def Disk.Clear (disk : Disk) (active : List ExtensionId) (id : ExtensionId) (root : PathBuf) :
    Prop :=
  match disk.candidates id with
  | [] => disk.contains root → id ∉ active ∧ disk.manifest root = none
  | [_] => True
  | _ => id ∉ active → disk.contains root ∧ ∀ m ∈ disk.manifest root, m.id = id

instance (disk : Disk) (active : List ExtensionId) (id : ExtensionId) (root : PathBuf) :
    Decidable (disk.Clear active id root) :=
  match h : disk.candidates id with
  | [] =>
    decidable_of_iff (disk.contains root → id ∉ active ∧ disk.manifest root = none)
      (by rw [Disk.Clear, h])
  | [_] => .isTrue (by rw [Disk.Clear, h]; trivial)
  | _ :: _ :: _ =>
    decidable_of_iff
      (id ∉ active → disk.contains root ∧ ∀ m ∈ disk.manifest root, m.id = id)
      (by rw [Disk.Clear, h])

/-- A reconciliation finds all bundles clear. -/
def Calm (rt : ScriptRuntime View) : ScriptOp → Prop
  | .reconcile active disk _ _ =>
    ∀ id ∈ rt.bundles.keys, ∀ source ∈ rt.source id, disk.Clear active id source.2
  | _ => True

instance (rt : ScriptRuntime View) : ∀ op, Decidable (Calm rt op)
  | .reconcile active disk _ _ =>
    inferInstanceAs (Decidable (∀ id ∈ rt.bundles.keys, ∀ source ∈ rt.source id,
      disk.Clear active id source.2))
  | .tick _ | .shutdown => .isTrue trivial

theorem calm_reconcile_iff {rt : ScriptRuntime View} {active : List ExtensionId} {disk : Disk}
    {now : ℕ} {tick : Tick} :
    Calm rt (.reconcile active disk now tick) ↔
      ∀ id source, rt.source id = some source → disk.Clear active id source.2 := by
  constructor
  · intro h id source hsource
    have hid : id ∈ rt.bundles := by
      by_contra hid
      rw [ScriptRuntime.source, AList.lookup_eq_none.mpr hid] at hsource
      cases hsource
    exact h id hid source hsource
  · exact fun h id _ source hsource => h id source hsource

namespace Reconciled

variable {active : List ExtensionId} {disk : Disk} {rt rt' : ScriptRuntime View}

/-- Where the bundles are what they should be, all were clear. -/
theorem clear (h : Reconciled active disk rt rt')
    (hstep : ∀ id, rt'.source id = disk.resolve active id (rt.source id)) (id : ExtensionId)
    (source : ScriptManifest × PathBuf) (hsource : rt.source id = some source) :
    disk.Clear active id source.2 := by
  have hid := hstep id
  rw [hsource] at hid
  simp only [Disk.resolve] at hid
  simp only [Disk.Clear]
  match hcandidates : disk.candidates id with
  | [] =>
    rw [hcandidates] at hid
    intro hroot
    have hkept : rt'.source id = some source := by simpa [Option.filter_some, hroot] using hid
    have hleft := (h.leftover id source hkept (by simp [hcandidates])).2
    refine ⟨h.inactive id source hkept, ?_⟩
    -- its own root would be a candidate
    cases hm : disk.manifest source.2 with
    | none => rfl
    | some m =>
      have := Disk.mem_candidates_iff.mpr ⟨hm, hleft m hm⟩
      simp [hcandidates] at this
  | [_] => trivial
  | _ :: _ :: _ =>
    intro hactive
    have hkept : rt'.source id = some source := by
      rw [h.several id (by simp [hcandidates]) hactive, hsource]
    exact h.leftover id source hkept (by simp [hcandidates])

/-- What a bundle is that was clear: the only candidate, or one that has been kept. -/
theorem source_cases (hstep : ∀ id, rt'.source id = disk.resolve active id (rt.source id))
    (h : ∀ id source, rt.source id = some source → disk.Clear active id source.2)
    {id : ExtensionId} {source : ScriptManifest × PathBuf} (hsource : rt'.source id = some source) :
    id ∉ active ∧ (disk.candidates id = [source] ∨ rt.source id = some source ∧
      disk.contains source.2 ∧ ∀ m, disk.manifest source.2 = some m → m.id = id) := by
  rw [hstep id, Disk.resolve] at hsource
  match hcandidates : disk.candidates id with
  | [] =>
    rw [hcandidates, Option.filter_eq_some_iff, decide_eq_true_eq] at hsource
    obtain ⟨hold, hroot⟩ := hsource
    have hclear := h id source hold
    rw [Disk.Clear, hcandidates] at hclear
    obtain ⟨hactive, hnone⟩ := hclear hroot
    refine ⟨hactive, .inr ⟨hold, hroot, fun m hm => ?_⟩⟩
    rw [hnone] at hm
    cases hm
  | [candidate] =>
    rw [hcandidates] at hsource
    simp only [choose] at hsource
    split at hsource
    · cases hsource
    · next hactive => exact ⟨hactive, .inl (by rw [Option.some.inj hsource])⟩
  | _ :: _ :: _ =>
    rw [hcandidates] at hsource
    simp only [choose] at hsource
    split at hsource
    · cases hsource
    · next hactive =>
      have hclear := h id source hsource
      rw [Disk.Clear, hcandidates] at hclear
      exact ⟨hactive, .inr ⟨hsource, hclear hactive⟩⟩

/-- **Where all bundles are clear, they become what they should be.** -/
theorem of_clear (hapart : ∀ id id' source source', rt.source id = some source →
      rt.source id' = some source' → source.2 = source'.2 → id = id')
    (hstep : ∀ id, rt'.source id = disk.resolve active id (rt.source id))
    (h : ∀ id source, rt.source id = some source → disk.Clear active id source.2) :
    Reconciled active disk rt rt' where
  inactive id source hsource := (source_cases hstep h hsource).1
  apart id id' source source' hsource hsource' hroot := by
    -- the root of a candidate holds its manifest, and that of a kept bundle none with another id
    have holds : ∀ {id source}, disk.candidates id = [source] →
        ∃ m, disk.manifest source.2 = some m ∧ m.id = id := fun {id source} hcandidates =>
      ⟨source.1, Disk.mem_candidates_iff.mp (hcandidates ▸ List.mem_singleton_self source)⟩
    obtain ⟨-, hc | ⟨hold, -, hm⟩⟩ := source_cases hstep h hsource
    · obtain ⟨m, hmanifest, hid⟩ := holds hc
      obtain ⟨-, hc' | ⟨-, -, hm'⟩⟩ := source_cases hstep h hsource'
      · obtain ⟨m', hmanifest', hid'⟩ := holds hc'
        rw [← hroot, hmanifest] at hmanifest'
        rw [← hid, ← hid', Option.some.inj hmanifest']
      · exact hid.symm.trans (hm' m (hroot ▸ hmanifest))
    · obtain ⟨-, hc' | ⟨hold', -, -⟩⟩ := source_cases hstep h hsource'
      · obtain ⟨m', hmanifest', hid'⟩ := holds hc'
        exact (hm m' (hroot.symm ▸ hmanifest')).symm.trans hid'
      · exact hapart id id' source source' hold hold' hroot
  unique id candidate hcandidates hactive := by
    rw [hstep, Disk.resolve, hcandidates]
    exact if_neg hactive
  several id hlength hactive := by
    rw [hstep, Disk.resolve]
    match hcandidates : disk.candidates id with
    | [] | [_] => simp [hcandidates] at hlength
    | _ :: _ :: _ => exact if_neg hactive
  leftover id source hsource hlength := by
    obtain ⟨-, hcandidates | ⟨-, hroot⟩⟩ := source_cases hstep h hsource
    · simp [hcandidates] at hlength
    · exact hroot

end Reconciled

/-! ### Runs -/

/-- No two bundles have one root. -/
def RootsApart (rt : ScriptRuntime View) : Prop :=
  ∀ id id' source source', rt.source id = some source → rt.source id' = some source' →
    source.2 = source'.2 → id = id'

variable {decoders : Decoders View} {rt : ScriptRuntime View}

theorem source_reconcile (active : List ExtensionId) (disk : Disk) (now : ℕ) (tick : Tick)
    (id : ExtensionId) :
    (rt.reconcile decoders active disk now tick).source id =
      disk.resolve active id (rt.source id) := by
  rw [ScriptRuntime.reconcile, ScriptRuntime.source_tick, ScriptRuntime.source_adopt]

theorem Reconciles.calm {op : ScriptOp} (h : Reconciles decoders rt op) : Calm rt op := by
  cases op with
  | reconcile active disk now tick =>
    rw [calm_reconcile_iff]
    exact Reconciled.clear h (source_reconcile active disk now tick)
  | tick tick => trivial
  | shutdown => trivial

theorem RootsApart.reconciles {op : ScriptOp} (hrt : RootsApart rt) (h : Calm rt op) :
    Reconciles decoders rt op := by
  cases op with
  | reconcile active disk now tick =>
    exact .of_clear hrt (source_reconcile active disk now tick) (calm_reconcile_iff.mp h)
  | tick tick => trivial
  | shutdown => trivial

theorem RootsApart.step {op : ScriptOp} (hrt : RootsApart rt) (h : Calm rt op) :
    RootsApart (rt.step decoders op) := by
  cases op with
  | reconcile active disk now tick =>
    have hreconciles : Reconciles decoders rt (.reconcile active disk now tick) := hrt.reconciles h
    exact hreconciles.apart
  | tick tick =>
    intro id id'
    rw [ScriptRuntime.step, rt.source_tick]
    exact hrt id id'
  | shutdown =>
    intro id id' source source' hsource
    cases hsource

theorem rootsApart_new : RootsApart (.new : ScriptRuntime View) := by
  intro id id' source source' hsource
  cases hsource

theorem along_calm {ops : List ScriptOp}
    (h : Along (ScriptRuntime.step decoders) (Reconciles decoders) rt ops) :
    Along (ScriptRuntime.step decoders) Calm rt ops :=
  h.mono (I := fun _ => True) (fun _ _ _ => trivial) (fun _ _ _ h => h.calm) trivial

/-- **All reconciliations of a run make the bundles what they should be exactly if each finds all
bundles clear.** -/
theorem reconciles_iff_calm (decoders : Decoders View) (ops : List ScriptOp) :
    Along (ScriptRuntime.step decoders) (Reconciles decoders) .new ops ↔
      Along (ScriptRuntime.step decoders) Calm .new ops :=
  ⟨along_calm, Along.imp (I := RootsApart) (fun _ _ hrt h => hrt.step h)
    (fun _ _ hrt h => hrt.reconciles h) rootsApart_new⟩

/-! ### An id changed in place -/

/-- The manifest of a script that runs `run.sh`. -/
def namedScript (id : ExtensionId) : ScriptManifest where
  schemaVersion := 1
  id
  name := "CPU"
  version := ⟨0, 1, 0, [], []⟩
  runtime := ⟨.stream, "run.sh", [], none, 1000⟩
  contributions := ⟨[⟨⟨"cpu"⟩, "CPU", none⟩]⟩

/-- The `scripts` directory with one bundle. -/
def oneBundle (manifest : ScriptManifest) : Disk where
  scriptsDir := .listing (AList.singleton ⟨"/scripts/cpu"⟩
    ⟨.toml (.ok manifest), AList.singleton "run.sh" (.file (some true))⟩)
  scriptsPath := ⟨"/scripts"⟩
  others := ∅

/-- Every record is rejected. -/
def blind : Decoders Unit := ⟨fun _ _ => .error "", fun _ => ""⟩

/-- The user changes the id in the manifest of the only bundle. -/
def renamedInPlace : List ScriptOp :=
  [.reconcile [] (oneBundle (namedScript ⟨"local.cpu"⟩)) 0 ⟨0, fun _ => []⟩,
    .reconcile [] (oneBundle (namedScript ⟨"local.load"⟩)) 1 ⟨1, fun _ => []⟩]

/-- Both ids then have a bundle, with one root. -/
theorem not_reconciles_renamed :
    ¬ Along (ScriptRuntime.step blind) (Reconciles blind) .new renamedInPlace := by
  intro h
  have hcalm := along_calm h
  revert hcalm
  decide +kernel

end Shilpo.Script
