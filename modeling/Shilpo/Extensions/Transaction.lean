import Shilpo.Extensions.Grants

/-!
# Operations that fail

An operation of the catalog writes the directory of a version, the grants and the receipt one
after the other. Each of these is written whole or not at all, and the receipt comes last; but
what comes before it is not taken back when the operation stops in between. So a version whose
installation has failed late is in the way of the next attempt, a switch of the source has
removed what it wanted to replace, and a review has granted what its update would have needed
(`installs_torn`). A run in which no operation is interrupted there keeps all together
(`installs_whole`).
-/

namespace Shilpo.Extensions

open Theory

/-! ### What is promised -/

/-- The versions that a receipt names. -/
def InstallationReceipt.versions (receipt : InstallationReceipt) : List InstalledVersionReceipt :=
  receipt.active :: (receipt.previous.toList ++ receipt.pending.toList)

namespace ExtensionFiles

/-- A version has a directory, which has been extracted from its package. -/
def Extracted (files : ExtensionFiles) (version : InstalledVersionReceipt) : Prop :=
  ∃ manifest, files.versions.lookup version.version =
    some (.extracted version.packageHash manifest)

/-- Each version that the receipt names has its directory. -/
def Stored (files : ExtensionFiles) : Prop :=
  ∀ receipt, files.receipt = .holds receipt →
    ∀ version ∈ receipt.versions, files.Extracted version

/-- The receipt names a version. -/
def Names (files : ExtensionFiles) (version : Version) : Prop :=
  ∃ receipt, files.receipt = .holds receipt ∧ ∃ named ∈ receipt.versions, named.version = version

/-- The receipt, the grants and the directories of the versions named are the same. -/
structure SameRecords (files files' : ExtensionFiles) : Prop where
  receipt : files'.receipt = files.receipt
  grants : files'.grants = files.grants
  directories : ∀ version, files.Names version →
    files'.versions.lookup version = files.versions.lookup version

end ExtensionFiles

/-- Two operations have the same result, and leave the same. -/
structure SameOutcome (outcome outcome' : ExtensionFiles × Except CatalogError Unit) : Prop where
  result : outcome'.2 = outcome.2
  receipt : outcome'.1.receipt = outcome.1.receipt
  grants : outcome'.1.grants = outcome.1.grants
  directories : ∀ version,
    outcome'.1.versions.lookup version = outcome.1.versions.lookup version

section

variable (env : CatalogEnv) (id : ExtensionId)

/-- The operation is on the version that was rolled back from. -/
def ExtensionFiles.RolledBackFrom (disk : Disk) (files : ExtensionFiles)
    (package : CheckedPackage) : Prop :=
  package.isExplicitSourceSwitch = false ∧
    ∃ receipt ∈ (files.readReceipt disk id).toOption, receipt.rollbackActive = true ∧
      (∃ previous ∈ receipt.previous, previous.version = package.manifest.version ∧
        previous.packageHash = package.hash) ∧
      verifyProvenanceContinuity env.crypto (some receipt) package.verified = .ok ()

/-- What is promised of a step. -/
structure Transactional (catalog : Catalog) (operation : Disk × CatalogOperation) : Prop where
  /-- What has failed has changed nothing that is recorded. -/
  undone : ∀ err, (catalog.step env operation).2 = .error err →
    (catalog.files id).SameRecords ((catalog.next env operation).files id)
  /-- What has failed can be tried again, as if it had not been tried. -/
  again : ∀ err, (catalog.step env operation).2 = .error err →
    ∀ change, operation.2.effect env .sound = .ok (id, change) →
      SameOutcome (change (catalog.files id)) (change ((catalog.next env operation).files id))
  /-- A version that was rolled back from can be installed again. -/
  reinstalls : ∀ package ∈ operation.2.incoming env .sound id,
    (catalog.files id).RolledBackFrom env id .sound package →
      (catalog.step env (.sound, operation.2)).2 = .ok ()

/-- Nothing goes wrong while the extension is removed. -/
def RemovedWhole (_ : Catalog) (operation : Disk × CatalogOperation) : Prop :=
  (∃ secrets state, operation.2 = .uninstall id secrets state) →
    ∀ op, operation.1.fails op = false

/-! ### What keeps it -/

/-- A staged package can be moved to its place. -/
def Disk.moves (disk : Disk) : Bool :=
  !disk.fails .createParent && !disk.fails .markReadOnly && !disk.fails .renameStage

variable (disk : Disk) (files : ExtensionFiles) (package : CheckedPackage)

/-- The installation takes the grants away. -/
def ExtensionFiles.resets : Bool :=
  package.isExplicitSourceSwitch && ExtensionFiles.publisherChanged
    (files.readReceipt disk id).toOption package.verified.publisherKey

/-- A package in its place can be recorded. -/
def ExtensionFiles.records : Bool :=
  (files.loadGrants disk id).isOk && !(files.resets id disk package && disk.fails .resetGrants) &&
    !disk.fails .saveReceipt &&
    (files.resets id disk package || files.grants.exists || !disk.fails .saveGrants)

/-- A package in its place is recorded, or nothing is. -/
def ExtensionFiles.recordsWhole : Bool :=
  !(files.loadGrants disk id).isOk ||
    if files.resets id disk package then disk.fails .resetGrants || !disk.fails .saveReceipt
    else disk.fails .saveReceipt || files.grants.exists || !disk.fails .saveGrants

/-- The package is not turned away. -/
def ExtensionFiles.Accepts : Prop :=
  package.isExplicitSourceSwitch = true ∨
    verifyProvenanceContinuity env.crypto (files.readReceipt disk id).toOption package.verified =
      .ok ()

/-- An installation is not interrupted where it could not be taken back. -/
structure ExtensionFiles.Completes : Prop where
  /-- The receipt and the grants are written, or nothing is. -/
  whole : files.Accepts env id disk package → files.recordsWhole id disk package = true
  /-- A package that comes in is recorded. -/
  places : files.Accepts env id disk package → package.isExplicitSourceSwitch = false →
    package.manifest.version ∉ files.versions → disk.moves = true →
    files.records id disk package = true
  /-- A switch that replaces a version that is named goes on to its end. -/
  replaces : package.isExplicitSourceSwitch = true → files.Names package.manifest.version →
    disk.fails .removeTarget = false →
    disk.fails .finishRemoval = false ∧ disk.moves = true ∧
      files.records id disk package = true
  /-- A switch to the version before the active one, which waits then, is to the same package. -/
  keeps : package.isExplicitSourceSwitch = true → files.Waits id disk package →
    ∀ receipt ∈ (files.readReceipt disk id).toOption, ∀ previous ∈ receipt.previous,
      previous.version = package.manifest.version → previous.packageHash = package.hash

/-- A review is recorded whole, or changes no grants. -/
def ExtensionFiles.CompletesReview (granted : List Capability) : Prop :=
  disk.fails .saveReceipt = false ∨ disk.fails .saveGrants = true ∨
    files.grants.exists = true ∧
      ∃ grants ∈ (files.loadGrants disk id).toOption, grants.grantedCapabilities = granted

/-- An operation is not interrupted where it could not be taken back, and does not install what
was rolled back from. -/
def Completes (catalog : Catalog) (operation : Disk × CatalogOperation) : Prop :=
  (∀ package ∈ operation.2.incoming env operation.1 id,
      (catalog.files id).Completes env id operation.1 package) ∧
    (∀ granted ∈ operation.2.approves id,
      (catalog.files id).CompletesReview id operation.1 granted) ∧
    ∀ package ∈ operation.2.incoming env .sound id,
      ¬ (catalog.files id).RolledBackFrom env id .sound package

instance (version : Version) : Decidable (files.Names version) :=
  match h : files.receipt with
  | .holds receipt =>
    decidable_of_iff (∃ named ∈ receipt.versions, named.version = version)
      ⟨fun hnamed => ⟨receipt, h, hnamed⟩, fun ⟨_, hholds, hnamed⟩ => by
        cases h.symm.trans hholds
        exact hnamed⟩
  | .absent => .isFalse fun ⟨_, hholds, _⟩ => by cases h.symm.trans hholds
  | .unreadable => .isFalse fun ⟨_, hholds, _⟩ => by cases h.symm.trans hholds

instance : Decidable (files.Accepts env id disk package) :=
  inferInstanceAs (Decidable (_ ∨ _))

instance : Decidable (files.Completes env id disk package) :=
  have : Decidable (files.Accepts env id disk package →
      files.recordsWhole id disk package = true) := inferInstance
  have : Decidable (files.Accepts env id disk package →
      package.isExplicitSourceSwitch = false → package.manifest.version ∉ files.versions →
      disk.moves = true → files.records id disk package = true) := inferInstance
  have : Decidable (package.isExplicitSourceSwitch = true →
      files.Names package.manifest.version → disk.fails .removeTarget = false →
      disk.fails .finishRemoval = false ∧ disk.moves = true ∧
        files.records id disk package = true) := inferInstance
  have : Decidable (package.isExplicitSourceSwitch = true → files.Waits id disk package →
      ∀ receipt ∈ (files.readReceipt disk id).toOption, ∀ previous ∈ receipt.previous,
        previous.version = package.manifest.version → previous.packageHash = package.hash) :=
    inferInstance
  decidable_of_iff (_ ∧ _ ∧ _ ∧ _) ⟨fun h => ⟨h.1, h.2.1, h.2.2.1, h.2.2.2⟩,
    fun h => ⟨h.1, h.2, h.3, h.4⟩⟩

instance : Decidable (files.RolledBackFrom env id disk package) :=
  inferInstanceAs (Decidable (_ ∧ ∃ receipt ∈ (files.readReceipt disk id).toOption, _ ∧
    (∃ previous ∈ receipt.previous, _ ∧ _) ∧ _))

instance (granted : List Capability) : Decidable (files.CompletesReview id disk granted) :=
  inferInstanceAs (Decidable (_ ∨ _ ∨ _ ∧ ∃ grants ∈ (files.loadGrants disk id).toOption, _))

instance : DecidableRel (Completes env id) := fun catalog operation =>
  inferInstanceAs (Decidable ((∀ package ∈ operation.2.incoming env operation.1 id,
      (catalog.files id).Completes env id operation.1 package) ∧
    (∀ granted ∈ operation.2.approves id,
      (catalog.files id).CompletesReview id operation.1 granted) ∧
    ∀ package ∈ operation.2.incoming env .sound id,
      ¬ (catalog.files id).RolledBackFrom env id .sound package))

end

/-! ### Steps -/

section

variable {env : CatalogEnv} {id : ExtensionId} {disk : Disk} {files placed : ExtensionFiles}
  {package : CheckedPackage}

namespace ExtensionFiles

/-- What the next receipt is. -/
theorem nextReceipt_cases (id : ExtensionId) (previousReceipt : Option InstallationReceipt)
    (installed : InstalledVersionReceipt) (isExplicitSourceSwitch expansion : Bool) :
    let next := nextReceipt id previousReceipt installed isExplicitSourceSwitch expansion
    next.active = installed ∧ next.previous = none ∧ next.pending = none ∧
        ((isExplicitSourceSwitch &&
          publisherChanged previousReceipt installed.publisherKey) = true ∨
            previousReceipt = none) ∨
      ∃ receipt, previousReceipt = some receipt ∧
        (receipt.active.version ≠ installed.version ∧ expansion = true ∧
            next.active = receipt.active ∧ next.previous = receipt.previous ∧
            next.pending = some installed ∨
          receipt.active.version ≠ installed.version ∧ next.active = installed ∧
            next.previous = some receipt.active ∧ next.pending = none ∨
          receipt.active.version = installed.version ∧ next.active = installed ∧
            next.previous = receipt.previous ∧ next.pending = receipt.pending) := by
  unfold nextReceipt
  dsimp only
  cases hreset : isExplicitSourceSwitch && publisherChanged previousReceipt installed.publisherKey with
  | true => exact .inl ⟨rfl, rfl, rfl, .inl rfl⟩
  | false =>
    cases previousReceipt with
    | none => exact .inl (by simp)
    | some receipt =>
      refine .inr ⟨receipt, rfl, ?_⟩
      simp only [Option.getD_some, Bool.false_eq_true, if_false]
      split_ifs with hversion hexpansion
      · exact .inl ⟨hversion, hexpansion, rfl, rfl, rfl⟩
      · exact .inr (.inl ⟨hversion, rfl, rfl, rfl⟩)
      · exact .inr (.inr ⟨not_not.mp hversion, rfl, rfl, rfl⟩)

variable {hash : String} {manifest : ExtensionManifest}

theorem moves_of_moveStage (h : files.moveStage disk manifest hash = (placed, .ok ())) :
    disk.moves = true := by
  unfold moveStage at h
  split at h
  · cases congrArg Prod.snd h
  · rename_i hmoves
    simp only [bind_eq_ok, Disk.run_eq_ok] at hmoves
    obtain ⟨_, hparent, _, hread, hrename⟩ := hmoves
    simp [Disk.moves, hparent, hread, hrename]

/-- A package that is staged has been moved to its place. -/
theorem moves_of_placePackage {previousReceipt : Option InstallationReceipt}
    {isExplicitSourceSwitch : Bool}
    (h : files.placePackage disk manifest hash previousReceipt isExplicitSourceSwitch =
      (placed, .ok ())) (hnew : isExplicitSourceSwitch = true ∨ manifest.version ∉ files.versions) :
    disk.moves = true ∧ (manifest.version ∈ files.versions → disk.fails .removeTarget = false) := by
  unfold placePackage at h
  dsimp only at h
  split_ifs at h with hmem hswitch hhash
  · refine ⟨moves_of_moveStage h, fun _ => ?_⟩
    by_contra hfails
    rw [Bool.not_eq_false] at hfails
    rw [removeVersion, if_pos hfails] at h
    rcases files.moveStage_cases disk manifest hash with ⟨err, hm⟩ | ⟨hnot, -⟩
    · rw [hm] at h
      cases congrArg Prod.snd h
    · exact hnot hmem
  · cases congrArg Prod.snd h
  · exact absurd hnew (by simp [hswitch, hmem])
  · exact ⟨moves_of_moveStage h, fun h => absurd h hmem⟩

theorem moveStage_of_moves (hmoves : disk.moves = true) (h : manifest.version ∉ files.versions) :
    files.moveStage disk manifest hash =
      ({ files with
        versions := files.versions.insert manifest.version (.extracted hash manifest) },
        .ok ()) := by
  simp only [Disk.moves, Bool.and_eq_true, Bool.not_eq_true'] at hmoves
  unfold moveStage
  have hrun : (do disk.run .createParent; disk.run .markReadOnly; disk.run .renameStage) =
      Except.ok () := by
    simp only [Disk.run, hmoves, Bool.false_eq_true, if_false]
    rfl
  rw [hrun]
  dsimp only
  rw [if_neg h]

/-- A switch that cannot replace what is there leaves it. -/
theorem placePackage_replace {previousReceipt : Option InstallationReceipt} {err : CatalogError}
    (h : files.placePackage disk manifest hash previousReceipt true = (placed, .error err))
    (hmem : manifest.version ∈ files.versions) (hreplaces : disk.fails .removeTarget = false →
      disk.fails .finishRemoval = false ∧ disk.moves = true) : placed = files := by
  unfold placePackage at h
  rw [if_pos hmem, if_pos rfl] at h
  cases hfails : disk.fails .removeTarget with
  | true =>
    rw [removeVersion, if_pos hfails] at h
    rcases files.moveStage_cases disk manifest hash with ⟨err, hm⟩ | ⟨hnot, -⟩
    · rw [hm] at h
      exact (congrArg Prod.fst h).symm
    · exact absurd hmem hnot
  | false =>
    obtain ⟨hfinish, hmoves⟩ := hreplaces hfails
    rw [removeVersion, if_neg (by simp [hfails]), if_neg (by simp [hfinish]),
      moveStage_of_moves hmoves (by simp [AList.mem_erase])] at h
    cases congrArg Prod.snd h

/-- An update waits only if its publisher asks for more. -/
theorem waits_of_expansion {grants : StoredGrants} (hgrants : files.granted = grants.grantedCapabilities)
    (h : capabilityExpansion (files.readReceipt disk id).toOption package.verified.publisherKey
      package.manifest.capabilities grants.grantedCapabilities = true) :
    ∀ receipt ∈ (files.readReceipt disk id).toOption,
      receipt.active.version ≠ package.manifest.version → files.Waits id disk package := by
  intro receipt hreceipt hversion
  refine ⟨receipt, hreceipt, ?_⟩
  rw [Option.mem_def] at hreceipt
  rw [hreceipt] at h
  simp only [capabilityExpansion, publisherChanged, Option.isSome_some, Option.any_some, ne_eq,
    Bool.true_and, Bool.and_eq_true, Bool.not_eq_true', decide_eq_false_iff_not, not_not,
    List.any_eq_true, List.contains_eq_mem, ← hgrants] at h
  exact ⟨h.1, hversion, h.2⟩

/-- A package in its place is recorded; or all is as it was, and something has gone wrong. -/
theorem recordPackage_whole (hgrants : placed.grants = files.grants)
    (hid : package.manifest.id = id) (hwhole : files.recordsWhole id disk package = true) :
    let left := placed.recordPackage disk package.manifest package.installed
      (files.readReceipt disk id).toOption package.isExplicitSourceSwitch
    (∃ err, left = (placed, .error err)) ∧ files.records id disk package = false ∨
      (∃ receipt, left.2 = .ok receipt) ∧ left.1.versions = placed.versions ∧
        ∃ expansion : Bool, left.1.receipt = .holds (nextReceipt id
            (files.readReceipt disk id).toOption package.installed
            package.isExplicitSourceSwitch expansion) ∧
          (expansion = true → ∀ receipt ∈ (files.readReceipt disk id).toOption,
            receipt.active.version ≠ package.manifest.version → files.Waits id disk package) := by
  subst hid
  have hcases := placed.recordPackage_cases disk package.manifest package.installed
    (files.readReceipt disk package.manifest.id).toOption package.isExplicitSourceSwitch
  have hresets : (package.isExplicitSourceSwitch && publisherChanged
      (files.readReceipt disk package.manifest.id).toOption package.installed.publisherKey) =
    files.resets package.manifest.id disk package := rfl
  rw [loadGrants_congr disk files hgrants, hresets] at hcases
  unfold recordsWhole at hwhole
  unfold records
  dsimp only
  rcases hcases with
    ⟨err, hload, hr⟩ | ⟨grants, hload, ⟨hreset, ⟨hfails, err, hr⟩ | ⟨hfails, hr⟩⟩ | ⟨hreset, hr⟩⟩ <;>
    rw [hr] <;> rw [hload] at hwhole ⊢
  · exact .inl ⟨⟨err, rfl⟩, rfl⟩
  · exact .inl ⟨⟨err, rfl⟩, by simp [hreset, hfails]⟩
  · -- the grants have been taken away
    rw [if_pos hreset, hfails] at hwhole
    rcases ({ placed with grants := .holds (.disabled package.manifest.id) } :
      ExtensionFiles).recordInstall_cases disk (nextReceipt package.manifest.id
        (files.readReceipt disk package.manifest.id).toOption package.installed
        package.isExplicitSourceSwitch (capabilityExpansion
          (files.readReceipt disk package.manifest.id).toOption package.installed.publisherKey
          package.manifest.capabilities [])) (.disabled package.manifest.id) with
      ⟨hsave, -⟩ | ⟨-, ⟨-, h⟩ | ⟨hnone, -⟩ | ⟨hnone, -⟩⟩
    · rw [hsave] at hwhole
      cases hwhole
    · rw [h]
      refine .inr ⟨⟨_, rfl⟩, rfl, _, rfl, fun hexpansion => ?_⟩
      refine absurd hexpansion ?_
      have hchanged := (Bool.and_eq_true_iff.mp hreset).2
      rw [show package.installed.publisherKey = package.verified.publisherKey from rfl]
      simp [capabilityExpansion, hchanged]
    · cases hnone
    · cases hnone
  · -- the grants stay
    have hgranted : files.granted = grants.grantedCapabilities := (granted_of_loadGrants hload).symm
    rw [if_neg (by simp [hreset])] at hwhole
    rcases placed.recordInstall_cases disk (nextReceipt package.manifest.id
        (files.readReceipt disk package.manifest.id).toOption package.installed
        package.isExplicitSourceSwitch (capabilityExpansion
          (files.readReceipt disk package.manifest.id).toOption package.installed.publisherKey
          package.manifest.capabilities grants.grantedCapabilities)) grants with
      ⟨hsave, err, h⟩ | ⟨hsave, ⟨-, h⟩ | ⟨hnone, hfails, -⟩ | ⟨-, -, h⟩⟩
    · rw [h]
      exact .inl ⟨⟨err, rfl⟩, by simp [hsave]⟩
    · rw [h]
      exact .inr ⟨⟨_, rfl⟩, rfl, _, rfl, waits_of_expansion hgranted⟩
    · rw [hgrants] at hnone
      simp [hsave, hnone, hfails, Except.isOk, Except.toBool] at hwhole
    · rw [h]
      exact .inr ⟨⟨_, rfl⟩, rfl, _, rfl, waits_of_expansion hgranted⟩

/-- The versions that a receipt names have their directories, and the active version is named
once. -/
structure Kept (files : ExtensionFiles) : Prop where
  stored : files.Stored
  previous : ∀ receipt, files.receipt = .holds receipt → ∀ version ∈ receipt.previous,
    version.version ≠ receipt.active.version
  pending : ∀ receipt, files.receipt = .holds receipt → ∀ version ∈ receipt.pending,
    version.version ≠ receipt.active.version

theorem kept_of_absent (h : ∀ receipt, files.receipt ≠ .holds receipt) : files.Kept :=
  ⟨fun receipt hr => absurd hr (h receipt), fun receipt hr => absurd hr (h receipt),
    fun receipt hr => absurd hr (h receipt)⟩

variable {version : InstalledVersionReceipt}

theorem mem_versions {receipt : InstallationReceipt} :
    version ∈ receipt.versions ↔ version = receipt.active ∨ version ∈ receipt.previous ∨
      version ∈ receipt.pending := by
  simp [InstallationReceipt.versions, Option.mem_toList]

variable {left : ExtensionFiles}

/-- The receipt is another one, which names versions that have their directories. -/
theorem Kept.of_receipt {receipt : InstallationReceipt} (hreceipt : left.receipt = .holds receipt)
    (hactive : left.Extracted receipt.active) (hprevious : ∀ version ∈ receipt.previous,
      left.Extracted version ∧ version.version ≠ receipt.active.version)
    (hpending : ∀ version ∈ receipt.pending,
      left.Extracted version ∧ version.version ≠ receipt.active.version) : left.Kept := by
  refine ⟨?_, ?_, ?_⟩ <;> intro receipt' hholds <;> cases hreceipt.symm.trans hholds
  · intro version hversion
    rcases mem_versions.mp hversion with rfl | hversion | hversion
    · exact hactive
    · exact (hprevious version hversion).1
    · exact (hpending version hversion).1
  · exact fun version hversion => (hprevious version hversion).2
  · exact fun version hversion => (hpending version hversion).2

theorem Extracted.congr (h : files.Extracted version)
    (hsame : left.versions.lookup version.version = files.versions.lookup version.version) :
    left.Extracted version := by
  obtain ⟨manifest, hlookup⟩ := h
  exact ⟨manifest, hsame.trans hlookup⟩

theorem mem_of_extracted (h : files.Extracted version) :
    version.version ∈ files.versions := by
  obtain ⟨manifest, hlookup⟩ := h
  exact AList.lookup_isSome.mp (by rw [hlookup]; rfl)

/-- What has been recorded has its directories. -/
theorem kept_of_recorded (hkept : files.Kept)
    (hplace : files.placePackage disk package.manifest package.hash
      (files.readReceipt disk id).toOption package.isExplicitSourceSwitch = (placed, .ok ()))
    (hkeeps : package.isExplicitSourceSwitch = true → files.Waits id disk package →
      ∀ receipt ∈ (files.readReceipt disk id).toOption, ∀ previous ∈ receipt.previous,
        previous.version = package.manifest.version → previous.packageHash = package.hash)
    (hversions : left.versions = placed.versions) {expansion : Bool}
    (hreceipt : left.receipt = .holds (nextReceipt id (files.readReceipt disk id).toOption
      package.installed package.isExplicitSourceSwitch expansion))
    (hwaits : expansion = true → ∀ receipt ∈ (files.readReceipt disk id).toOption,
      receipt.active.version ≠ package.manifest.version → files.Waits id disk package) :
    left.Kept := by
  have hother : ∀ version, version ≠ package.manifest.version →
      left.versions.lookup version = files.versions.lookup version := by
    intro version hversion
    have hsame := files.lookup_placePackage disk package.manifest package.hash
      (files.readReceipt disk id).toOption package.isExplicitSourceSwitch hversion
    rw [hplace] at hsame
    rw [hversions]
    exact hsame
  -- the directory is that of the package
  have hinstalled : left.Extracted package.installed := by
    rcases placePackage_ok _ _ hplace with ⟨-, hlookup⟩ | ⟨-, -, rfl, receipt, hprevious, hv, hhash⟩
    · exact ⟨package.manifest, by rw [hversions]; exact hlookup⟩
    · obtain ⟨manifest, hlookup⟩ := hkept.stored receipt (receipt_of_mem hprevious) receipt.active
        (mem_versions.mpr (.inl rfl))
      refine ⟨manifest, ?_⟩
      rw [hversions]
      change placed.versions.lookup package.manifest.version =
        some (.extracted package.hash manifest)
      rw [← hv, ← hhash]
      exact hlookup
  have hcases := nextReceipt_cases id (files.readReceipt disk id).toOption package.installed
    package.isExplicitSourceSwitch expansion
  dsimp only at hcases
  generalize nextReceipt id (files.readReceipt disk id).toOption package.installed
    package.isExplicitSourceSwitch expansion = next at hreceipt hcases
  rcases hcases with ⟨hactive, hprevious, hpending, -⟩ | ⟨old, hold, hcases⟩
  · -- nothing is kept of what was installed
    refine .of_receipt hreceipt (hactive ▸ hinstalled) ?_ ?_
    · rw [hprevious]
      exact fun _ h => absurd h (Option.not_mem_none _)
    · rw [hpending]
      exact fun _ h => absurd h (Option.not_mem_none _)
  have hholds := receipt_of_mem hold
  have hstays : ∀ version ∈ old.versions, version.version ≠ package.manifest.version →
      left.Extracted version := fun version hmem hversion =>
    (hkept.stored old hholds version hmem).congr (hother _ hversion)
  rcases hcases with ⟨hversion, hexpansion, hactive, hprevious, hpending⟩ |
    ⟨hversion, hactive, hprevious, hpending⟩ | ⟨hversion, hactive, hprevious, hpending⟩
  · -- the update waits
    refine .of_receipt hreceipt ?_ ?_ ?_
    · rw [hactive]
      exact hstays _ (mem_versions.mpr (.inl rfl)) hversion
    · rw [hactive, hprevious]
      intro version hmem
      refine ⟨?_, hkept.previous old hholds version hmem⟩
      have hnamed := mem_versions.mpr (.inr (.inl hmem))
      by_cases hsame : version.version = package.manifest.version
      · obtain ⟨manifest, hlookup⟩ := hinstalled
        refine ⟨manifest, ?_⟩
        rw [hsame]
        cases hswitch : package.isExplicitSourceSwitch with
        | true =>
          rw [hkeeps hswitch (hwaits hexpansion old hold hversion) old hold version hmem hsame]
          exact hlookup
        | false =>
          have hpresent := mem_of_extracted (hkept.stored old hholds version hnamed)
          rw [hsame] at hpresent
          rcases placePackage_ok _ _ hplace with ⟨hnew, -⟩ | ⟨-, -, -, receipt, hr, hv, -⟩
          · exact absurd hnew (by simp [hswitch, hpresent])
          · cases hold.symm.trans hr
            exact absurd hv hversion
      · exact hstays version hnamed hsame
    · rw [hactive, hpending]
      rintro _ ⟨⟩
      exact ⟨hinstalled, Ne.symm hversion⟩
  · -- the update is active
    refine .of_receipt hreceipt (hactive ▸ hinstalled) ?_ ?_
    · rw [hactive, hprevious]
      rintro _ ⟨⟩
      exact ⟨hstays _ (mem_versions.mpr (.inl rfl)) hversion, hversion⟩
    · rw [hpending]
      exact fun _ h => absurd h (Option.not_mem_none _)
  · -- the active version again
    have hversion : old.active.version = package.manifest.version := hversion
    refine .of_receipt hreceipt (hactive ▸ hinstalled) ?_ ?_
    · rw [hactive, hprevious]
      intro version hmem
      have hne := hkept.previous old hholds version hmem
      rw [hversion] at hne
      exact ⟨hstays version (mem_versions.mpr (.inr (.inl hmem))) hne, hne⟩
    · rw [hactive, hpending]
      intro version hmem
      have hne := hkept.pending old hholds version hmem
      rw [hversion] at hne
      exact ⟨hstays version (mem_versions.mpr (.inr (.inr hmem))) hne, hne⟩

/-- Nothing is different but the directory of a version. -/
structure SameBut (version : Version) (files left : ExtensionFiles) : Prop where
  receipt : left.receipt = files.receipt
  grants : left.grants = files.grants
  directories : ∀ other, other ≠ version → left.versions.lookup other = files.versions.lookup other

theorem SameRecords.refl (files : ExtensionFiles) : files.SameRecords files :=
  ⟨rfl, rfl, fun _ _ => rfl⟩

theorem SameBut.sameRecords {version : Version} (h : SameBut version files left)
    (hnames : ¬ files.Names version) : files.SameRecords left := by
  refine ⟨h.receipt, h.grants, fun other hother => h.directories other ?_⟩
  rintro rfl
  exact hnames hother

theorem Kept.of_sameRecords (hkept : files.Kept) (hsame : files.SameRecords left) : left.Kept := by
  have hholds : ∀ receipt, left.receipt = .holds receipt → files.receipt = .holds receipt :=
    fun receipt h => hsame.receipt.symm.trans h
  refine ⟨fun receipt h version hversion => ?_, fun receipt h => hkept.previous receipt (hholds _ h),
    fun receipt h => hkept.pending receipt (hholds _ h)⟩
  exact (hkept.stored receipt (hholds _ h) version hversion).congr
    (hsame.directories _ ⟨receipt, hholds _ h, version, hversion, rfl⟩)

/-- What an installation leaves: nothing has changed; or it is a switch that has stopped, and the
version is not named; or the package is recorded. -/
theorem installChecked_outcome (hkept : files.Kept) (hid : package.manifest.id = id)
    (hcompletes : files.Completes env id disk package) :
    (∃ err, files.installChecked env disk package = (files, .error err)) ∨
      (∃ left err, files.installChecked env disk package = (left, .error err) ∧
        package.isExplicitSourceSwitch = true ∧ ¬ files.Names package.manifest.version ∧
        SameBut package.manifest.version files left) ∨
      ∃ left receipt, files.installChecked env disk package = (left, .ok receipt) ∧ left.Kept := by
  have hmem : files.Names package.manifest.version → package.manifest.version ∈ files.versions := by
    rintro ⟨receipt, hholds, named, hnamed, hversion⟩
    rw [← hversion]
    exact mem_of_extracted (hkept.stored receipt hholds named hnamed)
  subst hid
  rcases files.install_cases env disk package.manifest package.hash package.verified
    package.isExplicitSourceSwitch package.now with
    ⟨err, h⟩ | ⟨hfollows, ⟨placed, err, hplace, h⟩ | ⟨placed, hplace, h⟩⟩
  · exact .inl ⟨err, h⟩
  all_goals
    have hrecords := files.placePackage_records disk package.manifest package.hash
      (files.readReceipt disk package.manifest.id).toOption package.isExplicitSourceSwitch
    have hother := fun version (hversion : version ≠ package.manifest.version) =>
      files.lookup_placePackage disk package.manifest package.hash
        (files.readReceipt disk package.manifest.id).toOption package.isExplicitSourceSwitch
        hversion
    rw [hplace] at hrecords hother
    have hbut : SameBut package.manifest.version files placed :=
      ⟨hrecords.1, hrecords.2, hother⟩
  · -- the package is not in its place
    cases hswitch : package.isExplicitSourceSwitch with
    | false =>
      rw [hswitch] at hplace
      obtain rfl := files.placePackage_error disk hplace
      exact .inl ⟨err, h⟩
    | true =>
      by_cases hnames : files.Names package.manifest.version
      · rw [hswitch] at hplace
        obtain rfl := placePackage_replace hplace (hmem hnames) fun hremove =>
          (hcompletes.replaces hswitch hnames hremove).imp_right And.left
        exact .inl ⟨err, h⟩
      · exact .inr (.inl ⟨placed, err, h, rfl, hnames, hbut⟩)
  · -- it is in its place
    have haccepts : files.Accepts env package.manifest.id disk package := by
      cases hswitch : package.isExplicitSourceSwitch with
      | true => exact .inl hswitch
      | false => exact .inr (hfollows hswitch)
    rcases recordPackage_whole hbut.grants rfl (hcompletes.whole haccepts) with
      ⟨⟨err, hr⟩, hnot⟩ | ⟨⟨receipt, hr⟩, hversions, expansion, hreceipt, hwaits⟩
    · have hleft : files.installChecked env disk package = (placed, .error err) := h.trans hr
      cases hswitch : package.isExplicitSourceSwitch with
      | false =>
        rcases placePackage_ok _ _ hplace with ⟨hnew, -⟩ | ⟨-, -, rfl, -⟩
        · have hnew : package.manifest.version ∉ files.versions :=
            hnew.resolve_left (by rw [hswitch]; nofun)
          have hmoves := (moves_of_placePackage hplace (.inr hnew)).1
          rw [hcompletes.places haccepts hswitch hnew hmoves] at hnot
          cases hnot
        · exact .inl ⟨err, hleft⟩
      | true =>
        refine .inr (.inl ⟨placed, err, hleft, rfl, fun hnames => ?_, hbut⟩)
        have hmoves := moves_of_placePackage hplace (.inl hswitch)
        rw [(hcompletes.replaces hswitch hnames (hmoves.2 (hmem hnames))).2.2] at hnot
        cases hnot
    · have hleft : files.installChecked env disk package =
          ((placed.recordPackage disk package.manifest package.installed
            (files.readReceipt disk package.manifest.id).toOption
            package.isExplicitSourceSwitch).1, .ok receipt) := h.trans (Prod.ext rfl hr)
      exact .inr (.inr ⟨_, receipt, hleft,
        kept_of_recorded hkept hplace hcompletes.keeps hversions hreceipt hwaits⟩)

/-! ### Trying again -/

theorem readReceipt_congr (h : left.receipt = files.receipt) :
    left.readReceipt disk id = files.readReceipt disk id := by
  unfold readReceipt
  rw [h]

/-- A package is recorded whatever the directories are. -/
theorem recordPackage_versions (files : ExtensionFiles) (versions : AList fun _ : Version => PackageDir)
    (manifest : ExtensionManifest) (installed : InstalledVersionReceipt)
    (previousReceipt : Option InstallationReceipt) (isExplicitSourceSwitch : Bool) :
    ({ files with versions } : ExtensionFiles).recordPackage disk manifest installed
        previousReceipt isExplicitSourceSwitch =
      (files.recordPackage disk manifest installed previousReceipt isExplicitSourceSwitch).map
        ({ · with versions }) (fun result => result) := by
  have hrecord : ∀ (files : ExtensionFiles) (receipt : InstallationReceipt) (grants : StoredGrants),
      ({ files with versions } : ExtensionFiles).recordInstall disk receipt grants =
        (files.recordInstall disk receipt grants).map ({ · with versions }) (fun result => result) := by
    intro files receipt grants
    unfold recordInstall saveReceipt saveGrants Disk.run
    cases disk.fails .saveReceipt with
    | true => rfl
    | false =>
      cases hexists : files.grants.exists <;> cases disk.fails .saveGrants <;>
        simp [hexists, bind, Except.bind, pure, Except.pure]
  unfold recordPackage
  rw [show ({ files with versions } : ExtensionFiles).loadGrants disk manifest.id =
    files.loadGrants disk manifest.id from rfl]
  cases files.loadGrants disk manifest.id with
  | error err => rfl
  | ok grants =>
    dsimp only
    split_ifs
    · unfold saveGrants Disk.run
      cases disk.fails .resetGrants with
      | true => rfl
      | false => exact hrecord { files with grants := .holds (.disabled manifest.id) } _ _
    · exact hrecord files _ _

theorem versions_recordPackage (files : ExtensionFiles) (manifest : ExtensionManifest)
    (installed : InstalledVersionReceipt) (previousReceipt : Option InstallationReceipt)
    (isExplicitSourceSwitch : Bool) :
    (files.recordPackage disk manifest installed previousReceipt
      isExplicitSourceSwitch).1.versions = files.versions := by
  rcases files.recordPackage_cases disk manifest installed previousReceipt isExplicitSourceSwitch
    with ⟨err, -, h⟩ | ⟨grants, -, ⟨-, ⟨-, err, h⟩ | ⟨-, h⟩⟩ | ⟨-, h⟩⟩ <;> rw [h]
  · exact versions_recordInstall disk _ _ _
  · exact versions_recordInstall disk _ _ _

/-- Where nothing goes wrong, a switch puts the package in its place. -/
theorem placePackage_switch (files : ExtensionFiles) (manifest : ExtensionManifest) (hash : String)
    (previousReceipt : Option InstallationReceipt) :
    ∃ placed, files.placePackage .sound manifest hash previousReceipt true = (placed, .ok ()) := by
  unfold placePackage
  rw [if_pos rfl]
  split_ifs with hmem
  · refine ⟨_, moveStage_of_moves rfl ?_⟩
    rw [removeVersion, if_neg (by simp [Disk.sound]), if_neg (by simp [Disk.sound])]
    exact fun h => (AList.mem_erase.mp h).1 rfl
  · exact ⟨_, moveStage_of_moves rfl hmem⟩

/-- A switch that has stopped can be tried again. -/
theorem installChecked_again (hswitch : package.isExplicitSourceSwitch = true)
    (h : SameBut package.manifest.version files left) :
    let outcome := files.installChecked env .sound package
    let outcome' := left.installChecked env .sound package
    outcome'.2 = outcome.2 ∧ outcome'.1.receipt = outcome.1.receipt ∧
      outcome'.1.grants = outcome.1.grants ∧
      ∀ version, outcome'.1.versions.lookup version = outcome.1.versions.lookup version := by
  have hplace : ∀ files' : ExtensionFiles, ∃ placed : ExtensionFiles,
      files'.installChecked env .sound package = placed.recordPackage .sound package.manifest
        package.installed (files'.readReceipt .sound package.manifest.id).toOption true ∧
      placed.receipt = files'.receipt ∧ placed.grants = files'.grants ∧
      (∀ version, version ≠ package.manifest.version →
        placed.versions.lookup version = files'.versions.lookup version) ∧
      placed.versions.lookup package.manifest.version =
        some (.extracted package.hash package.manifest) := by
    intro files'
    obtain ⟨placed, hplaced⟩ := files'.placePackage_switch package.manifest package.hash
      (files'.readReceipt .sound package.manifest.id).toOption
    have hrecords := files'.placePackage_records .sound package.manifest package.hash
      (files'.readReceipt .sound package.manifest.id).toOption true
    have hother := fun version (hversion : version ≠ package.manifest.version) =>
      files'.lookup_placePackage .sound package.manifest package.hash
        (files'.readReceipt .sound package.manifest.id).toOption true hversion
    rw [hplaced] at hrecords hother
    refine ⟨placed, ?_, hrecords.1, hrecords.2, hother, ?_⟩
    · simp only [installChecked, install, hswitch, if_true, hplaced]
      rfl
    · rcases placePackage_ok _ _ hplaced with ⟨-, hlookup⟩ | ⟨hnot, -⟩
      · exact hlookup
      · cases hnot
  obtain ⟨placed, houtcome, hreceipt, hgrants, hother, hsame⟩ := hplace files
  obtain ⟨placed', houtcome', hreceipt', hgrants', hother', hsame'⟩ := hplace left
  dsimp only
  have hplaced : placed' = { placed with versions := placed'.versions } := by
    cases placed
    cases placed'
    simp_all [h.receipt, h.grants]
  rw [houtcome, houtcome', readReceipt_congr h.receipt, hplaced, recordPackage_versions]
  refine ⟨rfl, rfl, rfl, fun version => ?_⟩
  rw [versions_recordPackage]
  change placed'.versions.lookup version = placed.versions.lookup version
  by_cases hversion : version = package.manifest.version
  · rw [hversion, hsame, hsame']
  · rw [hother version hversion, hother' version hversion, h.directories version hversion]

/-- Where nothing goes wrong, an extension is removed, or stays as it is. -/
theorem uninstall_whole (files : ExtensionFiles) (hsound : ∀ op, disk.fails op = false)
    (secrets state : Except String Unit) :
    (files.uninstall disk id secrets state).1 = files ∨
      (files.uninstall disk id secrets state).1.receipt = .absent ∧
        (files.uninstall disk id secrets state).2 = .ok () := by
  unfold uninstall
  split
  · exact .inl rfl
  · split
    · exact .inl rfl
    · have hrun : disk.run .stageReceipt = .ok () := Disk.run_eq_ok.mpr (hsound _)
      rw [hrun]
      cases state with
      | ok u => exact .inr ⟨rfl, rfl⟩
      | error message => exact .inl (by simp [hsound])

/-- What becomes active by a review or a rollback has been named before. -/
theorem Kept.of_swap {receipt left : InstallationReceipt} (hkept : files.Kept)
    (hholds : files.receipt = .holds receipt) (hversion : version ∈ receipt.versions)
    (hne : version.version ≠ receipt.active.version) (hactive : left.active = version)
    (hprevious : left.previous = some receipt.active) (hpending : left.pending = none)
    (grants : StoredFile StoredGrants) :
    ({ files with receipt := .holds left, grants } : ExtensionFiles).Kept := by
  have hstored := hkept.stored receipt hholds
  refine .of_receipt rfl ?_ ?_ ?_
  · rw [hactive]
    exact (hstored version hversion).congr rfl
  · rw [hactive, hprevious]
    rintro _ ⟨⟩
    exact ⟨(hstored _ (mem_versions.mpr (.inl rfl))).congr rfl, Ne.symm hne⟩
  · rw [hpending]
    exact fun _ h => absurd h (Option.not_mem_none _)

/-- The receipt names the same versions. -/
theorem Kept.of_same {receipt left : InstallationReceipt} (hkept : files.Kept)
    (hholds : files.receipt = .holds receipt) (hactive : left.active = receipt.active)
    (hprevious : left.previous = receipt.previous) (hpending : left.pending = receipt.pending) :
    ({ files with receipt := .holds left } : ExtensionFiles).Kept := by
  have hstored := hkept.stored receipt hholds
  refine .of_receipt rfl ?_ ?_ ?_
  · rw [hactive]
    exact (hstored _ (mem_versions.mpr (.inl rfl))).congr rfl
  · rw [hactive, hprevious]
    exact fun version h => ⟨(hstored version (mem_versions.mpr (.inr (.inl h)))).congr rfl,
      hkept.previous receipt hholds version h⟩
  · rw [hactive, hpending]
    exact fun version h => ⟨(hstored version (mem_versions.mpr (.inr (.inr h)))).congr rfl,
      hkept.pending receipt hholds version h⟩

end ExtensionFiles

/-- The checks of a package have the same result where nothing goes wrong. -/
theorem PackageFile.inspect_sound {file : PackageFile} {provenance : PackageProvenance}
    {checked : ExtensionManifest × VerifiedProvenance}
    (h : file.inspect env disk provenance = .ok checked) :
    file.inspect env .sound provenance = .ok checked := by
  have hsound : ∀ op, Disk.sound.run op = .ok () := fun _ => rfl
  unfold inspect at h ⊢
  rw [bind_eq_ok] at h ⊢
  obtain ⟨_, -, h⟩ := h
  refine ⟨(), hsound _, ?_⟩
  split_ifs at h ⊢
  simp only [bind_eq_ok] at h ⊢
  obtain ⟨_, -, verified, hverify, _, -, _, -, hrest⟩ := h
  exact ⟨(), hsound _, verified, hverify, (), hsound _, (), hsound _, hrest⟩

theorem CatalogOperation.incoming_sound {operation : CatalogOperation}
    (h : operation.incoming env disk id = some package) :
    operation.incoming env .sound id = some package := by
  cases operation with
  | installPackage file provenance isExplicitSourceSwitch now =>
    unfold incoming at h ⊢
    dsimp only at h ⊢
    split at h
    · rename_i hinspect
      rw [PackageFile.inspect_sound hinspect]
      exact h
    · cases h
  | _ => cases h

variable {catalog : Catalog} {operation : Disk × CatalogOperation}

/-- What an operation leaves: nothing has changed; or it is a switch that has stopped, and the
version is not named; or it has been done. -/
theorem next_outcome (hkept : (catalog.files id).Kept) (hremoved : RemovedWhole id catalog operation)
    (hcompletes : Completes env id catalog operation) :
    (catalog.next env operation).files id = catalog.files id ∨
      (∃ package, operation.2.incoming env operation.1 id = some package ∧
        package.isExplicitSourceSwitch = true ∧
        ¬ (catalog.files id).Names package.manifest.version ∧
        ExtensionFiles.SameBut package.manifest.version (catalog.files id)
          ((catalog.next env operation).files id)) ∨
      (catalog.step env operation).2 = .ok () ∧ ((catalog.next env operation).files id).Kept := by
  rcases catalog.change_next env operation id with hsame | hchange
  · exact .inl hsame
  obtain ⟨disk, operation⟩ := operation
  generalize (catalog.next env (disk, operation)).files id = left at hchange ⊢
  generalize (catalog.step env (disk, operation)).2 = result at hchange ⊢
  have holds : ∀ {receipt}, (catalog.files id).readReceipt disk id = .ok receipt →
      (catalog.files id).receipt = .holds receipt :=
    fun hread => (ExtensionFiles.readReceipt_eq_ok.mp hread).2.1
  cases hchange with
  | stopped => exact .inl rfl
  | installed package hpackage =>
    rcases ExtensionFiles.installChecked_outcome hkept (CatalogOperation.incoming_id hpackage)
        (hcompletes.1 package hpackage) with
      ⟨err, h⟩ | ⟨left, err, h, hswitch, hnames, hbut⟩ | ⟨left, receipt, h, hleft⟩ <;> rw [h]
    · exact .inl rfl
    · exact .inr (.inl ⟨package, hpackage, hswitch, hnames, hbut⟩)
    · exact .inr (.inr ⟨rfl, hleft⟩)
  | failed receipt err hread =>
    exact .inr (.inr ⟨rfl, hkept.of_same (holds hread) rfl rfl rfl⟩)
  | enabled receipt grants enabled hread hload =>
    exact .inr (.inr ⟨rfl, ⟨hkept.1, hkept.2, hkept.3⟩⟩)
  | channelSet receipt channel hread =>
    exact .inr (.inr ⟨rfl, hkept.of_same (holds hread) rfl rfl rfl⟩)
  | approvalStopped receipt pending grants granted err hread hpending hload hgrants hsave =>
    rcases hcompletes.2.1 granted (if_pos rfl) with hok | hfails | ⟨hexists, grants', hload', rfl⟩
    · cases hsave.symm.trans hok
    · cases hgrants.symm.trans hfails
    · -- the grants are what they were
      left
      rw [Option.mem_def] at hload'
      change ((catalog.files id).loadGrants disk id).toOption = some grants' at hload'
      rw [hload] at hload'
      cases hload'
      rcases ExtensionFiles.loadGrants_eq_ok.mp hload with ⟨hnone, -⟩ | ⟨-, hholds, -⟩
      · rw [hnone] at hexists
        cases hexists
      · rw [← hholds]
  | approved receipt pending grants granted hread hpending hload =>
    exact .inr (.inr ⟨rfl, hkept.of_swap (holds hread)
      (ExtensionFiles.mem_versions.mpr (.inr (.inr hpending)))
      (hkept.pending receipt (holds hread) pending hpending) rfl rfl rfl _⟩)
  | granted receipt manifest grants granted hread hmanifest hdeclared hload =>
    exact .inr (.inr ⟨rfl, ⟨hkept.1, hkept.2, hkept.3⟩⟩)
  | rolledBack receipt previous hread hprevious hmem =>
    exact .inr (.inr ⟨rfl, hkept.of_swap (holds hread)
      (ExtensionFiles.mem_versions.mpr (.inr (.inl hprevious)))
      (hkept.previous receipt (holds hread) previous hprevious) rfl rfl rfl _⟩)
  | uninstalled secrets state =>
    rcases (catalog.files id).uninstall_whole (hremoved ⟨secrets, state, rfl⟩) secrets state with
      h | ⟨habsent, hok⟩
    · exact .inl h
    · exact .inr (.inr ⟨hok, ExtensionFiles.kept_of_absent fun receipt hholds => by
        cases habsent.symm.trans hholds⟩)

theorem kept_next (hkept : (catalog.files id).Kept) (hremoved : RemovedWhole id catalog operation)
    (hcompletes : Completes env id catalog operation) :
    ((catalog.next env operation).files id).Kept := by
  rcases next_outcome hkept hremoved hcompletes with hsame | ⟨package, -, -, hnames, hbut⟩ | ⟨-, h⟩
  · rw [hsame]
    exact hkept
  · exact hkept.of_sameRecords (hbut.sameRecords hnames)
  · exact h

theorem transactional_of_completes (hkept : (catalog.files id).Kept)
    (hremoved : RemovedWhole id catalog operation) (hcompletes : Completes env id catalog operation) :
    Transactional env id catalog operation := by
  refine ⟨fun err herr => ?_, fun err herr change heffect => ?_, fun package hpackage hback =>
    absurd hback (hcompletes.2.2 package hpackage)⟩ <;>
    rcases next_outcome hkept hremoved hcompletes with
      hsame | ⟨package, hpackage, hswitch, hnames, hbut⟩ | ⟨hok, -⟩
  · rw [hsame]
    exact .refl _
  · exact hbut.sameRecords hnames
  · cases herr.symm.trans hok
  · rw [hsame]
    exact ⟨rfl, rfl, rfl, fun _ => rfl⟩
  · obtain ⟨disk, operation⟩ := operation
    cases operation with
    | installPackage file provenance isExplicitSourceSwitch now =>
      obtain ⟨checked, hchecked, -, rfl⟩ := Catalog.effect_installPackage heffect
      cases (CatalogOperation.incoming_sound hpackage).symm.trans hchecked
      obtain ⟨hresult, hreceipt, hgrants, hversions⟩ :=
        ExtensionFiles.installChecked_again hswitch hbut
      exact ⟨congrArg (Except.map fun _ => ()) hresult, hreceipt, hgrants, hversions⟩
    | _ => cases hpackage
  · cases herr.symm.trans hok

end

/-! ### Runs -/

/-- **All or nothing**: in every state of a run each version that the receipt names has its
directory, and each operation is transactional, if no operation is interrupted where it could not
be taken back, and none installs what was rolled back from. -/
theorem installs_whole (env : CatalogEnv) (id : ExtensionId) (catalog : Catalog)
    (hnew : ∀ receipt, (catalog.files id).receipt ≠ .holds receipt)
    (operations : List (Disk × CatalogOperation))
    (hremoved : Along (Catalog.next env) (RemovedWhole id) catalog operations)
    (hcompletes : Along (Catalog.next env) (Completes env id) catalog operations) :
    Always (Catalog.next env) (fun catalog => (catalog.files id).Stored) catalog operations ∧
      Along (Catalog.next env) (Transactional env id) catalog operations := by
  have hkept : ∀ {catalog operations}, (catalog.files id).Kept →
      Along (Catalog.next env) (RemovedWhole id) catalog operations →
      Along (Catalog.next env) (Completes env id) catalog operations →
      Always (Catalog.next env) (fun catalog => (catalog.files id).Stored) catalog operations ∧
        Along (Catalog.next env) (Transactional env id) catalog operations := by
    intro catalog operations hkept hremoved hcompletes
    induction operations generalizing catalog with
    | nil => exact ⟨hkept.stored, trivial⟩
    | cons operation operations ih =>
      obtain ⟨hstored, htransactional⟩ := ih
        (kept_next hkept hremoved.1 hcompletes.1) hremoved.2 hcompletes.2
      exact ⟨⟨hkept.stored, hstored⟩,
        transactional_of_completes hkept hremoved.1 hcompletes.1, htransactional⟩
  exact hkept (ExtensionFiles.kept_of_absent hnew) hremoved hcompletes

/-! ### Runs that lose it -/

namespace Sample

/-- A file system where one call fails. -/
def failing (op : FsOp) : Disk := ⟨(· = op), fun _ => "no space left on device"⟩

/-- The next version is installed. -/
def secondVersion : Disk × CatalogOperation :=
  (.sound, .installPackage (package "two" 1 []) (signed "a" "two" none) false 1)

/-- The first version, as a registry offers it. -/
def released (hash : String) : CatalogExtension where
  release :=
    { id := clock, name := "Clock", description := none, publisher := "publisher",
      version := ⟨1, 0, 0, [], []⟩, apiVersion := supportedApiVersion,
      minShilpoVersion := ⟨0, 1, 0, [], []⟩, channel := .stable, packageUrl := "clock.shilpo",
      packageHash := hash, publisherPublicKey := "b", publisherSignature := "b signs " ++ hash,
      capabilitiesHash := "sha256:none", capabilities := [], publishedAt := "", yanked := false,
      official := false, verifiedPublisher := false, openSource := true, dataOnly := false,
      keyRotation := none }
  source := ⟨"shelf", "Shelf", "index.json", "shelf root", false, true⟩
  trust := .signedThirdParty
  publisherConflict := false

/-- The source is switched to that registry. -/
def switch (disk : Disk) : Disk × CatalogOperation :=
  (disk, .installPackage (package "three" 0 []) (.registry (released "three")) true 2)

end Sample

open Sample in
/-- An installation that has stopped is tried again; the version before is active again. -/
theorem installs_whole_again :
    let operations := [(failing .renameStage, first.2), first, secondVersion, rollBack, switch .sound]
    Always (Catalog.next env) (fun catalog => (catalog.files clock).Stored) ∅ operations ∧
      Along (Catalog.next env) (Transactional env clock) ∅ operations :=
  installs_whole env clock ∅ (fun _ h => by cases h) _
    (by simp [Along, RemovedWhole, first, secondVersion, rollBack, switch]) (by decide)

open Sample in
/-- A version that could not be recorded is in the way of itself; a version that was rolled back
from is not installed again; a review that could not be recorded has changed the grants; and a
switch that could not put the package in its place has removed what is active. -/
theorem installs_torn :
    ¬ Transactional env clock ∅ (failing .saveReceipt, first.2) ∧
      ¬ Transactional env clock (run (Catalog.next env) ∅ [first, secondVersion, rollBack]) secondVersion ∧
      ¬ Transactional env clock (run (Catalog.next env) ∅ [firstAsks, grant, asksMore])
        (failing .saveReceipt, review.2) ∧
      ¬ ((run (Catalog.next env) ∅ [first, switch (failing .renameStage)]).files clock).Stored := by
  refine ⟨fun h => ?_, fun h => ?_, fun h => ?_, fun h => ?_⟩
  · exact absurd (h.again _ rfl _ rfl).result (by decide)
  · exact absurd (h.reinstalls _ rfl (by decide)) (by decide)
  · have hgranted := congrArg (fun grants => (⟨.absent, grants, ∅⟩ : ExtensionFiles).granted)
      (h.undone _ rfl).grants
    exact absurd hgranted (by decide)
  · exact absurd (ExtensionFiles.mem_of_extracted (h _ rfl _ (List.mem_cons_self ..)))
      (by decide)

end Shilpo.Extensions
