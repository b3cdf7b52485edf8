import Shilpo.Extensions.InstallSteps
import Shilpo.Theory.Runs

/-!
# Grants and the active version

What an extension has been granted is kept apart from the versions of it. An update that asks
for more waits for a review; an update that asks for less, or a rollback over a review, leaves
grants that the version that is active then has not declared, and with these the host does not
load it (`grants_lost`). An update with the next key of the publisher is not compared with the
grants at all. Everything else keeps the two together (`grants_kept`).
-/

namespace Shilpo.Extensions

open Theory

/-! ### What is promised -/

namespace ExtensionFiles

/-- The manifest in the directory of a version. -/
def manifestAt (files : ExtensionFiles) (version : Version) : Option ExtensionManifest :=
  match files.versions.lookup version with
  | some (.extracted _ manifest) => some manifest
  | _ => none

/-- The version that is active. -/
def activeVersion (files : ExtensionFiles) : Option Version :=
  match files.receipt with
  | .holds receipt => some receipt.active.version
  | _ => none

/-- What has been granted. -/
def granted (files : ExtensionFiles) : List Capability :=
  match files.grants with
  | .holds grants => grants.grantedCapabilities
  | _ => []

/-- What has been granted is what the active version has declared, as the host wants it. -/
def Fits (files : ExtensionFiles) : Prop :=
  ∀ receipt, files.receipt = .holds receipt →
    ∀ manifest ∈ files.manifestAt receipt.active.version,
      undeclaredGrant manifest.capabilities files.granted = none

end ExtensionFiles

section

variable (env : CatalogEnv) (id : ExtensionId)

/-- What an installation makes active has been granted before. -/
def AsksFirst (catalog : Catalog) (operation : Disk × CatalogOperation) : Prop :=
  ∀ package ∈ operation.2.incoming env operation.1 id, package.isExplicitSourceSwitch = false →
    ∀ old new, (catalog.files id).receipt = .holds old →
      ((catalog.next env operation).files id).receipt = .holds new →
      new.active.version ≠ old.active.version →
      ∀ capability ∈ package.manifest.capabilities, capability ∈ (catalog.files id).granted

/-- What is granted in a review of the extension. -/
def CatalogOperation.approves : CatalogOperation → Option (List Capability)
  | .approvePending id' granted => if id' = id then some granted else none
  | _ => none

/-- The operation rolls the extension back. -/
def CatalogOperation.rollsBack : CatalogOperation → Bool
  | .rollback id' => id' = id
  | _ => false

/-- A review grants no more than what the update asks for. -/
def Reviewed (catalog : Catalog) (operation : Disk × CatalogOperation) : Prop :=
  ∀ granted ∈ operation.2.approves id,
    ∀ receipt ∈ ((catalog.files id).readReceipt operation.1 id).toOption,
      ∀ pending ∈ receipt.pending, ∀ manifest ∈ (catalog.files id).manifestAt pending.version,
        ∀ capability ∈ granted, capability ∈ manifest.capabilities

/-! ### What keeps it -/

/-- The package comes in. -/
def ExtensionFiles.Places (disk : Disk) (files : ExtensionFiles) (package : CheckedPackage) :
    Prop :=
  package.isExplicitSourceSwitch = true ∨ package.manifest.version ∉ files.versions ∧
    verifyProvenanceContinuity env.crypto (files.readReceipt disk id).toOption package.verified =
      .ok ()

/-- The update waits for a review: the publisher of the active version asks for more. -/
def ExtensionFiles.Waits (disk : Disk) (files : ExtensionFiles) (package : CheckedPackage) : Prop :=
  ∃ receipt ∈ (files.readReceipt disk id).toOption,
    receipt.active.publisherKey = package.verified.publisherKey ∧
      receipt.active.version ≠ package.manifest.version ∧
      ∃ capability ∈ package.manifest.capabilities, capability ∉ files.granted

/-- The switch to another publisher takes all grants away; if it is to the version that is active,
they can be read and written. -/
def ExtensionFiles.Resets (disk : Disk) (files : ExtensionFiles) (package : CheckedPackage) :
    Prop :=
  package.isExplicitSourceSwitch = true ∧
    ∃ receipt ∈ (files.readReceipt disk id).toOption,
      receipt.active.publisherKey ≠ package.verified.publisherKey ∧
        (receipt.active.version ≠ package.manifest.version ∨
          (files.loadGrants disk id).isOk = true ∧ disk.fails .resetGrants = false)

/-- The package can be installed with the grants as they are. -/
structure ExtensionFiles.Suits (disk : Disk) (files : ExtensionFiles) (package : CheckedPackage) :
    Prop where
  /-- It declares what has been granted, or waits, or the grants are taken away. -/
  declares : files.Places env id disk package →
    undeclaredGrant package.manifest.capabilities files.granted = none ∨
      files.Waits id disk package ∨ files.Resets id disk package
  /-- It asks for what has been granted, or comes from the publisher of the active version. -/
  asks : files.Places env id disk package → package.isExplicitSourceSwitch = false →
    (∃ version ∈ files.activeVersion, version ≠ package.manifest.version) →
    (∀ capability ∈ package.manifest.capabilities, capability ∈ files.granted) ∨
      ∃ receipt ∈ (files.readReceipt disk id).toOption,
        receipt.active.publisherKey = package.verified.publisherKey

/-- A review is recorded whole, or grants what the active version has declared too. -/
def ExtensionFiles.SuitsReview (disk : Disk) (files : ExtensionFiles) (granted : List Capability) :
    Prop :=
  disk.fails .saveReceipt = false ∨ disk.fails .saveGrants = true ∨
    ∀ receipt ∈ (files.readReceipt disk id).toOption,
      ∀ manifest ∈ files.manifestAt receipt.active.version,
        undeclaredGrant manifest.capabilities granted = none

/-- The version before the active one has declared what is granted. -/
def ExtensionFiles.SuitsRollback (disk : Disk) (files : ExtensionFiles) : Prop :=
  ∀ receipt ∈ (files.readReceipt disk id).toOption, ∀ previous ∈ receipt.previous,
    ∀ manifest ∈ files.manifestAt previous.version,
      undeclaredGrant manifest.capabilities files.granted = none

/-- What an operation makes active suits the grants. -/
def Suits (catalog : Catalog) (operation : Disk × CatalogOperation) : Prop :=
  (∀ package ∈ operation.2.incoming env operation.1 id,
      (catalog.files id).Suits env id operation.1 package) ∧
    (∀ granted ∈ operation.2.approves id,
      (catalog.files id).SuitsReview id operation.1 granted) ∧
    (operation.2.rollsBack id = true → (catalog.files id).SuitsRollback id operation.1)

instance (disk : Disk) (files : ExtensionFiles) (package : CheckedPackage) :
    Decidable (files.Places env id disk package) :=
  inferInstanceAs (Decidable (_ ∨ _ ∧ _))

instance (disk : Disk) (files : ExtensionFiles) (package : CheckedPackage) :
    Decidable (files.Waits id disk package) :=
  inferInstanceAs (Decidable (∃ receipt ∈ (files.readReceipt disk id).toOption, _ ∧ _ ∧
    ∃ capability ∈ package.manifest.capabilities, capability ∉ files.granted))

instance (disk : Disk) (files : ExtensionFiles) (package : CheckedPackage) :
    Decidable (files.Resets id disk package) :=
  inferInstanceAs (Decidable (_ ∧ ∃ receipt ∈ (files.readReceipt disk id).toOption, _ ∧ (_ ∨ _ ∧ _)))

instance (disk : Disk) (files : ExtensionFiles) (package : CheckedPackage) :
    Decidable (files.Suits env id disk package) :=
  decidable_of_iff (_ ∧ _) ⟨fun h => ⟨h.1, h.2⟩, fun h => ⟨h.1, h.2⟩⟩

instance : DecidableRel (Reviewed id) := fun catalog operation =>
  inferInstanceAs (Decidable (∀ granted ∈ operation.2.approves id,
    ∀ receipt ∈ ((catalog.files id).readReceipt operation.1 id).toOption,
      ∀ pending ∈ receipt.pending, ∀ manifest ∈ (catalog.files id).manifestAt pending.version,
        ∀ capability ∈ granted, capability ∈ manifest.capabilities))

instance (disk : Disk) (files : ExtensionFiles) (granted : List Capability) :
    Decidable (files.SuitsReview id disk granted) :=
  inferInstanceAs (Decidable (_ ∨ _ ∨ ∀ receipt ∈ (files.readReceipt disk id).toOption,
    ∀ manifest ∈ files.manifestAt receipt.active.version,
      undeclaredGrant manifest.capabilities granted = none))

instance (disk : Disk) (files : ExtensionFiles) : Decidable (files.SuitsRollback id disk) :=
  inferInstanceAs (Decidable (∀ receipt ∈ (files.readReceipt disk id).toOption,
    ∀ previous ∈ receipt.previous, ∀ manifest ∈ files.manifestAt previous.version,
      undeclaredGrant manifest.capabilities files.granted = none))

instance : DecidableRel (Suits env id) := fun catalog operation =>
  inferInstanceAs (Decidable ((∀ package ∈ operation.2.incoming env operation.1 id,
      (catalog.files id).Suits env id operation.1 package) ∧
    (∀ granted ∈ operation.2.approves id,
      (catalog.files id).SuitsReview id operation.1 granted) ∧
    (operation.2.rollsBack id = true → (catalog.files id).SuitsRollback id operation.1)))

end

/-! ### Steps -/

theorem Capability.covers_refl (capability : Capability) : capability.covers capability = true := by
  cases capability <;> simp [Capability.covers, Capability.kind]

/-- What is granted of what is declared. -/
theorem undeclaredGrant_of_subset {capabilities granted : List Capability}
    (h : ∀ capability ∈ granted, capability ∈ capabilities) :
    undeclaredGrant capabilities granted = none := by
  unfold undeclaredGrant
  rw [List.find?_eq_none]
  intro capability hmem
  have hany : capabilities.any (·.covers capability) = true :=
    List.any_eq_true.mpr ⟨capability, h capability hmem, capability.covers_refl⟩
  simp [hany]

section

variable {env : CatalogEnv} {id : ExtensionId} {disk : Disk} {files : ExtensionFiles}
  {package : CheckedPackage}

namespace ExtensionFiles

theorem fits_of_granted_nil (h : files.granted = []) : files.Fits := by
  intro receipt _ manifest _
  rw [h]
  rfl

theorem manifestAt_congr {left : ExtensionFiles} {version : Version}
    (h : left.versions.lookup version = files.versions.lookup version) :
    left.manifestAt version = files.manifestAt version := by
  unfold manifestAt
  rw [h]

/-- While the receipt and the grants stay, only the manifest of one version is new. -/
theorem Fits.of_placed {left : ExtensionFiles} {version : Version} (hfits : files.Fits)
    (hreceipt : left.receipt = files.receipt) (hgranted : left.granted = files.granted)
    (hother : ∀ version', version' ≠ version →
      left.manifestAt version' = files.manifestAt version')
    (hplaced : ∀ manifest ∈ left.manifestAt version, manifest ∈ files.manifestAt version ∨
      undeclaredGrant manifest.capabilities files.granted = none ∨
      ∀ receipt, files.receipt = .holds receipt → receipt.active.version ≠ version) :
    left.Fits := by
  intro receipt hholds manifest hmanifest
  rw [hreceipt] at hholds
  rw [hgranted]
  by_cases hversion : receipt.active.version = version
  · rw [hversion] at hmanifest
    rcases hplaced manifest hmanifest with hsame | hdeclared | hactive
    · exact hfits receipt hholds manifest (hversion ▸ hsame)
    · exact hdeclared
    · exact absurd hversion (hactive receipt hholds)
  · rw [hother _ hversion] at hmanifest
    exact hfits receipt hholds manifest hmanifest

theorem granted_of_loadGrants {grants : StoredGrants}
    (hload : files.loadGrants disk id = .ok grants) :
    grants.grantedCapabilities = files.granted := by
  rcases loadGrants_eq_ok.mp hload with ⟨habsent, rfl⟩ | ⟨-, hholds, -⟩
  · simp [granted, habsent, StoredGrants.disabled]
  · simp [granted, hholds]

/-- The grants after a receipt is recorded. -/
theorem granted_recordInstall {receipt : InstallationReceipt} {grants : StoredGrants}
    (h : grants.grantedCapabilities = files.granted) :
    (files.recordInstall disk receipt grants).1.granted = files.granted := by
  rcases files.recordInstall_cases disk receipt grants with
    ⟨-, err, hr⟩ | ⟨-, ⟨-, hr⟩ | ⟨-, -, err, hr⟩ | ⟨-, -, hr⟩⟩ <;> rw [hr]
  · rfl
  · rfl
  · exact h

theorem receipt_of_mem {receipt : InstallationReceipt}
    (h : receipt ∈ (files.readReceipt disk id).toOption) : files.receipt = .holds receipt := by
  cases hread : files.readReceipt disk id with
  | error err =>
    rw [hread] at h
    cases h
  | ok stored =>
    rw [hread] at h
    cases h
    exact (readReceipt_eq_ok.mp hread).2.1

/-- What becomes active, if the grants stay: what was, where the update waits; or what is
installed. -/
theorem nextReceipt_active {previousReceipt : Option InstallationReceipt}
    {installed : InstalledVersionReceipt} {isExplicitSourceSwitch : Bool}
    (h : (isExplicitSourceSwitch && publisherChanged previousReceipt installed.publisherKey) = false)
    (expansion : Bool) (id : ExtensionId) :
    let next := nextReceipt id previousReceipt installed isExplicitSourceSwitch expansion
    (∃ receipt, previousReceipt = some receipt ∧ next.active = receipt.active ∧
        receipt.active.version ≠ installed.version ∧ expansion = true) ∨
      next.active = installed ∧ ∀ receipt, previousReceipt = some receipt →
        receipt.active.version ≠ installed.version → expansion = false := by
  unfold nextReceipt
  dsimp only
  rw [h]
  cases previousReceipt with
  | none =>
    refine .inr ⟨?_, fun _ h => by cases h⟩
    simp only [Option.getD_none, Bool.false_eq_true, if_false, ne_eq, not_true_eq_false]
  | some receipt =>
    simp only [Option.getD_some, Bool.false_eq_true, if_false]
    split_ifs with hversion hexpansion
    · exact .inl ⟨receipt, rfl, rfl, hversion, hexpansion⟩
    · exact .inr ⟨rfl, fun _ _ _ => by simpa using hexpansion⟩
    · rw [not_not] at hversion
      refine .inr ⟨rfl, fun old hold hne => ?_⟩
      rw [Option.some_inj] at hold
      subst hold
      exact absurd hversion hne

/-- An update by the publisher of the active version that does not wait asks for what has been
granted. -/
theorem granted_of_not_expansion {previousReceipt : Option InstallationReceipt}
    {receipt : InstallationReceipt} {publisherKey : Option String}
    {requested granted : List Capability} (hprevious : previousReceipt = some receipt)
    (hkey : receipt.active.publisherKey = publisherKey)
    (h : capabilityExpansion previousReceipt publisherKey requested granted = false) :
    ∀ capability ∈ requested, capability ∈ granted := by
  subst hprevious hkey
  simpa [capabilityExpansion, publisherChanged] using h

/-- What is new and neither waits nor takes the grants away declares them. -/
theorem Suits.declares_of (hsuits : files.Suits env id disk package)
    (hplaces : files.Places env id disk package) (hwaits : ¬ files.Waits id disk package)
    (hresets : (package.isExplicitSourceSwitch && publisherChanged
      (files.readReceipt disk id).toOption package.verified.publisherKey) = false) :
    undeclaredGrant package.manifest.capabilities files.granted = none := by
  rcases hsuits.declares hplaces with hdeclared | hw | ⟨hswitch, receipt, hreceipt, hkey, -⟩
  · exact hdeclared
  · exact absurd hw hwaits
  · rw [Option.mem_def] at hreceipt
    simp [hswitch, publisherChanged, hreceipt, hkey] at hresets

/-- The package that is installed fits. -/
theorem fits_installChecked (hid : package.manifest.id = id) (hfits : files.Fits)
    (hsuits : files.Suits env id disk package) :
    (files.installChecked env disk package).1.Fits := by
  subst hid
  unfold installChecked
  rcases files.install_cases env disk package.manifest package.hash package.verified
    package.isExplicitSourceSwitch package.now with
    ⟨err, h⟩ | ⟨hfollows, ⟨placed, err, hplace, h⟩ | ⟨placed, hplace, h⟩⟩
  · rw [h]
    exact hfits
  all_goals
    have hrecords := files.placePackage_records disk package.manifest package.hash
      (files.readReceipt disk package.manifest.id).toOption package.isExplicitSourceSwitch
    have hother : ∀ version, version ≠ package.manifest.version →
        placed.manifestAt version = files.manifestAt version := by
      intro version hversion
      have := files.lookup_placePackage disk package.manifest package.hash
        (files.readReceipt disk package.manifest.id).toOption package.isExplicitSourceSwitch
        hversion
      rw [hplace] at this
      exact manifestAt_congr this
    rw [hplace] at hrecords
    have hgranted : placed.granted = files.granted := by
      unfold granted
      rw [hrecords.2]
    rw [h]
  · refine hfits.of_placed hrecords.1 hgranted hother fun manifest hmanifest => .inl ?_
    rcases lookup_placePackage_error _ _ hplace with hsame | ⟨-, hnone | hdamaged⟩
    · rwa [manifestAt_congr hsame] at hmanifest
    · simp [manifestAt, hnone] at hmanifest
    · simp [manifestAt, hdamaged] at hmanifest
  · -- what is in the directory of the version
    have hplaced : ∀ manifest ∈ placed.manifestAt package.manifest.version,
        (manifest ∈ files.manifestAt package.manifest.version ∧
          ∃ receipt ∈ (files.readReceipt disk package.manifest.id).toOption,
            receipt.active.version = package.manifest.version) ∨
        manifest = package.manifest ∧ files.Places env package.manifest.id disk package := by
      intro manifest hmanifest
      rcases placePackage_ok _ _ hplace with ⟨hnew, hlookup⟩ | ⟨-, -, rfl, receipt, hprevious, hversion, -⟩
      · refine .inr ⟨?_, ?_⟩
        · simpa [manifestAt, hlookup, eq_comm] using hmanifest
        · cases hswitch : package.isExplicitSourceSwitch with
          | true => exact .inl hswitch
          | false => exact .inr ⟨hnew.resolve_left (by simp [hswitch]), hfollows hswitch⟩
      · exact .inl ⟨hmanifest, receipt, hprevious, hversion⟩
    -- where the installation stops before the grants are taken away
    have hunread : files.Places env package.manifest.id disk package →
        ¬ ((files.loadGrants disk package.manifest.id).isOk = true ∧
          disk.fails .resetGrants = false) →
        undeclaredGrant package.manifest.capabilities files.granted = none ∨
          ∀ receipt, files.receipt = .holds receipt →
            receipt.active.version ≠ package.manifest.version := by
      intro hplaces hfails
      have hversion : ∀ receipt ∈ (files.readReceipt disk package.manifest.id).toOption,
          receipt.active.version ≠ package.manifest.version → ∀ receipt',
            files.receipt = .holds receipt' →
              receipt'.active.version ≠ package.manifest.version := by
        intro receipt hreceipt hne receipt' hholds
        cases (receipt_of_mem hreceipt).symm.trans hholds
        exact hne
      rcases hsuits.declares hplaces with hdeclared | ⟨receipt, hreceipt, -, hne, -⟩ |
        ⟨-, receipt, hreceipt, -, hne | hreset⟩
      · exact .inl hdeclared
      · exact .inr (hversion receipt hreceipt hne)
      · exact .inr (hversion receipt hreceipt hne)
      · exact absurd hreset hfails
    rcases placed.recordPackage_cases disk package.manifest
        (installedVersion package.manifest package.hash package.verified package.now)
        (files.readReceipt disk package.manifest.id).toOption package.isExplicitSourceSwitch with
      ⟨err, hload, hr⟩ | ⟨grants, hload, ⟨hreset, ⟨hfails, err, hr⟩ | ⟨-, hr⟩⟩ | ⟨hreset, hr⟩⟩ <;>
      rw [hr]
    · -- the grants cannot be read
      refine hfits.of_placed hrecords.1 hgranted hother fun manifest hmanifest => ?_
      rcases hplaced manifest hmanifest with ⟨hsame, -⟩ | ⟨rfl, hplaces⟩
      · exact .inl hsame
      · refine .inr (hunread hplaces fun hok => ?_)
        rw [← loadGrants_congr disk files hrecords.2, hload] at hok
        cases hok.1
    · -- the grants cannot be taken away
      refine hfits.of_placed hrecords.1 hgranted hother fun manifest hmanifest => ?_
      rcases hplaced manifest hmanifest with ⟨hsame, -⟩ | ⟨rfl, hplaces⟩
      · exact .inl hsame
      · refine .inr (hunread hplaces fun hok => ?_)
        rw [hfails] at hok
        cases hok.2
    · -- the grants have been taken away
      refine fits_of_granted_nil ?_
      rw [granted_recordInstall] <;> rfl
    · -- the grants stay
      have hload := granted_of_loadGrants hload
      have hnext := nextReceipt_active hreset (capabilityExpansion
        (files.readReceipt disk package.manifest.id).toOption package.verified.publisherKey
        package.manifest.capabilities grants.grantedCapabilities) package.manifest.id
      dsimp only [installedVersion] at hnext hreset ⊢
      generalize nextReceipt _ _ _ _ _ = next at hnext ⊢
      intro receipt hreceipt manifest hmanifest
      rw [granted_recordInstall hload, hgranted]
      rw [manifestAt_congr (congrArg (AList.lookup _) (placed.versions_recordInstall disk _ _))]
        at hmanifest
      -- what is new and active is not compared with the grants
      have hdeclares : files.Places env package.manifest.id disk package →
          ¬ files.Waits package.manifest.id disk package →
          undeclaredGrant package.manifest.capabilities files.granted = none :=
        fun hplaces hwaits => hsuits.declares_of hplaces hwaits hreset
      have hold : ∀ receipt, files.receipt = .holds receipt →
          manifest ∈ placed.manifestAt receipt.active.version →
          undeclaredGrant manifest.capabilities files.granted = none := by
        intro old hold hmanifest
        by_cases hversion : old.active.version = package.manifest.version
        · rw [hversion] at hmanifest
          rcases hplaced manifest hmanifest with ⟨hsame, -⟩ | ⟨rfl, hplaces⟩
          · exact hfits old hold manifest (hversion ▸ hsame)
          · refine hdeclares hplaces ?_
            rintro ⟨receipt, hreceipt, -, hne, -⟩
            cases (receipt_of_mem hreceipt).symm.trans hold
            exact hne hversion
        · rw [hother _ hversion] at hmanifest
          exact hfits old hold manifest hmanifest
      rcases placed.receipt_recordInstall disk next grants with hsame | hsaved
      · rw [hsame, hrecords.1] at hreceipt
        exact hold receipt hreceipt hmanifest
      · rw [hsaved] at hreceipt
        cases hreceipt
        rcases hnext with ⟨old, hprevious, hactive, -, -⟩ | ⟨hactive, hexpansion⟩
        · rw [hactive] at hmanifest
          exact hold old (receipt_of_mem hprevious) hmanifest
        · rw [hactive] at hmanifest
          rcases hplaced manifest hmanifest with ⟨hsame, old, hprevious, hversion⟩ | ⟨rfl, hplaces⟩
          · exact hfits old (receipt_of_mem hprevious) manifest (hversion ▸ hsame)
          · refine hdeclares hplaces ?_
            rintro ⟨old, hprevious, hkey, hversion, capability, hmem, hasked⟩
            rw [← hgranted, ← hload] at hasked
            exact hasked (granted_of_not_expansion hprevious hkey
              (hexpansion old hprevious hversion) capability hmem)

end ExtensionFiles

/-- What an installation makes active has been granted. -/
theorem asksFirst_of_suits {catalog : Catalog} {operation : Disk × CatalogOperation}
    (hsuits : Suits env id catalog operation) : AsksFirst env id catalog operation := by
  intro package hpackage hswitch old new hold hnew hversion capability hmem
  rw [(Catalog.files_of_incoming hpackage).1] at hnew
  have hsuits := hsuits.1 package hpackage
  obtain rfl := CatalogOperation.incoming_id hpackage
  generalize catalog.files package.manifest.id = files at hold hnew hsuits ⊢
  unfold ExtensionFiles.installChecked at hnew
  rcases files.receipt_install env operation.1 package.manifest package.hash package.verified
    package.isExplicitSourceSwitch package.now with
    hsame | ⟨hfollows, ⟨placed, hplace⟩, grants, hload, hnext⟩
  · rw [hsame, hold] at hnew
    cases hnew
    exact absurd rfl hversion
  · rw [hnext] at hnew
    rw [hswitch] at hload hnew hplace
    have hload := ExtensionFiles.granted_of_loadGrants (hload rfl)
    cases hnew
    rcases ExtensionFiles.nextReceipt_active (Bool.false_and _) _
      package.manifest.id with ⟨receipt, hprevious, hactive, -, -⟩ | ⟨hactive, hexpansion⟩
    · rw [hactive] at hversion
      cases (ExtensionFiles.receipt_of_mem hprevious).symm.trans hold
      exact absurd rfl hversion
    · rw [hactive] at hversion
      rcases ExtensionFiles.placePackage_ok _ _ hplace with
        ⟨hplaced, -⟩ | ⟨-, -, -, receipt, hprevious, hsame, -⟩
      · have hplaces : files.Places env package.manifest.id operation.1 package :=
          .inr ⟨hplaced.resolve_left nofun, hfollows hswitch⟩
        have hactive : old.active.version ∈ files.activeVersion := by
          simp [ExtensionFiles.activeVersion, hold]
        rcases hsuits.asks hplaces hswitch ⟨_, hactive, Ne.symm hversion⟩ with
          hall | ⟨receipt, hprevious, hkey⟩
        · exact hall capability hmem
        · cases (ExtensionFiles.receipt_of_mem hprevious).symm.trans hold
          rw [← hload]
          exact ExtensionFiles.granted_of_not_expansion hprevious hkey
            (hexpansion _ hprevious (Ne.symm hversion)) capability hmem
      · cases (ExtensionFiles.receipt_of_mem hprevious).symm.trans hold
        exact absurd hsame.symm hversion

theorem fits_next {catalog : Catalog} {operation : Disk × CatalogOperation}
    (hfits : (catalog.files id).Fits) (hreviewed : Reviewed id catalog operation)
    (hsuits : Suits env id catalog operation) :
    ((catalog.next env operation).files id).Fits := by
  rcases catalog.change_next env operation id with hsame | hchange
  · rw [hsame]
    exact hfits
  obtain ⟨disk, operation⟩ := operation
  generalize (catalog.next env (disk, operation)).files id = left at hchange ⊢
  generalize (catalog.step env (disk, operation)).2 = result at hchange
  have holds : ∀ {receipt}, (catalog.files id).readReceipt disk id = .ok receipt →
      (catalog.files id).receipt = .holds receipt :=
    fun hread => (ExtensionFiles.readReceipt_eq_ok.mp hread).2.1
  cases hchange with
  | stopped => exact hfits
  | installed package hpackage =>
    exact ExtensionFiles.fits_installChecked (CatalogOperation.incoming_id hpackage) hfits
      (hsuits.1 package hpackage)
  | failed receipt err hread =>
    rintro _ ⟨⟩
    exact hfits receipt (holds hread)
  | enabled receipt grants enabled hread hload =>
    intro receipt hreceipt manifest hmanifest
    change undeclaredGrant manifest.capabilities grants.grantedCapabilities = none
    rw [ExtensionFiles.granted_of_loadGrants hload]
    exact hfits receipt hreceipt manifest hmanifest
  | channelSet receipt channel hread =>
    rintro _ ⟨⟩
    exact hfits receipt (holds hread)
  | approvalStopped receipt pending grants granted err hread hpending hload hgrants hsave =>
    intro receipt' hreceipt manifest hmanifest
    cases (holds hread).symm.trans hreceipt
    rcases hsuits.2.1 granted (if_pos rfl) with hok | hfails | hdeclared
    · cases hsave.symm.trans hok
    · cases hgrants.symm.trans hfails
    · exact hdeclared receipt (by rw [hread]; rfl) manifest hmanifest
  | approved receipt pending grants granted hread hpending hload =>
    rintro _ ⟨⟩ manifest hmanifest
    exact undeclaredGrant_of_subset (hreviewed granted (if_pos rfl) receipt (by rw [hread]; rfl) pending hpending
      manifest hmanifest)
  | granted receipt manifest grants granted hread hmanifest hdeclared hload =>
    intro receipt' hreceipt manifest' hmanifest'
    cases (holds hread).symm.trans hreceipt
    obtain ⟨-, hash, hlookup⟩ := ExtensionFiles.readManifest_eq_ok.mp hmanifest
    simp only [ExtensionFiles.manifestAt, hlookup, Option.mem_some_iff] at hmanifest'
    subst hmanifest'
    exact undeclaredGrant_of_subset hdeclared
  | rolledBack receipt previous hread hprevious hmem =>
    rintro _ ⟨⟩ manifest hmanifest
    exact hsuits.2.2 (decide_eq_true rfl) receipt (by rw [hread]; rfl) previous hprevious manifest
      hmanifest
  | uninstalled secrets state =>
    obtain ⟨hreceipt, hgrants, hversions⟩ :=
      @ExtensionFiles.uninstall_leaves disk (catalog.files id) id secrets state
    generalize ((catalog.files id).uninstall disk id secrets state).1 = left at *
    intro receipt hholds manifest hmanifest
    rcases hreceipt with hreceipt | hreceipt <;> rw [hreceipt] at hholds
    · rcases hversions with hversions | hversions
      · have hmanifest : manifest ∈ (catalog.files id).manifestAt receipt.active.version := by
          rwa [ExtensionFiles.manifestAt, hversions] at hmanifest
        rcases hgrants with hgrants | hgrants
        · rw [ExtensionFiles.granted, hgrants]
          exact hfits receipt hholds manifest hmanifest
        · rw [ExtensionFiles.granted, hgrants]
          rfl
      · simp [ExtensionFiles.manifestAt, hversions] at hmanifest
    · cases hholds

end

/-! ### Runs -/

/-- **Grants fit the active version** in every state of a run, and what is installed and becomes
active has been granted before, if each package that comes in declares what has been granted,
waits for a review or takes the grants away, and each version that is rolled back to declares
what has been granted. -/
theorem grants_kept (env : CatalogEnv) (id : ExtensionId) (catalog : Catalog)
    (hfits : (catalog.files id).Fits) (operations : List (Disk × CatalogOperation))
    (hreviewed : Along (Catalog.next env) (Reviewed id) catalog operations)
    (hsuits : Along (Catalog.next env) (Suits env id) catalog operations) :
    Always (Catalog.next env) (fun catalog => (catalog.files id).Fits) catalog operations ∧
      Along (Catalog.next env) (AsksFirst env id) catalog operations := by
  have hboth : ∀ before operation after, operations = before ++ operation :: after →
      Reviewed id (run (Catalog.next env) catalog before) operation ∧
        Suits env id (run (Catalog.next env) catalog before) operation := fun before operation
      after h => ⟨(along_iff _ _).mp hreviewed before operation after h,
        (along_iff _ _).mp hsuits before operation after h⟩
  constructor
  · refine (always_iff _ _).mpr fun before after h => ?_
    refine Along.holds (C := fun catalog operation =>
        Reviewed id catalog operation ∧ Suits env id catalog operation)
      (fun _ _ hfits hC => fits_next hfits hC.1 hC.2) hfits ?_
    exact (along_iff _ _).mpr fun before' operation after' h' =>
      hboth before' operation (after' ++ after) (by simp [h, h'])
  · exact (along_iff _ _).mpr fun before operation after h =>
      asksFirst_of_suits (hboth before operation after h).2

/-! ### Runs that lose it -/

namespace Sample

/-- The first version asks for something. -/
def firstAsks : Disk × CatalogOperation :=
  (.sound, .installPackage (package "one" 0 [.wallpaperRead]) (signed "a" "one" none) false 0)

/-- It is granted. -/
def grant : Disk × CatalogOperation := (.sound, .approveCapabilities clock [.wallpaperRead])

/-- An update asks for nothing any more. -/
def asksLess : Disk × CatalogOperation :=
  (.sound, .installPackage (package "two" 1 []) (signed "a" "two" none) false 0)

/-- An update asks for more. -/
def asksMore : Disk × CatalogOperation :=
  (.sound, .installPackage (package "two" 1 [.wallpaperRead, .themeRead]) (signed "a" "two" none)
    false 0)

/-- The update is reviewed. -/
def review : Disk × CatalogOperation :=
  (.sound, .approvePending clock [.wallpaperRead, .themeRead])

def rollBack : Disk × CatalogOperation := (.sound, .rollback clock)

/-- An update with the next key of the publisher asks for something. -/
def asksAnew : Disk × CatalogOperation :=
  (.sound, .installPackage (package "two" 1 [.wallpaperRead]) (signed "b" "two" (some rotation))
    false 0)

end Sample

open Sample in
/-- A version that waits for its review, and is active then. -/
theorem grants_kept_reviewed :
    Always (Catalog.next env) (fun catalog => (catalog.files clock).Fits) ∅
        [firstAsks, grant, asksMore, review] ∧
      Along (Catalog.next env) (AsksFirst env clock) ∅ [firstAsks, grant, asksMore, review] :=
  grants_kept env clock ∅ (fun _ h => by cases h) _ (by decide) (by decide)

open Sample in
/-- The grants do not fit after an update that asks for less, nor after a rollback over a review;
and an update with the next key has what has not been granted. -/
theorem grants_lost :
    (Along (Catalog.next env) (Reviewed clock) ∅ [firstAsks, grant, asksLess] ∧
        ¬ ((run (Catalog.next env) ∅ [firstAsks, grant, asksLess]).files clock).Fits) ∧
      (Along (Catalog.next env) (Reviewed clock) ∅ [firstAsks, grant, asksMore, review, rollBack] ∧
        ¬ ((run (Catalog.next env) ∅
          [firstAsks, grant, asksMore, review, rollBack]).files clock).Fits) ∧
      Along (Catalog.next env) (Reviewed clock) ∅ [first, asksAnew] ∧
        ¬ AsksFirst env clock (run (Catalog.next env) ∅ [first]) asksAnew := by
  refine ⟨⟨by decide, fun h => ?_⟩, ⟨by decide, fun h => ?_⟩, by decide,
    fun h => ?_⟩
  · exact absurd (h _ rfl _ rfl) (by decide)
  · exact absurd (h _ rfl _ rfl) (by decide)
  · exact absurd (h _ rfl rfl _ _ rfl rfl (by decide) .wallpaperRead (by decide))
      (by decide)

end Shilpo.Extensions
