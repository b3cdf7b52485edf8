import Shilpo.Extensions.Trust

/-!
# Installing packages

`install_package_internal` and the other operations of `ExtensionCatalog` that change what is
kept of an extension. An operation leaves what it had done when it failed: it has the files it
leaves and a result.
-/

namespace Shilpo.Extensions

/-! ### Packages -/

/-- A package. What is in it is an error, if it cannot be extracted, does not pass the checks or
has no valid manifest. -/
structure PackageFile where
  isFile : Bool
  size : ℕ
  hash : String
  manifest : Except CatalogError ExtensionManifest
  /-- Whether the runtime can start what is in it. -/
  probe : Except String Unit

/-- How large a package may be. -/
def maxPackageBytes : ℕ := 64 * 1024 * 1024

/-- What a catalog runs with. -/
structure CatalogEnv where
  crypto : Crypto
  shilpoVersion : Version

/-- The checks of a package before anything is changed. -/
def PackageFile.inspect (env : CatalogEnv) (disk : Disk) (package : PackageFile)
    (provenance : PackageProvenance) :
    Except CatalogError (ExtensionManifest × VerifiedProvenance) := do
  disk.run .stat
  if !package.isFile || maxPackageBytes < package.size then
    .error (.invalidPackage "package is missing or exceeds the 64 MiB limit")
  else do
    disk.run .hashFile
    let verified ← provenance.verify env.crypto package.hash
    disk.run .createStaging
    disk.run .createStage
    let manifest ← package.manifest
    if env.shilpoVersion < manifest.minShilpoVersion then
      .error (.invalidPackage ("requires Shilpo " ++ manifest.minShilpoVersion.text ++
        ", running " ++ env.shilpoVersion.text))
    else do
      package.probe.mapError fun message =>
        .invalidPackage ("runtime activation probe failed: " ++ message)
      match verified.expectedRelease with
      | some expected => verifyManifestAgainstRelease env.crypto manifest expected
      | none => .ok ()
      .ok (manifest, verified)

namespace ExtensionFiles

variable (env : CatalogEnv) (disk : Disk)

/-! ### Directories -/

/-- The staged package is moved to its place. A directory does not take the place of another. -/
def moveStage (files : ExtensionFiles) (manifest : ExtensionManifest) (hash : String) :
    ExtensionFiles × Except CatalogError Unit :=
  match (do disk.run .createParent; disk.run .markReadOnly; disk.run .renameStage) with
  | .error err => (files, .error err)
  | .ok () =>
    if manifest.version ∈ files.versions then
      (files, .error (.io (disk.message .renameStage)))
    else
      ({ files with
        versions := files.versions.insert manifest.version (.extracted hash manifest) }, .ok ())

/-- The directory of a version is removed; what goes wrong is not asked. -/
def removeVersion (files : ExtensionFiles) (version : Version) : ExtensionFiles :=
  if disk.fails .removeTarget then files
  else if disk.fails .finishRemoval then
    { files with versions := files.versions.insert version .damaged }
  else { files with versions := files.versions.erase version }

/-- The package is put in its place. What is there already stays, unless the source is switched;
then it must be what is active, from the same package. -/
def placePackage (files : ExtensionFiles) (manifest : ExtensionManifest) (hash : String)
    (previousReceipt : Option InstallationReceipt) (isExplicitSourceSwitch : Bool) :
    ExtensionFiles × Except CatalogError Unit :=
  if manifest.version ∈ files.versions then
    if isExplicitSourceSwitch then
      (files.removeVersion disk manifest.version).moveStage disk manifest hash
    else
      let existingHash := (previousReceipt.filter (·.active.version = manifest.version)).map
        (·.active.packageHash)
      if existingHash ≠ some hash then
        (files, .error (.invalidPackage (manifest.id.text ++ " " ++ manifest.version.text ++
          " is immutable and already exists")))
      else (files, disk.run .removeStage)
  else files.moveStage disk manifest hash

/-! ### The receipt and the grants -/

/-- What is known of the version that is installed. -/
def installedVersion (manifest : ExtensionManifest) (hash : String)
    (verified : VerifiedProvenance) (now : ℕ) : InstalledVersionReceipt :=
  { version := manifest.version, source := verified.source, sourceId := verified.sourceId,
    sourceKey := verified.sourceKey, publisher := verified.publisher,
    publisherKey := verified.publisherKey, publisherPublicKey := verified.publisherPublicKey,
    packageHash := hash, trust := verified.trust, channel := verified.channel,
    installedAtUnixSeconds := now }

/-- The publisher is another than that of the version that is active. -/
def publisherChanged (previousReceipt : Option InstallationReceipt)
    (publisherKey : Option String) : Bool :=
  previousReceipt.any (·.active.publisherKey ≠ publisherKey)

/-- The update asks for what has not been granted. -/
def capabilityExpansion (previousReceipt : Option InstallationReceipt)
    (publisherKey : Option String) (requested granted : List Capability) : Bool :=
  previousReceipt.isSome && !publisherChanged previousReceipt publisherKey &&
    requested.any (!granted.contains ·)

/-- The receipt after the installation. -/
def nextReceipt (id : ExtensionId) (previousReceipt : Option InstallationReceipt)
    (installed : InstalledVersionReceipt) (isExplicitSourceSwitch expansion : Bool) :
    InstallationReceipt :=
  let receipt := previousReceipt.getD
    ⟨receiptSchemaVersion, id, installed.channel, installed, none, none, none, false⟩
  let receipt :=
    if isExplicitSourceSwitch && publisherChanged previousReceipt installed.publisherKey then
      { receipt with active := installed, previous := none, pending := none,
                     rollbackActive := false }
    else if receipt.active.version ≠ installed.version then
      if expansion then { receipt with pending := some installed }
      else
        { receipt with previous := some receipt.active, active := installed, pending := none,
                       rollbackActive := false }
    else { receipt with active := installed }
  { receipt with lastUpdateFailure := none }

/-- The receipt is written, and the grants if there are none. -/
def recordInstall (files : ExtensionFiles) (receipt : InstallationReceipt)
    (grants : StoredGrants) : ExtensionFiles × Except CatalogError InstallationReceipt :=
  match files.saveReceipt disk receipt with
  | .error err => (files, .error err)
  | .ok files =>
    if files.grants.exists then (files, .ok receipt)
    else
      match files.saveGrants disk .saveGrants { grants with enabled := false } with
      | .error err => (files, .error err)
      | .ok files => (files, .ok receipt)

/-- The package that is in its place is recorded. A switch to another publisher takes all grants
away. -/
def recordPackage (files : ExtensionFiles) (manifest : ExtensionManifest)
    (installed : InstalledVersionReceipt) (previousReceipt : Option InstallationReceipt)
    (isExplicitSourceSwitch : Bool) : ExtensionFiles × Except CatalogError InstallationReceipt :=
  match files.loadGrants disk manifest.id with
  | .error err => (files, .error err)
  | .ok grants =>
    let record (files : ExtensionFiles) (grants : StoredGrants) :=
      files.recordInstall disk (nextReceipt manifest.id previousReceipt installed
        isExplicitSourceSwitch (capabilityExpansion previousReceipt installed.publisherKey
          manifest.capabilities grants.grantedCapabilities)) grants
    if isExplicitSourceSwitch && publisherChanged previousReceipt installed.publisherKey then
      match files.saveGrants disk .resetGrants (.disabled manifest.id) with
      | .error err => (files, .error err)
      | .ok files => record files (.disabled manifest.id)
    else record files grants

/-- A package that has passed its checks is installed. -/
def install (files : ExtensionFiles) (manifest : ExtensionManifest) (hash : String)
    (verified : VerifiedProvenance) (isExplicitSourceSwitch : Bool) (now : ℕ) :
    ExtensionFiles × Except CatalogError InstallationReceipt :=
  let previousReceipt := (files.readReceipt disk manifest.id).toOption
  match if isExplicitSourceSwitch then .ok ()
      else verifyProvenanceContinuity env.crypto previousReceipt verified with
  | .error err => (files, .error err)
  | .ok () =>
    match files.placePackage disk manifest hash previousReceipt isExplicitSourceSwitch with
    | (files, .error err) => (files, .error err)
    | (files, .ok ()) =>
      files.recordPackage disk manifest (installedVersion manifest hash verified now)
        previousReceipt isExplicitSourceSwitch

/-! ### The other operations -/

/-- What an operation leaves that writes one file: the files as they were, if it has failed. -/
def settle (files : ExtensionFiles) :
    Except CatalogError ExtensionFiles → ExtensionFiles × Except CatalogError Unit
  | .error err => (files, .error err)
  | .ok files => (files, .ok ())

variable (files : ExtensionFiles) (id : ExtensionId)

/-- The last update has failed. -/
def recordUpdateFailure (err : CatalogError) : Except CatalogError ExtensionFiles := do
  let receipt ← files.readReceipt disk id
  files.saveReceipt disk { receipt with lastUpdateFailure := some err.text }

/-- An extension is to run, or not. -/
def setEnabled (enabled : Bool) : Except CatalogError ExtensionFiles := do
  let _ ← files.readReceipt disk id
  let grants ← files.loadGrants disk id
  files.saveGrants disk .saveGrants { grants with enabled }

/-- Updates come from this channel. -/
def setChannel (channel : ReleaseChannel) : Except CatalogError ExtensionFiles := do
  let receipt ← files.readReceipt disk id
  files.saveReceipt disk { receipt with selectedChannel := channel }

/-- What a version asks for. -/
def capabilitiesForVersion (version : Version) : Except CatalogError (List Capability) := do
  let manifest ← files.readManifest disk version
  return manifest.capabilities

/-- What the active version asks for. -/
def requestedCapabilities : Except CatalogError (List Capability) := do
  let receipt ← files.readReceipt disk id
  files.capabilitiesForVersion disk receipt.active.version

/-- The version that waits for a review. -/
def pendingVersion (receipt : InstallationReceipt) : Except CatalogError InstalledVersionReceipt :=
  match receipt.pending with
  | some pending => .ok pending
  | none => .error (.notFound ("extension '" ++ id.text ++ "' has no pending update"))

/-- What the version that waits for a review asks for. -/
def pendingCapabilities : Except CatalogError (List Capability) := do
  let receipt ← files.readReceipt disk id
  let pending ← pendingVersion id receipt
  files.capabilitiesForVersion disk pending.version

/-- What the active version may do. -/
def approveCapabilities (granted : List Capability) : Except CatalogError ExtensionFiles := do
  let requested ← files.requestedCapabilities disk id
  if granted.any (!requested.contains ·) then
    .error (.invalidPackage "a grant is not declared by the active extension manifest")
  else do
    let grants ← files.loadGrants disk id
    files.saveGrants disk .saveGrants { grants with grantedCapabilities := granted }

/-- The update that waits for a review becomes active. -/
def approvePending (granted : List Capability) : ExtensionFiles × Except CatalogError Unit :=
  match (do
      let receipt ← files.readReceipt disk id
      let pending ← pendingVersion id receipt
      let grants ← files.loadGrants disk id
      let files ← files.saveGrants disk .saveGrants { grants with grantedCapabilities := granted }
      return (receipt, pending, files) :
        Except CatalogError (InstallationReceipt × InstalledVersionReceipt × ExtensionFiles)) with
  | .error err => (files, .error err)
  | .ok (receipt, pending, files) =>
    files.settle (files.saveReceipt disk
      { receipt with
        previous := some receipt.active, active := pending, pending := none,
        lastUpdateFailure := none, rollbackActive := false })

/-- The version before the active one becomes active again. -/
def rollback : Except CatalogError ExtensionFiles := do
  let receipt ← files.readReceipt disk id
  match receipt.previous with
  | none => .error (.notFound ("extension '" ++ id.text ++ "' has no rollback version"))
  | some previous =>
    if previous.version ∉ files.versions then
      .error (.notFound ("rollback package for '" ++ id.text ++ "' is missing"))
    else
      files.saveReceipt disk
        { receipt with
          previous := some receipt.active, active := previous, pending := none,
          lastUpdateFailure := none, rollbackActive := true }

/-- An extension is removed. `secrets` and `state` are what comes of deleting these, where they
are to be deleted. What could not be deleted brings the files back. -/
def uninstall (secrets state : Except String Unit) : ExtensionFiles × Except CatalogError Unit :=
  if !files.receipt.exists then (files, .error (.notFound id.text))
  else
    match (do
        secrets.mapError fun message => .io ("failed to delete extension secrets for " ++ id.text ++
          ": " ++ message)
        disk.run .createTrash
        if files.versions.keys = [] then .ok () else disk.run .stagePackage :
          Except CatalogError Unit) with
    | .error err => (files, .error err)
    | .ok () =>
      let restored := if disk.fails .restorePackage then ∅ else files.versions
      match disk.run .stageReceipt with
      | .error err => ({ files with versions := restored }, .error err)
      | .ok () =>
        match state with
        | .ok () => (⟨.absent, if disk.fails .stageGrants then files.grants else .absent, ∅⟩, .ok ())
        | .error message =>
          (⟨if disk.fails .restoreReceipt then .absent else files.receipt,
            if disk.fails .restoreGrants && !disk.fails .stageGrants then .absent
            else files.grants, restored⟩,
            .error (.io ("failed to delete extension state for " ++ id.text ++ ": " ++ message)))

end ExtensionFiles

/-! ### The catalog -/

/-- What is kept of the extensions. -/
abbrev Catalog : Type := AList fun _ : ExtensionId => ExtensionFiles

/-- The operations that change what is kept of an extension. -/
inductive CatalogOperation where
  | installPackage (package : PackageFile) (provenance : PackageProvenance)
      (isExplicitSourceSwitch : Bool) (now : ℕ)
  | recordUpdateFailure (id : ExtensionId) (err : CatalogError)
  | setEnabled (id : ExtensionId) (enabled : Bool)
  | setChannel (id : ExtensionId) (channel : ReleaseChannel)
  | approvePending (id : ExtensionId) (granted : List Capability)
  | approveCapabilities (id : ExtensionId) (granted : List Capability)
  | rollback (id : ExtensionId)
  | uninstall (id : ExtensionId) (secrets state : Except String Unit)

/-- The extension an operation is about, and what it does to its files. -/
def CatalogOperation.effect (env : CatalogEnv) (disk : Disk) :
    CatalogOperation → Except CatalogError
      (ExtensionId × (ExtensionFiles → ExtensionFiles × Except CatalogError Unit))
  | .installPackage package provenance isExplicitSourceSwitch now => do
    let (manifest, verified) ← package.inspect env disk provenance
    return (manifest.id, fun files =>
      (files.install env disk manifest package.hash verified isExplicitSourceSwitch now).map id
        (·.map fun _ => ()))
  | .recordUpdateFailure id err =>
    .ok (id, fun files => files.settle (files.recordUpdateFailure disk id err))
  | .setEnabled id enabled => .ok (id, fun files => files.settle (files.setEnabled disk id enabled))
  | .setChannel id channel => .ok (id, fun files => files.settle (files.setChannel disk id channel))
  | .approvePending id granted => .ok (id, fun files => files.approvePending disk id granted)
  | .approveCapabilities id granted =>
    .ok (id, fun files => files.settle (files.approveCapabilities disk id granted))
  | .rollback id => .ok (id, fun files => files.settle (files.rollback disk id))
  | .uninstall id secrets state => .ok (id, fun files => files.uninstall disk id secrets state)

namespace Catalog

/-- What is kept of an extension. -/
def files (catalog : Catalog) (id : ExtensionId) : ExtensionFiles :=
  (catalog.lookup id).getD .nothing

/-- One operation of the catalog, on a file system that does what `disk` says. -/
def step (env : CatalogEnv) (catalog : Catalog) (operation : Disk × CatalogOperation) :
    Catalog × Except CatalogError Unit :=
  match operation.2.effect env operation.1 with
  | .error err => (catalog, .error err)
  | .ok (id, change) =>
    let (files, result) := change (catalog.files id)
    (catalog.insert id files, result)

/-- The catalog after an operation. -/
def next (env : CatalogEnv) (catalog : Catalog) (operation : Disk × CatalogOperation) : Catalog :=
  (catalog.step env operation).1

end Catalog

end Shilpo.Extensions
