import Shilpo.Extensions.Registry

/-!
# The catalog of extensions

`desktop/ext-runtime/src/catalog.rs`: packages are installed, updated, rolled back and
removed. Of each extension the catalog keeps three things on disk: a receipt, which names
the version that is active, the one before it and one that waits for a review; the grants;
and a directory for each version.

A file of the catalog holds what was written to it, or something that cannot be read. What
the file system does in one operation is in `Disk`: which of its calls fail, and what it says
then. A file is written and a directory is moved in one piece or not at all; to remove a
directory can stop halfway. What is in a package, whether `ExtensionCli::check` passes it and
whether the runtime can start it, is part of `PackageFile`.
-/

namespace Shilpo.Extensions

/-! ### Errors -/

/-- Why an operation has no result. -/
inductive CatalogError where
  | io (message : String)
  | invalidPackage (message : String)
  | invalidSignature (message : String)
  | invalidRegistry (message : String)
  | notFound (message : String)
  | publisherConflict (message : String)
  deriving DecidableEq

/-- The error's text. -/
def CatalogError.text : CatalogError → String
  | .io message => "I/O error: " ++ message
  | .invalidPackage message => "invalid package: " ++ message
  | .invalidSignature message => "invalid signature: " ++ message
  | .invalidRegistry message => "invalid registry: " ++ message
  | .notFound message => "not found: " ++ message
  | .publisherConflict message => "publisher conflict: " ++ message

/-! ### Receipts and grants -/

/-- How far a package can be trusted. -/
inductive TrustState where
  | official
  | verifiedPublisher
  | signedThirdParty
  | unverified
  deriving DecidableEq

/-- What is known of an installed version. -/
structure InstalledVersionReceipt where
  version : Version
  source : String
  sourceId : Option String
  sourceKey : Option String
  publisher : Option String
  publisherKey : Option String
  publisherPublicKey : Option String
  packageHash : String
  trust : TrustState
  channel : ReleaseChannel
  installedAtUnixSeconds : ℕ
  deriving DecidableEq

/-- The version of receipts. -/
def receiptSchemaVersion : ℕ := 1

/-- What is known of an installed extension. -/
structure InstallationReceipt where
  schemaVersion : ℕ
  id : ExtensionId
  selectedChannel : ReleaseChannel
  active : InstalledVersionReceipt
  previous : Option InstalledVersionReceipt
  pending : Option InstalledVersionReceipt
  lastUpdateFailure : Option String
  rollbackActive : Bool
  deriving DecidableEq

/-- What an extension may do, and whether it is to run. -/
structure StoredGrants where
  extensionId : ExtensionId
  enabled : Bool
  grantedCapabilities : List Capability
  deriving DecidableEq

/-- An extension that is not to run, and may do nothing. -/
def StoredGrants.disabled (id : ExtensionId) : StoredGrants := ⟨id, false, []⟩

/-! ### Files -/

/-- A file: it is not there, cannot be read, or holds something. -/
inductive StoredFile (α : Type) where
  | absent
  | unreadable
  | holds (value : α)

/-- The file is there. -/
def StoredFile.exists {α : Type} : StoredFile α → Bool
  | .absent => false
  | _ => true

/-- The directory of a version: it has been extracted from a package with this hash, or has been
removed in part. -/
inductive PackageDir where
  | extracted (hash : String) (manifest : ExtensionManifest)
  | damaged

/-- What the catalog keeps of an extension. -/
structure ExtensionFiles where
  receipt : StoredFile InstallationReceipt
  grants : StoredFile StoredGrants
  versions : AList fun _ : Version => PackageDir

/-- Nothing is kept of an extension. -/
def ExtensionFiles.nothing : ExtensionFiles := ⟨.absent, .absent, ∅⟩

/-- The calls of the file system that can fail. -/
inductive FsOp where
  | stat
  | hashFile
  | createStaging
  | createStage
  | readReceipt
  | parseReceipt
  | removeTarget
  /-- The removal of a directory goes on to its end. -/
  | finishRemoval
  | createParent
  | markReadOnly
  | renameStage
  | removeStage
  | readGrants
  | parseGrants
  | resetGrants
  | saveReceipt
  | saveGrants
  | readManifest
  | createTrash
  | stagePackage
  | stageReceipt
  | stageGrants
  | restorePackage
  | restoreReceipt
  | restoreGrants
  deriving DecidableEq

/-- What the file system does in one operation of the catalog: which calls fail, and what it says
when one does. -/
structure Disk where
  fails : FsOp → Bool
  message : FsOp → String

/-- A file system that does what it is told. -/
def Disk.sound : Disk := ⟨fun _ => false, fun _ => ""⟩

/-- An error, if the call fails. -/
def Disk.run (disk : Disk) (op : FsOp) : Except CatalogError Unit :=
  if disk.fails op then .error (.io (disk.message op)) else .ok ()

namespace ExtensionFiles

variable (disk : Disk) (files : ExtensionFiles) (id : ExtensionId)

/-- The receipt of an extension. -/
def readReceipt : Except CatalogError InstallationReceipt := do
  disk.run .readReceipt
  match files.receipt with
  | .absent => .error (.io (disk.message .readReceipt))
  | .unreadable => .error (.invalidPackage (disk.message .parseReceipt))
  | .holds receipt =>
    if receipt.schemaVersion ≠ receiptSchemaVersion || receipt.id ≠ id then
      .error (.invalidPackage ("receipt identity or schema mismatch at " ++ id.text ++ ".toml"))
    else .ok receipt

/-- The grants of an extension; none, if there is no file. -/
def loadGrants : Except CatalogError StoredGrants :=
  match files.grants with
  | .absent => .ok (.disabled id)
  | .unreadable => do
    disk.run .readGrants
    .error (.invalidPackage (disk.message .parseGrants))
  | .holds grants => do
    disk.run .readGrants
    if grants.extensionId ≠ id then
      .error (.invalidPackage ("grant identity mismatch at " ++ id.text ++ ".toml"))
    else .ok grants

/-- The receipt is written. -/
def saveReceipt (receipt : InstallationReceipt) : Except CatalogError ExtensionFiles := do
  disk.run .saveReceipt
  return { files with receipt := .holds receipt }

/-- The grants are written; `op` is the call of the operation that does so. -/
def saveGrants (op : FsOp) (grants : StoredGrants) : Except CatalogError ExtensionFiles := do
  disk.run op
  return { files with grants := .holds grants }

/-- The manifest in the directory of a version. -/
def readManifest (version : Version) : Except CatalogError ExtensionManifest := do
  disk.run .readManifest
  match files.versions.lookup version with
  | some (.extracted _ manifest) => .ok manifest
  | _ => .error (.io (disk.message .readManifest))

end ExtensionFiles

end Shilpo.Extensions
