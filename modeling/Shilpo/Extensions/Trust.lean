import Shilpo.Extensions.Catalog

/-!
# Where packages come from

Who offers a package and who has signed it (`PackageProvenance::verify`), and whether it may
follow what is installed: an installed extension is tied to its source, and its publisher can
change keys only by a delegation (`verify_provenance_continuity`).
-/

namespace Shilpo.Extensions

/-- A release, as a source offers it. -/
structure CatalogExtension where
  release : RegistryRelease
  source : RegistrySource
  trust : TrustState
  publisherConflict : Bool

/-- Where a package comes from. -/
inductive PackageProvenance where
  | localArchive (signature : Option PackageSignature)
  | direct (url : String) (signature : Option PackageSignature)
  | registry (candidate : CatalogExtension)

/-- What has been verified of a package. -/
structure VerifiedProvenance where
  source : String
  sourceId : Option String
  sourceKey : Option String
  publisher : Option String
  publisherKey : Option String
  publisherPublicKey : Option String
  trust : TrustState
  channel : ReleaseChannel
  keyRotation : Option KeyRotationDelegation
  expectedRelease : Option RegistryRelease

/-- An error of the registry contract about a signature. -/
def invalidSignature {α : Type} : Except String α → Except CatalogError α :=
  Except.mapError .invalidSignature

/-- What comes before the name of a registry. -/
def registryScheme : String := "registry:"

/-- A source is a registry. -/
def isRegistry (source : String) : Bool := registryScheme.toList.isPrefixOf source.toList

section

variable (crypto : Crypto)

/-! ### Verification -/

/-- The release is signed by its publisher. -/
def verifyReleaseSignature (release : RegistryRelease) : Except CatalogError Unit :=
  invalidSignature (crypto.verify release.publisherPublicKey (crypto.releasePayload release)
    release.publisherSignature)

/-- A package that no registry offers. -/
def verifyDirectProvenance (source : String) (signature : Option PackageSignature)
    (packageHash : String) : Except CatalogError VerifiedProvenance :=
  match signature with
  | none => .ok ⟨source, none, none, none, none, none, .unverified, .stable, none, none⟩
  | some packageSignature => do
    if packageSignature.schemaVersion ≠ 1 || packageSignature.packageHash ≠ packageHash then
      .error (.invalidSignature "package signature hash or schema does not match")
    else do
      invalidSignature (crypto.verify packageSignature.publicKey
        (packageSigningMessage packageSignature.publisher packageSignature.packageHash)
        packageSignature.signature)
      let fingerprint ← invalidSignature (crypto.fingerprint packageSignature.publicKey)
      .ok ⟨source, none, none, some packageSignature.publisher, some fingerprint,
        some packageSignature.publicKey, .signedThirdParty, .stable, packageSignature.keyRotation,
        none⟩

/-- What is known of a package with this hash. -/
def PackageProvenance.verify (packageHash : String) :
    PackageProvenance → Except CatalogError VerifiedProvenance
  | .localArchive signature => verifyDirectProvenance crypto "local-archive" signature packageHash
  | .direct url signature => verifyDirectProvenance crypto ("url:" ++ url) signature packageHash
  | .registry candidate =>
    if candidate.release.packageHash ≠ packageHash then
      .error (.invalidSignature "downloaded package hash does not match the signed release")
    else do
      verifyReleaseSignature crypto candidate.release
      let fingerprint ← invalidSignature (crypto.fingerprint candidate.release.publisherPublicKey)
      .ok ⟨registryScheme ++ candidate.source.id, some candidate.source.id,
        some candidate.source.rootPublicKey, some candidate.release.publisher, some fingerprint,
        some candidate.release.publisherPublicKey, candidate.trust, candidate.release.channel,
        candidate.release.keyRotation, some candidate.release⟩

/-- How far a release of a source can be trusted. -/
def trustForRelease (source : RegistrySource) (release : RegistryRelease) : TrustState :=
  if source.isPinnedOfficial crypto && release.official then .official
  else if release.verifiedPublisher then .verifiedPublisher
  else .signedThirdParty

/-- The package is the one that was released. -/
def verifyManifestAgainstRelease (manifest : ExtensionManifest) (release : RegistryRelease) :
    Except CatalogError Unit :=
  if manifest.id ≠ release.id || manifest.version ≠ release.version ||
      manifest.apiVersion ≠ release.apiVersion ||
      manifest.minShilpoVersion ≠ release.minShilpoVersion ||
      crypto.capabilitiesHash manifest.capabilities ≠ release.capabilitiesHash then
    .error (.invalidPackage "manifest does not match signed release metadata")
  else .ok ()

/-! ### Continuity -/

/-- The registry that an installed extension is tied to. -/
def pinnedSourceId (receipt : InstallationReceipt) : Option String :=
  match receipt.active.sourceId with
  | some id => some id
  | none =>
    if isRegistry receipt.active.source then
      some (String.ofList (receipt.active.source.toList.drop registryScheme.length))
    else none

/-- The publisher is who it was, or the next one by a delegation. -/
def verifyPublisherContinuity (receipt : Option InstallationReceipt)
    (verified : VerifiedProvenance) : Except CatalogError Unit :=
  match receipt with
  | none => .ok ()
  | some receipt =>
    if receipt.active.publisherKey = verified.publisherKey then .ok ()
    else
      match verified.keyRotation with
      | none => .error (.publisherConflict ("'" ++ receipt.id.text ++
          "' changed publisher identity without a delegation"))
      | some rotation =>
        match receipt.active.publisherPublicKey with
        | none => .error (.publisherConflict "the previous publisher was unsigned")
        | some oldKey =>
          let mismatch := CatalogError.publisherConflict
            "key-rotation identity does not match the installation receipt"
          if rotation.previousPublicKey ≠ oldKey then .error mismatch
          else do
            let fingerprint ← invalidSignature (crypto.fingerprint rotation.nextPublicKey)
            if some fingerprint ≠ verified.publisherKey ||
                verified.publisherPublicKey ≠ some rotation.nextPublicKey then .error mismatch
            else if rotation.authorizedByRegistry && isRegistry verified.source then .ok ()
            else (crypto.verify rotation.previousPublicKey
              (rotationMessage rotation.nextPublicKey) rotation.signature).mapError fun message =>
                .publisherConflict ("invalid signature: " ++ message)

/-- The package comes from where the installed one came from, and its publisher follows. -/
def verifyProvenanceContinuity (receipt : Option InstallationReceipt)
    (verified : VerifiedProvenance) : Except CatalogError Unit :=
  match receipt with
  | none => .ok ()
  | some receipt =>
    match pinnedSourceId receipt with
    | some installedSourceId =>
      if verified.sourceId ≠ some installedSourceId then
        .error (.publisherConflict ("'" ++ receipt.id.text ++ "' is pinned to source '" ++
          installedSourceId ++ "', cannot install from '" ++
          verified.sourceId.getD "non-registry" ++ "'"))
      else if receipt.active.sourceKey.isSome && verified.sourceKey ≠ receipt.active.sourceKey then
        .error (.publisherConflict
          ("'" ++ receipt.id.text ++ "' source root public key has changed"))
      else verifyPublisherContinuity crypto (some receipt) verified
    | none =>
      if verified.sourceId.isSome then
        .error (.publisherConflict ("'" ++ receipt.id.text ++
          "' was installed locally/directly, cannot update from registry without explicit " ++
          "source switch"))
      else verifyPublisherContinuity crypto (some receipt) verified

/-- A release comes from the registry that the installed extension is tied to. -/
def sourceMatches (receipt : InstallationReceipt) (candidate : CatalogExtension) : Bool :=
  match pinnedSourceId receipt with
  | none => false
  | some sourceId =>
    sourceId = candidate.source.id &&
      match receipt.active.sourceKey with
      | some sourceKey => sourceKey = candidate.source.rootPublicKey
      | none => true

/-- A release comes from the publisher of the installed extension, or from one that names it as
its predecessor. -/
def publisherMatches (receipt : InstallationReceipt) (candidate : CatalogExtension) : Bool :=
  match crypto.fingerprint candidate.release.publisherPublicKey with
  | .error _ => false
  | .ok fingerprint =>
    receipt.active.publisherKey = some fingerprint ||
      candidate.release.keyRotation.any fun rotation =>
        (crypto.fingerprint rotation.previousPublicKey).toOption = receipt.active.publisherKey

/-! ### Conflicts -/

/-- The keys that a pass over the candidates adds to those already connected; nothing, if one of
them is no key. -/
def connectKeys (candidates : List CatalogExtension) (connected : List String) :
    Option (List String) :=
  candidates.foldlM (fun connected candidate => do
    let current ← (crypto.fingerprint candidate.release.publisherPublicKey).toOption
    match candidate.release.keyRotation with
    | none => some connected
    | some rotation => do
      let previous ← (crypto.fingerprint rotation.previousPublicKey).toOption
      if connected.contains current || connected.contains previous then
        some ((connected.insert current).insert previous)
      else some connected) connected

/-- The passes over the candidates, until one adds nothing. -/
def connectAll (candidates : List CatalogExtension) : ℕ → List String → Option (List String)
  | 0, connected => some connected
  | fuel + 1, connected => do
    let next ← connectKeys crypto candidates connected
    if next.length = connected.length then some next else connectAll candidates fuel next

/-- The publishers of an extension do not follow from each other. Each pass but the last adds one
of the two keys of a candidate. -/
def hasPublisherConflict (candidates : List CatalogExtension) : Bool :=
  match candidates.mapM fun entry =>
      (crypto.fingerprint entry.release.publisherPublicKey).toOption with
  | none => true
  | some keys =>
    match keys.min? with
    | none => false
    | some first =>
      match connectAll crypto candidates (2 * candidates.length + 1) [first] with
      | none => true
      | some connected => keys.any (!connected.contains ·)

end

end Shilpo.Extensions
