import Shilpo.Extensions.Manifest

/-!
# Registries and their releases

The crate `core/registry-contract`: sources of extensions, the releases in their indexes,
what is signed and by whom; and the order of versions, as semantic versioning has it.

Signatures, hashes and the texts that are signed are parameters (`Crypto`). Base64 and
Ed25519 are behind them: `fingerprint` fails for a text that is no key, `verify` for a
signature that the key has not made.
-/

namespace Shilpo.Extensions

/-! ### The order of versions -/

namespace VersionIdentifier

/-- Numbers come before texts; among equal numbers, one with fewer zeros before it is first. -/
def key : VersionIdentifier → (ℕ ×ₗ ℕ) ⊕ₗ String
  | .numeric value digits => Sum.inlₗ (toLex (value, digits))
  | .alphanumeric text => Sum.inrₗ text

theorem key_injective : Function.Injective key := by
  intro a b h
  cases a <;> cases b <;> cases h <;> rfl

end VersionIdentifier

namespace Version

/-- A version with nothing before its release comes after all that have something there. -/
def key (version : Version) :
    ℕ ×ₗ ℕ ×ₗ ℕ ×ₗ WithTop (List ((ℕ ×ₗ ℕ) ⊕ₗ String)) ×ₗ List ((ℕ ×ₗ ℕ) ⊕ₗ String) :=
  toLex (version.major, toLex (version.minor, toLex (version.patch, toLex
    (if version.pre = [] then ⊤ else ↑(version.pre.map VersionIdentifier.key),
      version.build.map VersionIdentifier.key))))

theorem key_injective : Function.Injective key := by
  intro a b h
  have hlist : Function.Injective (List.map VersionIdentifier.key) :=
    VersionIdentifier.key_injective.list_map
  simp only [key, EmbeddingLike.apply_eq_iff_eq, Prod.mk.injEq] at h
  obtain ⟨hmajor, hminor, hpatch, hpre, hbuild⟩ := h
  have hbuild := hlist hbuild
  have hpre : a.pre = b.pre := by
    split_ifs at hpre with ha hb hb
    · rw [ha, hb]
    · cases hpre
    · cases hpre
    · exact hlist (WithTop.coe_injective hpre)
  cases a
  cases b
  simp_all

/-- Versions are ordered. -/
instance : LinearOrder Version := LinearOrder.lift' key key_injective

end Version

/-! ### Releases -/

/-- What a release is good for. -/
inductive ReleaseChannel where
  | stable
  | beta
  | development
  deriving DecidableEq

/-- One key makes another its successor, or the registry does. -/
structure KeyRotationDelegation where
  previousPublicKey : String
  nextPublicKey : String
  signature : String
  authorizedByRegistry : Bool
  deriving DecidableEq

/-- The signature that goes with a package. -/
structure PackageSignature where
  schemaVersion : ℕ
  publisher : String
  publicKey : String
  packageHash : String
  signature : String
  keyRotation : Option KeyRotationDelegation

/-- A registry. -/
structure RegistrySource where
  id : String
  name : String
  indexUrl : String
  rootPublicKey : String
  official : Bool
  enabled : Bool

/-- A release of an extension. -/
structure RegistryRelease where
  id : ExtensionId
  name : String
  description : Option String
  publisher : String
  version : Version
  apiVersion : Version
  minShilpoVersion : Version
  channel : ReleaseChannel
  packageUrl : String
  packageHash : String
  publisherPublicKey : String
  publisherSignature : String
  capabilitiesHash : String
  capabilities : List Capability
  publishedAt : String
  yanked : Bool
  official : Bool
  verifiedPublisher : Bool
  openSource : Bool
  dataOnly : Bool
  keyRotation : Option KeyRotationDelegation

/-- The name of the official registry. -/
def officialSourceId : String := "shilpo"

/-- Keys, signatures and hashes. -/
structure Crypto where
  /-- The key of the official registry that is built in. -/
  officialRootKey : String
  /-- The fingerprint of a public key. -/
  fingerprint : String → Except String String
  /-- A public key has signed a message. -/
  verify : String → String → String → Except String Unit
  /-- The hash of capabilities. -/
  capabilitiesHash : List Capability → String
  /-- The part of a release that is signed. -/
  releasePayload : RegistryRelease → String

/-- The official registry, with its own key. -/
def RegistrySource.isPinnedOfficial (crypto : Crypto) (source : RegistrySource) : Bool :=
  source.id = officialSourceId && source.rootPublicKey = crypto.officialRootKey

/-- What a publisher signs of a package. -/
def packageSigningMessage (publisher packageHash : String) : String :=
  "shilpo-package-v1\n" ++ publisher ++ "\n" ++ packageHash

/-- What a publisher signs of the next key. -/
def rotationMessage (nextPublicKey : String) : String :=
  "shilpo-key-rotation-v1\n" ++ nextPublicKey

end Shilpo.Extensions
