import Shilpo.Extensions.InstallSteps
import Shilpo.Theory.Runs

/-!
# Continuity of sources and publishers

An installed extension stays with the source it came from, and its publisher changes keys only
where the old key, or the registry, has named the new one. The packages are compared with the
active version when they are installed (`verify_provenance_continuity`); what is recorded of a
version that waits is compared no more. So there are two ways around the comparison, and a run
in which neither is taken keeps what is promised (`continuity_kept`):

* a receipt that cannot be read counts as none (`continuity_lost_unread`);
* the active version can be installed again with another key, while an update waits that came
  with the old one (`continuity_lost_pending`).
-/

namespace Shilpo.Extensions

open Theory

/-! ### What is promised -/

/-- The release names the second publisher key as the next one of the first, which has signed
this, or the registry has decided it. -/
def Delegates (crypto : Crypto) (verified : VerifiedProvenance) (old new : Option String) : Prop :=
  ∃ rotation oldKey newKey, verified.keyRotation = some rotation ∧
    old = some oldKey ∧ crypto.fingerprint rotation.previousPublicKey = .ok oldKey ∧
    new = some newKey ∧ crypto.fingerprint rotation.nextPublicKey = .ok newKey ∧
    (crypto.verify rotation.previousPublicKey (rotationMessage rotation.nextPublicKey)
        rotation.signature = .ok () ∨
      rotation.authorizedByRegistry = true ∧ isRegistry verified.source = true)

/-- The two versions come from the same registry, or from none. -/
def SameSource (version version' : InstalledVersionReceipt) : Prop :=
  version.sourceId = version'.sourceId ∧ version.sourceKey = version'.sourceKey

section

variable (env : CatalogEnv) (id : ExtensionId)

/-- The release that an operation brings into the receipt. -/
def released (catalog : Catalog) (operation : Disk × CatalogOperation) :
    List VerifiedProvenance :=
  match operation.2.incoming env operation.1 id,
      ((catalog.next env operation).files id).receipt with
  | some package, .holds receipt =>
    if receipt.active = package.installed ∨ receipt.pending = some package.installed then
      [package.verified]
    else []
  | _, _ => []

/-- What is promised of a run. -/
structure ContinuityKept (catalog : Catalog) (operations : List (Disk × CatalogOperation)) :
    Prop where
  /-- The source stays. -/
  source : ∀ before between after, operations = before ++ between ++ after →
    ∀ old, ((run (Catalog.next env) catalog before).files id).receipt = .holds old →
      ∃ new, ((run (Catalog.next env) catalog (before ++ between)).files id).receipt = .holds new ∧
        SameSource new.active old.active
  /-- The publisher changes by a delegation in a release that was installed. -/
  publisher : ∀ before operation after, operations = before ++ operation :: after →
    operation.2 ≠ .rollback id →
    ∀ old new, ((run (Catalog.next env) catalog before).files id).receipt = .holds old →
      ((run (Catalog.next env) catalog (before ++ [operation])).files id).receipt = .holds new →
      old.active.publisherKey = new.active.publisherKey ∨
        ∃ verified ∈ expand (Catalog.next env) (released env id) catalog (before ++ [operation]),
          Delegates env.crypto verified old.active.publisherKey new.active.publisherKey
  /-- A receipt that cannot be read is not taken for none. -/
  unread : ∀ before operation after, operations = before ++ operation :: after →
    ∀ package ∈ operation.2.incoming env operation.1 id,
      ((run (Catalog.next env) catalog before).files id).receipt.exists = true →
      (((run (Catalog.next env) catalog before).files id).readReceipt operation.1 id).isOk = false →
      ((run (Catalog.next env) catalog (before ++ [operation])).files id).receipt =
          ((run (Catalog.next env) catalog before).files id).receipt ∨
        ((run (Catalog.next env) catalog (before ++ [operation])).files id).grants = .holds (.disabled id)

/-- The operation removes the extension. -/
def CatalogOperation.uninstalls : CatalogOperation → Bool
  | .uninstall id' _ _ => id' = id
  | _ => false

/-- The extension is not removed, and its source is not switched. -/
def Uninterrupted (_ : Catalog) (operation : Disk × CatalogOperation) : Prop :=
  operation.2.uninstalls id = false ∧
    ∀ package ∈ operation.2.incoming env operation.1 id, package.isExplicitSourceSwitch = false

/-- A package is installed only if the receipt that is there can be read, or there is a directory
in its place already; and the active version, while an update waits, only with its own publisher
key or that of the update. -/
structure ExtensionFiles.Continues (disk : Disk) (files : ExtensionFiles)
    (package : CheckedPackage) : Prop where
  read : files.receipt.exists = true → (files.readReceipt disk id).isOk = true ∨
    package.manifest.version ∈ files.versions
  key : ∀ receipt ∈ (files.readReceipt disk id).toOption, ∀ pending ∈ receipt.pending,
    receipt.active.version = package.manifest.version →
      package.verified.publisherKey = receipt.active.publisherKey ∨
        package.verified.publisherKey = pending.publisherKey

instance (disk : Disk) (files : ExtensionFiles) (package : CheckedPackage) :
    Decidable (files.Continues id disk package) :=
  decidable_of_iff (_ ∧ _) ⟨fun h => ⟨h.1, h.2⟩, fun h => ⟨h.1, h.2⟩⟩

/-- What an operation installs may be installed. -/
def Continues (catalog : Catalog) (operation : Disk × CatalogOperation) : Prop :=
  ∀ package ∈ operation.2.incoming env operation.1 id,
    (catalog.files id).Continues id operation.1 package

instance : DecidableRel (Uninterrupted env id) := fun _ operation =>
  inferInstanceAs (Decidable (operation.2.uninstalls id = false ∧
    ∀ package ∈ operation.2.incoming env operation.1 id, package.isExplicitSourceSwitch = false))

instance : DecidableRel (Continues env id) := fun catalog operation =>
  inferInstanceAs (Decidable (∀ package ∈ operation.2.incoming env operation.1 id,
    (catalog.files id).Continues id operation.1 package))

end

section

/-! ### What is recorded of a version -/

/-- What is recorded of a version belongs together. -/
structure InstalledVersionReceipt.Recorded (crypto : Crypto) (version : InstalledVersionReceipt) :
    Prop where
  key : version.publisherKey.map Except.ok = version.publisherPublicKey.map crypto.fingerprint
  source : version.sourceId.isSome = isRegistry version.source
  sourceKey : version.sourceKey.isSome = version.sourceId.isSome

theorem isRegistry_append (id : String) : isRegistry (registryScheme ++ id) = true := by
  simp [isRegistry]

theorem isRegistry_url (url : String) : isRegistry ("url:" ++ url) = false := by
  simp [isRegistry, registryScheme, List.isPrefixOf]

variable {crypto : Crypto}

theorem invalidSignature_eq_ok {α : Type} {x : Except String α} {a : α} :
    invalidSignature x = .ok a ↔ x = .ok a := by
  cases x <;> simp [invalidSignature, Except.mapError]

variable {verified : VerifiedProvenance}

theorem recorded_of_verifyDirect {source hash : String} {signature : Option PackageSignature}
    (hsource : isRegistry source = false)
    (h : verifyDirectProvenance crypto source signature hash = .ok verified)
    (manifest : ExtensionManifest) (now : ℕ) :
    (ExtensionFiles.installedVersion manifest hash verified now).Recorded crypto := by
  unfold verifyDirectProvenance at h
  split at h
  · cases h
    exact ⟨rfl, hsource.symm, rfl⟩
  · split_ifs at h
    simp only [bind_eq_ok, invalidSignature_eq_ok] at h
    obtain ⟨_, -, fingerprint, hfingerprint, heq⟩ := h
    cases heq
    exact ⟨congrArg some hfingerprint.symm, hsource.symm, rfl⟩

/-- What has been verified belongs together. -/
theorem PackageProvenance.recorded_of_verify {provenance : PackageProvenance} {hash : String}
    (h : provenance.verify crypto hash = .ok verified) (manifest : ExtensionManifest) (now : ℕ) :
    (ExtensionFiles.installedVersion manifest hash verified now).Recorded crypto := by
  cases provenance with
  | localArchive signature => exact recorded_of_verifyDirect (by decide) h manifest now
  | direct url signature => exact recorded_of_verifyDirect (isRegistry_url url) h manifest now
  | registry candidate =>
    unfold verify at h
    dsimp only at h
    split_ifs at h
    simp only [bind_eq_ok, invalidSignature_eq_ok] at h
    obtain ⟨_, -, fingerprint, hfingerprint, heq⟩ := h
    cases heq
    exact ⟨congrArg some hfingerprint.symm, (isRegistry_append _).symm, rfl⟩
/-! ### What is compared -/

/-- A version follows another: it has the same source, and the same publisher key or the next one
by a delegation in the release. -/
structure Follows (crypto : Crypto) (verified : VerifiedProvenance)
    (old new : InstalledVersionReceipt) : Prop where
  source : SameSource new old
  publisher : old.publisherKey = new.publisherKey ∨
    Delegates crypto verified old.publisherKey new.publisherKey

theorem pinnedSourceId_eq {receipt : InstallationReceipt}
    (h : receipt.active.Recorded crypto) : pinnedSourceId receipt = receipt.active.sourceId := by
  unfold pinnedSourceId
  have hsource := h.source
  cases hid : receipt.active.sourceId with
  | some sourceId => rfl
  | none =>
    rw [hid] at hsource
    exact if_neg (by rw [← hsource]; simp)

theorem publisher_of_continuity {receipt : InstallationReceipt}
    (hactive : receipt.active.Recorded crypto)
    (h : verifyPublisherContinuity crypto (some receipt) verified = .ok ()) :
    receipt.active.publisherKey = verified.publisherKey ∨
      Delegates crypto verified receipt.active.publisherKey verified.publisherKey := by
  unfold verifyPublisherContinuity at h
  dsimp only at h
  split_ifs at h with hkey
  · exact .inl hkey
  · refine .inr ?_
    have hrecorded := hactive.key
    split at h
    · cases h
    · rename_i rotation hrotation
      split at h
      · cases h
      · rename_i oldKey hold
        by_cases hprevious : rotation.previousPublicKey ≠ oldKey
        · rw [if_pos hprevious] at h
          cases h
        rw [if_neg hprevious, bind_eq_ok] at h
        rw [not_not] at hprevious
        obtain ⟨newKey, hnext, h⟩ := h
        rw [invalidSignature_eq_ok] at hnext
        rw [hold, Option.map_some, Option.map_eq_some_iff] at hrecorded
        obtain ⟨oldFingerprint, hactiveKey, hfingerprint⟩ := hrecorded
        split_ifs at h with hmatch hregistry
        · simp only [Bool.or_eq_true, decide_eq_true_eq, not_or, not_not] at hmatch
          refine ⟨rotation, oldFingerprint, newKey, hrotation, hactiveKey,
            by rw [hprevious, hfingerprint], hmatch.1.symm, hnext, .inr ?_⟩
          simpa using hregistry
        · simp only [Bool.or_eq_true, decide_eq_true_eq, not_or, not_not] at hmatch
          refine ⟨rotation, oldFingerprint, newKey, hrotation, hactiveKey,
            by rw [hprevious, hfingerprint], hmatch.1.symm, hnext, .inl ?_⟩
          cases hverify : crypto.verify rotation.previousPublicKey
              (rotationMessage rotation.nextPublicKey) rotation.signature with
          | error err =>
            rw [hverify] at h
            cases h
          | ok u => rfl

/-- A package that has been compared with the active version follows it. -/
theorem follows_of_continuity {receipt : InstallationReceipt} {manifest : ExtensionManifest}
    {hash : String} {now : ℕ} (hactive : receipt.active.Recorded crypto)
    (hverified : (ExtensionFiles.installedVersion manifest hash verified now).Recorded crypto)
    (h : verifyProvenanceContinuity crypto (some receipt) verified = .ok ()) :
    Follows crypto verified receipt.active
      (ExtensionFiles.installedVersion manifest hash verified now) := by
  unfold verifyProvenanceContinuity at h
  dsimp only at h
  rw [pinnedSourceId_eq hactive] at h
  have hkey := hactive.sourceKey
  cases hid : receipt.active.sourceId with
  | some sourceId =>
    rw [hid] at h hkey
    dsimp only at h
    split_ifs at h with hsource hsourceKey
    rw [not_not] at hsource
    have hsame : verified.sourceKey = receipt.active.sourceKey := by simpa [hkey] using hsourceKey
    exact ⟨⟨hsource.trans hid.symm, hsame⟩, publisher_of_continuity hactive h⟩
  | none =>
    rw [hid] at h hkey
    dsimp only at h
    split_ifs at h with hsource
    have hnone : verified.sourceId = none := by simpa using hsource
    have hnoneKey : verified.sourceKey = none := by
      have := hverified.sourceKey
      simpa [ExtensionFiles.installedVersion, hnone] using this
    have hactiveKey : receipt.active.sourceKey = none := by simpa using hkey
    exact ⟨⟨hnone.trans hid.symm, hnoneKey.trans hactiveKey.symm⟩,
      publisher_of_continuity hactive h⟩

/-! ### Receipts -/

/-- The versions of a receipt have one source; and one that waits follows the active version, or
will by a delegation in a release that has been installed. -/
structure TiedReceipt (crypto : Crypto) (releases : List VerifiedProvenance)
    (receipt : InstallationReceipt) : Prop where
  active : receipt.active.Recorded crypto
  previous : ∀ version ∈ receipt.previous,
    version.Recorded crypto ∧ SameSource version receipt.active
  pending : ∀ version ∈ receipt.pending,
    version.Recorded crypto ∧ SameSource version receipt.active ∧
      (receipt.active.publisherKey = version.publisherKey ∨
        ∃ verified ∈ releases,
          Delegates crypto verified receipt.active.publisherKey version.publisherKey)

theorem TiedReceipt.mono {releases releases' : List VerifiedProvenance}
    {receipt : InstallationReceipt} (h : TiedReceipt crypto releases receipt)
    (hsub : releases ⊆ releases') : TiedReceipt crypto releases' receipt where
  active := h.active
  previous := h.previous
  pending version hversion := by
    obtain ⟨hrecorded, hsource, hkey⟩ := h.pending version hversion
    exact ⟨hrecorded, hsource, hkey.imp_right fun ⟨verified, hmem, hd⟩ => ⟨verified, hsub hmem, hd⟩⟩

/-- A receipt that goes on: what is promised of its active version. -/
structure GoesOn (crypto : Crypto) (releases : List VerifiedProvenance) (keeps : Prop)
    (old new : InstallationReceipt) : Prop where
  tied : TiedReceipt crypto releases new
  source : SameSource new.active old.active
  publisher : keeps → old.active.publisherKey = new.active.publisherKey ∨
    ∃ verified ∈ releases, Delegates crypto verified old.active.publisherKey new.active.publisherKey

theorem SameSource.refl (version : InstalledVersionReceipt) : SameSource version version :=
  ⟨rfl, rfl⟩

theorem SameSource.symm {version version' : InstalledVersionReceipt}
    (h : SameSource version version') : SameSource version' version := ⟨h.1.symm, h.2.symm⟩

theorem SameSource.trans {version version' version'' : InstalledVersionReceipt}
    (h : SameSource version version') (h' : SameSource version' version'') :
    SameSource version version'' := ⟨h.1.trans h'.1, h.2.trans h'.2⟩

variable {releases : List VerifiedProvenance} {receipt : InstallationReceipt}

theorem TiedReceipt.goesOn {keeps : Prop} (h : TiedReceipt crypto releases receipt) :
    GoesOn crypto releases keeps receipt receipt := ⟨h, .refl _, fun _ => .inl rfl⟩

/-- A version that waits becomes active. -/
theorem TiedReceipt.approved (h : TiedReceipt crypto releases receipt)
    {pending : InstalledVersionReceipt} (hpending : receipt.pending = some pending) :
    GoesOn crypto releases True receipt
      { receipt with
        previous := some receipt.active, active := pending, pending := none,
        lastUpdateFailure := none, rollbackActive := false } := by
  obtain ⟨hrecorded, hsource, hkey⟩ := h.pending pending hpending
  refine ⟨⟨hrecorded, ?_, fun _ h => absurd h (Option.not_mem_none _)⟩, hsource, fun _ => hkey⟩
  rintro version ⟨⟩
  exact ⟨h.active, hsource.symm⟩

/-- The version before the active one becomes active. -/
theorem TiedReceipt.rolledBack (h : TiedReceipt crypto releases receipt)
    {previous : InstalledVersionReceipt} (hprevious : receipt.previous = some previous) :
    GoesOn crypto releases False receipt
      { receipt with
        previous := some receipt.active, active := previous, pending := none,
        lastUpdateFailure := none, rollbackActive := true } := by
  obtain ⟨hrecorded, hsource⟩ := h.previous previous hprevious
  refine ⟨⟨hrecorded, ?_, fun _ h => absurd h (Option.not_mem_none _)⟩, hsource, False.elim⟩
  rintro version ⟨⟩
  exact ⟨h.active, hsource.symm⟩

/-- A package is installed that follows the active version. Where it is the active version again
and another one waits, its key is not a third one. -/
theorem TiedReceipt.installed (h : TiedReceipt crypto releases receipt) (id : ExtensionId)
    {installed : InstalledVersionReceipt} (hrecorded : installed.Recorded crypto)
    (hfollows : Follows crypto verified receipt.active installed) (expansion : Bool)
    (hkey : ∀ pending ∈ receipt.pending, receipt.active.version = installed.version →
      installed.publisherKey = receipt.active.publisherKey ∨
        installed.publisherKey = pending.publisherKey) :
    GoesOn crypto (releases ++ [verified]) True receipt
      (ExtensionFiles.nextReceipt id (some receipt) installed false expansion) := by
  have hlater := h.mono (List.subset_append_left releases [verified])
  have hpublisher : receipt.active.publisherKey = installed.publisherKey ∨
      ∃ verified' ∈ releases ++ [verified],
        Delegates crypto verified' receipt.active.publisherKey installed.publisherKey :=
    hfollows.publisher.imp_right fun hd => ⟨verified, by simp, hd⟩
  unfold ExtensionFiles.nextReceipt
  simp only [Option.getD_some, Bool.false_and, Bool.false_eq_true, if_false]
  split_ifs with hversion hexpansion
  · -- the update waits for a review
    refine ⟨⟨h.active, h.previous, ?_⟩, .refl _, fun _ => .inl rfl⟩
    rintro version ⟨⟩
    exact ⟨hrecorded, hfollows.source, hpublisher⟩
  · -- the update is active at once
    refine ⟨⟨hrecorded, ?_, fun _ h => absurd h (Option.not_mem_none _)⟩, hfollows.source,
      fun _ => hpublisher⟩
    rintro version ⟨⟩
    exact ⟨h.active, hfollows.source.symm⟩
  · -- the active version again
    rw [not_not] at hversion
    refine ⟨⟨hrecorded, ?_, ?_⟩, hfollows.source, fun _ => hpublisher⟩
    · intro version hprevious
      obtain ⟨hr, hs⟩ := h.previous version hprevious
      exact ⟨hr, hs.trans hfollows.source.symm⟩
    · intro pending hpending
      obtain ⟨hr, hs, hp⟩ := hlater.pending pending hpending
      refine ⟨hr, hs.trans hfollows.source.symm, ?_⟩
      rcases hkey pending hpending hversion with hk | hk
      · rw [hk]
        exact hp
      · exact .inl hk

/-- The first installation. -/
theorem tied_first (id : ExtensionId) {installed : InstalledVersionReceipt}
    (hrecorded : installed.Recorded crypto) (expansion : Bool) :
    TiedReceipt crypto releases
      (ExtensionFiles.nextReceipt id none installed false expansion) := by
  simp only [ExtensionFiles.nextReceipt, Option.getD_none, Bool.false_and, Bool.false_eq_true,
    if_false, ne_eq, not_true_eq_false]
  exact ⟨hrecorded, fun _ h => absurd h (Option.not_mem_none _),
    fun _ h => absurd h (Option.not_mem_none _)⟩

/-! ### Steps -/

variable {env : CatalogEnv} {disk : Disk} {files : ExtensionFiles} {id : ExtensionId}

/-- A package that has passed its checks is one of the extension, and what is recorded of it
belongs together. -/
theorem CatalogOperation.incoming_recorded {operation : CatalogOperation}
    {package : CheckedPackage} (h : operation.incoming env disk id = some package) :
    package.manifest.id = id ∧ package.installed.Recorded env.crypto := by
  cases operation with
  | installPackage file provenance isExplicitSourceSwitch now =>
    unfold incoming at h
    dsimp only at h
    split at h
    · rename_i manifest verified hinspect
      split_ifs at h with hid
      cases h
      exact ⟨hid, PackageProvenance.recorded_of_verify (PackageFile.verify_of_inspect hinspect)
        manifest now⟩
    · cases h
  | _ => cases h

/-- A package of the extension is installed. -/
theorem receipt_installChecked {package : CheckedPackage} (hid : package.manifest.id = id)
    (hswitch : package.isExplicitSourceSwitch = false) (hcontinues : files.Continues id disk package)
    (hrecorded : package.installed.Recorded env.crypto)
    (htied : ∀ receipt, files.receipt = .holds receipt → TiedReceipt env.crypto releases receipt) :
    (files.installChecked env disk package).1.receipt = files.receipt ∨
      ∃ new, (files.installChecked env disk package).1.receipt = .holds new ∧
        (new.active = package.installed ∨ new.pending = some package.installed) ∧
        (files.receipt = .absent ∧
            TiedReceipt env.crypto (releases ++ [package.verified]) new ∨
          ∃ old, files.readReceipt disk id = .ok old ∧
            GoesOn env.crypto (releases ++ [package.verified]) True old new) := by
  unfold ExtensionFiles.installChecked
  subst hid
  rcases files.receipt_install env disk package.manifest package.hash package.verified
    package.isExplicitSourceSwitch package.now with h | ⟨hfollows, ⟨placed, hplace⟩, grants, -, h⟩
  · exact .inl h
  · refine .inr ⟨_, h, ?_⟩
    rw [hswitch] at hplace ⊢
    have hfollows := hfollows hswitch
    cases hread : files.readReceipt disk package.manifest.id with
    | ok old =>
      rw [hread] at hfollows
      have hold := (ExtensionFiles.readReceipt_eq_ok.mp hread).2.1
      have hgoes := fun expansion => (htied old hold).installed package.manifest.id hrecorded
        (follows_of_continuity (htied old hold).active hrecorded hfollows) expansion
        (hcontinues.key old (by rw [hread]; rfl))
      exact ⟨ExtensionFiles.nextReceipt_records _ _ _ _ _, .inr ⟨old, rfl, hgoes _⟩⟩
    | error err =>
      rw [hread] at hplace
      have hnone := hcontinues.read
      rw [hread] at hnone
      have habsent : files.receipt = .absent := by
        cases hreceipt : files.receipt with
        | absent => rfl
        | _ =>
          rcases hnone (by rw [hreceipt]; rfl) with hok | hmem
          · cases hok
          · exact absurd (congrArg Prod.snd hplace) (ExtensionFiles.placePackage_of_mem _ _ hmem)
      exact ⟨ExtensionFiles.nextReceipt_records _ _ _ _ _, .inl ⟨habsent, tied_first _ hrecorded _⟩⟩
variable {operation : Disk × CatalogOperation}

/-- What a step makes of the receipt. -/
theorem receipt_next {catalog : Catalog} (hcatalog : Uninterrupted env id catalog operation)
    (hcontinues : Continues env id catalog operation)
    (htied : ∀ receipt, (catalog.files id).receipt = .holds receipt →
      TiedReceipt env.crypto releases receipt) :
    ((catalog.next env operation).files id).receipt = (catalog.files id).receipt ∨
      ∃ new, ((catalog.next env operation).files id).receipt = .holds new ∧
        ((catalog.files id).receipt = .absent ∧
            TiedReceipt env.crypto (releases ++ released env id catalog operation) new ∨
          ∃ old, (catalog.files id).receipt = .holds old ∧
            GoesOn env.crypto (releases ++ released env id catalog operation)
              (operation.2 ≠ .rollback id) old new) := by
  have hgoes : ∀ {P : Prop} {old new : InstallationReceipt}, (operation.2 ≠ .rollback id → P) →
      GoesOn env.crypto releases P old new →
      GoesOn env.crypto (releases ++ released env id catalog operation)
        (operation.2 ≠ .rollback id) old new := by
    intro P old new hP h
    refine ⟨h.tied.mono (List.subset_append_left _ _), h.source, fun hkeeps => ?_⟩
    exact (h.publisher (hP hkeeps)).imp_right fun ⟨verified, hmem, hd⟩ =>
      ⟨verified, List.mem_append_left _ hmem, hd⟩
  -- what an operation changes that is not compared
  have hkept : ∀ {receipt new : InstallationReceipt},
      (catalog.files id).readReceipt operation.1 id = .ok receipt →
      new.active = receipt.active → new.previous = receipt.previous →
      new.pending = receipt.pending →
      ∃ old, (catalog.files id).receipt = .holds old ∧
        GoesOn env.crypto (releases ++ released env id catalog operation)
          (operation.2 ≠ .rollback id) old new := by
    intro receipt new hread ha hp hw
    have hreceipt := (ExtensionFiles.readReceipt_eq_ok.mp hread).2.1
    have htied := htied receipt hreceipt
    refine ⟨receipt, hreceipt, hgoes (P := True) (fun _ => trivial) ⟨⟨?_, ?_, ?_⟩, ?_, ?_⟩⟩
    · rw [ha]
      exact htied.active
    · rw [ha, hp]
      exact htied.previous
    · rw [ha, hw]
      exact htied.pending
    · rw [ha]
      exact .refl _
    · rw [ha]
      exact fun _ => .inl rfl
  rcases catalog.change_next env operation id with hsame | hchange
  · exact .inl (by rw [hsame])
  obtain ⟨disk, operation⟩ := operation
  generalize hleft : (catalog.next env (disk, operation)).files id = left at hchange ⊢
  generalize (catalog.step env (disk, operation)).2 = result at hchange
  cases hchange with
  | stopped => exact .inl rfl
  | installed package hpackage =>
    obtain ⟨hid, hrecorded⟩ := CatalogOperation.incoming_recorded hpackage
    refine (receipt_installChecked hid (hcatalog.2 _ hpackage) (hcontinues _ hpackage)
      hrecorded htied).imp_right ?_
    rintro ⟨new, hnew, hrecords, h⟩
    have hreleased : released env id catalog (disk, operation) = [package.verified] := by
      unfold released
      rw [hpackage, hleft, hnew]
      exact if_pos hrecords
    rw [hreleased]
    refine ⟨new, hnew, h.imp_right ?_⟩
    rintro ⟨old, hold, hg⟩
    exact ⟨old, (ExtensionFiles.readReceipt_eq_ok.mp hold).2.1, hg.tied, hg.source,
      fun _ => hg.publisher trivial⟩
  | failed receipt err hread => exact .inr ⟨_, rfl, .inr (hkept hread rfl rfl rfl)⟩
  | enabled => exact .inl rfl
  | channelSet receipt channel hread => exact .inr ⟨_, rfl, .inr (hkept hread rfl rfl rfl)⟩
  | approvalStopped => exact .inl rfl
  | approved receipt pending grants granted hread hpending hload =>
    have hreceipt := (ExtensionFiles.readReceipt_eq_ok.mp hread).2.1
    exact .inr ⟨_, rfl, .inr ⟨_, hreceipt,
      hgoes (fun _ => trivial) ((htied _ hreceipt).approved hpending)⟩⟩
  | granted => exact .inl rfl
  | rolledBack receipt previous hread hprevious hmem =>
    have hreceipt := (ExtensionFiles.readReceipt_eq_ok.mp hread).2.1
    exact .inr ⟨_, rfl, .inr ⟨_, hreceipt,
      hgoes (fun h => h rfl) ((htied _ hreceipt).rolledBack hprevious)⟩⟩
  | uninstalled secrets state => exact absurd hcatalog.1 (by simp [CatalogOperation.uninstalls])

/-! ### Runs -/

/-- What is kept of the extension is tied to what was installed. -/
def Tied (env : CatalogEnv) (id : ExtensionId) (state : Catalog × List VerifiedProvenance) : Prop :=
  ∀ receipt, (state.1.files id).receipt = .holds receipt →
    TiedReceipt env.crypto state.2 receipt

/-- What an operation has to meet. -/
def Proceeds (env : CatalogEnv) (id : ExtensionId) (catalog : Catalog)
    (operation : Disk × CatalogOperation) : Prop :=
  Uninterrupted env id catalog operation ∧ Continues env id catalog operation

theorem tied_step {state : Catalog × List VerifiedProvenance} (h : Tied env id state)
    (hproceeds : Proceeds env id state.1 operation) :
    Tied env id (keeping (Catalog.next env) (released env id) state operation) := by
  intro receipt hreceipt
  change ((state.1.next env operation).files id).receipt = .holds receipt at hreceipt
  rcases receipt_next hproceeds.1 hproceeds.2 h with hsame | ⟨new, hnew, hstep⟩
  · rw [hsame] at hreceipt
    exact (h receipt hreceipt).mono (List.subset_append_left _ _)
  · rw [hnew] at hreceipt
    cases hreceipt
    rcases hstep with ⟨-, htied⟩ | ⟨old, -, hgoes⟩
    · exact htied
    · exact hgoes.tied

theorem source_step {state : Catalog × List VerifiedProvenance} (h : Tied env id state)
    (hproceeds : Proceeds env id state.1 operation) {old : InstallationReceipt}
    (hold : (state.1.files id).receipt = .holds old) :
    ∃ new, ((state.1.next env operation).files id).receipt = .holds new ∧
      SameSource new.active old.active := by
  rcases receipt_next hproceeds.1 hproceeds.2 h with hsame | ⟨new, hnew, hstep⟩
  · exact ⟨old, hsame.trans hold, .refl _⟩
  · rcases hstep with ⟨habsent, -⟩ | ⟨old', hold', hgoes⟩
    · rw [hold] at habsent
      cases habsent
    · rw [hold] at hold'
      cases hold'
      exact ⟨new, hnew, hgoes.source⟩

/-- **Continuity is kept** in every run, on any file system, from a catalog in which no receipt of
the extension can be read, if a package is installed only over a receipt that can be read, and
the active version only with its own publisher key or that of the update that waits. -/
theorem continuity_kept (env : CatalogEnv) (id : ExtensionId) (catalog : Catalog)
    (hnew : ∀ receipt, (catalog.files id).receipt ≠ .holds receipt)
    (operations : List (Disk × CatalogOperation))
    (huninterrupted : Along (Catalog.next env) (Uninterrupted env id) catalog operations)
    (hcontinues : Along (Catalog.next env) (Continues env id) catalog operations) :
    ContinuityKept env id catalog operations := by
  have hproceeds : ∀ before operation after, operations = before ++ operation :: after →
      Proceeds env id (run (Catalog.next env) catalog before) operation := fun before operation
      after h => ⟨(along_iff _ _).mp huninterrupted before operation after h,
        (along_iff _ _).mp hcontinues before operation after h⟩
  have htied : ∀ before after, operations = before ++ after →
      Tied env id (run (Catalog.next env) catalog before,
        expand (Catalog.next env) (released env id) catalog before) := by
    intro before after h
    have hbefore : Along (Catalog.next env) (Proceeds env id) catalog before :=
      (along_iff _ _).mpr fun before' operation after' h' =>
        hproceeds before' operation (after' ++ after) (by simp [h, h'])
    have hkeeping : Along (keeping (Catalog.next env) (released env id))
        (fun s => Proceeds env id s.1) (catalog, []) before := (along_keeping _ _ _).mpr hbefore
    have hrun := Along.holds (fun _ _ => tied_step) (fun receipt hreceipt =>
      absurd hreceipt (hnew receipt)) hkeeping
    rwa [run_keeping, List.nil_append] at hrun
  refine ⟨?_, ?_, ?_⟩
  · intro before between after h old hold
    induction between using List.reverseRecOn generalizing after with
    | nil => exact ⟨old, by simpa using hold, .refl _⟩
    | append_singleton between operation ih =>
      obtain ⟨middle, hmiddle, hsource⟩ := ih (operation :: after) (by simp [h])
      obtain ⟨new, hnew, hsource'⟩ := source_step
        (htied (before ++ between) (operation :: after) (by simp [h]))
        (hproceeds (before ++ between) operation after (by simp [h])) hmiddle
      refine ⟨new, ?_, hsource'.trans hsource⟩
      rw [← List.append_assoc, run_append]
      exact hnew
  · intro before operation after h hrollback old new hold hnew
    rw [run_append] at hnew
    rw [expand_append]
    rcases receipt_next (hproceeds before operation after h).1 (hproceeds before operation after h).2
      (htied before (operation :: after) h) with hsame | ⟨new', hnew', hstep⟩
    · rw [hold] at hsame
      exact .inl (by cases hnew.symm.trans hsame; rfl)
    · cases hnew.symm.trans hnew'
      rcases hstep with ⟨habsent, -⟩ | ⟨old', hold', hgoes⟩
      · cases hold.symm.trans habsent
      · cases hold.symm.trans hold'
        simpa [expand] using hgoes.publisher hrollback
  · intro before operation after h package hpackage hexists hread
    rw [run_append]
    have hmay := hproceeds before operation after h
    refine .inl ?_
    change (((run (Catalog.next env) catalog before).next env operation).files id).receipt = _
    rw [(Catalog.files_of_incoming hpackage).1]
    obtain ⟨hid, hrecorded⟩ := CatalogOperation.incoming_recorded hpackage
    rcases receipt_installChecked hid (hmay.1.2 package hpackage) (hmay.2 package hpackage)
      hrecorded (htied before (operation :: after) h) with hsame | ⟨new, -, -, hstep⟩
    · exact hsame
    · rcases hstep with ⟨habsent, -⟩ | ⟨old, hold, -⟩
      · rw [habsent] at hexists
        cases hexists
      · rw [hold] at hread
        cases hread

end

/-! ### Runs that lose it -/

namespace Sample

/-- An update that asks for more waits. -/
def waits : Disk × CatalogOperation :=
  (.sound, .installPackage (package "two" 1 [.wallpaperRead]) (signed "a" "two" none) false 0)

/-- The first version is installed again, now signed with `"b"`. -/
def again : Disk × CatalogOperation :=
  (.sound, .installPackage (package "one" 0 []) (signed "b" "one" (some rotation)) false 0)

def approve : Disk × CatalogOperation := (.sound, .approvePending clock [.wallpaperRead])

def enable : Disk × CatalogOperation := (.sound, .setEnabled clock true)

/-- Another publisher's version is installed, while the receipt cannot be read. -/
def unread : Disk × CatalogOperation :=
  (⟨fun op => op = .readReceipt, fun _ => "input/output error"⟩,
    .installPackage (package "two" 1 []) (signed "c" "two" none) false 0)

/-- The publisher key of the active version. -/
def activeKey : StoredFile InstallationReceipt → Option String
  | .holds receipt => receipt.active.publisherKey
  | _ => none

/-- The receipt after a run. -/
def receiptAfter (operations : List (Disk × CatalogOperation)) : StoredFile InstallationReceipt :=
  ((run (Catalog.next env) ∅ operations).files clock).receipt

end Sample

open Sample in
/-- The update that waits was signed with `"a"`; when it becomes active, `"b"` has named no next
key. -/
theorem continuity_lost_pending :
    Along (Catalog.next env) (Uninterrupted env clock) ∅ [first, waits, again, approve] ∧
      ¬ ContinuityKept env clock ∅ [first, waits, again, approve] := by
  refine ⟨by decide, fun h => ?_⟩
  have hkey := h.publisher [first, waits, again] approve [] rfl nofun _ _ rfl rfl
  have hnone : ∀ verified ∈ expand (Catalog.next env) (released env clock) ∅
      [first, waits, again, approve], ∀ rotation ∈ verified.keyRotation,
        crypto.fingerprint rotation.previousPublicKey ≠ .ok "sha256:b" := by decide
  rcases hkey with hkey | ⟨verified, hmem, rotation, oldKey, newKey, hrotation, hold, hprevious, -⟩
  · exact absurd hkey (by decide)
  · have hb : activeKey (receiptAfter [first, waits, again]) = some "sha256:b" := by decide
    cases hb.symm.trans hold
    exact hnone verified hmem rotation hrotation hprevious

open Sample in
/-- The package of another publisher is taken for the first one, and what has been allowed to the
first publisher's version is allowed to it. -/
theorem continuity_lost_unread :
    Along (Catalog.next env) (Uninterrupted env clock) ∅ [first, enable, unread] ∧
      ¬ ContinuityKept env clock ∅ [first, enable, unread] := by
  refine ⟨by decide, fun h => ?_⟩
  rcases h.unread [first, enable] unread [] rfl _ rfl rfl (by decide) with hsame | hgrants
  · have hkey : activeKey (receiptAfter [first, enable, unread]) =
        activeKey (receiptAfter [first, enable]) := congrArg activeKey hsame
    exact absurd hkey (by decide)
  · have henabled : StoredFile.holds (StoredGrants.mk clock true []) =
        .holds (.disabled clock) := hgrants
    cases henabled

open Sample in
theorem continuity_lost :
    (Along (Catalog.next env) (Uninterrupted env clock) ∅ [first, waits, again, approve] ∧
        ¬ ContinuityKept env clock ∅ [first, waits, again, approve]) ∧
      Along (Catalog.next env) (Uninterrupted env clock) ∅ [first, enable, unread] ∧
        ¬ ContinuityKept env clock ∅ [first, enable, unread] :=
  ⟨continuity_lost_pending, continuity_lost_unread⟩

open Sample in
/-- The first version again, with the key that is next. -/
theorem continuity_kept_rekeyed :
    ContinuityKept env clock ∅ [first, again, enable] :=
  continuity_kept env clock ∅ (fun _ h => by cases h) _ (by decide) (by decide)

end Shilpo.Extensions
