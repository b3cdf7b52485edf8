import Shilpo.Extensions.Install
import Shilpo.Theory.Fallible

/-!
# What the operations of the catalog can leave

One lemma for each operation says what it can leave and when: the operations that write one file
leave everything or have written it (`…_eq_ok`), the others stop on the way (`…_cases`). What
an operation of the catalog does to the files of one extension is in `Catalog.files_step`.
-/

namespace Shilpo.Extensions

open Theory

/-! ### The steps of an installation -/

theorem Disk.run_eq_ok {disk : Disk} {op : FsOp} {u : Unit} :
    disk.run op = .ok u ↔ disk.fails op = false := by
  unfold Disk.run
  split_ifs with h <;> simp [h]

namespace ExtensionFiles

variable (env : CatalogEnv) (disk : Disk) (files : ExtensionFiles)

theorem saveReceipt_cases (receipt : InstallationReceipt) :
    disk.fails .saveReceipt = true ∧ (∃ err, files.saveReceipt disk receipt = .error err) ∨
      disk.fails .saveReceipt = false ∧
        files.saveReceipt disk receipt = .ok { files with receipt := .holds receipt } := by
  unfold saveReceipt Disk.run
  cases disk.fails .saveReceipt with
  | true => exact .inl ⟨rfl, _, rfl⟩
  | false => exact .inr ⟨rfl, rfl⟩

theorem saveGrants_cases (op : FsOp) (grants : StoredGrants) :
    disk.fails op = true ∧ (∃ err, files.saveGrants disk op grants = .error err) ∨
      disk.fails op = false ∧
        files.saveGrants disk op grants = .ok { files with grants := .holds grants } := by
  unfold saveGrants Disk.run
  cases disk.fails op with
  | true => exact .inl ⟨rfl, _, rfl⟩
  | false => exact .inr ⟨rfl, rfl⟩

variable (manifest : ExtensionManifest)

theorem moveStage_cases (hash : String) :
    (∃ err, files.moveStage disk manifest hash = (files, .error err)) ∨
      manifest.version ∉ files.versions ∧ files.moveStage disk manifest hash =
        ({ files with
          versions := files.versions.insert manifest.version (.extracted hash manifest) },
          .ok ()) := by
  unfold moveStage
  split
  · exact .inl ⟨_, rfl⟩
  · split_ifs with h
    · exact .inl ⟨_, rfl⟩
    · exact .inr ⟨h, rfl⟩

/-- Putting a package in its place touches neither the receipt nor the grants. -/
theorem placePackage_records (hash : String) (previousReceipt : Option InstallationReceipt)
    (isExplicitSourceSwitch : Bool) :
    let placed := (files.placePackage disk manifest hash previousReceipt isExplicitSourceSwitch).1
    placed.receipt = files.receipt ∧ placed.grants = files.grants := by
  have hmove : ∀ files : ExtensionFiles,
      (files.moveStage disk manifest hash).1.receipt = files.receipt ∧
        (files.moveStage disk manifest hash).1.grants = files.grants := by
    intro files
    rcases files.moveStage_cases disk manifest hash with ⟨err, h⟩ | ⟨-, h⟩ <;> rw [h] <;> simp
  have hremove : (files.removeVersion disk manifest.version).receipt = files.receipt ∧
      (files.removeVersion disk manifest.version).grants = files.grants := by
    unfold removeVersion
    split_ifs <;> exact ⟨rfl, rfl⟩
  unfold placePackage
  dsimp only
  split_ifs
  · exact ⟨(hmove _).1.trans hremove.1, (hmove _).2.trans hremove.2⟩
  · exact ⟨rfl, rfl⟩
  · exact ⟨rfl, rfl⟩
  · exact hmove files

variable {err : CatalogError} {hash : String} {placed : ExtensionFiles}
  {previousReceipt : Option InstallationReceipt}

/-- Without a switch, a package that cannot be put in its place leaves everything. -/
theorem placePackage_error {manifest : ExtensionManifest}
    (h : files.placePackage disk manifest hash previousReceipt false = (placed, .error err)) :
    placed = files := by
  unfold placePackage at h
  dsimp only at h
  rw [if_neg Bool.false_ne_true] at h
  split_ifs at h
  · exact (congrArg Prod.fst h).symm
  · exact (congrArg Prod.fst h).symm
  · rcases files.moveStage_cases disk manifest hash with ⟨err, hm⟩ | ⟨-, hm⟩ <;> rw [hm] at h
    · exact (congrArg Prod.fst h).symm
    · cases congrArg Prod.snd h

/-- Without a receipt, what is in its place already stays. -/
theorem placePackage_of_mem {manifest : ExtensionManifest} (h : manifest.version ∈ files.versions) :
    (files.placePackage disk manifest hash none false).2 ≠ .ok () := by
  unfold placePackage
  simp [h]

/-- Directories of other versions stay. -/
theorem lookup_placePackage (hash : String) (previousReceipt : Option InstallationReceipt)
    (isExplicitSourceSwitch : Bool) {version : Version} (h : version ≠ manifest.version) :
    (files.placePackage disk manifest hash previousReceipt
      isExplicitSourceSwitch).1.versions.lookup version = files.versions.lookup version := by
  have hmove : ∀ files : ExtensionFiles,
      (files.moveStage disk manifest hash).1.versions.lookup version =
        files.versions.lookup version := by
    intro files
    rcases files.moveStage_cases disk manifest hash with ⟨err, hm⟩ | ⟨-, hm⟩ <;> rw [hm]
    exact AList.lookup_insert_ne h
  have hremove : (files.removeVersion disk manifest.version).versions.lookup version =
      files.versions.lookup version := by
    unfold removeVersion
    split_ifs
    · rfl
    · exact AList.lookup_insert_ne h
    · exact AList.lookup_erase_ne h
  unfold placePackage
  dsimp only
  split_ifs
  · exact (hmove _).trans hremove
  · rfl
  · rfl
  · exact hmove files

/-- A package in its place is the one that is staged; or it was there, and is active. -/
theorem placePackage_ok {manifest : ExtensionManifest} {isExplicitSourceSwitch : Bool}
    (h : files.placePackage disk manifest hash previousReceipt isExplicitSourceSwitch =
      (placed, .ok ())) :
    (isExplicitSourceSwitch = true ∨ manifest.version ∉ files.versions) ∧
        placed.versions.lookup manifest.version = some (.extracted hash manifest) ∨
      isExplicitSourceSwitch = false ∧ manifest.version ∈ files.versions ∧ placed = files ∧
        ∃ receipt, previousReceipt = some receipt ∧ receipt.active.version = manifest.version ∧
          receipt.active.packageHash = hash := by
  have hmove : ∀ files' : ExtensionFiles, files'.moveStage disk manifest hash = (placed, .ok ()) →
      placed.versions.lookup manifest.version = some (.extracted hash manifest) := by
    intro files' hm
    rcases files'.moveStage_cases disk manifest hash with ⟨err, hm'⟩ | ⟨-, hm'⟩ <;> rw [hm'] at hm
    · cases congrArg Prod.snd hm
    · cases hm
      exact AList.lookup_insert _
  unfold placePackage at h
  dsimp only at h
  split_ifs at h with hmem hswitch hhash
  · exact .inl ⟨.inl hswitch, hmove _ h⟩
  · cases congrArg Prod.snd h
  · refine .inr ⟨Bool.eq_false_iff.mpr hswitch, hmem, (congrArg Prod.fst h).symm, ?_⟩
    rw [not_not, Option.map_eq_some_iff] at hhash
    obtain ⟨receipt, hreceipt, hsame⟩ := hhash
    obtain ⟨hreceipt, hversion⟩ := Option.filter_eq_some_iff.mp hreceipt
    exact ⟨receipt, hreceipt, by simpa using hversion, hsame⟩
  · exact .inl ⟨.inr hmem, hmove _ h⟩

/-- A package that cannot be put in its place is not there. -/
theorem lookup_placePackage_error {manifest : ExtensionManifest} {isExplicitSourceSwitch : Bool}
    (h : files.placePackage disk manifest hash previousReceipt isExplicitSourceSwitch =
      (placed, .error err)) :
    placed.versions.lookup manifest.version = files.versions.lookup manifest.version ∨
      isExplicitSourceSwitch = true ∧ (placed.versions.lookup manifest.version = none ∨
        placed.versions.lookup manifest.version = some .damaged) := by
  have hmove : ∀ files' : ExtensionFiles,
      files'.moveStage disk manifest hash = (placed, .error err) → placed = files' := by
    intro files' hm
    rcases files'.moveStage_cases disk manifest hash with ⟨err, hm'⟩ | ⟨-, hm'⟩ <;> rw [hm'] at hm
    · exact (congrArg Prod.fst hm).symm
    · cases congrArg Prod.snd hm
  unfold placePackage at h
  dsimp only at h
  split_ifs at h with hmem hswitch hhash
  · rw [hmove _ h]
    unfold removeVersion
    split_ifs
    · exact .inl rfl
    · exact .inr ⟨hswitch, .inr (AList.lookup_insert _)⟩
    · exact .inr ⟨hswitch, .inl (AList.lookup_erase _ _)⟩
  · obtain rfl : files = placed := congrArg Prod.fst h
    exact .inl rfl
  · obtain rfl : files = placed := congrArg Prod.fst h
    exact .inl rfl
  · rw [hmove _ h]
    exact .inl rfl

/-- What recording the receipt can leave. -/
theorem recordInstall_cases (receipt : InstallationReceipt) (grants : StoredGrants) :
    disk.fails .saveReceipt = true ∧
        (∃ err, files.recordInstall disk receipt grants = (files, .error err)) ∨
      disk.fails .saveReceipt = false ∧
        (files.grants.exists = true ∧ files.recordInstall disk receipt grants =
            ({ files with receipt := .holds receipt }, .ok receipt) ∨
          files.grants.exists = false ∧ disk.fails .saveGrants = true ∧
            (∃ err, files.recordInstall disk receipt grants =
              ({ files with receipt := .holds receipt }, .error err)) ∨
          files.grants.exists = false ∧ disk.fails .saveGrants = false ∧
            files.recordInstall disk receipt grants =
              ({ files with receipt := .holds receipt,
                            grants := .holds { grants with enabled := false } }, .ok receipt)) := by
  unfold recordInstall
  rcases files.saveReceipt_cases disk receipt with ⟨h, err, he⟩ | ⟨h, he⟩
  · exact .inl ⟨h, err, by rw [he]⟩
  · refine .inr ⟨h, ?_⟩
    rw [he]
    dsimp only
    cases hg : files.grants.exists with
    | true => exact .inl ⟨rfl, rfl⟩
    | false =>
      have := saveGrants_cases disk { files with receipt := .holds receipt } .saveGrants
        { grants with enabled := false }
      rcases this with ⟨hs, err, hse⟩ | ⟨hs, hse⟩
      · exact .inr (.inl ⟨rfl, hs, err, by rw [hse]; rfl⟩)
      · exact .inr (.inr ⟨rfl, hs, by rw [hse]; rfl⟩)

/-- What recording the package can leave. -/
theorem recordPackage_cases (installed : InstalledVersionReceipt)
    (previousReceipt : Option InstallationReceipt) (isExplicitSourceSwitch : Bool) :
    (∃ err, files.loadGrants disk manifest.id = .error err ∧
        files.recordPackage disk manifest installed previousReceipt isExplicitSourceSwitch =
          (files, .error err)) ∨
      ∃ grants, files.loadGrants disk manifest.id = .ok grants ∧
        ((isExplicitSourceSwitch &&
              publisherChanged previousReceipt installed.publisherKey) = true ∧
            (disk.fails .resetGrants = true ∧
                (∃ err, files.recordPackage disk manifest installed previousReceipt
                  isExplicitSourceSwitch = (files, .error err)) ∨
              disk.fails .resetGrants = false ∧
                files.recordPackage disk manifest installed previousReceipt
                    isExplicitSourceSwitch =
                  { files with grants := .holds (.disabled manifest.id) }.recordInstall disk
                    (nextReceipt manifest.id previousReceipt installed isExplicitSourceSwitch
                      (capabilityExpansion previousReceipt installed.publisherKey
                        manifest.capabilities [])) (.disabled manifest.id)) ∨
          (isExplicitSourceSwitch &&
              publisherChanged previousReceipt installed.publisherKey) = false ∧
            files.recordPackage disk manifest installed previousReceipt isExplicitSourceSwitch =
              files.recordInstall disk
                (nextReceipt manifest.id previousReceipt installed isExplicitSourceSwitch
                  (capabilityExpansion previousReceipt installed.publisherKey
                    manifest.capabilities grants.grantedCapabilities)) grants) := by
  unfold recordPackage
  cases hload : files.loadGrants disk manifest.id with
  | error err => exact .inl ⟨err, rfl, rfl⟩
  | ok grants =>
    refine .inr ⟨grants, rfl, ?_⟩
    dsimp only
    cases hreset : isExplicitSourceSwitch &&
        publisherChanged previousReceipt installed.publisherKey with
    | false => exact .inr ⟨rfl, rfl⟩
    | true =>
      refine .inl ⟨rfl, ?_⟩
      rcases files.saveGrants_cases disk .resetGrants (.disabled manifest.id) with
        ⟨h, err, he⟩ | ⟨h, he⟩
      · exact .inl ⟨h, err, by rw [he]; rfl⟩
      · exact .inr ⟨h, by rw [he]; rfl⟩

/-- What installing a package can leave. -/
theorem install_cases (hash : String) (verified : VerifiedProvenance)
    (isExplicitSourceSwitch : Bool) (now : ℕ) :
    (∃ err, files.install env disk manifest hash verified isExplicitSourceSwitch now =
        (files, .error err)) ∨
      (isExplicitSourceSwitch = false → verifyProvenanceContinuity env.crypto
        (files.readReceipt disk manifest.id).toOption verified = .ok ()) ∧
        ((∃ placed err, files.placePackage disk manifest hash
              (files.readReceipt disk manifest.id).toOption isExplicitSourceSwitch =
                (placed, .error err) ∧
            files.install env disk manifest hash verified isExplicitSourceSwitch now =
              (placed, .error err)) ∨
          ∃ placed, files.placePackage disk manifest hash
              (files.readReceipt disk manifest.id).toOption isExplicitSourceSwitch =
                (placed, .ok ()) ∧
            files.install env disk manifest hash verified isExplicitSourceSwitch now =
              placed.recordPackage disk manifest (installedVersion manifest hash verified now)
                (files.readReceipt disk manifest.id).toOption isExplicitSourceSwitch) := by
  unfold install
  dsimp only
  generalize (files.readReceipt disk manifest.id).toOption = previousReceipt
  split
  · exact .inl ⟨_, rfl⟩
  · rename_i hcontinuity
    refine .inr ⟨?_, ?_⟩
    · rintro rfl
      exact hcontinuity
    · split
      · rename_i placed err hplaced
        exact .inl ⟨placed, err, hplaced, rfl⟩
      · rename_i placed hplaced
        exact .inr ⟨placed, hplaced, rfl⟩

variable {disk files} {id : ExtensionId} {left : ExtensionFiles}

theorem saveReceipt_eq_ok {receipt : InstallationReceipt} :
    files.saveReceipt disk receipt = .ok left ↔
      disk.fails .saveReceipt = false ∧ left = { files with receipt := .holds receipt } := by
  rcases files.saveReceipt_cases disk receipt with ⟨h, err, he⟩ | ⟨h, he⟩ <;> simp [h, he, eq_comm]

theorem saveGrants_eq_ok {op : FsOp} {grants : StoredGrants} :
    files.saveGrants disk op grants = .ok left ↔
      disk.fails op = false ∧ left = { files with grants := .holds grants } := by
  rcases files.saveGrants_cases disk op grants with ⟨h, err, he⟩ | ⟨h, he⟩ <;>
    simp [h, he, eq_comm]

theorem readReceipt_eq_ok {receipt : InstallationReceipt} :
    files.readReceipt disk id = .ok receipt ↔ disk.fails .readReceipt = false ∧
      files.receipt = .holds receipt ∧ receipt.schemaVersion = receiptSchemaVersion ∧
      receipt.id = id := by
  unfold readReceipt
  rw [bind_eq_ok]
  simp only [Disk.run_eq_ok]
  cases files.receipt with
  | absent => simp
  | unreadable => simp
  | holds stored =>
    simp only [StoredFile.holds.injEq]
    split_ifs with h
    · simp only [and_false, exists_false, false_iff]
      rintro ⟨-, rfl, hs, hid⟩
      simp [hs, hid] at h
    · simp only [Bool.or_eq_true, decide_eq_true_eq, not_or, not_not] at h
      constructor
      · rintro ⟨-, hrun, heq⟩
        cases heq
        exact ⟨hrun, rfl, h⟩
      · rintro ⟨hrun, rfl, -⟩
        exact ⟨(), hrun, rfl⟩

theorem loadGrants_eq_ok {grants : StoredGrants} :
    files.loadGrants disk id = .ok grants ↔
      files.grants = .absent ∧ grants = .disabled id ∨
      disk.fails .readGrants = false ∧ files.grants = .holds grants ∧ grants.extensionId = id := by
  unfold loadGrants
  cases files.grants with
  | absent =>
    constructor
    · intro h
      cases h
      exact .inl ⟨rfl, rfl⟩
    · rintro (⟨-, rfl⟩ | ⟨-, h, -⟩)
      · rfl
      · cases h
  | unreadable => simp [bind_eq_ok]
  | holds stored =>
    simp only [bind_eq_ok, Disk.run_eq_ok, reduceCtorEq, false_and, false_or,
      StoredFile.holds.injEq]
    split_ifs with h
    · simp only [and_false, exists_false, false_iff]
      rintro ⟨-, rfl, hid⟩
      exact h hid
    · rw [not_not] at h
      constructor
      · rintro ⟨-, hrun, heq⟩
        cases heq
        exact ⟨hrun, rfl, h⟩
      · rintro ⟨hrun, rfl, -⟩
        exact ⟨(), hrun, rfl⟩

theorem recordUpdateFailure_eq_ok :
    files.recordUpdateFailure disk id err = .ok left ↔
      ∃ receipt, files.readReceipt disk id = .ok receipt ∧ disk.fails .saveReceipt = false ∧
        left = { files with
                 receipt := .holds { receipt with lastUpdateFailure := some err.text } } := by
  simp only [recordUpdateFailure, bind_eq_ok, saveReceipt_eq_ok]

theorem setEnabled_eq_ok {enabled : Bool} :
    files.setEnabled disk id enabled = .ok left ↔
      (∃ receipt, files.readReceipt disk id = .ok receipt) ∧
        ∃ grants, files.loadGrants disk id = .ok grants ∧ disk.fails .saveGrants = false ∧
          left = { files with grants := .holds { grants with enabled } } := by
  simp only [setEnabled, bind_eq_ok, saveGrants_eq_ok]
  exact ⟨fun ⟨r, hr, h⟩ => ⟨⟨r, hr⟩, h⟩, fun ⟨⟨r, hr⟩, h⟩ => ⟨r, hr, h⟩⟩

theorem setChannel_eq_ok {channel : ReleaseChannel} :
    files.setChannel disk id channel = .ok left ↔
      ∃ receipt, files.readReceipt disk id = .ok receipt ∧ disk.fails .saveReceipt = false ∧
        left = { files with receipt := .holds { receipt with selectedChannel := channel } } := by
  simp only [setChannel, bind_eq_ok, saveReceipt_eq_ok]

theorem readManifest_eq_ok {version : Version} {manifest : ExtensionManifest} :
    files.readManifest disk version = .ok manifest ↔ disk.fails .readManifest = false ∧
      ∃ hash, files.versions.lookup version = some (.extracted hash manifest) := by
  unfold readManifest
  rw [bind_eq_ok]
  simp only [Disk.run_eq_ok]
  split
  · rename_i hash stored h
    rw [h]
    simp
  · rename_i h
    simpa using fun _ hash => h hash manifest

theorem requestedCapabilities_eq_ok {requested : List Capability} :
    files.requestedCapabilities disk id = .ok requested ↔
      ∃ receipt, files.readReceipt disk id = .ok receipt ∧
        ∃ manifest, files.readManifest disk receipt.active.version = .ok manifest ∧
          requested = manifest.capabilities := by
  simp only [requestedCapabilities, capabilitiesForVersion, bind_eq_ok, pure, Except.pure,
    Except.ok.injEq]
  simp only [eq_comm]

theorem approveCapabilities_eq_ok {granted : List Capability} :
    files.approveCapabilities disk id granted = .ok left ↔
      ∃ requested, files.requestedCapabilities disk id = .ok requested ∧
        (∀ capability ∈ granted, capability ∈ requested) ∧
        ∃ grants, files.loadGrants disk id = .ok grants ∧ disk.fails .saveGrants = false ∧
          left = { files with grants := .holds { grants with grantedCapabilities := granted } } := by
  unfold approveCapabilities
  rw [bind_eq_ok]
  refine exists_congr fun requested => and_congr_right fun _ => ?_
  split_ifs with h
  · simp only [false_iff]
    rintro ⟨hall, -⟩
    obtain ⟨capability, hmem, hcap⟩ := List.any_eq_true.mp h
    simp [hall capability hmem] at hcap
  · simp only [bind_eq_ok, saveGrants_eq_ok]
    refine (and_iff_right ?_).symm
    intro capability hmem
    by_contra hcap
    exact h (List.any_eq_true.mpr ⟨capability, hmem, by simp [hcap]⟩)

theorem rollback_eq_ok :
    files.rollback disk id = .ok left ↔
      ∃ receipt previous, files.readReceipt disk id = .ok receipt ∧
        receipt.previous = some previous ∧ previous.version ∈ files.versions ∧
        disk.fails .saveReceipt = false ∧
        left = { files with
                 receipt := .holds
                  { receipt with
                    previous := some receipt.active, active := previous, pending := none,
                    lastUpdateFailure := none, rollbackActive := true } } := by
  unfold rollback
  rw [bind_eq_ok]
  refine exists_congr fun receipt => ?_
  cases receipt.previous with
  | none => simp
  | some previous =>
    simp only [Option.some.injEq, exists_and_left, ↓existsAndEq, true_and]
    refine and_congr_right fun _ => ?_
    split_ifs with h
    · rw [saveReceipt_eq_ok]
      exact (and_iff_right h).symm
    · simp [h]

theorem settle_cases (files : ExtensionFiles) (change : Except CatalogError ExtensionFiles) :
    (∃ err, change = .error err ∧ files.settle change = (files, .error err)) ∨
      ∃ left, change = .ok left ∧ files.settle change = (left, .ok ()) := by
  cases change with
  | error err => exact .inl ⟨err, rfl, rfl⟩
  | ok left => exact .inr ⟨left, rfl, rfl⟩

theorem approvePending_cases (granted : List Capability) :
    (∃ err, files.approvePending disk id granted = (files, .error err)) ∨
      ∃ receipt pending grants, files.readReceipt disk id = .ok receipt ∧
        receipt.pending = some pending ∧ files.loadGrants disk id = .ok grants ∧
        disk.fails .saveGrants = false ∧
        (disk.fails .saveReceipt = true ∧
            (∃ err, files.approvePending disk id granted =
              ({ files with grants := .holds { grants with grantedCapabilities := granted } },
                .error err)) ∨
          disk.fails .saveReceipt = false ∧ files.approvePending disk id granted =
            ({ files with
               receipt := .holds
                { receipt with
                  previous := some receipt.active, active := pending, pending := none,
                  lastUpdateFailure := none, rollbackActive := false },
               grants := .holds { grants with grantedCapabilities := granted } }, .ok ())) := by
  unfold approvePending
  split
  · exact .inl ⟨_, rfl⟩
  · rename_i hread
    simp only [bind_eq_ok, saveGrants_eq_ok, pure, Except.pure, Except.ok.injEq,
      Prod.mk.injEq] at hread
    obtain ⟨receipt, hreceipt, pending, hpending, grants, hgrants, _, ⟨hsave, rfl⟩, rfl, rfl,
      rfl⟩ := hread
    have hpending : receipt.pending = some pending := by
      unfold pendingVersion at hpending
      cases hp : receipt.pending with
      | none => simp [hp] at hpending
      | some p => simp [hp] at hpending; rw [hpending]
    refine .inr ⟨receipt, pending, grants, hreceipt, hpending, hgrants, hsave, ?_⟩
    rcases saveReceipt_cases disk
        { files with grants := .holds { grants with grantedCapabilities := granted } }
        { receipt with
          previous := some receipt.active, active := pending, pending := none,
          lastUpdateFailure := none, rollbackActive := false } with ⟨h, err, he⟩ | ⟨h, he⟩
    · exact .inl ⟨h, err, by rw [he]; rfl⟩
    · exact .inr ⟨h, by rw [he]; rfl⟩

/-- What removing an extension can leave: nothing is changed, or gone. -/
theorem uninstall_leaves (secrets state : Except String Unit) :
    let left := (files.uninstall disk id secrets state).1
    (left.receipt = files.receipt ∨ left.receipt = .absent) ∧
      (left.grants = files.grants ∨ left.grants = .absent) ∧
      (left.versions = files.versions ∨ left.versions = ∅) := by
  unfold uninstall
  split
  · exact ⟨.inl rfl, .inl rfl, .inl rfl⟩
  · split
    · exact ⟨.inl rfl, .inl rfl, .inl rfl⟩
    · dsimp only
      split
      · refine ⟨.inl rfl, .inl rfl, ?_⟩
        dsimp only
        split_ifs <;> simp
      · split
        · refine ⟨.inr rfl, ?_, .inr rfl⟩
          dsimp only
          split_ifs <;> simp
        · refine ⟨?_, ?_, ?_⟩ <;> dsimp only <;> split_ifs <;> simp

end ExtensionFiles

/-! ### The receipt after an installation -/

theorem PackageFile.verify_of_inspect {env : CatalogEnv} {disk : Disk} {package : PackageFile} {provenance : PackageProvenance}
    {manifest : ExtensionManifest} {verified : VerifiedProvenance}
    (h : package.inspect env disk provenance = .ok (manifest, verified)) :
    provenance.verify env.crypto package.hash = .ok verified := by
  unfold inspect at h
  rw [bind_eq_ok] at h
  obtain ⟨_, -, h⟩ := h
  split_ifs at h
  simp only [bind_eq_ok] at h
  obtain ⟨_, -, verified', hverify, _, -, _, -, manifest', -, h⟩ := h
  split_ifs at h
  simp only [bind_eq_ok] at h
  obtain ⟨_, -, h⟩ := h
  split at h
  all_goals
    rw [bind_eq_ok] at h
    obtain ⟨_, -, heq⟩ := h
    cases heq
    exact hverify

namespace ExtensionFiles

variable (env : CatalogEnv) (disk : Disk) (files : ExtensionFiles)

theorem versions_recordInstall (receipt : InstallationReceipt) (grants : StoredGrants) :
    (files.recordInstall disk receipt grants).1.versions = files.versions := by
  rcases files.recordInstall_cases disk receipt grants with
    ⟨-, err, h⟩ | ⟨-, ⟨-, h⟩ | ⟨-, -, err, h⟩ | ⟨-, -, h⟩⟩ <;> rw [h]

theorem receipt_recordInstall (receipt : InstallationReceipt) (grants : StoredGrants) :
    (files.recordInstall disk receipt grants).1.receipt = files.receipt ∨
      (files.recordInstall disk receipt grants).1.receipt = .holds receipt := by
  rcases files.recordInstall_cases disk receipt grants with
    ⟨-, err, h⟩ | ⟨-, ⟨-, h⟩ | ⟨-, -, err, h⟩ | ⟨-, -, h⟩⟩ <;> rw [h] <;> simp

/-- What is installed is active, or waits. -/
theorem nextReceipt_records (id : ExtensionId) (previousReceipt : Option InstallationReceipt)
    (installed : InstalledVersionReceipt) (isExplicitSourceSwitch expansion : Bool) :
    let receipt := nextReceipt id previousReceipt installed isExplicitSourceSwitch
      expansion
    receipt.active = installed ∨ receipt.pending = some installed := by
  unfold nextReceipt
  dsimp only
  split_ifs <;> simp

theorem loadGrants_congr {left : ExtensionFiles} {id : ExtensionId}
    (h : left.grants = files.grants) : left.loadGrants disk id = files.loadGrants disk id := by
  unfold loadGrants
  rw [h]

/-- The receipt is as it was, or the next one after it; then the package follows what was
installed, and is in its place, and is compared with the grants, if they are not taken away. -/
theorem receipt_install (manifest : ExtensionManifest) (hash : String)
    (verified : VerifiedProvenance) (isExplicitSourceSwitch : Bool) (now : ℕ) :
    (files.install env disk manifest hash verified isExplicitSourceSwitch now).1.receipt =
        files.receipt ∨
      (isExplicitSourceSwitch = false → verifyProvenanceContinuity env.crypto
        (files.readReceipt disk manifest.id).toOption verified = .ok ()) ∧
        (∃ placed, files.placePackage disk manifest hash
          (files.readReceipt disk manifest.id).toOption isExplicitSourceSwitch =
            (placed, .ok ())) ∧
        ∃ grants,
          ((isExplicitSourceSwitch && publisherChanged
              (files.readReceipt disk manifest.id).toOption verified.publisherKey) = false →
            files.loadGrants disk manifest.id = .ok grants) ∧
          (files.install env disk manifest hash verified isExplicitSourceSwitch now).1.receipt =
            .holds (nextReceipt manifest.id (files.readReceipt disk manifest.id).toOption
              (installedVersion manifest hash verified now) isExplicitSourceSwitch
              (capabilityExpansion (files.readReceipt disk manifest.id).toOption
                verified.publisherKey manifest.capabilities grants.grantedCapabilities)) := by
  rcases files.install_cases env disk manifest hash verified isExplicitSourceSwitch now with
    ⟨err, h⟩ | ⟨hfollows, ⟨placed, err, hplace, h⟩ | ⟨placed, hplace, h⟩⟩
  · exact .inl (by rw [h])
  all_goals
    have hrecords := files.placePackage_records disk manifest hash
      (files.readReceipt disk manifest.id).toOption isExplicitSourceSwitch
    rw [hplace] at hrecords
    rw [h]
  · exact .inl hrecords.1
  · rcases placed.recordPackage_cases disk manifest (installedVersion manifest hash verified now)
      (files.readReceipt disk manifest.id).toOption isExplicitSourceSwitch with
      ⟨err, -, hr⟩ | ⟨grants, hload, ⟨hreset, ⟨-, err, hr⟩ | ⟨-, hr⟩⟩ | ⟨-, hr⟩⟩ <;> rw [hr]
    · exact .inl hrecords.1
    · exact .inl hrecords.1
    · refine (receipt_recordInstall disk _ _ _).imp (·.trans hrecords.1) fun hnext => ?_
      refine ⟨hfollows, ⟨placed, hplace⟩, .disabled manifest.id, fun h => ?_, hnext⟩
      rw [show (installedVersion manifest hash verified now).publisherKey = verified.publisherKey
        from rfl, h] at hreset
      cases hreset
    · refine (receipt_recordInstall disk _ _ _).imp (·.trans hrecords.1) fun hnext => ?_
      rw [loadGrants_congr _ _ hrecords.2] at hload
      exact ⟨hfollows, ⟨placed, hplace⟩, grants, fun _ => hload, hnext⟩

end ExtensionFiles

/-! ### What a step does to one extension -/

/-- A package that has passed its checks. -/
structure CheckedPackage where
  manifest : ExtensionManifest
  hash : String
  verified : VerifiedProvenance
  isExplicitSourceSwitch : Bool
  now : ℕ

/-- What is recorded of it. -/
def CheckedPackage.installed (package : CheckedPackage) : InstalledVersionReceipt :=
  ExtensionFiles.installedVersion package.manifest package.hash package.verified package.now

/-- The package of an extension that an operation installs, if it passes its checks. -/
def CatalogOperation.incoming (env : CatalogEnv) (disk : Disk) (id : ExtensionId) :
    CatalogOperation → Option CheckedPackage
  | .installPackage package provenance isExplicitSourceSwitch now =>
    match package.inspect env disk provenance with
    | .ok (manifest, verified) =>
      if manifest.id = id then
        some ⟨manifest, package.hash, verified, isExplicitSourceSwitch, now⟩
      else none
    | .error _ => none
  | _ => none

theorem CatalogOperation.incoming_id {env : CatalogEnv} {disk : Disk} {id : ExtensionId}
    {operation : CatalogOperation} {package : CheckedPackage}
    (h : operation.incoming env disk id = some package) : package.manifest.id = id := by
  cases operation with
  | installPackage file provenance isExplicitSourceSwitch now =>
    unfold incoming at h
    dsimp only at h
    split at h
    · split_ifs at h with hid
      cases h
      exact hid
    · cases h
  | _ => cases h

/-- A package that has passed its checks is installed. -/
def ExtensionFiles.installChecked (env : CatalogEnv) (disk : Disk) (files : ExtensionFiles)
    (package : CheckedPackage) : ExtensionFiles × Except CatalogError InstallationReceipt :=
  files.install env disk package.manifest package.hash package.verified
    package.isExplicitSourceSwitch package.now

namespace ExtensionFiles

variable {disk : Disk} {id : ExtensionId}

/-- What an operation can do to an extension, and what comes of it. -/
inductive Change (env : CatalogEnv) (disk : Disk) (id : ExtensionId) (files : ExtensionFiles) :
    CatalogOperation → ExtensionFiles → Except CatalogError Unit → Prop
  | stopped (operation : CatalogOperation) (err : CatalogError) :
    Change env disk id files operation files (.error err)
  | installed {operation : CatalogOperation} (package : CheckedPackage)
    (hpackage : operation.incoming env disk id = some package) :
    Change env disk id files operation (files.installChecked env disk package).1
      ((files.installChecked env disk package).2.map fun _ => ())
  | failed (receipt : InstallationReceipt) (err : CatalogError)
    (hread : files.readReceipt disk id = .ok receipt) :
    Change env disk id files (.recordUpdateFailure id err)
      { files with receipt := .holds { receipt with lastUpdateFailure := some err.text } } (.ok ())
  | enabled (receipt : InstallationReceipt) (grants : StoredGrants) (enabled : Bool)
    (hread : files.readReceipt disk id = .ok receipt)
    (hload : files.loadGrants disk id = .ok grants) :
    Change env disk id files (.setEnabled id enabled)
      { files with grants := .holds { grants with enabled } } (.ok ())
  | channelSet (receipt : InstallationReceipt) (channel : ReleaseChannel)
    (hread : files.readReceipt disk id = .ok receipt) :
    Change env disk id files (.setChannel id channel)
      { files with receipt := .holds { receipt with selectedChannel := channel } } (.ok ())
  | approvalStopped (receipt : InstallationReceipt) (pending : InstalledVersionReceipt)
    (grants : StoredGrants) (granted : List Capability) (err : CatalogError)
    (hread : files.readReceipt disk id = .ok receipt) (hpending : receipt.pending = some pending)
    (hload : files.loadGrants disk id = .ok grants) (hgrants : disk.fails .saveGrants = false)
    (hsave : disk.fails .saveReceipt = true) :
    Change env disk id files (.approvePending id granted)
      { files with grants := .holds { grants with grantedCapabilities := granted } } (.error err)
  | approved (receipt : InstallationReceipt) (pending : InstalledVersionReceipt)
    (grants : StoredGrants) (granted : List Capability)
    (hread : files.readReceipt disk id = .ok receipt) (hpending : receipt.pending = some pending)
    (hload : files.loadGrants disk id = .ok grants) :
    Change env disk id files (.approvePending id granted)
      { files with
        receipt := .holds
          { receipt with
            previous := some receipt.active, active := pending, pending := none,
            lastUpdateFailure := none, rollbackActive := false },
        grants := .holds { grants with grantedCapabilities := granted } } (.ok ())
  | granted (receipt : InstallationReceipt) (manifest : ExtensionManifest) (grants : StoredGrants)
    (granted : List Capability) (hread : files.readReceipt disk id = .ok receipt)
    (hmanifest : files.readManifest disk receipt.active.version = .ok manifest)
    (hdeclared : ∀ capability ∈ granted, capability ∈ manifest.capabilities)
    (hload : files.loadGrants disk id = .ok grants) :
    Change env disk id files (.approveCapabilities id granted)
      { files with grants := .holds { grants with grantedCapabilities := granted } } (.ok ())
  | rolledBack (receipt : InstallationReceipt) (previous : InstalledVersionReceipt)
    (hread : files.readReceipt disk id = .ok receipt) (hprevious : receipt.previous = some previous)
    (hmem : previous.version ∈ files.versions) :
    Change env disk id files (.rollback id)
      { files with
        receipt := .holds
          { receipt with
            previous := some receipt.active, active := previous, pending := none,
            lastUpdateFailure := none, rollbackActive := true } } (.ok ())
  | uninstalled (secrets state : Except String Unit) :
    Change env disk id files (.uninstall id secrets state)
      (files.uninstall disk id secrets state).1 (files.uninstall disk id secrets state).2

/-- An operation that writes one file stops, or has written it. -/
theorem change_settle {env : CatalogEnv} {operation : CatalogOperation} (files : ExtensionFiles)
    (change : Except CatalogError ExtensionFiles)
    (h : ∀ left, change = .ok left → Change env disk id files operation left (.ok ())) :
    Change env disk id files operation (files.settle change).1 (files.settle change).2 := by
  rcases files.settle_cases change with ⟨err, -, hsettle⟩ | ⟨left, hleft, hsettle⟩ <;> rw [hsettle]
  · exact .stopped operation err
  · exact h left hleft

end ExtensionFiles

namespace Catalog

variable {env : CatalogEnv} {catalog : Catalog} {operation : Disk × CatalogOperation}
  {id : ExtensionId}

theorem files_insert (files : ExtensionFiles) (id' : ExtensionId) :
    Catalog.files (catalog.insert id' files) id = if id = id' then files else catalog.files id := by
  unfold Catalog.files
  split_ifs with h
  · rw [h, AList.lookup_insert, Option.getD_some]
  · rw [AList.lookup_insert_ne h]

/-- What an operation does to the files of an extension. -/
theorem files_step (env : CatalogEnv) (catalog : Catalog) (operation : Disk × CatalogOperation)
    (id : ExtensionId) :
    (∃ change, operation.2.effect env operation.1 = .ok (id, change) ∧
        (catalog.next env operation).files id = (change (catalog.files id)).1 ∧
        (catalog.step env operation).2 = (change (catalog.files id)).2) ∨
      (∀ change, operation.2.effect env operation.1 ≠ .ok (id, change)) ∧
        (catalog.next env operation).files id = catalog.files id := by
  unfold next step
  cases h : operation.2.effect env operation.1 with
  | error err => exact .inr ⟨nofun, rfl⟩
  | ok about =>
    obtain ⟨id', change⟩ := about
    dsimp only
    rw [files_insert]
    split_ifs with hid
    · subst hid
      exact .inl ⟨change, rfl, rfl, rfl⟩
    · refine .inr ⟨fun change' h' => hid ?_, rfl⟩
      cases h'
      rfl

theorem effect_installPackage {disk : Disk} {package : PackageFile}
    {provenance : PackageProvenance} {isExplicitSourceSwitch : Bool} {now : ℕ}
    {change : ExtensionFiles → ExtensionFiles × Except CatalogError Unit}
    (h : CatalogOperation.effect env disk
      (.installPackage package provenance isExplicitSourceSwitch now) = .ok (id, change)) :
    ∃ checked, CatalogOperation.incoming env disk id
        (.installPackage package provenance isExplicitSourceSwitch now) = some checked ∧
      checked.manifest.id = id ∧
      change = fun files => (files.installChecked env disk checked).map (fun files => files)
        (·.map fun _ => ()) := by
  unfold CatalogOperation.effect at h
  rw [bind_eq_ok] at h
  obtain ⟨⟨manifest, verified⟩, hinspect, heq⟩ := h
  cases heq
  refine ⟨⟨manifest, package.hash, verified, isExplicitSourceSwitch, now⟩, ?_, rfl, rfl⟩
  simp [CatalogOperation.incoming, hinspect]

/-- An installation is a step of the catalog. -/
theorem files_of_incoming {package : CheckedPackage}
    (h : operation.2.incoming env operation.1 id = some package) :
    (catalog.next env operation).files id =
        ((catalog.files id).installChecked env operation.1 package).1 ∧
      (catalog.step env operation).2 =
        ((catalog.files id).installChecked env operation.1 package).2.map fun _ => () := by
  obtain ⟨disk, operation⟩ := operation
  have heffect : operation.effect env disk = .ok (id, fun files =>
      (files.installChecked env disk package).map (fun files => files) (·.map fun _ => ())) := by
    cases operation with
    | installPackage file provenance isExplicitSourceSwitch now =>
      unfold CatalogOperation.incoming at h
      dsimp only at h
      split at h
      · rename_i manifest verified hinspect
        split_ifs at h with hid
        cases h
        subst hid
        exact bind_eq_ok.mpr ⟨(manifest, verified), hinspect, rfl⟩
      · cases h
    | _ => cases h
  rcases files_step env catalog (disk, operation) id with ⟨change, hchange, hfiles, hresult⟩ | ⟨hnone, -⟩
  · rw [heffect] at hchange
    cases hchange
    exact ⟨hfiles, hresult⟩
  · exact absurd heffect (hnone _)

/-- What an operation of the catalog does to an extension. -/
theorem change_next (env : CatalogEnv) (catalog : Catalog) (operation : Disk × CatalogOperation)
    (id : ExtensionId) :
    (catalog.next env operation).files id = catalog.files id ∨
      ExtensionFiles.Change env operation.1 id (catalog.files id) operation.2
        ((catalog.next env operation).files id) (catalog.step env operation).2 := by
  rcases files_step env catalog operation id with
    ⟨change, heffect, hfiles, hresult⟩ | ⟨-, hfiles⟩
  swap
  · exact .inl hfiles
  refine .inr ?_
  obtain ⟨disk, operation⟩ := operation
  cases operation with
  | installPackage file provenance isExplicitSourceSwitch now =>
    obtain ⟨package, hpackage, -, -⟩ := effect_installPackage heffect
    rw [(files_of_incoming hpackage).1, (files_of_incoming hpackage).2]
    exact .installed package hpackage
  | recordUpdateFailure id' err =>
    cases heffect
    rw [hfiles, hresult]
    refine ExtensionFiles.change_settle _ _ fun left h => ?_
    obtain ⟨receipt, hread, -, rfl⟩ := ExtensionFiles.recordUpdateFailure_eq_ok.mp h
    exact .failed receipt err hread
  | setEnabled id' enabled =>
    cases heffect
    rw [hfiles, hresult]
    refine ExtensionFiles.change_settle _ _ fun left h => ?_
    obtain ⟨⟨receipt, hread⟩, grants, hload, -, rfl⟩ := ExtensionFiles.setEnabled_eq_ok.mp h
    exact .enabled receipt grants enabled hread hload
  | setChannel id' channel =>
    cases heffect
    rw [hfiles, hresult]
    refine ExtensionFiles.change_settle _ _ fun left h => ?_
    obtain ⟨receipt, hread, -, rfl⟩ := ExtensionFiles.setChannel_eq_ok.mp h
    exact .channelSet receipt channel hread
  | approvePending id' granted =>
    cases heffect
    rw [hfiles, hresult]
    dsimp only
    rcases @ExtensionFiles.approvePending_cases disk (catalog.files id) id granted with ⟨err, h⟩ | ⟨receipt, pending, grants, hread, hpending, hload, hgrants,
        ⟨hsave, err, h⟩ | ⟨-, h⟩⟩ <;> rw [h]
    · exact .stopped _ err
    · exact .approvalStopped receipt pending grants granted err hread hpending hload hgrants hsave
    · exact .approved receipt pending grants granted hread hpending hload
  | approveCapabilities id' granted =>
    cases heffect
    rw [hfiles, hresult]
    refine ExtensionFiles.change_settle _ _ fun left h => ?_
    obtain ⟨_, hrequested, hall, grants, hload, -, rfl⟩ :=
      ExtensionFiles.approveCapabilities_eq_ok.mp h
    obtain ⟨receipt, hread, manifest, hmanifest, rfl⟩ :=
      ExtensionFiles.requestedCapabilities_eq_ok.mp hrequested
    exact .granted receipt manifest grants granted hread hmanifest hall hload
  | rollback id' =>
    cases heffect
    rw [hfiles, hresult]
    refine ExtensionFiles.change_settle _ _ fun left h => ?_
    obtain ⟨receipt, previous, hread, hprevious, hmem, -, rfl⟩ :=
      ExtensionFiles.rollback_eq_ok.mp h
    exact .rolledBack receipt previous hread hprevious hmem
  | uninstall id' secrets state =>
    cases heffect
    rw [hfiles, hresult]
    exact .uninstalled secrets state

end Catalog

/-! ### A catalog to try -/

namespace Sample

/-- Keys whose signatures are texts with the key in front. -/
def crypto : Crypto where
  officialRootKey := "root"
  fingerprint key := .ok ("sha256:" ++ key)
  verify key message signature :=
    if signature = key ++ " signs " ++ message then .ok () else .error "Ed25519 verification failed"
  capabilitiesHash capabilities := if capabilities = [] then "sha256:none" else "sha256:some"
  releasePayload release := release.packageHash

def env : CatalogEnv := ⟨crypto, ⟨0, 1, 0, [], []⟩⟩

def clock : ExtensionId := ⟨"clock"⟩

/-- The manifest of a version that asks for these capabilities. -/
def manifest (minor : ℕ) (capabilities : List Capability) : ExtensionManifest where
  id := clock
  name := "Clock"
  version := ⟨1, minor, 0, [], []⟩
  schemaVersion := 1
  apiVersion := supportedApiVersion
  minShilpoVersion := ⟨0, 1, 0, [], []⟩
  authors := []
  library := none
  contributions := ⟨[], [], [], [], [], [], [], [], [], []⟩
  subscriptions := []
  capabilities

/-- A package of that version. -/
def package (hash : String) (minor : ℕ) (capabilities : List Capability) : PackageFile :=
  ⟨true, 1000, hash, .ok (manifest minor capabilities), .ok ()⟩

/-- A package from the disk that is signed with a key. -/
def signed (key hash : String) (keyRotation : Option KeyRotationDelegation) : PackageProvenance :=
  .localArchive (some ⟨1, "publisher", key, hash,
    key ++ " signs " ++ packageSigningMessage "publisher" hash, keyRotation⟩)

/-- The key `"a"` names `"b"` as the next one. -/
def rotation : KeyRotationDelegation := ⟨"a", "b", "a signs " ++ rotationMessage "b", false⟩

/-- The first version is installed, signed with `"a"`. -/
def first : Disk × CatalogOperation :=
  (.sound, .installPackage (package "one" 0 []) (signed "a" "one" none) false 0)

end Sample

end Shilpo.Extensions
