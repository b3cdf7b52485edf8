import Shilpo.Config.OverrideEdits
import Shilpo.Config.Prewrite
import Shilpo.Theory.Attempts

/-!
# Batches of edits

`ConfigOverrideService::apply_batch` in `desktop/shilpo/src/config/overrides.rs`: the overrides are
read, edited and validated in memory, written to a file beside them, and that file takes their
place if they are still as they were read.

Every operation on files may fail (`OverrideEnv.fails`), and before each one up to the last look
at the overrides another process may have changed them (`OverrideEnv.foreign`). An operation that
fails does nothing, but for a write, which may leave any text in the file. `left` is what the others
alone would have made of the overrides.

The TOML library's texts are parameters: a document is written with the comments and the layout of
the text that it was read from.
-/

namespace Shilpo.Config

open Theory

/-! ### Files -/

/-- What is known of a file beside its text: what `metadata_matches` compares. -/
structure FileStatus where
  len : ℕ
  mode : ℕ
  modified : Option ℕ
  dev : ℕ
  ino : ℕ
  deriving DecidableEq

/-- Nobody may write. -/
def FileStatus.readonly (status : FileStatus) : Bool := status.mode &&& 0o222 = 0

/-- Whether a file is as it was. -/
def metadataMatches (expected actual : FileStatus) : Bool :=
  if expected.len ≠ actual.len || expected.readonly ≠ actual.readonly ||
      expected.modified ≠ actual.modified then false
  else expected.dev = actual.dev && expected.ino = actual.ino && expected.mode = actual.mode

/-- A file; its text, if it is one. -/
structure DiskFile where
  text : Option String
  status : FileStatus

/-- The operations on files, in the order of a batch; the last is for a batch that fails. -/
inductive OverrideOp where
  | readToString
  | readMetadata
  | createDirAll
  | createNew
  | setPermissions
  | setUserOnlyPermissions
  | writeAll
  | flush
  | syncAll
  | rereadToString
  | rereadMetadata
  | rename
  | syncDirectory
  | removeFile
  deriving DecidableEq

/-- Whether others may write to the overrides before it. -/
def OverrideOp.beforeRecheck : OverrideOp → Bool
  | .rereadMetadata | .rename | .syncDirectory => false
  | _ => true

/-- What happens around a batch. -/
structure OverrideEnv where
  fails : OverrideOp → Option String
  foreign : OverrideOp → Option DiskFile → Option DiskFile
  torn : Option String
  created : FileStatus
  tempName : String

/-- The overrides, the file beside them, and what has been done. -/
structure OverrideDisk where
  overrides : Option DiskFile
  temp : Option DiskFile
  left : Option DiskFile
  written : List OverrideOp

/-- The TOML library, as far as texts go: the text of an edited document, and whether two texts are
of the same values. -/
structure OverrideLibrary extends Library where
  render : String → List OverrideEdit → Document → String
  sameValues : String → String → Bool

/-- What has become of a batch. -/
structure OverrideOutcome where
  path : String
  changed : Bool
  warnings : List UnknownConfigKey

/-! ### Operations -/

section

variable (env : OverrideEnv)

/-- Others write. -/
def OverrideDisk.disturbed (op : OverrideOp) (disk : OverrideDisk) : OverrideDisk :=
  if op.beforeRecheck then
    { disk with overrides := env.foreign op disk.overrides, left := env.foreign op disk.left }
  else disk

/-- A look at the overrides. -/
def look (op : OverrideOp) : Attempt OverrideDisk IoError (Option DiskFile) := fun disk =>
  let disk := disk.disturbed env op
  match env.fails op with
  | some text => (.error ⟨false, text⟩, disk)
  | none => (.ok disk.overrides, disk)

/-- What is not there. -/
def notFound : IoError := ⟨true, "No such file or directory (os error 2)"⟩

def readToString (op : OverrideOp) : Attempt OverrideDisk IoError String := do
  match ← look env op with
  | some ⟨some text, _⟩ => return text
  | some ⟨none, _⟩ => .fail ⟨false, "stream did not contain valid UTF-8"⟩
  | none => .fail notFound

def readMetadata (op : OverrideOp) : Attempt OverrideDisk IoError FileStatus := do
  match ← look env op with
  | some file => return file.status
  | none => .fail notFound

/-- An operation that is to change something. -/
def write (op : OverrideOp) (f : OverrideDisk → OverrideDisk) :
    Attempt OverrideDisk IoError Unit := fun disk =>
  let disk := { disk.disturbed env op with written := disk.written ++ [op] }
  match env.fails op with
  | some text => (.error ⟨false, text⟩, disk)
  | none => (.ok (), f disk)

def createNew : Attempt OverrideDisk IoError Unit := fun disk =>
  match disk.temp with
  | some _ =>
    (.error ⟨false, "File exists (os error 17)"⟩,
      { disk.disturbed env .createNew with written := disk.written ++ [OverrideOp.createNew] })
  | none =>
    write env .createNew (fun disk => { disk with temp := some ⟨some "", env.created⟩ }) disk

/-- The file beside the overrides with this mode. -/
def OverrideDisk.withMode (mode : ℕ) (disk : OverrideDisk) : OverrideDisk :=
  { disk with
    temp := disk.temp.map fun file => { file with status := { file.status with mode } } }

/-- The file beside the overrides with this text. -/
def OverrideDisk.withText (text : Option String) (disk : OverrideDisk) : OverrideDisk :=
  { disk with temp := disk.temp.map fun file => { file with text } }

/-- The mode of the overrides, or one for the user only. -/
def setTempPermissions : Option FileStatus → Attempt OverrideDisk IoError Unit
  | some status => write env .setPermissions (·.withMode status.mode)
  | none => write env .setUserOnlyPermissions (·.withMode 0o600)

/-- The text is written, or a part of it. -/
def writeAll (text : String) : Attempt OverrideDisk IoError Unit :=
  (write env .writeAll (·.withText (some text))).recover fun source => do
    .change (·.withText env.torn)
    .fail source

end

/-! ### A batch -/

section

variable (lib : OverrideLibrary) (env : OverrideEnv) (resolver : ConfigResolver)

/-- The path of the file beside the overrides. -/
def tempPath : String := joinPath resolver.configDir ("overrides.tmp." ++ env.tempName)

/-- The text of the overrides and what is known of them, if they are there. -/
def readOriginal : Attempt OverrideDisk OverrideError (String × Option FileStatus) := do
  match ← (readToString env .readToString).result with
  | .ok text =>
    let status ← (readMetadata env .readMetadata).mapError (.readFailed resolver.overridesPath)
    return (text, some status)
  | .error source =>
    if source.notFound then return ("", none)
    else .fail (.readFailed resolver.overridesPath source)

theorem wellFormed_nothing : (Item.table []).WellFormed := ⟨List.nodup_nil, trivial⟩

/-- The document of the overrides. -/
def parseOverrides (text : String) : Except OverrideError Document :=
  if isBlank text then .ok ⟨[], wellFormed_nothing⟩
  else
    match lib.parseToml text with
    | .ok doc => .ok doc
    | .error e => .error (.parseFailed resolver.overridesPath e)

/-- Whether nothing but the layout is different. -/
def documentsSemanticallyEqual (original candidate : String) : Bool :=
  (isBlank original && isBlank candidate) || lib.sameValues original candidate

/-- An error of the resolver as one of the batch. -/
def candidateFailed : ConfigError → OverrideError
  | .validation diagnostics => .candidateValidationFailed diagnostics
  | other => .candidateValidationFailed [.new resolver.overridesPath other.text]

/-- The configuration with the new overrides is valid. `seen` is the file system as the resolver
finds it. -/
def validateCandidate (seen : FileSystem) (newText : String) :
    Except OverrideError (List UnknownConfigKey) :=
  match resolver.resolveCandidateWithOverrides lib.toLibrary seen newText with
  | .error e => .error (candidateFailed resolver e)
  | .ok candidate =>
    match candidate.config.validate lib.toUppercase with
    | .error e => .error (candidateFailed resolver e)
    | .ok () => .ok candidate.unknownKeys

/-- The file beside the overrides is taken away, and the batch fails as it would have. -/
def cleanupAfterFailure {α : Type} (failure : OverrideError) :
    Attempt OverrideDisk OverrideError α := do
  (write env .removeFile fun disk => { disk with temp := none }).mapError
    (.tempCleanupFailed (tempPath env resolver))
  .fail failure

/-- The new text in the file beside the overrides, which is there and empty. -/
def writeTemp (status : Option FileStatus) (newText : String) :
    Attempt OverrideDisk OverrideError Unit := do
  (setTempPermissions env status).mapError (.writeFailed (tempPath env resolver))
  (writeAll env newText).mapError (.writeFailed resolver.overridesPath)
  (write env .flush id).mapError (.writeFailed resolver.overridesPath)
  (write env .syncAll id).mapError (.writeFailed resolver.overridesPath)

/-- Whether the overrides are as they were read. -/
def overridesUnchanged (originalText : String) (originalStatus : Option FileStatus) :
    Attempt OverrideDisk OverrideError Bool := do
  match ← (readToString env .rereadToString).result with
  | .ok currentText => compare currentText
  | .error source => if source.notFound then compare "" else return false
where
  /-- The text has been read again. -/
  compare (currentText : String) : Attempt OverrideDisk OverrideError Bool := do
    if currentText ≠ originalText then return false
    else
      match originalStatus, ← (readMetadata env .rereadMetadata).result with
      | some original, .ok current => return metadataMatches original current
      | some _, .error _ => return false
      | none, .ok _ => return false
      | none, .error _ => return true

/-- The new text takes the place of the overrides. -/
def commit (originalText : String) (originalStatus : Option FileStatus) (newText : String) :
    Attempt OverrideDisk OverrideError Unit := do
  (write env .createDirAll id).mapError (.writeFailed resolver.configDir)
  (createNew env).mapError (.writeFailed (tempPath env resolver))
  (writeTemp env resolver originalStatus newText).recover (cleanupAfterFailure env resolver)
  if !(← overridesUnchanged env originalText originalStatus) then
    cleanupAfterFailure env resolver (.concurrentModification resolver.overridesPath)
  else
    ((write env .rename fun disk => { disk with overrides := disk.temp, temp := none }).mapError
      (.writeFailed resolver.overridesPath)).recover (cleanupAfterFailure env resolver)
    (write env .syncDirectory id).mapError (.durabilityFailed resolver.configDir)

/-- All edits of a batch, or none. -/
def applyBatch (seen : FileSystem) (edits : List OverrideEdit) :
    Attempt OverrideDisk OverrideError OverrideOutcome := do
  let (originalText, originalStatus) ← readOriginal env resolver
  let doc ← .ofExcept (parseOverrides lib resolver originalText)
  let edited ← .ofExcept (doc.applyEdits edits)
  let newText := lib.render originalText edits edited
  if newText = originalText || documentsSemanticallyEqual lib originalText newText then
    return ⟨resolver.overridesPath, false, []⟩
  else
    let warnings ← .ofExcept (validateCandidate lib resolver seen newText)
    commit env resolver originalText originalStatus newText
    return ⟨resolver.overridesPath, true, warnings⟩

end

/-! ### What the operations keep -/

/-- The overrides are as others left them, and the file beside them is as in `p`. -/
def OverrideDisk.Left (p : Option DiskFile → Prop) (disk : OverrideDisk) : Prop :=
  disk.overrides = disk.left ∧ p disk.temp

section

variable (env : OverrideEnv) {P : OverrideDisk → Prop} {p q : Option DiskFile → Prop}

theorem OverrideDisk.Left.disturbed {disk : OverrideDisk} (h : disk.Left p) (op : OverrideOp) :
    (disk.disturbed env op).Left p := by
  rw [OverrideDisk.disturbed]
  split_ifs
  · exact ⟨congrArg _ h.1, h.2⟩
  · exact h

variable {op : OverrideOp}

/-- Reading keeps what others do not change. -/
theorem look_meets (hP : ∀ disk, P disk → P (disk.disturbed env op)) :
    Attempt.Meets P (look env op) (fun _ => P) fun _ => P := by
  intro disk h
  have hdisturbed := hP disk h
  rw [look]
  cases env.fails op with
  | none =>
    refine ⟨fun file disk' heq => ?_, fun e disk' heq => ?_⟩
    · cases heq
      exact hdisturbed
    · cases heq
  | some text =>
    refine ⟨fun file disk' heq => ?_, fun e disk' heq => ?_⟩
    · cases heq
    · cases heq
      exact hdisturbed

theorem readToString_meets (hP : ∀ disk, P disk → P (disk.disturbed env op)) :
    Attempt.Meets P (readToString env op) (fun _ => P) fun _ => P := by
  refine Attempt.meets_bind (look_meets env hP) fun file => ?_
  rcases file with _ | ⟨_ | text, status⟩
  · exact Attempt.meets_fail fun _ => id
  · exact Attempt.meets_fail fun _ => id
  · exact Attempt.meets_pure fun _ => id

theorem readMetadata_meets (hP : ∀ disk, P disk → P (disk.disturbed env op)) :
    Attempt.Meets P (readMetadata env op) (fun _ => P) fun _ => P := by
  refine Attempt.meets_bind (look_meets env hP) fun file => ?_
  cases file with
  | none => exact Attempt.meets_fail fun _ => id
  | some file => exact Attempt.meets_pure fun _ => id

/-- An operation that fails leaves everything as it was. -/
theorem write_meets_of {f : OverrideDisk → OverrideDisk} {Q : OverrideDisk → Prop}
    (hP : ∀ disk written, P disk → P { disk.disturbed env op with written })
    (hf : ∀ disk, P disk → Q (f disk)) :
    Attempt.Meets P (write env op f) (fun _ => Q) fun _ => P := by
  intro disk h
  have hdisturbed := hP disk (disk.written ++ [op]) h
  rw [write]
  cases env.fails op with
  | none =>
    refine ⟨fun u disk' heq => ?_, fun e disk' heq => ?_⟩
    · cases heq
      exact hf _ hdisturbed
    · cases heq
  | some text =>
    refine ⟨fun u disk' heq => ?_, fun e disk' heq => ?_⟩
    · cases heq
    · cases heq
      exact hdisturbed

theorem write_meets {f : OverrideDisk → OverrideDisk} {Q : OverrideDisk → Prop}
    (hf : ∀ disk, disk.Left p → Q (f disk)) :
    Attempt.Meets (OverrideDisk.Left p) (write env op f) (fun _ => Q)
      fun _ => OverrideDisk.Left p :=
  write_meets_of env (fun _ _ h => h.disturbed env op) hf

end

/-! ### A commit -/

section

variable (env : OverrideEnv) (resolver : ConfigResolver) {temp : Option DiskFile}

/-- The error does not say that the file beside the overrides could not be taken away. -/
def OverrideError.cleaned : OverrideError → Bool
  | .tempCleanupFailed _ _ => false
  | _ => true

/-- The error does not say that the overrides have been written but may be lost. -/
def OverrideError.undone : OverrideError → Bool
  | .durabilityFailed _ _ => false
  | _ => true

/-- What is left after an error: the overrides as others left them, and the file beside them as it
was before the batch. -/
def FailedCleanly (temp : Option DiskFile) (e : OverrideError) (disk : OverrideDisk) : Prop :=
  e.undone = true → disk.overrides = disk.left ∧ (e.cleaned = true → disk.temp = temp)

theorem FailedCleanly.of_left {e : OverrideError} {disk : OverrideDisk}
    (h : disk.Left (· = temp)) : FailedCleanly temp e disk :=
  fun _ => ⟨h.1, fun _ => h.2⟩

theorem cleanupAfterFailure_meets {α : Type} {Q : α → OverrideDisk → Prop}
    (failure : OverrideError) :
    Attempt.Meets (OverrideDisk.Left fun _ => temp = none)
      (cleanupAfterFailure env resolver failure) Q (FailedCleanly temp) := by
  refine Attempt.meets_bind (Q := fun _ disk => disk.Left (· = temp)) ?_ fun _ => ?_
  · refine Attempt.meets_mapError ((write_meets env (Q := OverrideDisk.Left (· = temp)) ?_).mono
      (fun _ => id) (fun _ _ => id) ?_)
    · rintro disk ⟨hleft, rfl⟩
      exact ⟨hleft, rfl⟩
    · rintro e disk h -
      exact ⟨h.1, fun hcleaned => by cases hcleaned⟩
  · exact Attempt.meets_fail fun _ => .of_left

/-- The file beside the overrides is new and has this text. -/
def Written (temp : Option DiskFile) (text : String) (file : Option DiskFile) : Prop :=
  temp = none ∧ ∃ status, file = some ⟨some text, status⟩

theorem createNew_meets :
    Attempt.Meets (OverrideDisk.Left (· = temp)) (createNew env)
      (fun _ => OverrideDisk.Left (Written temp "")) fun _ => OverrideDisk.Left (· = temp) := by
  intro disk h
  rw [createNew]
  cases htemp : disk.temp with
  | some file =>
    refine ⟨fun u disk' heq => ?_, fun e disk' heq => ?_⟩
    · cases heq
    · cases heq
      exact h.disturbed env _
  | none =>
    have hnone : temp = none := h.2.symm.trans htemp
    exact write_meets env (fun disk h => ⟨h.1, hnone, env.created, rfl⟩) disk h

variable {text : String}

theorem setTempPermissions_meets (status : Option FileStatus) :
    Attempt.Meets (OverrideDisk.Left (Written temp text)) (setTempPermissions env status)
      (fun _ => OverrideDisk.Left (Written temp text))
      fun _ => OverrideDisk.Left fun _ => temp = none := by
  have hmode : ∀ mode disk, OverrideDisk.Left (Written temp text) disk →
      (disk.withMode mode).Left (Written temp text) := by
    rintro mode disk ⟨hleft, hnone, status, hfile⟩
    exact ⟨hleft, hnone, { status with mode }, by rw [OverrideDisk.withMode, hfile]; rfl⟩
  cases status with
  | some status =>
    exact (write_meets env (hmode status.mode)).mono (fun _ => id) (fun _ _ => id)
      fun _ _ h => ⟨h.1, h.2.1⟩
  | none =>
    exact (write_meets env (hmode 0o600)).mono (fun _ => id) (fun _ _ => id)
      fun _ _ h => ⟨h.1, h.2.1⟩

theorem writeAll_meets (newText : String) :
    Attempt.Meets (OverrideDisk.Left (Written temp text)) (writeAll env newText)
      (fun _ => OverrideDisk.Left (Written temp newText))
      fun _ => OverrideDisk.Left fun _ => temp = none := by
  refine Attempt.meets_recover (write_meets env ?_) fun source => ?_
  · rintro disk ⟨hleft, hnone, status, hfile⟩
    exact ⟨hleft, hnone, status, by rw [OverrideDisk.withText, hfile]; rfl⟩
  · refine Attempt.meets_bind (Q := fun _ => OverrideDisk.Left fun _ => temp = none)
      (Attempt.meets_change fun disk h => ⟨h.1, h.2.1⟩) fun _ => ?_
    exact Attempt.meets_fail fun _ => id

/-- The new text is in the file beside the overrides. -/
theorem writeTemp_meets (status : Option FileStatus) (newText : String) :
    Attempt.Meets (OverrideDisk.Left (Written temp text)) (writeTemp env resolver status newText)
      (fun _ => OverrideDisk.Left (Written temp newText))
      fun _ => OverrideDisk.Left fun _ => temp = none := by
  have hkeep : ∀ op, Attempt.Meets (OverrideDisk.Left (Written temp newText)) (write env op id)
      (fun _ => OverrideDisk.Left (Written temp newText))
      fun _ => OverrideDisk.Left fun _ => temp = none := fun op =>
    (write_meets env fun _ => id).mono (fun _ => id) (fun _ _ => id) fun _ _ h => ⟨h.1, h.2.1⟩
  refine Attempt.meets_bind (Attempt.meets_mapError (setTempPermissions_meets env status))
    fun _ => ?_
  refine Attempt.meets_bind (Attempt.meets_mapError (writeAll_meets env newText)) fun _ => ?_
  refine Attempt.meets_bind (Attempt.meets_mapError (hkeep .flush)) fun _ => ?_
  exact Attempt.meets_mapError (hkeep .syncAll)

/-- The last look at the overrides changes nothing. -/
theorem overridesUnchanged_meets (originalText : String) (originalStatus : Option FileStatus)
    {p : Option DiskFile → Prop} {E : OverrideError → OverrideDisk → Prop} :
    Attempt.Meets (OverrideDisk.Left p) (overridesUnchanged env originalText originalStatus)
      (fun _ => OverrideDisk.Left p) E := by
  have hcompare : ∀ currentText, Attempt.Meets (OverrideDisk.Left p)
      (overridesUnchanged.compare env originalText originalStatus currentText)
      (fun _ => OverrideDisk.Left p) E := by
    intro currentText
    refine Attempt.meets_ite (fun _ => Attempt.meets_pure fun _ => id) fun _ => ?_
    refine Attempt.meets_bind (Q := fun _ => OverrideDisk.Left p) (Attempt.meets_result
      (readMetadata_meets env fun _ h => h.disturbed env _)) fun current => ?_
    rcases originalStatus with _ | original <;> rcases current with e | current <;>
      exact Attempt.meets_pure fun _ => id
  refine Attempt.meets_bind (Q := fun _ => OverrideDisk.Left p) (Attempt.meets_result
    (readToString_meets env fun _ h => h.disturbed env _)) fun current => ?_
  rcases current with source | currentText
  · exact Attempt.meets_ite (fun _ => hcompare "") fun _ => Attempt.meets_pure fun _ => id
  · exact hcompare currentText

/-- After a commit the overrides have the new text, or it has left no trace. -/
theorem commit_meets (originalText : String) (originalStatus : Option FileStatus)
    (newText : String) :
    Attempt.Meets (OverrideDisk.Left (· = temp))
      (commit env resolver originalText originalStatus newText)
      (fun _ disk => disk.overrides.bind (·.text) = some newText) (FailedCleanly temp) := by
  refine Attempt.meets_bind (Attempt.meets_mapError ((write_meets env fun _ => id).mono
    (fun _ => id) (fun _ _ => id) fun _ _ => .of_left)) fun _ => ?_
  refine Attempt.meets_bind (Attempt.meets_mapError ((createNew_meets env).mono
    (fun _ => id) (fun _ _ => id) fun _ _ => .of_left)) fun _ => ?_
  refine Attempt.meets_bind (Attempt.meets_recover (writeTemp_meets env resolver originalStatus
    newText) fun failure => cleanupAfterFailure_meets env resolver failure) fun _ => ?_
  refine Attempt.meets_bind (overridesUnchanged_meets env originalText originalStatus)
    fun unchanged => ?_
  refine Attempt.meets_ite (fun _ => ?_) fun _ => ?_
  · exact (cleanupAfterFailure_meets env resolver _).mono (fun _ h => ⟨h.1, h.2.1⟩)
      (fun _ _ => id) fun _ _ => id
  · refine Attempt.meets_bind (Q := fun _ disk => disk.overrides.bind (·.text) = some newText)
      (Attempt.meets_recover (E := fun _ => OverrideDisk.Left fun _ => temp = none)
        (Attempt.meets_mapError ((write_meets env ?_).mono
          (fun _ => id) (fun _ _ => id) fun _ _ h => ⟨h.1, h.2.1⟩))
        fun failure => cleanupAfterFailure_meets env resolver failure) fun _ => ?_
    · rintro disk ⟨-, -, status, hfile⟩
      simp only [hfile, Option.bind_some]
    · refine Attempt.meets_mapError ((write_meets_of env (fun _ _ => id) fun _ => id).mono
        (fun _ => id) (fun _ _ => id) fun _ _ _ hundone => ?_)
      cases hundone

/-! ### A batch is atomic -/

/-- The text of the overrides when the batch begins to read them. -/
def originalText (overrides : Option DiskFile) : String :=
  match env.foreign .readToString overrides with
  | some ⟨some text, _⟩ => text
  | _ => ""

/-- Nothing has been written, and the overrides are as others left them. -/
def Unwritten (temp : Option DiskFile) (disk : OverrideDisk) : Prop :=
  disk.Left (· = temp) ∧ disk.written = []

theorem Unwritten.disturbed {disk : OverrideDisk} (h : Unwritten temp disk) (op : OverrideOp) :
    Unwritten temp (disk.disturbed env op) := by
  refine ⟨h.1.disturbed env op, ?_⟩
  rw [OverrideDisk.disturbed]
  split_ifs <;> exact h.2

/-- Before anything else is done. -/
def OverrideDisk.start (overrides temp : Option DiskFile) : OverrideDisk :=
  ⟨overrides, temp, overrides, []⟩

theorem unwritten_start (overrides : Option DiskFile) :
    Unwritten temp (OverrideDisk.start overrides temp) := ⟨⟨rfl, rfl⟩, rfl⟩

/-- What is read first is the text that is there; what is not there has none. -/
theorem readOriginal_meets (overrides : Option DiskFile) :
    Attempt.Meets (· = OverrideDisk.start overrides temp) (readOriginal env resolver)
      (fun original disk => original.1 = originalText env overrides ∧ Unwritten temp disk)
      fun _ => Unwritten temp := by
  have hread : Attempt.Meets (· = OverrideDisk.start overrides temp)
      (readToString env .readToString)
      (fun text disk => text = originalText env overrides ∧ Unwritten temp disk)
      fun source disk => (source.notFound = true → originalText env overrides = "") ∧
        Unwritten temp disk := by
    refine Attempt.meets_bind (Q := fun file disk =>
      file = env.foreign .readToString overrides ∧ Unwritten temp disk) ?_ fun file => ?_
    · rintro disk rfl
      have hdisturbed := (@unwritten_start temp overrides).disturbed env .readToString
      rw [look]
      cases env.fails .readToString with
      | none =>
        refine ⟨fun file disk' heq => ?_, fun e disk' heq => ?_⟩
        · cases heq
          exact ⟨rfl, hdisturbed⟩
        · cases heq
      | some text =>
        refine ⟨fun file disk' heq => ?_, fun e disk' heq => ?_⟩
        · cases heq
        · cases heq
          exact ⟨fun h => (by cases h), hdisturbed⟩
    · rcases file with _ | ⟨_ | text, status⟩
      · refine Attempt.meets_fail ?_
        rintro disk ⟨hfile, h⟩
        exact ⟨fun _ => by rw [originalText, ← hfile], h⟩
      · exact Attempt.meets_fail fun disk h => ⟨fun hfound => (by cases hfound), h.2⟩
      · refine Attempt.meets_pure ?_
        rintro disk ⟨hfile, h⟩
        exact ⟨by rw [originalText, ← hfile], h⟩
  refine Attempt.meets_bind (Q := fun result disk =>
    (∀ text, result = .ok text → text = originalText env overrides) ∧
      (∀ source, result = .error source → source.notFound = true →
        originalText env overrides = "") ∧ Unwritten temp disk)
    (Attempt.meets_result (hread.mono (fun _ => id) ?_ ?_)) fun result => ?_
  · rintro text disk ⟨htext, h⟩
    exact ⟨fun _ heq => Except.ok.inj heq ▸ htext, fun _ heq => (by cases heq), h⟩
  · rintro source disk ⟨hsource, h⟩
    exact ⟨fun _ heq => (by cases heq), fun _ heq => Except.error.inj heq ▸ hsource, h⟩
  · rcases result with source | text
    · refine Attempt.meets_ite (fun hfound => Attempt.meets_pure ?_) fun _ =>
        Attempt.meets_fail fun _ h => h.2.2
      exact fun disk h => ⟨(h.2.1 source rfl hfound).symm, h.2.2⟩
    · refine Attempt.meets_of_forall (p := text = originalText env overrides)
        (fun _ h => h.1 text rfl) fun htext => ?_
      refine Attempt.meets_bind (Q := fun _ => Unwritten temp) (Attempt.meets_mapError
        ((readMetadata_meets env fun _ h => h.disturbed env _).mono (fun _ h => h.2.2)
          (fun _ _ => id) fun _ _ => id)) fun status => ?_
      exact Attempt.meets_pure fun disk h => ⟨htext, h⟩

variable (lib : OverrideLibrary) (seen : FileSystem) (edits : List OverrideEdit)

/-- The text is that of the original document with all edits, and is valid with the rest of the
configuration. -/
def Rendered (overrides : Option DiskFile) (newText : String) : Prop :=
  ∃ doc edited warnings, parseOverrides lib resolver (originalText env overrides) = .ok doc ∧
    doc.applyEdits edits = .ok edited ∧
    newText = lib.render (originalText env overrides) edits edited ∧
    validateCandidate lib resolver seen newText = .ok warnings

theorem applyBatch_meets (overrides : Option DiskFile) :
    Attempt.Meets (· = OverrideDisk.start overrides temp)
      (applyBatch lib env resolver seen edits)
      (fun outcome disk =>
        if outcome.changed then
          ∃ newText, disk.overrides.bind (·.text) = some newText ∧
            Rendered env resolver lib seen edits overrides newText
        else Unwritten temp disk)
      (FailedCleanly temp) := by
  have hclean : ∀ e disk, Unwritten temp disk → FailedCleanly temp e disk :=
    fun _ _ h => .of_left h.1
  refine Attempt.meets_bind ((readOriginal_meets env resolver overrides).mono (fun _ => id)
    (fun _ _ => id) hclean) ?_
  rintro ⟨text, status⟩
  refine Attempt.meets_of_forall (fun _ h => h.1) fun htext => ?_
  refine Attempt.meets_bind (Q := fun doc disk =>
    parseOverrides lib resolver text = .ok doc ∧ Unwritten temp disk)
    (Attempt.meets_ofExcept (fun doc hdoc disk h => ⟨hdoc, h.2⟩) fun e _ disk h => hclean e disk h.2)
    fun doc => ?_
  refine Attempt.meets_of_forall (fun _ h => h.1) fun hdoc => ?_
  refine Attempt.meets_bind (Q := fun edited disk =>
    doc.applyEdits edits = .ok edited ∧ Unwritten temp disk)
    (Attempt.meets_ofExcept (fun edited hedited disk h => ⟨hedited, h.2⟩)
      fun e _ disk h => hclean e disk h.2) fun edited => ?_
  refine Attempt.meets_of_forall (fun _ h => h.1) fun hedited => ?_
  refine Attempt.meets_ite (fun _ => Attempt.meets_pure fun disk h => h.2) fun _ => ?_
  refine Attempt.meets_bind (Q := fun warnings disk =>
    validateCandidate lib resolver seen (lib.render text edits edited) = .ok warnings ∧
      Unwritten temp disk)
    (Attempt.meets_ofExcept (fun warnings hvalid disk h => ⟨hvalid, h.2⟩)
      fun e _ disk h => hclean e disk h.2) fun warnings => ?_
  refine Attempt.meets_of_forall (fun _ h => h.1) fun hvalid => ?_
  refine Attempt.meets_bind ((commit_meets env resolver text status _).mono
    (fun _ h => h.2.1) (fun _ _ => id) fun _ _ => id) fun _ => ?_
  refine Attempt.meets_pure fun disk h => ?_
  subst htext
  exact ⟨_, h, doc, edited, warnings, hdoc, hedited, rfl, hvalid⟩

/-- A batch that fails leaves no trace, but where it says so; one that succeeds has written all of
its edits, or nothing where there was nothing to change. -/
theorem applyBatch_atomic (overrides temp : Option DiskFile) :
    match applyBatch lib env resolver seen edits (OverrideDisk.start overrides temp) with
    | (.error e, disk) =>
      e.undone = true → disk.overrides = disk.left ∧ (e.cleaned = true → disk.temp = temp)
    | (.ok outcome, disk) =>
      if outcome.changed then
        ∃ newText, disk.overrides.bind (·.text) = some newText ∧
          Rendered env resolver lib seen edits overrides newText
      else disk.written = [] ∧ disk.overrides = disk.left ∧ disk.temp = temp := by
  have hmeets := @applyBatch_meets env resolver temp lib seen edits overrides _ rfl
  cases hrun : applyBatch lib env resolver seen edits (OverrideDisk.start overrides temp) with
  | mk result disk =>
    cases result with
    | error e => exact hmeets.2 e disk hrun
    | ok outcome =>
      have h := hmeets.1 outcome disk hrun
      dsimp only at h ⊢
      split_ifs at h ⊢
      · exact h
      · exact ⟨h.2, h.1⟩

end

end Shilpo.Config
