import Shilpo.Extensions.CircuitBreaker
import Shilpo.Extensions.State
import Shilpo.Script.Manifest

/-!
# The manager of script bundles

`desktop/ext-runtime/src/script/manager.rs`: which bundles of the `scripts` directory are run,
when their tasks are started, and what becomes of what the tasks send. The functions here say what
the manager does to its own state. A running task is known by the number of the worker thread that
runs it; that `stop` and `finish_task` wait for the thread, and what the threads do, is not said
here: what a tick receives from them is an input.

Readings of the clock are natural numbers of nanoseconds. The decoding of a record and the lossy
decoding of a text are `Decoders`; a view is what the former gives. A reconciliation finds the
disk as it is at one moment; the paths it compares are all entries of one directory.
-/

namespace Shilpo.Script

open Config (PathBuf)
open Extensions

/-! ### What tasks send -/

structure ProcessOutput where
  exitCode : ℤ
  stdout : Bytes
  stderr : Bytes
  deriving DecidableEq

inductive ScriptProcessError where
  | spawn (message : String)
  | io (message : String)
  | timeout
  | cancelled
  | recordTooLarge
  deriving DecidableEq

def ScriptProcessError.display : ScriptProcessError → String
  | .spawn message => s!"failed to spawn script: {message}"
  | .io message => s!"script process I/O error: {message}"
  | .timeout => "script execution timed out"
  | .cancelled => "script execution cancelled"
  | .recordTooLarge => "script record exceeds the 1 MiB limit"

inductive TaskEvent where
  | pollFinished (result : Except ScriptProcessError ProcessOutput)
  | streamRecord (record : Bytes)
  | streamStopped (result : Except ScriptProcessError String)
  deriving DecidableEq

/-- The event is the last that a task sends. -/
def TaskEvent.isFinal : TaskEvent → Bool
  | .streamRecord _ => false
  | _ => true

/-- `decode_and_validate_record`, and `String::from_utf8_lossy`. -/
structure Decoders (View : Type) where
  record : ScriptManifest → Bytes → Except String (ContributionId × View)
  lossy : Bytes → String

/-! ### Texts and records -/

def maxRecordBytes : ℕ := 1048576

def maxStderrBytes : ℕ := 64 * 1024

/-- A character of the category Cc. -/
def isControl (c : Char) : Bool := c.toNat < 32 || (127 ≤ c.toNat && c.toNat < 160)

/-- An excerpt of what a script wrote, without control characters but line feeds and tabs. -/
def sanitizeExcerpt (lossy : Bytes → String) (bytes : Bytes) : String :=
  String.ofList ((lossy (bytes.take maxStderrBytes)).toList.map fun c =>
    if isControl c && !(c = '\n' || c = '\t') then '\uFFFD' else c)

/-- A space, a tab, a line feed, a form feed or a carriage return. -/
def isAsciiWhitespace (byte : UInt8) : Bool :=
  byte = 32 || byte = 9 || byte = 10 || byte = 12 || byte = 13

def trimAscii (bytes : Bytes) : Bytes :=
  ((bytes.dropWhile isAsciiWhitespace).reverse.dropWhile isAsciiWhitespace).reverse

/-- The one line of what a polled script wrote that is not blank. -/
def singlePollRecord (stdout : Bytes) : Except String Bytes :=
  if maxRecordBytes + 1 < stdout.length then .error "poll output exceeds the 1 MiB record limit"
  else
    match ((stdout.splitOn 10).map trimAscii).filter (· ≠ []) with
    | [record] => .ok record
    | [] => .error "polling script produced no output record"
    | _ => .error "polling script produced multiple output records"

/-- How long a bundle waits after so many failures. -/
def failureBackoff : ℕ → ℕ
  | 1 => 250 * 1000000
  | 2 => second
  | _ => 4 * second

def milliseconds (n : ℕ) : ℕ := n * 1000000

/-! ### Bundles -/

def maxDiagnosticsPerBundle : ℕ := 64

def maxSourceDiagnostics : ℕ := 128

/-- A list with a diagnostic more; the oldest makes room. -/
def pushBounded (max : ℕ) (diagnostics : List String) (diagnostic : String) : List String :=
  (if diagnostics.length = max then diagnostics.tail else diagnostics) ++ [diagnostic]

structure ScriptBundleState (View : Type) where
  manifest : ScriptManifest
  bundleRoot : PathBuf
  views : AList fun _ : CanonicalId => View
  diagnostics : List String
  /-- The number of the running task's thread. -/
  task : Option ℕ
  nextRun : ℕ
  pendingPoll : Bool
  failureCount : ℕ

variable {View : Type}

namespace ScriptBundleState

def new (manifest : ScriptManifest) (bundleRoot : PathBuf) (now : ℕ) : ScriptBundleState View where
  manifest
  bundleRoot
  views := ∅
  diagnostics := []
  task := none
  nextRun := now
  pendingPoll := false
  failureCount := 0

/-- Where the bundle comes from. -/
def source (state : ScriptBundleState View) : ScriptManifest × PathBuf :=
  (state.manifest, state.bundleRoot)

/-- The interval of polls, a second where there is none. -/
def interval (state : ScriptBundleState View) : ℕ :=
  milliseconds (state.manifest.runtime.intervalMs.getD 1000)

end ScriptBundleState

structure ScriptRuntime (View : Type) where
  bundles : AList fun _ : ExtensionId => ScriptBundleState View
  sourceDiagnostics : List String
  breaker : CircuitBreaker
  /-- How many threads have been started. -/
  started : ℕ

/-- The circuit of the extension is open, or given up. -/
def isTripped (breaker : CircuitBreaker) (id : ExtensionId) : Bool :=
  match breaker.state id with
  | some (.opened ..) | some (.permanentlyDisabled _) => true
  | _ => false

namespace ScriptRuntime

variable (rt : ScriptRuntime View)

def new : ScriptRuntime View := ⟨∅, [], .new .default, 0⟩

/-- Change the bundle with this id, if there is one. -/
def modify (id : ExtensionId) (f : ScriptBundleState View → ScriptBundleState View) :
    ScriptRuntime View :=
  match rt.bundles.lookup id with
  | some state => { rt with bundles := rt.bundles.insert id (f state) }
  | none => rt

def pushSourceDiagnostic (diagnostic : String) : ScriptRuntime View :=
  { rt with sourceDiagnostics := pushBounded maxSourceDiagnostics rt.sourceDiagnostics diagnostic }

/-- The bundle has no task any more; its thread has been waited for. -/
def stop (id : ExtensionId) : ScriptRuntime View := rt.modify id ({ · with task := none })

/-- The task has sent its last event; its thread has been waited for. -/
def finishTask (id : ExtensionId) : ScriptRuntime View := rt.modify id ({ · with task := none })

/-! ### What tasks have sent -/

/-- `record_failure` up to where it may stop the bundle; the flag says whether it does. -/
def countFailure (id : ExtensionId) (message : String) (now : ℕ) : ScriptRuntime View × Bool :=
  let rt := rt.modify id fun state =>
    let failureCount := min (state.failureCount + 1) (2 ^ 32 - 1)
    { state with
      failureCount
      diagnostics := pushBounded maxDiagnosticsPerBundle state.diagnostics message
      nextRun := now + failureBackoff failureCount }
  let (breaker, tripped) := rt.breaker.recordFailure now id
  ({ rt with breaker }, tripped)

/-- `accept_record` up to where it may stop the bundle. -/
def countRecord (decoders : Decoders View) (id : ExtensionId) (record : Bytes) (now : ℕ) :
    ScriptRuntime View × Bool :=
  match rt.bundles.lookup id with
  | none => (rt, false)
  | some state =>
    match decoders.record state.manifest record with
    | .ok (contribution, view) =>
      ({ (rt.modify id fun state =>
          { state with
            views := state.views.insert ⟨id, contribution⟩ view
            failureCount := 0 }) with
          breaker := rt.breaker.recordSuccess id }, false)
    | .error error => rt.countFailure id error now

end ScriptRuntime

/-- What an event amounts to. -/
inductive Outcome where
  | record (bytes : Bytes)
  | failure (message : String)
  | nothing

def TaskEvent.outcome (lossy : Bytes → String) : TaskEvent → Outcome
  | .pollFinished (.ok output) =>
    if output.exitCode = 0 then
      match singlePollRecord output.stdout with
      | .ok record => .record record
      | .error error => .failure error
    else
      .failure s!"script exited with code {output.exitCode}: {sanitizeExcerpt lossy output.stderr}"
  | .streamRecord record => .record record
  | .streamStopped (.ok stderr) =>
    .failure s!"stream reached EOF: {sanitizeExcerpt lossy (utf8 stderr)}"
  | .pollFinished (.error .cancelled) | .streamStopped (.error .cancelled) => .nothing
  | .pollFinished (.error error) | .streamStopped (.error error) => .failure error.display

namespace ScriptRuntime

variable (rt : ScriptRuntime View) (decoders : Decoders View)

/-- What an event's outcome does, up to where the bundle may be stopped. `now` is the time of the
tick, `later` the one at which a record is looked at. -/
def count (id : ExtensionId) (now later : ℕ) : Outcome → ScriptRuntime View × Bool
  | .record bytes => rt.countRecord decoders id bytes later
  | .failure message => rt.countFailure id message now
  | .nothing => (rt, false)

/-- When a polled bundle is run next. -/
def reschedule (id : ExtensionId) (now : ℕ) : ScriptRuntime View :=
  rt.modify id fun state =>
    { state with
      nextRun := if state.pendingPoll then now else now + state.interval
      pendingPoll := false }

/-- After the event of a finished poll the next one is scheduled. -/
def settle (id : ExtensionId) (now : ℕ) : TaskEvent → ScriptRuntime View
  | .pollFinished _ => rt.reschedule id now
  | _ => rt

/-- One event of a task, and the time at which a record is looked at. -/
def handleEvent (id : ExtensionId) (now : ℕ) (event : TaskEvent × ℕ) : ScriptRuntime View :=
  let rt := if event.1.isFinal then rt.finishTask id else rt
  let (rt, tripped) := rt.count decoders id now event.2 (event.1.outcome decoders.lossy)
  (if tripped then rt.stop id else rt).settle id now event.1

/-! ### Ticks -/

/-- The bundle has no task, its time has come, and its circuit lets it run. -/
def shouldStart (id : ExtensionId) (now : ℕ) : Bool :=
  match rt.bundles.lookup id with
  | some state => state.task.isNone && state.nextRun ≤ now && !isTripped rt.breaker id
  | none => false

/-- A thread is started for the bundle. -/
def startTask (id : ExtensionId) (now : ℕ) : ScriptRuntime View :=
  { (rt.modify id fun state =>
      { state with
        task := some rt.started
        nextRun :=
          match state.manifest.runtime.mode with
          | .poll => now + state.interval
          | .stream => now }) with
    started := rt.started + 1 }

/-- A poll is due while one is running. -/
def notePoll (id : ExtensionId) (now : ℕ) : ScriptRuntime View :=
  rt.modify id fun state =>
    if state.task.isSome ∧ state.manifest.runtime.mode = .poll ∧ state.nextRun ≤ now then
      { state with pendingPoll := true }
    else state

/-- Start a task for the bundle if it is time. -/
def schedule (id : ExtensionId) (now : ℕ) : ScriptRuntime View :=
  if rt.shouldStart id now then rt.startTask id now else rt.notePoll id now

end ScriptRuntime

/-- A tick: the time, and what it receives from the bundles' tasks. -/
structure Tick where
  now : ℕ
  received : ExtensionId → List (TaskEvent × ℕ)

namespace ScriptRuntime

variable (rt : ScriptRuntime View) (decoders : Decoders View)

/-- A tick's turn for one bundle. Without a task nothing is received. -/
def visit (tick : Tick) (id : ExtensionId) : ScriptRuntime View :=
  let events :=
    match rt.bundles.lookup id with
    | some state => if state.task.isSome then tick.received id else []
    | none => []
  (events.foldl (fun rt event => rt.handleEvent decoders id tick.now event) rt).schedule id tick.now

def tick (tick : Tick) : ScriptRuntime View :=
  rt.bundles.keys.foldl (fun rt id => rt.visit decoders tick id) rt

def shutdown : ScriptRuntime View := { rt with bundles := ∅ }

end ScriptRuntime

/-! ### The disk -/

/-- The `scripts` directory. -/
inductive ScriptsDirectory where
  | absent
  | unreadable (error : String)
  /-- The directories in it, in the order of their paths. -/
  | listing (bundles : AList fun _ : PathBuf => BundleDirectory)

def ScriptsDirectory.bundles : ScriptsDirectory → AList fun _ : PathBuf => BundleDirectory
  | .listing bundles => bundles
  | _ => ∅

structure Disk where
  scriptsDir : ScriptsDirectory
  scriptsPath : PathBuf
  /-- What else there is. -/
  others : Finset PathBuf

/-- `Path::exists`. -/
def Disk.contains (disk : Disk) (path : PathBuf) : Prop :=
  path ∈ disk.scriptsDir.bundles ∨ path ∈ disk.others

instance (disk : Disk) (path : PathBuf) : Decidable (disk.contains path) :=
  inferInstanceAs (Decidable (_ ∨ _))

/-- What has been found in the `scripts` directory. -/
structure Scan where
  candidates : AList fun _ : ExtensionId => List (ScriptManifest × PathBuf)
  invalidRoots : AList fun _ : PathBuf => String
  diagnostics : List String

namespace Scan

def empty : Scan := ⟨∅, ∅, []⟩

/-- The candidates with an id. -/
def entries (scan : Scan) (id : ExtensionId) : List (ScriptManifest × PathBuf) :=
  (scan.candidates.lookup id).getD []

/-- Look at one directory. -/
def look (scan : Scan) (root : PathBuf) (dir : BundleDirectory) : Scan :=
  match dir.manifestFile with
  | .absent => scan
  | _ =>
    match parseAndValidateBundle root dir with
    | .ok manifest =>
      { scan with
        candidates :=
          scan.candidates.insert manifest.id (scan.entries manifest.id ++ [(manifest, root)]) }
    | .error error =>
      { scan with
        invalidRoots := scan.invalidRoots.insert root error
        diagnostics := pushBounded maxSourceDiagnostics scan.diagnostics
          s!"failed to load script bundle at '{root.text}': {error}" }

end Scan

/-- Look at all directories. -/
def Disk.scan (disk : Disk) : Scan :=
  match disk.scriptsDir with
  | .absent => .empty
  | .unreadable error =>
    { Scan.empty with
      diagnostics := [s!"failed to read script source '{disk.scriptsPath.text}': {error}"] }
  | .listing bundles =>
    bundles.entries.foldl (fun scan entry => scan.look entry.1 entry.2) .empty

/-! ### Reconciliation -/

namespace ScriptRuntime

variable (rt : ScriptRuntime View) (decoders : Decoders View)

/-- The bundle is let go: the id has no candidate, and there is nothing at its root. -/
def isGone (disk : Disk) (scan : Scan) (id : ExtensionId) : Bool :=
  match rt.bundles.lookup id with
  | some state =>
    id ∉ scan.candidates ∧ state.bundleRoot ∉ scan.invalidRoots ∧ ¬ disk.contains state.bundleRoot
  | none => false

/-- A bundle whose root is gone is removed. -/
def prune (disk : Disk) (scan : Scan) (id : ExtensionId) : ScriptRuntime View :=
  if rt.isGone disk scan id then
    { rt with bundles := rt.bundles.erase id, breaker := rt.breaker.reset id }
  else rt

/-- The bundle is given another source; its views stay until it publishes its first record. -/
def replace (id : ExtensionId) (manifest : ScriptManifest) (root : PathBuf) (now : ℕ) :
    ScriptRuntime View :=
  match rt.bundles.lookup id with
  | none => { rt with bundles := rt.bundles.insert id (.new manifest root now) }
  | some state =>
    if state.manifest = manifest ∧ state.bundleRoot = root then rt
    else
      { rt with
        bundles := rt.bundles.insert id
          { (.new manifest root now : ScriptBundleState View) with views := state.views }
        breaker := rt.breaker.reset id }

/-- The candidates with one id. -/
def consider (active : List ExtensionId) (now : ℕ) (id : ExtensionId)
    (entries : List (ScriptManifest × PathBuf)) : ScriptRuntime View :=
  if id ∈ active then
    let paths := ", ".intercalate (entries.map (·.2.text))
    { rt.pushSourceDiagnostic (s!"script extension '{id.text}' from [{paths}] conflicts with an " ++
        "active WASM/catalog source; the script source is disabled") with
      bundles := rt.bundles.erase id }
  else
    match entries with
    | [(manifest, root)] => rt.replace id manifest root now
    | _ =>
      let paths := " and ".intercalate (entries.map (·.2.text))
      rt.pushSourceDiagnostic (s!"duplicate script extension ID '{id.text}' declared by " ++
        s!"{paths}; both candidates are disabled")

/-- What becomes of the bundles. -/
def adopt (active : List ExtensionId) (disk : Disk) (now : ℕ) : ScriptRuntime View :=
  let scan := disk.scan
  let rt := { rt with sourceDiagnostics := scan.diagnostics }
  let rt := rt.bundles.keys.foldl (fun rt id => rt.prune disk scan id) rt
  scan.candidates.entries.foldl (fun rt entry => rt.consider active now entry.1 entry.2) rt

def reconcile (active : List ExtensionId) (disk : Disk) (now : ℕ) (tick : Tick) :
    ScriptRuntime View :=
  (rt.adopt active disk now).tick decoders tick

end ScriptRuntime

/-- What is asked of the manager. -/
inductive ScriptOp where
  | reconcile (active : List ExtensionId) (disk : Disk) (now : ℕ) (tick : Tick)
  | tick (tick : Tick)
  | shutdown

def ScriptRuntime.step (decoders : Decoders View) (rt : ScriptRuntime View) :
    ScriptOp → ScriptRuntime View
  | .reconcile active disk now tick => rt.reconcile decoders active disk now tick
  | .tick tick => rt.tick decoders tick
  | .shutdown => rt.shutdown

end Shilpo.Script
