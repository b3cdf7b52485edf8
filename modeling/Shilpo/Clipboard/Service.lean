import Shilpo.Clipboard.Store
import Shilpo.Theory.Runs

/-!
# The clipboard service

`ClipboardService` of `clipboard/mod.rs`, with a store. Three operations change the history that
is published and the one that is stored, one after the other and without a lock around both:

* the monitor thread captures a selection: it loads the limit, reads the published list, publishes
  it with the item in front, and records the item;
* `clear_history` clears the store and publishes an empty list;
* `set_history_limit` stores the limit, reads the published list, publishes it truncated if it is
  longer, and prunes the store.

There is one monitor and any number of callers of the other two, each a phase in a list. `next`
takes one atomic step of one of them: the list and the limit are read and written whole, and a call
of the store is a transaction. Every call of the store succeeds.

`captured` and `since` are kept for what is proved: the ids published as captured, in order, those
stored at the start first, and how many of these there were when the last clear that has returned
was called.
-/

namespace Shilpo.Clipboard

open Shilpo.Theory

/-- `DEFAULT_CLIPBOARD_HISTORY_LIMIT`. -/
def defaultHistoryLimit : ℕ := 100

/-- Where the monitor is. -/
inductive MonitorPhase where
  | idle
  /-- The limit is loaded and the item is made. -/
  | loaded (item : ClipboardItem) (limit : ℕ)
  /-- `current` is the published list. -/
  | read (item : ClipboardItem) (limit : ℕ) (current : List ClipboardItem)
  /-- The list is published, the item is not recorded. -/
  | published (item : ClipboardItem) (limit : ℕ)
  deriving DecidableEq

/-- Where a call of `clear_history` is; `began` items had been captured when it was called. -/
inductive ClearPhase where
  | called (began : ℕ)
  /-- The store is cleared, the list is not. -/
  | emptied (began : ℕ)
  | returned
  deriving DecidableEq

/-- Where a call of `set_history_limit` is. -/
inductive LimitPhase where
  /-- The limit is stored. -/
  | stored (limit : ℕ)
  /-- `current` is the published list. -/
  | read (limit : ℕ) (current : List ClipboardItem)
  /-- The list is truncated, the store is not pruned. -/
  | truncated (limit : ℕ)
  | returned
  deriving DecidableEq

/-- The service, its store and the operations under way. -/
structure ClipboardService where
  /-- The value of the watch channel. -/
  published : List ClipboardItem
  /-- `history_limit`. -/
  historyLimit : ℕ
  /-- The store. -/
  store : ClipboardDb
  /-- The monitor. -/
  monitor : MonitorPhase
  /-- The calls of `clear_history`. -/
  clears : List ClearPhase
  /-- The calls of `set_history_limit`. -/
  limits : List LimitPhase
  /-- The ids captured, in order. -/
  captured : List String
  /-- How many were captured before the last clear to have returned was called. -/
  since : ℕ

/-- One atomic step; `i` is the call that takes it. -/
inductive ClipboardStep where
  /-- A selection is offered: the limit is loaded and the item made. -/
  | select (id : String) (content : ClipboardContent) (now : ℤ)
  | readCurrent
  | publish
  | record
  /-- `clear_history` is called. -/
  | callClear
  | clearStore (i : ℕ)
  | publishEmpty (i : ℕ)
  /-- `set_history_limit` is called and stores the limit. -/
  | setLimit (limit : ℕ)
  | readPublished (i : ℕ)
  | truncate (i : ℕ)
  | pruneStore (i : ℕ)

namespace ClipboardService

/-- `with_custom_store_and_limit`, for a store that can be read. -/
def new (store : ClipboardDb) (limit : ℕ) : ClipboardService :=
  let limit := if limit = 0 then defaultHistoryLimit else limit
  { published := store.clipboardHistory limit
    historyLimit := limit
    store := store
    monitor := .idle
    clears := []
    limits := []
    captured := store.entries.map (·.id)
    since := 0 }

/-- The list with the item in front, and not a second time, cut at the limit. -/
def promoted (current : List ClipboardItem) (item : ClipboardItem) (limit : ℕ) :
    List ClipboardItem :=
  (item :: current.eraseP (·.id = item.id)).take limit

/-- One step; a call that is not at the phase for it does nothing. -/
def next (s : ClipboardService) : ClipboardStep → ClipboardService
  | .select id content now =>
    match s.monitor with
    | .idle => { s with monitor := .loaded ⟨currentVersion, id, content, now⟩ s.historyLimit }
    | _ => s
  | .readCurrent =>
    match s.monitor with
    | .loaded item limit => { s with monitor := .read item limit s.published }
    | _ => s
  | .publish =>
    match s.monitor with
    | .read item limit current =>
      { s with
        published := promoted current item limit
        monitor := .published item limit
        captured := s.captured ++ [item.id] }
    | _ => s
  | .record =>
    match s.monitor with
    | .published item limit =>
      { s with store := s.store.recordClipboardItem item limit, monitor := .idle }
    | _ => s
  | .callClear => { s with clears := s.clears ++ [ClearPhase.called s.captured.length] }
  | .clearStore i =>
    match s.clears[i]? with
    | some (.called began) => { s with store := .empty, clears := s.clears.set i (.emptied began) }
    | _ => s
  | .publishEmpty i =>
    match s.clears[i]? with
    | some (.emptied began) =>
      { s with
        published := []
        clears := s.clears.set i .returned
        since := max s.since began }
    | _ => s
  | .setLimit limit =>
    if limit = 0 then s
    else { s with historyLimit := limit, limits := s.limits ++ [LimitPhase.stored limit] }
  | .readPublished i =>
    match s.limits[i]? with
    | some (.stored limit) => { s with limits := s.limits.set i (.read limit s.published) }
    | _ => s
  | .truncate i =>
    match s.limits[i]? with
    | some (.read limit current) =>
      { s with
        published := if limit < current.length then current.take limit else s.published
        limits := s.limits.set i (.truncated limit) }
    | _ => s
  | .pruneStore i =>
    match s.limits[i]? with
    | some (.truncated limit) =>
      { s with
        store := s.store.pruneClipboardHistory limit
        limits := s.limits.set i .returned }
    | _ => s

/-- All operations have finished. -/
def Quiet (s : ClipboardService) : Prop :=
  s.monitor = .idle ∧ (∀ phase ∈ s.clears, phase = .returned) ∧
    ∀ phase ∈ s.limits, phase = .returned

instance (s : ClipboardService) : Decidable s.Quiet := inferInstanceAs (Decidable (_ ∧ _ ∧ _))

/-- The published list is the stored history, newest first. -/
structure Agrees (s : ClipboardService) : Prop where
  atMost : s.published.length ≤ s.historyLimit
  nodup : (s.published.map ClipboardItem.id).Nodup
  same : s.published = s.store.clipboardHistory s.historyLimit

/-- Of what was captured before a clear that has returned was called, only what was captured again
is published or stored. -/
def Forgotten (s : ClipboardService) : Prop :=
  ∀ it, it ∈ s.published ∨ it ∈ s.store.entries → it.id ∈ s.captured.drop s.since

end ClipboardService

end Shilpo.Clipboard
