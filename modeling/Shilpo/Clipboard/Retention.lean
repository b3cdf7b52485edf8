import Shilpo.Clipboard.Store
import Shilpo.Theory.Ranking
import Shilpo.Theory.Runs

/-!
# What the clipboard table retains

`Retained` is what a call of the store should leave: few items, the one that was recorded among
them, and none that is older than one that had to go. The items go by the time of their copying, so
that an item whose time is not the latest may be the one that goes: `Survives` says that it does
not, and `retained_iff_survives` that everything hangs on that.
-/

namespace Shilpo.Clipboard

open Theory

/-- A call of the store, with a limit that is one. -/
inductive StoreCall where
  | recordClipboardItem (item : ClipboardItem) (maxEntries : ℕ+)
  | pruneClipboardHistory (maxEntries : ℕ+)

namespace StoreCall

def maxEntries : StoreCall → ℕ
  | recordClipboardItem _ maxEntries | pruneClipboardHistory maxEntries => maxEntries

/-- The item that is recorded. -/
def item : StoreCall → Option ClipboardItem
  | recordClipboardItem item _ => some item
  | pruneClipboardHistory _ => none

end StoreCall

/-- `it` comes before `item`, where the newest come first. -/
def Newer (it item : ClipboardItem) : Prop :=
  KeyLex ClipboardItem.lastCopiedAt (fun a b => a.id < b.id) item it

instance : DecidableRel Newer := fun _ _ => inferInstanceAs (Decidable (_ ∨ _ ∧ _))

theorem Newer.not_symm (a b : ClipboardItem) (h : Newer a b) : ¬ Newer b a := by
  rintro (hlt | ⟨heq, hid⟩)
  · exact absurd (KeyLex.le h) (not_le_of_gt hlt)
  · obtain hlt | ⟨-, hid'⟩ := h
    · exact absurd hlt heq.not_gt
    · exact absurd hid hid'.asymm

namespace ClipboardDb

def step (db : ClipboardDb) : StoreCall → ClipboardDb
  | .recordClipboardItem item maxEntries => db.recordClipboardItem item maxEntries
  | .pruneClipboardHistory maxEntries => db.pruneClipboardHistory maxEntries

variable (db : ClipboardDb)

/-- The items of the current version. -/
def current : List ClipboardItem := db.entries.filter (·.version = currentVersion)

/-- What a call should leave in the table. -/
structure Retained (call : StoreCall) : Prop where
  small : (db.step call).current.length ≤ call.maxEntries
  recorded : ∀ item ∈ call.item, item ∈ (db.step call).current
  /-- What has gone, and has not been replaced, is not newer than what is left. -/
  oldest : ∀ it ∈ db.current, it ∉ (db.step call).current →
    (∀ item ∈ call.item, it.id ≠ item.id) →
    ∀ kept ∈ (db.step call).current, it.lastCopiedAt ≤ kept.lastCopiedAt
  others : ∀ it, it.version ≠ currentVersion → (it ∈ (db.step call).entries ↔ it ∈ db.entries)
  /-- All that is left is read, each once. -/
  history : ((db.step call).clipboardHistory call.maxEntries).Perm (db.step call).current
  distinct : (((db.step call).clipboardHistory call.maxEntries).map ClipboardItem.id).Nodup
  newestFirst : ((db.step call).clipboardHistory call.maxEntries).Pairwise fun a b =>
    b.lastCopiedAt ≤ a.lastCopiedAt

/-- The item to be recorded is of the current version, takes the place of none of another, and is
among the newest. -/
def Survives : StoreCall → Prop
  | .recordClipboardItem item maxEntries =>
    item.version = currentVersion ∧
    (∀ it ∈ db.entries, it.id = item.id → it.version = currentVersion) ∧
    (db.current.filter fun it => it.id ≠ item.id ∧ Newer it item).length < maxEntries
  | .pruneClipboardHistory _ => True

instance (call : StoreCall) : Decidable (db.Survives call) :=
  match call with
  | .recordClipboardItem .. => inferInstanceAs (Decidable (_ ∧ _ ∧ _))
  | .pruneClipboardHistory _ => .isTrue trivial

variable {db} {item it : ClipboardItem} {n : ℕ}

/-! ### The newest -/

theorem mem_current : it ∈ db.current ↔ it ∈ db.newest := by
  rw [mem_newest, current, List.mem_filter, decide_eq_true_eq]

theorem perm_newest : db.newest.Perm db.current :=
  (List.reverse_perm _).trans (perm_sortByKey _)

/-- The ids are in strict order. -/
theorem pairwise_id (db : ClipboardDb) : db.entries.Pairwise fun a b => a.id < b.id := by
  have hne : db.entries.Pairwise fun a b => a.id ≠ b.id := List.pairwise_map.mp db.nodup
  exact (db.sorted.and hne).imp fun h => lt_of_le_of_ne h.1 h.2

theorem pairwise_newest (db : ClipboardDb) : db.newest.Pairwise Newer := by
  rw [newest, List.pairwise_reverse]
  exact pairwise_lex_sortByKey (db.pairwise_id.filter _)

/-! ### What a call leaves -/

/-- The table before what is too much is deleted. -/
def entered (db : ClipboardDb) : StoreCall → ClipboardDb
  | .recordClipboardItem item _ => db.put item
  | .pruneClipboardHistory _ => db

theorem step_eq (db : ClipboardDb) (call : StoreCall) :
    db.step call = (db.entered call).pruneClipboardHistory call.maxEntries := by
  cases call <;> rfl

theorem newest_step (db : ClipboardDb) (call : StoreCall) :
    (db.step call).newest = (db.entered call).newest.take call.maxEntries := by
  rw [step_eq, newest_pruneClipboardHistory]

/-- What has not been replaced is there until it is deleted. -/
theorem mem_newest_entered {call : StoreCall} (h : it ∈ db.current)
    (hne : ∀ item ∈ call.item, it.id ≠ item.id) : it ∈ (db.entered call).newest := by
  cases call with
  | recordClipboardItem item maxEntries =>
    obtain ⟨hit, hversion⟩ := mem_newest.mp (mem_current.mp h)
    exact mem_newest.mpr ⟨mem_entries_put.mpr (.inr ⟨hit, hne item rfl⟩), hversion⟩
  | pruneClipboardHistory maxEntries => exact mem_current.mp h

/-- Only items of the current version are deleted. -/
theorem mem_entries_pruneClipboardHistory (hversion : it.version ≠ currentVersion) :
    it ∈ (db.pruneClipboardHistory n).entries ↔ it ∈ db.entries := by
  refine ⟨entries_pruneClipboardHistory n it, fun hit => ?_⟩
  rw [pruneClipboardHistory]
  split
  · rw [deleteAll, List.mem_filter, decide_eq_true_eq]
    refine ⟨hit, fun hid => ?_⟩
    obtain ⟨it', hit', hid⟩ := List.mem_map.mp hid
    have hcurrent := mem_newest.mp (List.mem_reverse.mpr (List.mem_of_mem_take hit'))
    have heq := List.inj_on_of_nodup_map db.nodup hcurrent.1 hit hid
    exact hversion (heq ▸ hcurrent.2)
  · exact hit

/-- The table as it is read after a call: at most so many, the newest, and each once. -/
theorem clipboardHistory_step (db : ClipboardDb) (call : StoreCall) :
    (db.step call).clipboardHistory call.maxEntries = (db.step call).newest := by
  rw [clipboardHistory, newest_step, List.take_take, min_self]

/-- An item that has gone is not newer than one that is left. -/
theorem lastCopiedAt_le_of_gone {call : StoreCall} {kept : ClipboardItem} (h : it ∈ db.current)
    (hgone : it ∉ (db.step call).current) (hne : ∀ item ∈ call.item, it.id ≠ item.id)
    (hkept : kept ∈ (db.step call).current) : it.lastCopiedAt ≤ kept.lastCopiedAt := by
  rw [mem_current, newest_step] at hgone hkept
  have hit := mem_newest_entered h hne
  rw [← List.take_append_drop call.maxEntries (db.entered call).newest, List.mem_append] at hit
  have horder := pairwise_newest (db.entered call)
  rw [← List.take_append_drop call.maxEntries (db.entered call).newest,
    List.pairwise_append] at horder
  exact (horder.2.2 kept hkept it (hit.resolve_left hgone)).le

/-- Most of what a call should leave it leaves always. -/
theorem retained_of_recorded {call : StoreCall}
    (hrecorded : ∀ item ∈ call.item, item ∈ (db.step call).current)
    (hothers : ∀ it, it.version ≠ currentVersion →
      (it ∈ (db.step call).entries ↔ it ∈ db.entries)) : db.Retained call where
  small := by
    rw [← perm_newest.length_eq, newest_step]
    exact List.length_take_le _ _
  recorded := hrecorded
  oldest := fun it hit hgone hne kept hkept => lastCopiedAt_le_of_gone hit hgone hne hkept
  others := hothers
  history := by
    rw [clipboardHistory_step]
    exact perm_newest
  distinct := by
    rw [clipboardHistory_step]
    exact nodup_newest
  newestFirst := by
    rw [clipboardHistory_step]
    exact (pairwise_newest _).imp fun h => h.le

/-! ### The item that is recorded -/

/-- The items that come before the one that has been put in were there before. -/
theorem filter_newer_put (hversion : item.version = currentVersion) :
    ((db.put item).newest.filter (Newer · item)).length =
      (db.current.filter fun it => it.id ≠ item.id ∧ Newer it item).length := by
  have hperm : (db.put item).newest.Perm (item :: (db.entries.filter (·.id ≠ item.id)).filter
      (·.version = currentVersion)) := by
    refine perm_newest.trans (((List.perm_orderedInsert _ _ _).filter _).trans ?_)
    rw [List.filter_cons_of_pos (by simpa using hversion)]
  have hself : ¬ Newer item item := fun h => h.not_symm _ _ h
  rw [(hperm.filter _).length_eq, List.filter_cons_of_neg (by simpa using hself), current,
    List.filter_filter, List.filter_filter, List.filter_filter]
  refine congrArg List.length (List.filter_congr fun it _ => ?_)
  simp only [Bool.decide_and]
  ac_rfl

theorem mem_current_recordClipboardItem_iff {maxEntries : ℕ+}
    (hversion : item.version = currentVersion) :
    item ∈ (db.recordClipboardItem item maxEntries).current ↔
      (db.current.filter fun it => it.id ≠ item.id ∧ Newer it item).length < maxEntries := by
  have hput : item ∈ (db.put item).newest :=
    mem_newest.mpr ⟨mem_entries_put.mpr (.inl rfl), hversion⟩
  rw [mem_current, recordClipboardItem, newest_pruneClipboardHistory,
    mem_take_iff_rank Newer.not_symm (pairwise_newest _) hput,
    filter_newer_put hversion]

/-- An item of another version stays, unless the item that is recorded takes its place. -/
theorem mem_entries_recordClipboardItem_iff {maxEntries : ℕ+}
    (hitem : item.version = currentVersion) (hversion : it.version ≠ currentVersion) :
    it ∈ (db.recordClipboardItem item maxEntries).entries ↔ it ∈ db.entries ∧ it.id ≠ item.id := by
  rw [recordClipboardItem, mem_entries_pruneClipboardHistory hversion, mem_entries_put]
  refine or_iff_right ?_
  rintro rfl
  exact hversion hitem

/-- **A call leaves what it should exactly when the item that is recorded survives it.** -/
theorem retained_iff_survives (db : ClipboardDb) (call : StoreCall) :
    db.Retained call ↔ db.Survives call := by
  cases call with
  | pruneClipboardHistory maxEntries =>
    refine iff_of_true (retained_of_recorded (fun item hitem => by cases hitem) ?_) trivial
    exact fun it hversion => mem_entries_pruneClipboardHistory hversion
  | recordClipboardItem item maxEntries =>
    constructor
    · intro h
      have hitem := h.recorded item rfl
      have hversion : item.version = currentVersion := (mem_newest.mp (mem_current.mp hitem)).2
      refine ⟨hversion, fun it hit hid => ?_, ?_⟩
      · by_contra hother
        have hstays := (h.others it hother).mpr hit
        exact ((mem_entries_recordClipboardItem_iff hversion hother).mp hstays).2 hid
      · exact (mem_current_recordClipboardItem_iff hversion).mp hitem
    · rintro ⟨hversion, hplace, hrank⟩
      refine retained_of_recorded ?_ fun it hother => ?_
      · rintro _ ⟨⟩
        exact (mem_current_recordClipboardItem_iff hversion).mpr hrank
      · refine (mem_entries_recordClipboardItem_iff hversion hother).trans ?_
        exact and_iff_left_of_imp fun hit hid => hother (hplace it hit hid)

/-- **A run leaves what it should exactly when every item survives its own recording.** -/
theorem run_retained_iff_survives (db : ClipboardDb) (calls : List StoreCall) :
    Along step Retained db calls ↔ Along step Survives db calls :=
  along_congr (I := fun _ => True) (fun _ _ _ => trivial)
    (fun db call _ => retained_iff_survives db call) trivial calls

/-! ### A clock that is put back -/

/-- A text that was copied at this time. -/
def copiedAt (id : String) (time : ℤ) : ClipboardItem := ⟨currentVersion, id, .text id, time⟩

/-- The item of the earlier time is deleted as soon as it is put in. -/
theorem not_retained_earlier :
    ¬ Along step Retained empty
      [.recordClipboardItem (copiedAt "b" 2) 1, .recordClipboardItem (copiedAt "a" 1) 1] := by
  rintro ⟨-, hretained, -⟩
  have hitem := mem_current.mp (hretained.recorded _ rfl)
  revert hitem
  decide +kernel

end ClipboardDb

end Shilpo.Clipboard
