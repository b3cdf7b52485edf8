import Shilpo.Theory.Sorting

/-!
# The stored clipboard history

The table `clipboard_history` of `session_store.rs`: LMDB keeps the items in the order of their
ids, which are hashes of their content, and one item for each. `record_clipboard_item` puts an
item in and deletes the oldest that are too many, `prune_clipboard_history` only the latter,
`clipboard_history` reads the newest. Each is one transaction. Items of another version than the
current one are neither read nor counted.

`newest_recordClipboardItem` and `newest_pruneClipboardHistory` say what the first two
do to the history, newest first: the item goes to the front, if it is the latest one, and the list
is cut at the limit. The callers have limits that are not zero, so that no call is an error.
-/

namespace Shilpo.Clipboard

open Shilpo.Theory

/-! ### Items -/

/-- What was copied. -/
inductive ClipboardContent where
  | text (text : String)
  | fileReference (paths : List String)
  | image
  deriving DecidableEq

/-- An item of the history; `id` is the hash of the content. -/
structure ClipboardItem where
  version : UInt8
  id : String
  content : ClipboardContent
  lastCopiedAt : ℤ
  deriving DecidableEq

/-- `ClipboardItem::CURRENT_VERSION`. -/
def currentVersion : UInt8 := 1

/-! ### The table -/

/-- The items in the order of their ids, one for each id. -/
structure ClipboardDb where
  entries : List ClipboardItem
  sorted : entries.Pairwise (KeyLE ClipboardItem.id)
  nodup : (entries.map ClipboardItem.id).Nodup

namespace ClipboardDb

/-- `clear`: nothing is stored. -/
def empty : ClipboardDb := ⟨[], List.Pairwise.nil, List.nodup_nil⟩

/-- `put`: the item is stored in the place of the one with its id. -/
def put (db : ClipboardDb) (item : ClipboardItem) : ClipboardDb where
  entries := (db.entries.filter (·.id ≠ item.id)).orderedInsert (KeyLE ClipboardItem.id) item
  sorted := List.Pairwise.orderedInsert _ _ (db.sorted.filter _)
  nodup := by
    rw [((List.perm_orderedInsert _ _ _).map _).nodup_iff, List.map_cons, List.nodup_cons]
    refine ⟨fun hmem => ?_, db.nodup.sublist (List.filter_sublist.map _)⟩
    obtain ⟨it, hit, hid⟩ := List.mem_map.mp hmem
    exact of_decide_eq_true (List.mem_filter.mp hit).2 hid

/-- `delete` for each of these keys. -/
def deleteAll (db : ClipboardDb) (keys : List String) : ClipboardDb where
  entries := db.entries.filter (·.id ∉ keys)
  sorted := db.sorted.filter _
  nodup := db.nodup.sublist (List.filter_sublist.map _)

/-- The items of the current version, oldest first. -/
def oldestFirst (db : ClipboardDb) : List ClipboardItem :=
  sortByKey ClipboardItem.lastCopiedAt (db.entries.filter (·.version = currentVersion))

/-- `prune_clipboard_history`: the oldest that are too many are deleted. -/
def pruneClipboardHistory (db : ClipboardDb) (maxEntries : ℕ) : ClipboardDb :=
  if maxEntries < db.oldestFirst.length then
    db.deleteAll ((db.oldestFirst.take (db.oldestFirst.length - maxEntries)).map ClipboardItem.id)
  else db

/-- `record_clipboard_item`. -/
def recordClipboardItem (db : ClipboardDb) (item : ClipboardItem) (maxEntries : ℕ) : ClipboardDb :=
  (db.put item).pruneClipboardHistory maxEntries

/-- The items of the current version, newest first. -/
def newest (db : ClipboardDb) : List ClipboardItem := db.oldestFirst.reverse

/-- `clipboard_history`. -/
def clipboardHistory (db : ClipboardDb) (maxEntries : ℕ) : List ClipboardItem :=
  db.newest.take maxEntries

/-! ### What the operations do to the history -/

variable {db : ClipboardDb}

@[simp] theorem newest_empty : empty.newest = [] := rfl

theorem mem_newest {item : ClipboardItem} :
    item ∈ db.newest ↔ item ∈ db.entries ∧ item.version = currentVersion := by
  rw [newest, List.mem_reverse, oldestFirst, mem_sortByKey, List.mem_filter, decide_eq_true_iff]

theorem nodup_oldestFirst : (db.oldestFirst.map ClipboardItem.id).Nodup :=
  ((perm_sortByKey _).map _).nodup_iff.mpr (db.nodup.sublist (List.filter_sublist.map _))

theorem nodup_newest : (db.newest.map ClipboardItem.id).Nodup := by
  rw [newest, List.map_reverse, List.nodup_reverse]
  exact nodup_oldestFirst

theorem mem_entries_put {item it : ClipboardItem} :
    it ∈ (db.put item).entries ↔ it = item ∨ it ∈ db.entries ∧ it.id ≠ item.id := by
  rw [put, List.mem_orderedInsert, List.mem_filter, decide_eq_true_iff]

theorem entries_pruneClipboardHistory (maxEntries : ℕ) :
    ∀ it ∈ (db.pruneClipboardHistory maxEntries).entries, it ∈ db.entries := by
  intro it hit
  rw [pruneClipboardHistory] at hit
  split at hit
  · exact List.mem_of_mem_filter hit
  · exact hit

/-- Of a list without repeated ids, the ids of the first `n` are those of the first `n` only. -/
theorem filter_notMem_take {l : List ClipboardItem} (hl : (l.map ClipboardItem.id).Nodup) (n : ℕ) :
    l.filter (·.id ∉ (l.take n).map ClipboardItem.id) = l.drop n := by
  have hsplit : l.take n ++ l.drop n = l := List.take_append_drop n l
  have hdisjoint : ∀ a ∈ l.take n, ∀ b ∈ l.drop n, a.id ≠ b.id := by
    rw [← hsplit, List.map_append, List.nodup_append] at hl
    intro a ha b hb
    exact hl.2.2 a.id (List.mem_map_of_mem ha) b.id (List.mem_map_of_mem hb)
  conv_lhs => rw [← hsplit]
  rw [List.filter_append, hsplit]
  have htake : (l.take n).filter (·.id ∉ (l.take n).map ClipboardItem.id) = [] := by
    rw [List.filter_eq_nil_iff]
    intro a ha hnot
    exact of_decide_eq_true hnot (List.mem_map_of_mem ha)
  have hdrop : (l.drop n).filter (·.id ∉ (l.take n).map ClipboardItem.id) = l.drop n := by
    rw [List.filter_eq_self]
    intro b hb
    refine decide_eq_true fun hmem => ?_
    obtain ⟨a, ha, hid⟩ := List.mem_map.mp hmem
    exact hdisjoint a ha b hb hid
  rw [htake, hdrop, List.nil_append]

theorem oldestFirst_deleteAll (keys : List String) :
    (db.deleteAll keys).oldestFirst = db.oldestFirst.filter (·.id ∉ keys) := by
  rw [oldestFirst, oldestFirst, deleteAll, filter_sortByKey, List.filter_comm]

/-- **Pruning cuts the history at the limit.** -/
theorem newest_pruneClipboardHistory (maxEntries : ℕ) :
    (db.pruneClipboardHistory maxEntries).newest = db.newest.take maxEntries := by
  rw [pruneClipboardHistory]
  by_cases hmore : maxEntries < db.oldestFirst.length
  · rw [if_pos hmore, newest, oldestFirst_deleteAll, filter_notMem_take nodup_oldestFirst, newest,
      List.take_reverse]
  · rw [if_neg hmore, List.take_of_length_le]
    rw [newest, List.length_reverse]
    exact not_lt.mp hmore

/-- **The latest item goes to the front.** -/
theorem newest_put {item : ClipboardItem} (hversion : item.version = currentVersion)
    (hlatest : ∀ it ∈ db.newest, it.lastCopiedAt < item.lastCopiedAt) :
    (db.put item).newest = item :: db.newest.filter (·.id ≠ item.id) := by
  obtain ⟨l, r, hput, hothers⟩ : ∃ l r, (db.put item).entries = l ++ item :: r ∧
      db.entries.filter (·.id ≠ item.id) = l ++ r :=
    ⟨_, _, List.orderedInsert_eq_take_drop _ _ _, (List.takeWhile_append_dropWhile).symm⟩
  have hlater : ∀ it ∈ l.filter (·.version = currentVersion) ++
      r.filter (·.version = currentVersion), it.lastCopiedAt < item.lastCopiedAt := by
    intro it hit
    rw [← List.filter_append, ← hothers, List.mem_filter] at hit
    exact hlatest it (mem_newest.mpr ⟨List.mem_of_mem_filter hit.1, of_decide_eq_true hit.2⟩)
  rw [newest, oldestFirst, hput, List.filter_append,
    List.filter_cons_of_pos (by simpa using hversion), sortByKey_insert_last hlater,
    List.reverse_append, List.reverse_singleton, List.singleton_append, ← List.filter_append,
    ← hothers, List.filter_comm, ← filter_sortByKey, newest, oldestFirst, List.filter_reverse]

theorem newest_recordClipboardItem {item : ClipboardItem} {maxEntries : ℕ}
    (hversion : item.version = currentVersion)
    (hlatest : ∀ it ∈ db.newest, it.lastCopiedAt < item.lastCopiedAt) :
    (db.recordClipboardItem item maxEntries).newest =
      (item :: db.newest.filter (·.id ≠ item.id)).take maxEntries := by
  rw [recordClipboardItem, newest_pruneClipboardHistory, newest_put hversion hlatest]

end ClipboardDb

end Shilpo.Clipboard
