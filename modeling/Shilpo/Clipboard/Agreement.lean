import Shilpo.Clipboard.Service

/-!
# The two histories agree

Once all operations have finished, the published list is to be the stored history, at most as long
as the limit, and nothing that was cleared is to be in either. In a run whose steps are `Orderly`
that is so (`agrees_of_orderly`). The conditions say where the operations may not meet:

* a list is published only in the place of the one that it was made from;
* a capture does not publish and record around a clear of the store, nor publish while a clear
  has emptied the store and not the list;
* a capture does not publish under a limit higher than the current one or one that is being set,
  and the store is not pruned below the limit of a capture that is yet to be recorded;
* a limit is raised only while nothing is stored that is not shown, which is not so after a start
  with a longer history;
* the clock has gone on since the items stored.

The invariant compares the published list with the store as it will be when the capture under way
is recorded (`expected`).
-/

namespace Shilpo.Clipboard

open Shilpo.Theory

/-! ### Lists -/

section Lists

variable {α : Type*} {l l' : List α} {p : α → Bool}

theorem prefix_eraseP (h : l <+: l') : l.eraseP p <+: l'.eraseP p := by
  obtain ⟨rest, rfl⟩ := h
  by_cases hp : ∃ a ∈ l, p a = true
  · obtain ⟨a, ha, hpa⟩ := hp
    rw [List.eraseP_append_left hpa _ ha]
    exact List.prefix_append _ _
  · have hnone : ∀ a ∈ l, ¬ p a = true := fun a ha hpa => hp ⟨a, ha, hpa⟩
    rw [List.eraseP_append_right _ hnone, List.eraseP_of_forall_not hnone]
    exact List.prefix_append _ _

theorem take_eq_of_isPrefix (h : l <+: l') {n : ℕ} (hn : n ≤ l.length) : l.take n = l'.take n := by
  obtain ⟨rest, rfl⟩ := h
  exact (List.take_append_of_le_length hn).symm

theorem eq_of_isPrefix (h : l <+: l') (hlength : l'.length ≤ l.length) : l = l' :=
  h.eq_of_length (le_antisymm h.length_le hlength)

theorem mem_set_of_mem {a b c : α} {i : ℕ} (ha : a ∈ l) (hi : l[i]? = some c) (hne : a ≠ c) :
    a ∈ l.set i b := by
  obtain ⟨j, hj⟩ := List.mem_iff_getElem?.mp ha
  have hij : i ≠ j := by
    rintro rfl
    exact hne (Option.some.inj (hj.symm.trans hi))
  exact List.mem_iff_getElem?.mpr ⟨j, by rw [List.getElem?_set_ne hij, hj]⟩

/-- What is not changed by a new element in the place of an old one. -/
theorem map_set_of_eq {β : Type*} (f : α → β) {b c : α} {i : ℕ} (hi : l[i]? = some c)
    (hf : f b = f c) : (l.set i b).map f = l.map f := by
  obtain ⟨hlt, hget⟩ := List.getElem?_eq_some_iff.mp hi
  refine List.ext_getElem? fun j => ?_
  rw [List.getElem?_map, List.getElem?_map, List.getElem?_set]
  by_cases hij : i = j
  · subst hij
    rw [if_pos rfl, if_pos hlt, hi, Option.map_some, Option.map_some, hf]
  · rw [if_neg hij]

end Lists

/-! ### Putting an item in front -/

namespace ClipboardService

variable {current : List ClipboardItem} {item : ClipboardItem} {limit : ℕ}

theorem eraseP_id (h : (current.map ClipboardItem.id).Nodup) (id : String) :
    current.eraseP (·.id = id) = current.filter (·.id ≠ id) := by
  induction current with
  | nil => rfl
  | cons it current ih =>
    rw [List.map_cons, List.nodup_cons] at h
    by_cases hid : it.id = id
    · rw [List.eraseP_cons_of_pos (by simpa using hid), List.filter_cons_of_neg (by simpa using hid)]
      refine (List.filter_eq_self.mpr fun other hother => ?_).symm
      refine decide_eq_true (p := other.id ≠ id) fun heq => h.1 ?_
      rw [hid, ← heq]
      exact List.mem_map_of_mem hother
    · rw [List.eraseP_cons_of_neg (by simpa using hid), List.filter_cons_of_pos (by simpa using hid),
        ih h.2]

theorem newest_record {db : ClipboardDb} (hversion : item.version = currentVersion)
    (hlatest : ∀ it ∈ db.newest, it.lastCopiedAt < item.lastCopiedAt) :
    (db.recordClipboardItem item limit).newest = promoted db.newest item limit := by
  rw [ClipboardDb.newest_recordClipboardItem hversion hlatest, promoted,
    eraseP_id ClipboardDb.nodup_newest]

theorem promoted_isPrefix {current' : List ClipboardItem} (h : current <+: current') :
    promoted current item limit <+: promoted current' item limit :=
  ((List.prefix_cons_inj item).mpr (prefix_eraseP h)).take limit

theorem length_promoted_le : (promoted current item limit).length ≤ limit := by
  rw [promoted, List.length_take]
  exact min_le_left _ _

theorem length_promoted_of_le (h : limit ≤ current.length) :
    (promoted current item limit).length = limit := by
  have herase := List.le_length_eraseP (p := fun it : ClipboardItem => decide (it.id = item.id))
    (l := current)
  rw [promoted, List.length_take, List.length_cons]
  omega

/-- What is cut away beyond the limit of the capture makes no difference to it. -/
theorem promoted_take {n : ℕ} (h : limit ≤ n) :
    promoted (current.take n) item limit = promoted current item limit := by
  by_cases hlong : current.length ≤ n
  · rw [List.take_of_length_le hlong]
  · refine take_eq_of_isPrefix ((List.prefix_cons_inj item).mpr
      (prefix_eraseP ( List.take_prefix n current))) ?_
    have herase := List.le_length_eraseP (p := fun it : ClipboardItem => decide (it.id = item.id))
      (l := current.take n)
    rw [List.length_take] at herase
    rw [List.length_cons]
    omega

theorem mem_promoted {it : ClipboardItem} (h : it ∈ promoted current item limit) :
    it = item ∨ it ∈ current := by
  rcases List.mem_cons.mp (List.mem_of_mem_take h) with rfl | hmem
  · exact .inl rfl
  · exact .inr (List.mem_of_mem_eraseP hmem)

end ClipboardService

theorem ClipboardDb.newest_of_entries {db : ClipboardDb} (h : db.entries = []) :
    db.newest = [] := by
  rw [newest, oldestFirst, h]
  rfl

/-! ### What the operations under way still do -/

/-- The limit that a call is setting. -/
def LimitPhase.limit? : LimitPhase → Option ℕ
  | .stored limit | .read limit _ | .truncated limit => some limit
  | .returned => none

/-- The limit that a call has not truncated the list to. -/
def LimitPhase.untruncated? : LimitPhase → Option ℕ
  | .stored limit | .read limit _ => some limit
  | .truncated _ | .returned => none

/-- The item of the capture under way. -/
def MonitorPhase.item? : MonitorPhase → Option ClipboardItem
  | .idle => none
  | .loaded item _ | .read item _ _ | .published item _ => some item

/-- A captured item is published and not recorded. -/
def MonitorPhase.recording : MonitorPhase → Prop
  | .published _ _ => True
  | _ => False

namespace ClipboardService

variable {s : ClipboardService}

/-- The limit is being set: the store is yet to be pruned to it. -/
def Pending (s : ClipboardService) (limit : ℕ) : Prop := some limit ∈ s.limits.map LimitPhase.limit?

/-- A clear has emptied the store and not the list. -/
def Emptying (s : ClipboardService) : Prop := ∃ began, .emptied began ∈ s.clears

/-- The stored history as it will be when the capture under way is recorded. -/
def expected (s : ClipboardService) : List ClipboardItem :=
  match s.monitor with
  | .published item limit => promoted s.store.newest item limit
  | _ => s.store.newest

/-- As much as the limit allows is shown of what is stored, or will be when it has been pruned. -/
def Shows (s : ClipboardService) (limit : ℕ) : Prop :=
  s.expected.length ≤ s.published.length ∨ limit ≤ s.published.length ∨
    ∃ l, s.Pending l ∧ l ≤ s.published.length

/-- Operations meet only where they do not harm each other. -/
def Orderly (s : ClipboardService) : ClipboardStep → Prop
  | .select _ _ now => s.monitor = .idle → ∀ it ∈ s.store.newest, it.lastCopiedAt < now
  | .publish =>
    match s.monitor with
    | .read _ limit current =>
      s.published = current ∧ ¬ s.Emptying ∧ limit ≤ s.historyLimit ∧
        ∀ l, s.Pending l → limit ≤ l
    | _ => True
  | .clearStore _ => ¬ s.monitor.recording
  | .setLimit limit => limit ≠ 0 → s.Shows limit
  | .truncate i =>
    match s.limits[i]? with
    | some (.read limit current) => limit < current.length → s.published = current
    | _ => True
  | .pruneStore i =>
    match s.limits[i]?, s.monitor with
    | some (.truncated l), .published _ limit => limit ≤ l
    | _, _ => True
  | _ => True

/-! ### The invariant -/

/-- The published list against the store, while no clear is between its two steps. -/
structure Coherent (s : ClipboardService) : Prop where
  shown : s.published <+: s.expected
  within : s.published.length ≤ s.historyLimit ∨
    ∃ l, some l ∈ s.limits.map LimitPhase.untruncated? ∧ l ≤ s.historyLimit
  whole : s.Shows s.historyLimit
  cut : ∀ l, .truncated l ∈ s.limits → s.published.length ≤ l

/-- What holds all the time. -/
structure Inv (s : ClipboardService) : Prop where
  latest : ∀ item, s.monitor.item? = some item → item.version = currentVersion ∧
    ∀ it ∈ s.store.newest, it.lastCopiedAt < item.lastCopiedAt
  short : ∀ l current, .read l current ∈ s.limits → current.length ≤ l → s.published.length ≤ l
  emptied : s.Emptying → s.store.entries = [] ∧ ¬ s.monitor.recording
  coherent : ¬ s.Emptying → s.Coherent
  began : ∀ n, .called n ∈ s.clears ∨ .emptied n ∈ s.clears → n ≤ s.captured.length
  since : s.since ≤ s.captured.length
  forgotten : s.Forgotten
  recorded : ∀ item limit, s.monitor = .published item limit →
    item.id ∈ s.captured.drop s.since

/-- When all operations have finished, the invariant says that the histories agree. -/
theorem Inv.agrees (h : s.Inv) (hquiet : s.Quiet) : s.Agrees := by
  obtain ⟨hmonitor, hclears, hlimits⟩ := hquiet
  have hnone : ¬ s.Emptying := by
    rintro ⟨began, hmem⟩
    cases hclears _ hmem
  have hpending : ∀ l, ¬ s.Pending l := by
    intro l hl
    obtain ⟨phase, hmem, hphase⟩ := List.mem_map.mp hl
    rw [hlimits phase hmem] at hphase
    cases hphase
  have hexpected : s.expected = s.store.newest := by rw [expected, hmonitor]
  obtain ⟨hshown, hwithin, hwhole, -⟩ := h.coherent hnone
  rw [hexpected] at hshown
  have hatMost : s.published.length ≤ s.historyLimit := by
    rcases hwithin with hle | ⟨l, hl, -⟩
    · exact hle
    · obtain ⟨phase, hmem, hphase⟩ := List.mem_map.mp hl
      rw [hlimits phase hmem] at hphase
      cases hphase
  have hsame : s.published = s.store.newest.take s.historyLimit := by
    rcases hwhole with hlong | hlong | ⟨l, hl, -⟩
    · rw [hexpected] at hlong
      rw [← eq_of_isPrefix hshown hlong, List.take_of_length_le hatMost]
    · rw [← take_eq_of_isPrefix hshown hlong, List.take_of_length_le hatMost]
    · exact absurd hl (hpending l)
  refine ⟨hatMost, ?_, hsame⟩
  rw [hsame]
  exact ClipboardDb.nodup_newest.sublist ((List.take_sublist _ _).map _)

theorem inv_new (store : ClipboardDb) (limit : ℕ) : (new store limit).Inv where
  latest := fun _ hitem => by cases hitem
  short := fun _ _ hmem => absurd hmem List.not_mem_nil
  emptied := fun ⟨_, hmem⟩ => absurd hmem List.not_mem_nil
  coherent := fun _ =>
    { shown := List.take_prefix _ _
      within := .inl (by
        rw [new, ClipboardDb.clipboardHistory, List.length_take]
        exact min_le_left _ _)
      whole := by
        rcases le_total (new store limit).historyLimit store.newest.length with hle | hle
        · refine .inr (.inl (le_of_eq ?_))
          exact (List.length_take_of_le hle).symm
        · refine .inl (le_of_eq ?_)
          exact (congrArg List.length (List.take_of_length_le hle)).symm
      cut := fun _ hmem => absurd hmem List.not_mem_nil }
  began := fun _ hmem => by rcases hmem with hmem | hmem <;> exact absurd hmem List.not_mem_nil
  since := Nat.zero_le _
  forgotten := by
    rintro it (hit | hit)
    · exact List.mem_map_of_mem (ClipboardDb.mem_newest.mp (List.mem_of_mem_take hit)).1
    · exact List.mem_map_of_mem hit
  recorded := fun _ _ hmonitor => by cases hmonitor

/-! ### The steps of the monitor -/

theorem expected_of_not_recording (h : ¬ s.monitor.recording) : s.expected = s.store.newest := by
  rw [expected]
  cases hmonitor : s.monitor with
  | published item limit =>
    rw [hmonitor] at h
    exact absurd trivial h
  | idle | loaded | read => rfl

variable {s' : ClipboardService}

theorem Shows.of_eq {limit : ℕ} (h : s.Shows limit) (hpublished : s'.published = s.published)
    (hexpected : s'.expected = s.expected)
    (hlimits : s'.limits.map LimitPhase.limit? = s.limits.map LimitPhase.limit?) :
    s'.Shows limit := by
  have hpending : ∀ l, s.Pending l → s'.Pending l := by
    intro l hl
    rw [Pending, hlimits]
    exact hl
  rw [Shows, hpublished, hexpected]
  rcases h with hlong | hlong | ⟨l, hl, hlong⟩
  · exact .inl hlong
  · exact .inr (.inl hlong)
  · exact .inr (.inr ⟨l, hpending l hl, hlong⟩)

theorem Coherent.of_eq (h : s.Coherent) (hpublished : s'.published = s.published)
    (hexpected : s'.expected = s.expected) (hlimit : s'.historyLimit = s.historyLimit)
    (hlimits : s'.limits = s.limits) :
    s'.Coherent where
  shown := by rw [hpublished, hexpected]; exact h.shown
  within := by rw [hpublished, hlimit, hlimits]; exact h.within
  whole := by
    rw [hlimit]
    exact h.whole.of_eq hpublished hexpected (by rw [hlimits])
  cut := by rw [hpublished, hlimits]; exact h.cut

/-- The monitor goes on, and publishes and records nothing. -/
theorem Inv.monitor (h : s.Inv) {phase : MonitorPhase} (hwas : ¬ s.monitor.recording)
    (his : ¬ phase.recording)
    (hlatest : ∀ item, phase.item? = some item → item.version = currentVersion ∧
      ∀ it ∈ s.store.newest, it.lastCopiedAt < item.lastCopiedAt) :
    Inv { s with monitor := phase } where
  latest := hlatest
  short := h.short
  emptied := fun hemptying => ⟨(h.emptied hemptying).1, his⟩
  coherent := fun hnone => (h.coherent hnone).of_eq rfl
    ((expected_of_not_recording his).trans (expected_of_not_recording hwas).symm) rfl rfl
  began := h.began
  since := h.since
  forgotten := h.forgotten
  recorded := by
    rintro item limit rfl
    exact absurd trivial his

theorem Inv.select (h : s.Inv) {id : String} {content : ClipboardContent} {now : ℤ}
    (ho : s.Orderly (.select id content now)) : (s.next (.select id content now)).Inv := by
  cases hmonitor : s.monitor with
  | idle =>
    simp only [next, hmonitor]
    refine h.monitor (fun hwas => by rw [hmonitor] at hwas; exact hwas) (fun his => his) ?_
    rintro item ⟨⟩
    exact ⟨rfl, ho hmonitor⟩
  | loaded | read | published =>
    simp only [next, hmonitor]
    exact h

theorem Inv.readCurrent (h : s.Inv) : (s.next .readCurrent).Inv := by
  cases hmonitor : s.monitor with
  | loaded item limit =>
    simp only [next, hmonitor]
    refine h.monitor (fun hwas => by rw [hmonitor] at hwas; exact hwas) (fun his => his) ?_
    intro it hit
    exact h.latest it (by rw [hmonitor]; exact hit)
  | idle | read | published =>
    simp only [next, hmonitor]
    exact h

/-- A capture that publishes over the list it has read keeps to what is stored. -/
theorem Coherent.publish {item : ClipboardItem} {limit : ℕ} (h : s.Coherent)
    (hmonitor : ¬ s.monitor.recording) (hle : limit ≤ s.historyLimit)
    (hpending : ∀ l, s.Pending l → limit ≤ l)
    (hpublished : s'.published = promoted s.published item limit)
    (hexpected : s'.expected = promoted s.store.newest item limit)
    (hlimit : s'.historyLimit = s.historyLimit) (hlimits : s'.limits = s.limits) :
    s'.Coherent where
  shown := by
    rw [hpublished, hexpected, ← expected_of_not_recording hmonitor]
    exact promoted_isPrefix h.shown
  within := by
    rw [hpublished, hlimit]
    exact .inl (length_promoted_le.trans hle)
  whole := by
    refine .inl ?_
    rw [hpublished, hexpected]
    have hfull : limit ≤ s.published.length →
        (promoted s.store.newest item limit).length ≤ (promoted s.published item limit).length :=
      fun hlong => length_promoted_le.trans (length_promoted_of_le hlong).ge
    rcases h.whole with hlong | hlong | ⟨l, hl, hlong⟩
    · rw [eq_of_isPrefix h.shown hlong, expected_of_not_recording hmonitor]
    · exact hfull (hle.trans hlong)
    · exact hfull ((hpending l hl).trans hlong)
  cut := by
    intro l hl
    rw [hlimits] at hl
    rw [hpublished]
    exact length_promoted_le.trans (hpending l (List.mem_map_of_mem (f := LimitPhase.limit?) hl))

theorem Inv.publish (h : s.Inv) (ho : s.Orderly .publish) : (s.next .publish).Inv := by
  cases hmonitor : s.monitor with
  | read item limit current =>
    simp only [Orderly, hmonitor] at ho
    obtain ⟨rfl, hnone, hle, hpending⟩ := ho
    have hwas : ¬ s.monitor.recording := by rw [hmonitor]; exact id
    simp only [next, hmonitor]
    have hdrop : (s.captured ++ [item.id]).drop s.since = s.captured.drop s.since ++ [item.id] :=
      List.drop_append_of_le_length h.since
    have hlength : s.captured.length ≤ (s.captured ++ [item.id]).length := by
      rw [List.length_append]
      exact Nat.le_add_right _ _
    exact
      { latest := fun it hit => h.latest it (by rw [hmonitor]; exact hit)
        short := fun l current hl _ => length_promoted_le.trans
          (hpending l (List.mem_map_of_mem (f := LimitPhase.limit?) hl))
        emptied := fun hemptying => absurd hemptying hnone
        coherent := fun _ =>
          (h.coherent hnone).publish hwas hle hpending rfl rfl rfl rfl
        began := fun n hn => (h.began n hn).trans hlength
        since := h.since.trans hlength
        forgotten := by
          intro it hit
          rw [hdrop]
          rcases hit with hit | hit
          · rcases mem_promoted hit with rfl | hit
            · exact List.mem_append_right _ List.mem_cons_self
            · exact List.mem_append_left _ (h.forgotten it (.inl hit))
          · exact List.mem_append_left _ (h.forgotten it (.inr hit))
        recorded := by
          rintro _ _ ⟨⟩
          rw [hdrop]
          exact List.mem_append_right _ List.mem_cons_self }
  | idle | loaded | published =>
    simp only [next, hmonitor]
    exact h

theorem Inv.record (h : s.Inv) : (s.next .record).Inv := by
  cases hmonitor : s.monitor with
  | published item limit =>
    simp only [next, hmonitor]
    obtain ⟨hversion, hlatest⟩ := h.latest item (by rw [hmonitor]; rfl)
    have hnewest : (s.store.recordClipboardItem item limit).newest =
        promoted s.store.newest item limit := newest_record hversion hlatest
    exact
      { latest := fun _ hitem => by cases hitem
        short := h.short
        emptied := fun hemptying => absurd (by rw [hmonitor]; trivial) (h.emptied hemptying).2
        coherent := fun hnone => (h.coherent hnone).of_eq rfl
          (by rw [expected, expected, hmonitor]; exact hnewest) rfl rfl
        began := h.began
        since := h.since
        forgotten := by
          rintro it (hit | hit)
          · exact h.forgotten it (.inl hit)
          · rcases ClipboardDb.mem_entries_put.mp
              (ClipboardDb.entries_pruneClipboardHistory _ it hit) with rfl | ⟨hit, -⟩
            · exact h.recorded it limit hmonitor
            · exact h.forgotten it (.inr hit)
        recorded := fun _ _ hm => by cases hm }
  | idle | loaded | read =>
    simp only [next, hmonitor]
    exact h

/-! ### The steps of a clear -/

theorem Inv.callClear (h : s.Inv) : (s.next .callClear).Inv := by
  have hemptying : (s.next .callClear).Emptying ↔ s.Emptying := by
    refine exists_congr fun began => ?_
    change ClearPhase.emptied began ∈ s.clears ++ [ClearPhase.called s.captured.length] ↔ _
    simp
  exact
    { latest := h.latest
      short := h.short
      emptied := fun hyes => h.emptied (hemptying.mp hyes)
      coherent := fun hnone => (h.coherent fun hyes => hnone (hemptying.mpr hyes)).of_eq rfl rfl rfl
        rfl
      began := by
        intro n hn
        simp only [next, List.mem_append, List.mem_singleton, ClearPhase.called.injEq,
          reduceCtorEq, or_false] at hn
        rcases hn with (hn | rfl) | hn
        · exact h.began n (.inl hn)
        · exact le_rfl
        · exact h.began n (.inr hn)
      since := h.since
      forgotten := h.forgotten
      recorded := h.recorded }

variable {i : ℕ}

theorem Inv.clearStore (h : s.Inv) (ho : s.Orderly (.clearStore i)) :
    (s.next (.clearStore i)).Inv := by
  simp only [next]
  split
  · next began hi =>
    have hcalled : .called began ∈ s.clears := List.mem_of_getElem? hi
    have hemptying : ∃ n, .emptied n ∈ s.clears.set i (.emptied began) :=
      ⟨began, List.mem_set (List.getElem?_eq_some_iff.mp hi).1 _⟩
    exact
      { latest := fun item hitem => ⟨(h.latest item hitem).1,
          fun _ hit => absurd hit List.not_mem_nil⟩
        short := h.short
        emptied := fun _ => ⟨rfl, ho⟩
        coherent := fun hnone => absurd hemptying hnone
        began := by
          rintro n (hn | hn)
          · rcases List.mem_or_eq_of_mem_set hn with hn | hn
            · exact h.began n (.inl hn)
            · cases hn
          · rcases List.mem_or_eq_of_mem_set hn with hn | hn
            · exact h.began n (.inr hn)
            · cases hn
              exact h.began began (.inl hcalled)
        since := h.since
        forgotten := by
          rintro it (hit | hit)
          · exact h.forgotten it (.inl hit)
          · exact absurd hit List.not_mem_nil
        recorded := h.recorded }
  · exact h

theorem Inv.publishEmpty (h : s.Inv) (i : ℕ) : (s.next (.publishEmpty i)).Inv := by
  simp only [next]
  split
  · next began hi =>
    have hemptied : .emptied began ∈ s.clears := List.mem_of_getElem? hi
    obtain ⟨hentries, hmonitor⟩ := h.emptied ⟨began, hemptied⟩
    have hnewest := ClipboardDb.newest_of_entries hentries
    exact
      { latest := h.latest
        short := fun _ _ _ _ => Nat.zero_le _
        emptied := fun _ => ⟨hentries, hmonitor⟩
        coherent := fun _ =>
          { shown := List.nil_prefix
            within := .inl (Nat.zero_le _)
            whole := .inl ((congrArg List.length
              ((expected_of_not_recording hmonitor).trans hnewest)).le)
            cut := fun _ _ => Nat.zero_le _ }
        began := by
          rintro n (hn | hn)
          · rcases List.mem_or_eq_of_mem_set hn with hn | hn
            · exact h.began n (.inl hn)
            · cases hn
          · rcases List.mem_or_eq_of_mem_set hn with hn | hn
            · exact h.began n (.inr hn)
            · cases hn
        since := max_le h.since (h.began began (.inr hemptied))
        forgotten := by
          rintro it (hit | hit)
          · exact absurd hit List.not_mem_nil
          · rw [hentries] at hit
            exact absurd hit List.not_mem_nil
        recorded := fun item limit hm => absurd (by rw [hm]; trivial) hmonitor }
  · exact h

/-! ### The steps that set the limit -/

theorem Inv.setLimit (h : s.Inv) {limit : ℕ} (ho : s.Orderly (.setLimit limit)) :
    (s.next (.setLimit limit)).Inv := by
  simp only [next]
  split
  · exact h
  · next hlimit =>
    exact
      { latest := h.latest
        short := by
          intro l current hl
          rcases List.mem_append.mp hl with hl | hl
          · exact h.short l current hl
          · cases List.mem_singleton.mp hl
        emptied := h.emptied
        coherent := fun hnone =>
          { shown := (h.coherent hnone).shown
            within := .inr ⟨limit, by simp [LimitPhase.untruncated?], le_rfl⟩
            whole := by
              rcases ho hlimit with hlong | hlong | ⟨l, hl, hlong⟩
              · exact .inl hlong
              · exact .inr (.inl hlong)
              · refine .inr (.inr ⟨l, ?_, hlong⟩)
                rw [Pending, List.map_append]
                exact List.mem_append_left _ hl
            cut := by
              intro l hl
              rcases List.mem_append.mp hl with hl | hl
              · exact (h.coherent hnone).cut l hl
              · cases List.mem_singleton.mp hl }
        began := h.began
        since := h.since
        forgotten := h.forgotten
        recorded := h.recorded }

theorem Inv.readPublished (h : s.Inv) (i : ℕ) : (s.next (.readPublished i)).Inv := by
  simp only [next]
  split
  · next limit hi =>
    have hlimit : (s.limits.set i (.read limit s.published)).map LimitPhase.limit? =
        s.limits.map LimitPhase.limit? := map_set_of_eq _ hi rfl
    have huntruncated : (s.limits.set i (.read limit s.published)).map LimitPhase.untruncated? =
        s.limits.map LimitPhase.untruncated? := map_set_of_eq _ hi rfl
    exact
      { latest := h.latest
        short := by
          intro l current hl hle
          rcases List.mem_or_eq_of_mem_set hl with hl | hl
          · exact h.short l current hl hle
          · cases hl
            exact hle
        emptied := h.emptied
        coherent := fun hnone =>
          { shown := (h.coherent hnone).shown
            within := by
              rw [huntruncated]
              exact (h.coherent hnone).within
            whole := (h.coherent hnone).whole.of_eq rfl rfl hlimit
            cut := by
              intro l hl
              rcases List.mem_or_eq_of_mem_set hl with hl | hl
              · exact (h.coherent hnone).cut l hl
              · cases hl }
        began := h.began
        since := h.since
        forgotten := h.forgotten
        recorded := h.recorded }
  · exact h

/-- The list is cut at a limit that the store is yet to be pruned to. -/
theorem Coherent.truncate (h : s.Coherent) {i limit : ℕ} {current : List ClipboardItem}
    (hi : s.limits[i]? = some (.read limit current))
    (hpublished : s'.published = s.published.take limit) (hexpected : s'.expected = s.expected)
    (hlimit : s'.historyLimit = s.historyLimit)
    (hlimits : s'.limits = s.limits.set i (.truncated limit)) : s'.Coherent := by
  have hmap : s'.limits.map LimitPhase.limit? = s.limits.map LimitPhase.limit? := by
    rw [hlimits]
    exact map_set_of_eq _ hi rfl
  have hlength : s'.published.length = min limit s.published.length := by
    rw [hpublished, List.length_take]
  constructor
  case shown =>
    rw [hpublished, hexpected]
    exact (List.take_prefix _ _).trans h.shown
  case within =>
    rw [hlength, hlimit]
    rcases h.within with hle | ⟨l, hl, hle⟩
    · exact .inl ((min_le_right _ _).trans hle)
    · obtain ⟨phase, hmem, hphase⟩ := List.mem_map.mp hl
      by_cases hthis : phase = .read limit current
      · subst hthis
        cases hphase
        exact .inl ((min_le_left _ _).trans hle)
      · refine .inr ⟨l, List.mem_map.mpr ⟨phase, ?_, hphase⟩, hle⟩
        rw [hlimits]
        exact mem_set_of_mem hmem hi hthis
  case whole =>
    rw [hlimit]
    rcases le_total limit s.published.length with hlong | hshort
    · refine .inr (.inr ⟨limit, ?_, hlength.trans (min_eq_left hlong) |>.ge⟩)
      rw [Pending, hmap]
      exact List.mem_map.mpr ⟨_, List.mem_of_getElem? hi, rfl⟩
    · rw [List.take_of_length_le hshort] at hpublished
      exact h.whole.of_eq hpublished hexpected hmap
  case cut =>
    intro l hl
    rw [hlimits] at hl
    rw [hlength]
    rcases List.mem_or_eq_of_mem_set hl with hl | hl
    · exact (min_le_right _ _).trans (h.cut l hl)
    · cases hl
      exact min_le_left _ _

theorem Inv.truncate (h : s.Inv) (ho : s.Orderly (.truncate i)) :
    (s.next (.truncate i)).Inv := by
  simp only [next]
  split
  · next limit current hi =>
    simp only [Orderly, hi] at ho
    -- the list is cut at the limit, whether or not it is published anew
    have hpublished : (if limit < current.length then current.take limit else s.published) =
        s.published.take limit := by
      split
      · next hlong => rw [ho hlong]
      · next hshort =>
        exact (List.take_of_length_le
          (h.short limit current (List.mem_of_getElem? hi) (not_lt.mp hshort))).symm
    have hle : ∀ {n : ℕ}, s.published.length ≤ n → (s.published.take limit).length ≤ n := by
      intro n hn
      rw [List.length_take]
      exact (min_le_right _ _).trans hn
    rw [hpublished]
    exact
      { latest := h.latest
        short := by
          intro l current' hl hlength
          rcases List.mem_or_eq_of_mem_set hl with hl | hl
          · exact hle (h.short l current' hl hlength)
          · cases hl
        emptied := h.emptied
        coherent := fun hnone => (h.coherent hnone).truncate hi rfl rfl rfl rfl
        began := h.began
        since := h.since
        forgotten := by
          rintro it (hit | hit)
          · exact h.forgotten it (.inl (List.mem_of_mem_take hit))
          · exact h.forgotten it (.inr hit)
        recorded := h.recorded }
  · exact h

/-- The store is pruned to a limit that the list has been cut at. -/
theorem Coherent.prune (h : s.Coherent) {i limit : ℕ} (hi : s.limits[i]? = some (.truncated limit))
    (hpublished : s'.published = s.published) (hexpected : s'.expected <+: s.expected)
    (hcut : s'.expected.length ≤ limit) (hshown : s.published <+: s'.expected)
    (hlimit : s'.historyLimit = s.historyLimit) (hlimits : s'.limits = s.limits.set i .returned) :
    s'.Coherent := by
  constructor
  case shown =>
    rw [hpublished]
    exact hshown
  case within =>
    have hmap : (s.limits.set i .returned).map LimitPhase.untruncated? =
        s.limits.map LimitPhase.untruncated? := map_set_of_eq _ hi rfl
    rw [hpublished, hlimit, hlimits, hmap]
    exact h.within
  case whole =>
    rw [Shows, hpublished, hlimit]
    rcases h.whole with hlong | hlong | ⟨l, hl, hlong⟩
    · exact .inl (hexpected.length_le.trans hlong)
    · exact .inr (.inl hlong)
    · obtain ⟨phase, hmem, hphase⟩ := List.mem_map.mp hl
      by_cases hthis : phase = .truncated limit
      · subst hthis
        cases hphase
        exact .inl (hcut.trans hlong)
      · refine .inr (.inr ⟨l, List.mem_map.mpr ⟨phase, ?_, hphase⟩, hlong⟩)
        rw [hlimits]
        exact mem_set_of_mem hmem hi hthis
  case cut =>
    intro l hl
    rw [hlimits] at hl
    rw [hpublished]
    rcases List.mem_or_eq_of_mem_set hl with hl | hl
    · exact h.cut l hl
    · cases hl

theorem Inv.pruneStore (h : s.Inv) (ho : s.Orderly (.pruneStore i)) :
    (s.next (.pruneStore i)).Inv := by
  simp only [next]
  split
  · next limit hi =>
    simp only [Orderly, hi] at ho
    have hnewest : (s.store.pruneClipboardHistory limit).newest = s.store.newest.take limit :=
      ClipboardDb.newest_pruneClipboardHistory limit
    have hentries : ∀ it ∈ (s.store.pruneClipboardHistory limit).entries, it ∈ s.store.entries :=
      ClipboardDb.entries_pruneClipboardHistory limit
    exact
      { latest := by
          intro item hitem
          refine ⟨(h.latest item hitem).1, fun it hit => (h.latest item hitem).2 it ?_⟩
          rw [hnewest] at hit
          exact List.mem_of_mem_take hit
        short := by
          intro l current hl
          rcases List.mem_or_eq_of_mem_set hl with hl | hl
          · exact h.short l current hl
          · cases hl
        emptied := fun hemptying => by
          obtain ⟨hnone, hmonitor⟩ := h.emptied hemptying
          refine ⟨List.eq_nil_iff_forall_not_mem.mpr fun it hit => ?_, hmonitor⟩
          have := hentries it hit
          rw [hnone] at this
          exact absurd this List.not_mem_nil
        coherent := fun hnone => by
          have hcoherent := h.coherent hnone
          have hcut := hcoherent.cut limit (List.mem_of_getElem? hi)
          cases hmonitor : s.monitor with
          | published item captureLimit =>
            simp only [hmonitor] at ho
            have hsame : promoted (s.store.pruneClipboardHistory limit).newest item captureLimit =
                s.expected := by
              rw [hnewest, promoted_take ho, expected, hmonitor]
            refine hcoherent.prune hi rfl ?_ ?_ ?_ rfl rfl
            · simp only [expected, hmonitor]
              simp only [expected, hmonitor] at hsame
              exact hsame ▸ List.prefix_rfl
            · simp only [expected]
              exact length_promoted_le.trans ho
            · have hshown := hcoherent.shown
              simp only [expected]
              rw [hsame]
              exact hshown
          | idle | loaded | read =>
            have hshown := hcoherent.shown
            simp only [expected, hmonitor] at hshown
            refine hcoherent.prune hi rfl ?_ ?_ ?_ rfl rfl
            · simp only [expected, hmonitor, hnewest]
              exact List.take_prefix _ _
            · simp only [expected, hnewest]
              rw [List.length_take]
              exact min_le_left _ _
            · simp only [expected, hnewest]
              exact List.prefix_take_iff.mpr ⟨hshown, hcut⟩
        began := h.began
        since := h.since
        forgotten := by
          rintro it (hit | hit)
          · exact h.forgotten it (.inl hit)
          · exact h.forgotten it (.inr (hentries it hit))
        recorded := h.recorded }
  · exact h

/-! ### Whole runs -/

theorem Inv.next (h : s.Inv) {a : ClipboardStep} (ho : s.Orderly a) : (s.next a).Inv := by
  cases a with
  | select id content now => exact h.select ho
  | readCurrent => exact h.readCurrent
  | publish => exact h.publish ho
  | record => exact h.record
  | callClear => exact h.callClear
  | clearStore i => exact h.clearStore ho
  | publishEmpty i => exact h.publishEmpty i
  | setLimit limit => exact h.setLimit ho
  | readPublished i => exact h.readPublished i
  | truncate i => exact h.truncate ho
  | pruneStore i => exact h.pruneStore ho

/-- **In an orderly run the histories agree whenever all operations have finished, and nothing that
was cleared comes back.** -/
theorem agrees_of_orderly (store : ClipboardDb) (limit : ℕ) (steps : List ClipboardStep)
    (horderly : Along ClipboardService.next Orderly (new store limit) steps) :
    Always ClipboardService.next (fun s => (s.Quiet → s.Agrees) ∧ s.Forgotten) (new store limit)
      steps := by
  rw [always_iff]
  intro pre post hsplit
  rw [hsplit, along_append] at horderly
  have hinv : (run ClipboardService.next (new store limit) pre).Inv :=
    horderly.1.holds (fun _ _ h ho => h.next ho) (inv_new store limit)
  exact ⟨hinv.agrees, hinv.forgotten⟩

/-! ### Runs -/

namespace Sample

/-- The monitor captures a text from the first to the last of its steps. -/
def capture (id : String) (now : ℤ) : List ClipboardStep :=
  [.select id (.text id) now, .readCurrent, .publish, .record]

/-- A text is captured and cleared, and then the limit is lowered. -/
def orderly : List ClipboardStep :=
  capture "a" 1 ++ [ClipboardStep.callClear, .clearStore 0, .publishEmpty 0, .setLimit 1]

/-- The second capture has read the list when the first text is cleared. -/
def resurrected : List ClipboardStep :=
  capture "secret" 1 ++ [ClipboardStep.select "b" (.text "b") 2, .readCurrent, .callClear,
    .clearStore 0, .publishEmpty 0, .publish, .record]

/-- The second capture has loaded the limit when it is lowered. -/
def exceeded : List ClipboardStep :=
  capture "a" 1 ++ [ClipboardStep.select "b" (.text "b") 2, .setLimit 1, .readPublished 0,
    .truncate 0, .pruneStore 0, .readCurrent, .publish, .record]

end Sample

open Sample in
/-- A run that is orderly. -/
theorem agrees_of_orderly_capture :
    Always ClipboardService.next (fun s => (s.Quiet → s.Agrees) ∧ s.Forgotten) (new .empty 2)
      orderly := by
  refine agrees_of_orderly .empty 2 orderly ⟨?_, trivial, ⟨rfl, ?_, le_rfl, ?_⟩, trivial, trivial,
    fun hrecording => hrecording, trivial, fun _ => .inl le_rfl, trivial⟩
  · exact fun _ _ hit => absurd hit List.not_mem_nil
  · exact fun ⟨_, hmem⟩ => absurd hmem List.not_mem_nil
  · exact fun _ hmem => absurd hmem List.not_mem_nil

open Sample in
/-- What was cleared is published again, and is not stored; and more is published than the limit. -/
theorem resurrected_disagrees :
    ((run ClipboardService.next (new .empty 2) resurrected).Quiet ∧
      ((run ClipboardService.next (new .empty 2) resurrected).published.map (·.id) =
        ["b", "secret"]) ∧
      ((run ClipboardService.next (new .empty 2) resurrected).store.newest.map (·.id) = ["b"]) ∧
      ¬ (run ClipboardService.next (new .empty 2) resurrected).Agrees ∧
      ¬ (run ClipboardService.next (new .empty 2) resurrected).Forgotten) ∧
    ((run ClipboardService.next (new .empty 2) exceeded).Quiet ∧
      ¬ (run ClipboardService.next (new .empty 2) exceeded).Agrees) := by
  refine ⟨⟨by decide +kernel, by decide +kernel, by decide +kernel, fun hagrees => ?_,
    fun hforgotten => ?_⟩, by decide +kernel, fun hagrees => ?_⟩
  · exact absurd hagrees.same (by decide +kernel)
  · exact absurd (hforgotten ⟨currentVersion, "secret", .text "secret", 1⟩
      (.inl (by decide +kernel))) (by decide +kernel)
  · exact absurd hagrees.atMost (by decide +kernel)

end ClipboardService

end Shilpo.Clipboard
