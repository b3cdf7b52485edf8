import Shilpo.Theory.Tables

/-!
# What searches have led to

The table `search_learning` of `session_store.rs` keeps, for each id, how often and when a search
has led to it. `record_search_activation` counts an activation, and takes out the record whose last
activation is the oldest where there are too many.

What should be left is `Learned`. One record at most is taken out, and only for an id that has no
record of the current version, even where its record takes the place of another: `Fits` says when
that is right, and `learned_iff_fits` that it says no less.
-/

namespace Shilpo.Session

open Theory

/-- `SEARCH_LEARNING_RECORD_VERSION`. -/
def searchLearningVersion : UInt8 := 1

structure SearchLearningRecord where
  version : UInt8
  activationCount : ℕ
  lastActivatedAtSecs : ℕ
  decayedScore : Float

namespace SearchLearningRecord

/-- A record of the current version. -/
def IsCurrent (record : SearchLearningRecord) : Prop := record.version = searchLearningVersion

instance (record : SearchLearningRecord) : Decidable record.IsCurrent :=
  inferInstanceAs (Decidable (_ = _))

def newInitial (activatedAtSecs : ℕ) : SearchLearningRecord where
  version := searchLearningVersion
  activationCount := 1
  lastActivatedAtSecs := activatedAtSecs
  decayedScore := 1.0

variable (record : SearchLearningRecord) (activatedAtSecs halfLifeSecs : ℕ)

/-- How much of the score is left after this time. -/
def decayFactor (elapsed : ℕ) : Float :=
  Float.exp (-elapsed.toFloat * (0.693147180559945309417232121458 / (max halfLifeSecs 1).toFloat))

/-- An activation is counted. -/
def activate : SearchLearningRecord :=
  { record with
    decayedScore := record.decayedScore *
      decayFactor halfLifeSecs (activatedAtSecs - record.lastActivatedAtSecs) + 1.0
    activationCount := min (record.activationCount + 1) (2 ^ 32 - 1)
    lastActivatedAtSecs := activatedAtSecs }

end SearchLearningRecord

/-- The records in the order of their ids. -/
abbrev SearchLearningDb := BTreeMap String SearchLearningRecord

namespace SearchLearningDb

variable (db : SearchLearningDb)

/-- The record that has been activated last the longest ago. -/
def oldest : Option (String × SearchLearningRecord) := db.oldestBy (·.2.lastActivatedAtSecs)

/-- The table without the oldest record, if it has as many as it may. -/
def evicted (maxEntries : ℕ) : SearchLearningDb :=
  if maxEntries ≤ db.entries.length then
    match db.oldest with
    | some (oldestKey, _) => db.delete oldestKey
    | none => db
  else db

inductive SessionStoreError where
  | invalidLimit

/-- Count the activation of an id. -/
def recordSearchActivation (canonicalId : String)
    (activatedAtSecs maxEntries halfLifeSecs : ℕ) : Except SessionStoreError SearchLearningDb :=
  if maxEntries = 0 then .error .invalidLimit
  else
    match db.get canonicalId with
    | some record =>
      if record.IsCurrent then
        .ok (db.put canonicalId (record.activate activatedAtSecs halfLifeSecs))
      else .ok ((db.evicted maxEntries).put canonicalId (.newInitial activatedAtSecs))
    | none => .ok ((db.evicted maxEntries).put canonicalId (.newInitial activatedAtSecs))

/-! ### The property -/

/-- The record of an id, if it is of the current version. -/
def currentRecord (id : String) : Option SearchLearningRecord :=
  (db.get id).filter fun record => record.IsCurrent

/-- What is in the table after an activation of `id`, where it was `db` before. -/
structure Learned (id : String) (maxEntries : ℕ) (after : SearchLearningDb) : Prop where
  small : after.entries.length ≤ maxEntries
  recorded : (after.currentRecord id).isSome
  /-- The records of other ids stay as they are, or go. -/
  unchanged : ∀ other ≠ id, ∀ record, after.get other = some record → db.get other = some record
  /-- They stay where the id has a record. -/
  alone : (db.currentRecord id).isSome → ∀ other ≠ id, after.get other = db.get other
  /-- What goes has been activated last no later than what stays. -/
  leastRecent : ∀ other ≠ id, ∀ record, db.get other = some record → after.get other = none →
    ∀ kept ≠ id, ∀ record', after.get kept = some record' →
      record.lastActivatedAtSecs ≤ record'.lastActivatedAtSecs
  /-- Nothing goes once there is room. -/
  needed : ∀ other ≠ id, (db.get other).isSome → after.get other = none →
    maxEntries ≤ after.entries.length

/-- One record, at most, is too many; and where the id has one of another version, what is taken
out is that one, or is too many even without it. -/
def Fits (id : String) (maxEntries : ℕ) : Prop :=
  match db.get id with
  | none => db.entries.length ≤ maxEntries
  | some record =>
    if record.IsCurrent then db.entries.length ≤ maxEntries
    else
      db.entries.length < maxEntries ∨
      db.entries.length = maxEntries ∧ db.oldest.map Prod.fst = some id ∨
      db.entries.length = maxEntries + 1 ∧ db.oldest.map Prod.fst ≠ some id

variable {db} {id : String} {maxEntries : ℕ} {record : SearchLearningRecord}

open BTreeMap

theorem currentRecord_put (h : record.IsCurrent) :
    (currentRecord (db.put id record) id).isSome := by
  simp [currentRecord, get_put_self, h]

/-- Where nothing is taken out, all hangs on whether there is room. -/
theorem learned_put_iff (h : record.IsCurrent) :
    db.Learned id maxEntries (db.put id record) ↔
      (db.delete id).entries.length + 1 ≤ maxEntries := by
  rw [← length_put]
  refine ⟨fun hlearned => hlearned.small, fun hsmall => ?_⟩
  have hsame : ∀ other ≠ id, (db.put id record).get other = db.get other :=
    fun other hother => get_put_of_ne hother
  exact {
    small := hsmall
    recorded := currentRecord_put h
    unchanged := fun other hother record' hget => hsame other hother ▸ hget
    alone := fun _ other hother => hsame other hother
    leastRecent := fun other hother record' hget hnone => by
      rw [hsame other hother, hget] at hnone
      cases hnone
    needed := fun other hother hsome hnone => by
      rw [hsame other hother] at hnone
      rw [hnone] at hsome
      cases hsome }

/-- Where the record of the id itself is taken out, the same. -/
theorem learned_delete_self_iff (h : record.IsCurrent) :
    db.Learned id maxEntries ((db.delete id).put id record) ↔
      (db.delete id).entries.length + 1 ≤ maxEntries := by
  rw [put_delete, learned_put_iff h]

/-- Where the oldest record is that of another id, there must be one too many without it. -/
theorem learned_delete_oldest_iff (h : record.IsCurrent) (hnone : db.currentRecord id = none)
    {oldest : String × SearchLearningRecord} (holdest : db.oldest = some oldest)
    (hne : oldest.1 ≠ id) :
    db.Learned id maxEntries ((db.delete oldest.1).put id record) ↔
      (db.delete id).entries.length = maxEntries := by
  obtain ⟨hget, hleast⟩ := oldestBy_spec holdest
  have hother : ∀ other ≠ id, other ≠ oldest.1 →
      ((db.delete oldest.1).put id record).get other = db.get other := fun other hid hold => by
    rw [get_put_of_ne hid, get_delete_of_ne hold]
  have hgone : ((db.delete oldest.1).put id record).get oldest.1 = none := by
    rw [get_put_of_ne hne, get_delete_self]
  have hcount : ((db.delete oldest.1).put id record).entries.length =
      (db.delete id).entries.length := by
    rw [length_put, delete_comm, length_delete (by rw [get_delete_of_ne hne, hget])]
  rw [← hcount]
  constructor
  · intro hlearned
    exact le_antisymm hlearned.small (hlearned.needed _ hne (hget ▸ rfl) hgone)
  · intro hlength
    exact {
      small := hlength.le
      recorded := currentRecord_put h
      unchanged := fun other hid record' hrecord' => by
        by_cases hold : other = oldest.1
        · subst hold
          rw [hgone] at hrecord'
          cases hrecord'
        · rw [← hother other hid hold]
          exact hrecord'
      alone := fun hsome => by
        rw [hnone] at hsome
        cases hsome
      leastRecent := fun other hid record' hrecord' hnone kept hkept record'' hrecord'' => by
        by_cases hold : other = oldest.1
        · subst hold
          rw [hget] at hrecord'
          obtain rfl := Option.some.inj hrecord'
          have hstays : kept ≠ oldest.1 := by
            rintro rfl
            rw [hgone] at hrecord''
            cases hrecord''
          rw [hother kept hkept hstays] at hrecord''
          exact hleast _ (get_eq_some_iff.mp hrecord'')
        · rw [hother other hid hold, hrecord'] at hnone
          cases hnone
      needed := fun _ _ _ _ => hlength.ge }

/-- What is right for an id without a record of the current version. -/
theorem learned_evicted_iff (h : record.IsCurrent) (hnone : db.currentRecord id = none)
    (hlimit : 1 ≤ maxEntries) :
    db.Learned id maxEntries ((db.evicted maxEntries).put id record) ↔
      if db.entries.length < maxEntries ∨ db.oldest.map Prod.fst = some id then
        (db.delete id).entries.length + 1 ≤ maxEntries
      else (db.delete id).entries.length = maxEntries := by
  rw [evicted]
  by_cases hroom : maxEntries ≤ db.entries.length
  · have hnil : db.entries ≠ [] := List.ne_nil_of_length_pos (hlimit.trans hroom)
    obtain ⟨⟨oldestKey, oldestRecord⟩, holdest⟩ :=
      oldestBy_isSome (f := (·.2.lastActivatedAtSecs)) hnil
    have holdest : db.oldest = some (oldestKey, oldestRecord) := holdest
    rw [if_pos hroom, holdest]
    by_cases hself : oldestKey = id
    · subst hself
      rw [if_pos (.inr rfl)]
      exact learned_delete_self_iff h
    · have hother : ¬ (db.entries.length < maxEntries ∨
          (some (oldestKey, oldestRecord)).map Prod.fst = some id) := by
        rw [not_or]
        exact ⟨not_lt.mpr hroom, fun hid => hself (Option.some.inj hid)⟩
      rw [if_neg hother]
      exact learned_delete_oldest_iff h hnone holdest hself
  · rw [if_neg hroom, if_pos (.inl (not_le.mp hroom))]
    exact learned_put_iff h

theorem oldest_ne_of_get_eq_none (h : db.get id = none) : db.oldest.map Prod.fst ≠ some id := by
  intro hid
  obtain ⟨oldest, holdest, rfl⟩ := Option.map_eq_some_iff.mp hid
  have hget := (oldestBy_spec holdest).1
  rw [h] at hget
  cases hget

/-- **An activation leaves in the table what it should exactly where one record at most is too many,
and is too many even without the one that is replaced.** -/
theorem learned_iff_fits (db : SearchLearningDb) (id : String)
    (activatedAtSecs maxEntries halfLifeSecs : ℕ) (hlimit : 1 ≤ maxEntries) :
    (∃ after, db.recordSearchActivation id activatedAtSecs maxEntries halfLifeSecs = .ok after ∧
      db.Learned id maxEntries after) ↔ db.Fits id maxEntries := by
  have hinit : (SearchLearningRecord.newInitial activatedAtSecs).IsCurrent := rfl
  rw [recordSearchActivation, if_neg (Nat.ne_of_gt hlimit), Fits]
  cases hget : db.get id with
  | none =>
    have hnone : db.currentRecord id = none := by simp [currentRecord, hget]
    simp only [Except.ok.injEq, exists_eq_left']
    rw [learned_evicted_iff hinit hnone hlimit, delete_of_get_eq_none hget]
    simp only [oldest_ne_of_get_eq_none hget, or_false]
    split <;> omega
  | some record =>
    have hlength := length_delete hget
    by_cases hcurrent : record.IsCurrent
    · have hactivate : (record.activate activatedAtSecs halfLifeSecs).IsCurrent := hcurrent
      simp only [if_pos hcurrent, Except.ok.injEq, exists_eq_left']
      rw [learned_put_iff hactivate, hlength]
    · have hnone : db.currentRecord id = none := by simp [currentRecord, hget, hcurrent]
      simp only [if_neg hcurrent, Except.ok.injEq, exists_eq_left']
      rw [learned_evicted_iff hinit hnone hlimit]
      by_cases hid : db.oldest.map Prod.fst = some id
      · simp only [hid, or_true, if_true, ne_eq, not_true_eq_false, and_true, and_false, or_false]
        omega
      · simp only [hid, or_false, ne_eq, not_false_eq_true, and_true, and_false, false_or]
        split <;> omega

/-! ### A limit that is lowered -/

/-- Two ids have been activated. -/
def twoLearned : SearchLearningDb :=
  (BTreeMap.empty.put "app:a" (.newInitial 10)).put "app:b" (.newInitial 20)

/-- A third is let in for the older one. -/
theorem learned_third : ∃ after, twoLearned.recordSearchActivation "app:c" 30 2 60 = .ok after ∧
    twoLearned.Learned "app:c" 2 after := by
  refine (learned_iff_fits twoLearned "app:c" 30 2 60 (by decide)).mpr ?_
  have hnone : twoLearned.get "app:c" = none := Option.isNone_iff_eq_none.mp (by decide +kernel)
  rw [Fits, hnone]
  decide +kernel

/-- Under a limit of one, two remain. -/
theorem not_learned_lowered :
    ¬ ∃ after, twoLearned.recordSearchActivation "app:c" 30 1 60 = .ok after ∧
      twoLearned.Learned "app:c" 1 after := by
  rintro ⟨after, hafter, hlearned⟩
  have hnone : twoLearned.get "app:c" = none := Option.isNone_iff_eq_none.mp (by decide +kernel)
  rw [recordSearchActivation, if_neg (by decide), hnone] at hafter
  have hsmall := hlearned.small
  rw [← Except.ok.inj hafter] at hsmall
  revert hsmall
  decide +kernel

end SearchLearningDb

end Shilpo.Session
