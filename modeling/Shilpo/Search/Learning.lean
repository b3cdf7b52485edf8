import Shilpo.Theory.Runs
import Shilpo.Theory.Tables

/-!
# Learned boosts

`HeedSearchLearningStore` in `desktop/shilpo/src/shell/overview_search/learning.rs`: what has been
activated often and not long ago gets a boost of up to 40. The activations are counted in the
session store, and in memory those that the session store could not count. The two are never added
up: a boost is read from the session store if there is a count in it, what could not be counted
there is lost to such a boost, and a count in memory goes away with the first activation that the
session store counts (`along_learns_iff`).

Counts are elements of any ordered field in place of floating-point numbers, and what is left of
them after a time is a parameter (`Decay`). The last error is left out.
-/

namespace Shilpo.Search

open Theory

/-- The nearest integer, and from the middle the one away from zero. -/
def roundAway {K : Type*} [Field K] [LinearOrder K] [FloorRing K] (x : K) : ℤ :=
  if 0 ≤ x then ⌊x + 1 / 2⌋ else ⌈x - 1 / 2⌉

def maxInfluenceBoost : ℤ := 40

/-- What is left of a count after so many seconds. -/
structure Decay (K : Type*) [Field K] [LinearOrder K] where
  factor : ℕ → K
  factor_zero : factor 0 = 1
  factor_nonneg : ∀ elapsed, 0 ≤ factor elapsed

/-- Half of a count is left after the half life. -/
noncomputable def Decay.halving (halfLifeSecs : ℕ) : Decay ℝ where
  factor elapsed := Real.exp (-elapsed * (Real.log 2 / max halfLifeSecs 1))
  factor_zero := by simp
  factor_nonneg _ := (Real.exp_pos _).le

section

variable {K : Type} [Field K] [LinearOrder K] [IsStrictOrderedRing K] [FloorRing K]

/-! ### Records -/

/-- How often, and when last. -/
structure LearningRecord (K : Type) [Field K] [LinearOrder K] where
  version : ℕ
  activationCount : ℕ
  lastActivatedAtSecs : ℕ
  decayedScore : K
  nonneg : 0 ≤ decayedScore

namespace LearningRecord

def currentVersion : ℕ := 1

def newInitial (now : ℕ) : LearningRecord K :=
  ⟨currentVersion, 1, now, 1, zero_le_one⟩

/-- What is left of the count. -/
def decayed (decay : Decay K) (record : LearningRecord K) (now : ℕ) : K :=
  record.decayedScore * decay.factor (now - record.lastActivatedAtSecs)

/-- One more activation. -/
def activate (decay : Decay K) (record : LearningRecord K) (now : ℕ) : LearningRecord K where
  version := record.version
  activationCount := min (record.activationCount + 1) (2 ^ 32 - 1)
  lastActivatedAtSecs := now
  decayedScore := record.decayed decay now + 1
  nonneg := add_nonneg (mul_nonneg record.nonneg (decay.factor_nonneg _)) zero_le_one

end LearningRecord

/-- An integer between none and the greatest boost. -/
def capped (x : K) : ℤ :=
  max 0 (min maxInfluenceBoost (roundAway (min x (maxInfluenceBoost : K))))

def calculateBoost (decay : Decay K) (record : LearningRecord K) (now : ℕ) : ℤ :=
  capped (record.decayed decay now * 10)

abbrev LearningRecords (K : Type) [Field K] [LinearOrder K] := BTreeMap String (LearningRecord K)

/-! ### The session store -/

section

variable (decay : Decay K) (maxEntries : ℕ)

def getSearchLearningRecord (db : LearningRecords K) (id : String) : Option (LearningRecord K) :=
  (db.get id).filter (·.version = LearningRecord.currentVersion)

/-- The least recent of too many records. -/
def evicted (db : LearningRecords K) : LearningRecords K :=
  if maxEntries ≤ db.entries.length then
    match db.oldestBy fun e => e.2.lastActivatedAtSecs with
    | some oldest => db.delete oldest.1
    | none => db
  else db

/-- The session store after an activation, unless it may not have any records. -/
def recordSearchActivation (db : LearningRecords K) (id : String) (now : ℕ) :
    Option (LearningRecords K) :=
  if maxEntries = 0 then none
  else
    match getSearchLearningRecord db id with
    | some record => some (db.put id (record.activate decay now))
    | none => some ((evicted maxEntries db).put id (.newInitial now))

end

/-! ### Both stores -/

/-- How many records there may be, what is left of them, and which of the oldest ones in memory is
come to first. -/
structure LearningConfig (K : Type) [Field K] [LinearOrder K] where
  maxEntries : ℕ
  decay : Decay K
  oldestInMemory : LearningRecords K → Option String
  oldest_spec : ∀ memory id, oldestInMemory memory = some id → ∃ record,
    memory.get id = some record ∧
      ∀ e ∈ memory.entries, record.lastActivatedAtSecs ≤ e.2.lastActivatedAtSecs

/-- The session store, if there is one, and the memory. -/
structure LearningStore (K : Type) [Field K] [LinearOrder K] where
  heedStore : Option (LearningRecords K)
  fallbackMemory : LearningRecords K

/-- A call of the store. -/
inductive LearningCall where
  | recordActivation (id : String)
  | forgetResult (id : String)
  | clearAll

/-- A call, the time on the clock, whether the call of the session store in it succeeds, and
whether the one does that a boost is read with just before and just after. -/
structure LearningStep where
  call : LearningCall
  now : ℕ
  stored : Bool
  readBefore : Bool
  readAfter : Bool

namespace LearningStore

/-- The record of the session store. -/
def persisted (store : LearningStore K) (id : String) : Option (LearningRecord K) :=
  store.heedStore.bind fun db => getSearchLearningRecord db id

/-- The record that a boost is read from, `get` of the session store succeeding or not. -/
def read (store : LearningStore K) (get : Bool) (id : String) : Option (LearningRecord K) :=
  if get then (store.persisted id).or (store.fallbackMemory.get id)
  else store.fallbackMemory.get id

variable (config : LearningConfig K)

def scoreBoost (store : LearningStore K) (get : Bool) (id : String) (now : ℕ) : ℤ :=
  match store.read get id with
  | some record => calculateBoost config.decay record now
  | none => 0

def recordInMemory (store : LearningStore K) (id : String) (now : ℕ) : LearningStore K :=
  match store.fallbackMemory.get id with
  | some record =>
    { store with
      fallbackMemory := store.fallbackMemory.put id (record.activate config.decay now) }
  | none =>
    let memory :=
      if config.maxEntries ≤ store.fallbackMemory.entries.length then
        match config.oldestInMemory store.fallbackMemory with
        | some oldest => store.fallbackMemory.delete oldest
        | none => store.fallbackMemory
      else store.fallbackMemory
    { store with fallbackMemory := memory.put id (.newInitial now) }

/-- The session store after it has counted an activation, if it does. -/
def counted (store : LearningStore K) (stored : Bool) (id : String) (now : ℕ) :
    Option (LearningRecords K) :=
  if stored then
    store.heedStore.bind fun db =>
      recordSearchActivation config.decay config.maxEntries db id now
  else none

def recordActivation (store : LearningStore K) (stored : Bool) (id : String) (now : ℕ) :
    LearningStore K :=
  match store.counted config stored id now with
  | some db => ⟨some db, store.fallbackMemory.delete id⟩
  | none => store.recordInMemory config id now

def forgetResult (store : LearningStore K) (stored : Bool) (id : String) : LearningStore K where
  heedStore := if stored then store.heedStore.map (·.delete id) else store.heedStore
  fallbackMemory := store.fallbackMemory.delete id

def clearAll (store : LearningStore K) (stored : Bool) : LearningStore K where
  heedStore := if stored then store.heedStore.map fun _ => .empty else store.heedStore
  fallbackMemory := .empty

/-- The store after a call. -/
def next (store : LearningStore K) (step : LearningStep) : LearningStore K :=
  match step.call with
  | .recordActivation id => store.recordActivation config step.stored id step.now
  | .forgetResult id => store.forgetResult step.stored id
  | .clearAll => store.clearAll step.stored

/-! ### What is learned -/

/-- Ten for each activation that is left, of which there are none without a record. -/
def unrounded (decay : Decay K) (record : Option (LearningRecord K)) (now : ℕ) : K :=
  (record.elim 0 fun record => record.decayed decay now) * 10

/-- A record with one more activation. -/
def added (decay : Decay K) (record : Option (LearningRecord K)) (now : ℕ) : LearningRecord K :=
  match record with
  | some record => record.activate decay now
  | none => .newInitial now

/-- An activation gives ten more than was to be had just before, as far as a boost goes; what is
forgotten gives nothing. -/
def Learns (store : LearningStore K) (step : LearningStep) : Prop :=
  match step.call with
  | .recordActivation id =>
    (store.next config step).scoreBoost config step.readAfter id step.now =
      capped (unrounded config.decay (store.read step.readBefore id) step.now + 10)
  | .forgetResult id =>
    step.stored → ∀ get now, (store.next config step).scoreBoost config get id now = 0
  | .clearAll =>
    step.stored → ∀ get id now, (store.next config step).scoreBoost config get id now = 0

/-- The session store counts the activations. -/
def Counts (store : LearningStore K) (stored : Bool) : Prop :=
  stored = true ∧ store.heedStore.isSome ∧ config.maxEntries ≠ 0

/-- The record that counts an activation is as good as the one that was read before, and is the one
that is read after; unless one in the session store is read in its place that is good enough
without it. -/
def ReadsWhatCounts (store : LearningStore K) (step : LearningStep) : Prop :=
  match step.call with
  | .recordActivation id =>
    let before := unrounded config.decay (store.read step.readBefore id) step.now
    let persisted := unrounded config.decay (store.persisted id) step.now
    let inMemory := unrounded config.decay (store.fallbackMemory.get id) step.now
    (store.Counts config step.stored →
      step.readAfter = true ∧ capped (persisted + 10) = capped (before + 10)) ∧
    (¬store.Counts config step.stored →
      if step.readAfter && (store.persisted id).isSome then
        capped persisted = capped (before + 10)
      else capped (inMemory + 10) = capped (before + 10))
  | _ => True

variable {config} {store : LearningStore K}

theorem roundAway_zero : roundAway (0 : K) = 0 := by
  rw [roundAway, if_pos le_rfl, zero_add, Int.floor_eq_zero_iff]
  constructor <;> norm_num

theorem capped_zero : capped (0 : K) = 0 := by
  have hmin : min (0 : K) (maxInfluenceBoost : K) = 0 :=
    min_eq_left (by norm_num [maxInfluenceBoost])
  rw [capped, hmin, roundAway_zero]
  decide

theorem capped_add_pos {x : K} (hx : 0 ≤ x) : 0 < capped (x + 10) := by
  have hmin : 10 ≤ min (x + 10) (maxInfluenceBoost : K) := by
    refine le_min (by linarith) ?_
    norm_num [maxInfluenceBoost]
  have hround : 10 ≤ roundAway (min (x + 10) (maxInfluenceBoost : K)) := by
    rw [roundAway, if_pos (by linarith), Int.le_floor]
    push_cast
    linarith
  rw [capped, maxInfluenceBoost] at *
  omega

omit [FloorRing K] in
theorem unrounded_nonneg (decay : Decay K) (record : Option (LearningRecord K)) (now : ℕ) :
    0 ≤ unrounded decay record now := by
  refine mul_nonneg ?_ (by norm_num)
  cases record with
  | none => exact le_rfl
  | some record => exact mul_nonneg record.nonneg (decay.factor_nonneg _)

theorem unrounded_added (decay : Decay K) (record : Option (LearningRecord K)) (now : ℕ) :
    unrounded decay (some (added decay record now)) now = unrounded decay record now + 10 := by
  cases record with
  | none =>
    simp [unrounded, added, LearningRecord.decayed, LearningRecord.newInitial, decay.factor_zero]
  | some record =>
    simp only [unrounded, added, Option.elim_some, LearningRecord.decayed,
      LearningRecord.activate, Nat.sub_self, decay.factor_zero]
    ring

theorem scoreBoost_eq (get : Bool) (id : String) (now : ℕ) :
    store.scoreBoost config get id now =
      capped (unrounded config.decay (store.read get id) now) := by
  rw [scoreBoost, unrounded]
  cases store.read get id with
  | none => rw [Option.elim_none, zero_mul, capped_zero]
  | some record => rfl

/-! ### What the stores have after an activation -/

omit [IsStrictOrderedRing K] [FloorRing K] in
theorem getSearchLearningRecord_put (db : LearningRecords K) (id : String)
    {record : LearningRecord K} (h : record.version = LearningRecord.currentVersion) :
    getSearchLearningRecord (db.put id record) id = some record := by
  rw [getSearchLearningRecord, BTreeMap.get_put_self, Option.filter_some, if_pos (by simp [h])]

omit [IsStrictOrderedRing K] [FloorRing K] in
theorem version_of_getSearchLearningRecord {db : LearningRecords K} {id : String}
    {record : LearningRecord K} (h : getSearchLearningRecord db id = some record) :
    record.version = LearningRecord.currentVersion := by
  simpa using (Option.filter_eq_some_iff.mp h).2

/-- What the session store counts it adds to its own record. -/
theorem getSearchLearningRecord_of_counted {stored : Bool} {id : String} {now : ℕ}
    {db : LearningRecords K} (h : store.counted config stored id now = some db) :
    getSearchLearningRecord db id = some (added config.decay (store.persisted id) now) := by
  rw [counted] at h
  split_ifs at h
  obtain ⟨before, hbefore, h⟩ := Option.bind_eq_some_iff.mp h
  rw [recordSearchActivation] at h
  split_ifs at h
  rw [persisted, hbefore, Option.bind_some]
  cases hrecord : getSearchLearningRecord before id with
  | none =>
    rw [hrecord] at h
    obtain rfl := Option.some.inj h
    exact getSearchLearningRecord_put _ id rfl
  | some record =>
    rw [hrecord] at h
    obtain rfl := Option.some.inj h
    have hversion := version_of_getSearchLearningRecord hrecord
    exact getSearchLearningRecord_put _ id hversion

theorem isSome_counted_iff (stored : Bool) (id : String) (now : ℕ) :
    (store.counted config stored id now).isSome ↔ store.Counts config stored := by
  rw [counted, Counts]
  cases stored with
  | false => simp
  | true =>
    cases hdb : store.heedStore with
    | none => simp
    | some db =>
      simp only [if_true, Option.bind_some, Option.isSome_some, true_and]
      rw [recordSearchActivation]
      split_ifs with hmax
      · simp [hmax]
      · cases getSearchLearningRecord db id <;> simp [hmax]

theorem read_recordActivation_of_counts {stored : Bool} (h : store.Counts config stored)
    (get : Bool) (id : String) (now : ℕ) :
    (store.recordActivation config stored id now).read get id =
      if get then some (added config.decay (store.persisted id) now) else none := by
  obtain ⟨db, hdb⟩ := Option.isSome_iff_exists.mp ((isSome_counted_iff stored id now).mpr h)
  have hrecord := getSearchLearningRecord_of_counted hdb
  rw [recordActivation, hdb, read]
  simp only [persisted, Option.bind_some, hrecord, Option.some_or, BTreeMap.get_delete_self]

/-- What the session store does not count is added to the record in memory. -/
theorem get_recordInMemory (id : String) (now : ℕ) :
    (store.recordInMemory config id now).heedStore = store.heedStore ∧
      (store.recordInMemory config id now).fallbackMemory.get id =
        some (added config.decay (store.fallbackMemory.get id) now) := by
  rw [recordInMemory]
  cases store.fallbackMemory.get id with
  | none => exact ⟨rfl, BTreeMap.get_put_self⟩
  | some record => exact ⟨rfl, BTreeMap.get_put_self⟩

theorem read_recordActivation_of_not_counts {stored : Bool} (h : ¬store.Counts config stored)
    (get : Bool) (id : String) (now : ℕ) :
    (store.recordActivation config stored id now).read get id =
      if get && (store.persisted id).isSome then store.persisted id
      else some (added config.decay (store.fallbackMemory.get id) now) := by
  have hnone : store.counted config stored id now = none := by
    rwa [← isSome_counted_iff stored id now, Bool.not_eq_true,
      Option.isSome_eq_false_iff, Option.isNone_iff_eq_none] at h
  obtain ⟨hheed, hmemory⟩ := @get_recordInMemory K _ _ _ _ config store id now
  rw [recordActivation, hnone, read, persisted, hheed, hmemory, ← persisted]
  cases get <;> cases store.persisted id <;> rfl

omit [IsStrictOrderedRing K] [FloorRing K] in
theorem read_forgetResult (get : Bool) (id : String) :
    (store.forgetResult true id).read get id = none := by
  have hdelete : ∀ db : LearningRecords K, getSearchLearningRecord (db.delete id) id = none := by
    intro db
    rw [getSearchLearningRecord, BTreeMap.get_delete_self]
    rfl
  rw [forgetResult, read, persisted]
  simp only [if_true, BTreeMap.get_delete_self, Option.or_none]
  cases store.heedStore with
  | none => simp
  | some db => simp [hdelete]

omit [IsStrictOrderedRing K] [FloorRing K] in
theorem read_clearAll (get : Bool) (id : String) :
    (store.clearAll true).read get id = none := by
  rw [clearAll, read, persisted]
  cases store.heedStore with
  | none => cases get <;> rfl
  | some db => cases get <;> rfl

/-! ### Runs -/

theorem learns_iff (store : LearningStore K) (step : LearningStep) :
    store.Learns config step ↔ store.ReadsWhatCounts config step := by
  have hnone : ∀ now, unrounded config.decay none now = 0 := fun _ => zero_mul _
  obtain ⟨call, now, stored, readBefore, readAfter⟩ := step
  cases call with
  | recordActivation id =>
    simp only [Learns, ReadsWhatCounts, next]
    rw [scoreBoost_eq]
    have hpos := capped_add_pos
      (unrounded_nonneg config.decay (store.read readBefore id) now)
    by_cases hcounts : store.Counts config stored
    · rw [read_recordActivation_of_counts hcounts]
      cases readAfter with
      | false =>
        simp only [Bool.false_eq_true, if_false, hnone, capped_zero, false_and]
        refine iff_of_false hpos.ne fun h => h.1 hcounts
      | true =>
        simp only [if_true, unrounded_added, true_and]
        exact ⟨fun h => ⟨fun _ => h, fun hnot => absurd hcounts hnot⟩, fun h => h.1 hcounts⟩
    · rw [read_recordActivation_of_not_counts hcounts]
      split_ifs
      · exact ⟨fun h => ⟨fun hc => absurd hc hcounts, fun _ => h⟩, fun h => h.2 hcounts⟩
      · rw [unrounded_added]
        exact ⟨fun h => ⟨fun hc => absurd hc hcounts, fun _ => h⟩, fun h => h.2 hcounts⟩
  | forgetResult id =>
    refine iff_of_true ?_ trivial
    rintro rfl get now
    rw [scoreBoost_eq, next, read_forgetResult, hnone, capped_zero]
  | clearAll =>
    refine iff_of_true ?_ trivial
    rintro rfl get id now
    rw [scoreBoost_eq, next, read_clearAll, hnone, capped_zero]

/-- **A run loses no activation exactly when each is read from where it is counted.** -/
theorem along_learns_iff (config : LearningConfig K) (store : LearningStore K)
    (steps : List LearningStep) :
    Along (next config) (Learns config) store steps ↔
      Along (next config) (ReadsWhatCounts config) store steps :=
  along_congr (I := fun _ => True) (fun _ _ _ => trivial)
    (fun store step _ => learns_iff store step) trivial steps

end LearningStore

end

/-! ### An activation that is lost -/

/-- Half of a count is left after a second. -/
def secondly : Decay ℚ where
  factor elapsed := (1 / 2) ^ elapsed
  factor_zero := pow_zero _
  factor_nonneg _ := by positivity

/-- Room for 512 records. -/
def learningConfig : LearningConfig ℚ where
  maxEntries := 512
  decay := secondly
  oldestInMemory memory := (memory.oldestBy fun e => e.2.lastActivatedAtSecs).map (·.1)
  oldest_spec memory id h := by
    obtain ⟨e, he, rfl⟩ := Option.map_eq_some_iff.mp h
    exact ⟨e.2, BTreeMap.oldestBy_spec he⟩

/-- Two activations at once, of which the session store counts the first. -/
def lostActivation : List LearningStep :=
  [⟨.recordActivation "a", 0, true, true, true⟩, ⟨.recordActivation "a", 0, false, true, true⟩]

theorem along_learns_iff_lostActivation :
    Along (LearningStore.next learningConfig) (LearningStore.Learns learningConfig)
        ⟨some .empty, .empty⟩ lostActivation ↔
      Along (LearningStore.next learningConfig) (LearningStore.ReadsWhatCounts learningConfig)
        ⟨some .empty, .empty⟩ lostActivation :=
  LearningStore.along_learns_iff learningConfig ⟨some .empty, .empty⟩ lostActivation

theorem not_learns_lostActivation :
    ¬Along (LearningStore.next learningConfig) (LearningStore.Learns learningConfig)
      ⟨some .empty, .empty⟩ lostActivation := by
  rintro ⟨-, hsecond, -⟩
  revert hsecond
  simp only [LearningStore.Learns]
  decide +kernel

end Shilpo.Search
