import Shilpo.Extensions.StateRefinement

/-!
# The quotas of extensions

The metadata of an extension are kept up to date by what each mutation adds and takes
away, but not by the bytes of the keys: the plan of a mutation has these in both the new
total and the old one, also where the key is new or goes. So the totals are what the source
promises only for an extension without keys, and a run keeps its quotas exactly if it stores
nothing (`quotas_kept_iff`).
-/

namespace Shilpo.Extensions

open Theory

/-! ### Promises -/

/-- The bytes of a key and its value. -/
def entryBytes (entry : Bytes × Bytes) : ℕ := entry.1.length + entry.2.length

/-- The metadata of an extension go with what it stores, where `size` is what counts of a key
with its value, and both are within the limits. -/
structure WithinQuotas (size : Bytes × Bytes → ℕ) (metadata : ExtensionMetadata)
    (stored : List (Bytes × Bytes)) : Prop where
  keyCount : metadata.keyCount = stored.length
  keyCount_le : metadata.keyCount ≤ maxKeysPerExtension
  byteTotal : metadata.byteTotal = (stored.map size).sum
  byteTotal_le : metadata.byteTotal ≤ maxTotalBytesPerExtension
  valueSize : ∀ e ∈ stored, e.2.length ≤ maxValueBytes

/-- What is to be seen of an extension: its metadata, and its keys with their values. -/
abbrev ExtensionView := Except StateStoreError ExtensionMetadata × List (Bytes × Bytes)

/-- What is to be seen of an extension in memory. -/
def FakeInner.view (inner : FakeInner) (id : ValidId) : ExtensionView :=
  (.ok (inner.metadataOf id.1), inner.stored id.1)

/-- What is to be seen of an extension in the databases. -/
def HeedState.view (state : HeedState) (id : ValidId) : ExtensionView :=
  (state.metadataOf id.1, state.stored id.1)

/-- The answer says that something has changed. -/
def StateAnswer.changed : StateAnswer → Bool
  | .mutation (.ok m) => m.changed
  | _ => false

/-- All of an extension is deleted. -/
def StateCall.isDeleteAll : StateCall → Bool
  | .deleteAll _ => true
  | _ => false

/-- The call is a write of a key and a value that can be stored. -/
def StateCall.stores : StateCall → Bool
  | .write _ key value =>
    match (do validateKey key; encodeValue value : Except StateStoreError Bytes) with
    | .ok encoded => encoded.length ≤ maxValueBytes
    | .error _ => false
  | _ => false

section

variable {σ : Type} (store : StateStore σ) (view : σ → ValidId → ExtensionView)

/-- What is promised of a call: a change raises the revision by one, without a change nothing is
different, and other extensions are left alone. -/
structure CallKept (s : σ) (call : StateCall) : Prop where
  revision : (store.call s call).1.changed → ∃ metadata metadata',
    (view s call.id).1 = .ok metadata ∧ (view (store.step s call) call.id).1 = .ok metadata' ∧
      metadata'.revision = metadata.revision + 1
  unchanged : ¬ call.isDeleteAll → ¬ (store.call s call).1.changed →
    ∀ id, view (store.step s call) id = view s id
  others : ∀ id, id ≠ call.id → view (store.step s call) id = view s id

/-- In each state of a run every extension is within its quotas, and each call keeps its
promises. -/
structure QuotasKept (size : Bytes × Bytes → ℕ) (s : σ) (calls : List StateCall) : Prop where
  quotas : Always store.step (fun s => ∀ id, ∃ metadata,
    (view s id).1 = .ok metadata ∧ WithinQuotas size metadata (view s id).2) s calls
  calls : Along store.step (CallKept store view) s calls

end

/-- An extension that has nothing is within its quotas. -/
theorem withinQuotas_default (size : Bytes × Bytes → ℕ) : WithinQuotas size .default [] :=
  ⟨rfl, by decide, rfl, by decide, by simp⟩

theorem length_utf8_pos {text : String} (h : text ≠ "") : 0 < (utf8 text).length :=
  List.length_pos_of_ne_nil fun hnil => h (utf8_injective hnil)

/-! ### A mutation in memory -/

theorem ExtensionId.text_ne {id other : ExtensionId} (h : other ≠ id) : other.text ≠ id.text := by
  obtain ⟨text⟩ := id
  obtain ⟨text'⟩ := other
  rintro rfl
  exact h rfl

namespace FakeInner

variable (inner : FakeInner) (id : ExtensionId) (key : String) (incoming : Option Bytes)

/-- What a mutation leaves that changes something. -/
def mutated (metadata : ExtensionMetadata) : FakeInner where
  values :=
    match incoming with
    | some encoded => inner.values.insert (id.text, key) encoded
    | none => inner.values.erase (id.text, key)
  metadata := inner.metadata.insert id.text metadata

/-- A mutation changes nothing, or applies its plan. -/
theorem mutate_cases :
    (StateAnswer.mutation (inner.mutate id key incoming).1).changed = false ∧
      (inner.mutate id key incoming).2 = inner ∨
    (StateAnswer.mutation (inner.mutate id key incoming).1).changed = true ∧
      ∃ metadata, Applies (inner.metadataOf id) (inner.values.lookup (id.text, key)) incoming
          metadata.revision metadata.keyCount metadata.byteTotal ∧
        (inner.mutate id key incoming).2 = inner.mutated id key incoming metadata := by
  unfold mutate
  dsimp only
  cases hplan : planOver (inner.metadataOf id) key (inner.values.lookup (id.text, key))
      incoming with
  | error err => exact .inl ⟨rfl, rfl⟩
  | ok plan =>
    cases plan with
    | noOp => exact .inl ⟨rfl, rfl⟩
    | apply newRevision newKeyCount newByteTotal =>
      exact .inr ⟨rfl, ⟨newRevision, newKeyCount, newByteTotal⟩, planOver_eq_apply hplan, rfl⟩

/-- What a call can do in memory. -/
inductive Called (call : StateCall) : Bool → FakeInner → Prop where
  | unchanged (h : ¬ call.isDeleteAll) : Called call false inner
  | mutated (key : String) (incoming : Option Bytes) (metadata : ExtensionMetadata)
    (h : Applies (inner.metadataOf call.id.1) (inner.values.lookup (call.id.1.text, key)) incoming
      metadata.revision metadata.keyCount metadata.byteTotal) :
    Called call true (inner.mutated call.id.1 key incoming metadata)
  | deletedAll (h : call.isDeleteAll) : Called call false (inner.deleteAll call.id.1).2

theorem called (call : StateCall) :
    Called inner call (fakeStateStore.call inner call).1.changed
      (fakeStateStore.step inner call) := by
  have hmutate : ∀ (call : StateCall) (key : String) (incoming : Option Bytes),
      ¬ call.isDeleteAll →
      Called inner call (StateAnswer.mutation (inner.mutate call.id.1 key incoming).1).changed
        (inner.mutate call.id.1 key incoming).2 := by
    intro call key incoming hcall
    obtain ⟨hchanged, heq⟩ | ⟨hchanged, metadata, happlies, heq⟩ :=
      mutate_cases inner call.id.1 key incoming
    · rw [hchanged, heq]
      exact .unchanged hcall
    · rw [hchanged, heq]
      exact .mutated key incoming metadata happlies
  cases call with
  | read id key => exact .unchanged Bool.false_ne_true
  | write id key value =>
    change Called inner _ (StateAnswer.mutation (inner.write id.1 key value).1).changed
      (inner.write id.1 key value).2
    unfold write
    split
    · exact .unchanged Bool.false_ne_true
    · exact hmutate (.write id key value) key _ Bool.false_ne_true
  | delete id key =>
    change Called inner _ (StateAnswer.mutation (inner.delete id.1 key).1).changed
      (inner.delete id.1 key).2
    unfold delete
    split
    · exact .unchanged Bool.false_ne_true
    · exact hmutate (.delete id key) key none Bool.false_ne_true
  | deleteAll id => exact .deletedAll rfl

/-- What an extension has beside a key. -/
def beside : List (Bytes × Bytes) :=
  (FakeInner.mk (inner.values.erase (id.text, key)) inner.metadata).stored id

variable {inner id key incoming} {metadata : ExtensionMetadata}

@[simp] theorem metadataOf_mutated :
    (inner.mutated id key incoming metadata).metadataOf id = metadata := by
  simp [metadataOf, mutated]

theorem metadataOf_mutated_of_ne {other : ExtensionId} (h : other ≠ id) :
    (inner.mutated id key incoming metadata).metadataOf other = inner.metadataOf other := by
  simp [metadataOf, mutated, AList.lookup_insert_ne (ExtensionId.text_ne h)]

theorem metadataOf_deleteAll : (inner.deleteAll id).2.metadataOf id = .default := by
  simp [metadataOf, deleteAll]

theorem metadataOf_deleteAll_of_ne {other : ExtensionId} (h : other ≠ id) :
    (inner.deleteAll id).2.metadataOf other = inner.metadataOf other := by
  simp [metadataOf, deleteAll, AList.lookup_erase_ne (ExtensionId.text_ne h)]

/-- And after a mutation it has the new value, if there is one, and the same beside. -/
theorem stored_mutated :
    (inner.mutated id key incoming metadata).stored id =
      incoming.toList.map (Prod.mk (utf8 key)) ++ inner.beside id key := by
  cases incoming with
  | none => rfl
  | some encoded => exact List.filterMap_cons_some (if_pos rfl)

theorem stored_mutated_of_ne {other : ExtensionId} (h : other ≠ id) :
    (inner.mutated id key incoming metadata).stored other = inner.stored other := by
  have herase : (inner.values.erase (id.text, key)).entries.filterMap (fun e =>
      if e.1.1 = other.text then some (utf8 e.1.2, e.2) else none) = inner.stored other := by
    rw [entries_erase, List.filterMap_filter]
    refine List.filterMap_congr fun e _ => ?_
    by_cases hkey : e.1 = (id.text, key)
    · simp [hkey, (ExtensionId.text_ne h).symm]
    · simp [hkey]
  cases incoming with
  | none => exact herase
  | some encoded =>
    rw [← herase]
    exact List.filterMap_cons_none (if_neg (ExtensionId.text_ne h).symm)

end FakeInner

/-! ### Values are counted -/

namespace FakeInner

variable {inner : FakeInner}

/-! ### Calls keep their promises -/

theorem callKept (call : StateCall) : CallKept fakeStateStore view inner call := by
  have hcalled := called inner call
  constructor
  · intro hchanged
    rw [hchanged] at hcalled
    refine ⟨_, _, rfl, rfl, ?_⟩
    generalize fakeStateStore.step inner call = next at hcalled ⊢
    cases hcalled with
    | mutated key incoming metadata happlies =>
      rw [metadataOf_mutated]
      exact happlies.revision
  · intro hcall hchanged id
    generalize fakeStateStore.step inner call = next at hcalled ⊢
    generalize (fakeStateStore.call inner call).1.changed = changed at hcalled hchanged
    cases hcalled with
    | unchanged _ => rfl
    | mutated _ _ _ _ => exact absurd rfl hchanged
    | deletedAll hall => exact absurd hall hcall
  · intro id hid
    have hne : id.1 ≠ call.id.1 := fun h => hid (Subtype.ext h)
    generalize fakeStateStore.step inner call = next at hcalled ⊢
    generalize (fakeStateStore.call inner call).1.changed = changed at hcalled
    cases hcalled with
    | unchanged _ => rfl
    | mutated key incoming metadata _ =>
      rw [view, metadataOf_mutated_of_ne hne, stored_mutated_of_ne hne]
      rfl
    | deletedAll _ =>
      rw [view, metadataOf_deleteAll_of_ne hne, stored_deleteAll_of_ne _ hne]
      rfl

/-! ### Keys are not counted -/

theorem step_empty {call : StateCall} (h : ¬ call.stores) :
    fakeStateStore.step .empty call = .empty := by
  cases call with
  | read id key => rfl
  | write id key value =>
    change (write .empty id.1 key value).2 = .empty
    unfold write
    rw [StateCall.stores] at h
    cases hencoded : (do validateKey key; encodeValue value : Except StateStoreError Bytes) with
    | error err => rfl
    | ok encoded =>
      rw [hencoded] at h
      have hsize : maxValueBytes < encoded.length := by simpa using h
      have hcheck : checkIncoming .default none (some encoded) =
          .error (.valueSizeLimit maxValueBytes encoded.length) := if_pos hsize
      have hplan : planOver .default key none (some encoded) =
          .error (.valueSizeLimit maxValueBytes encoded.length) := by
        unfold planOver planMutation
        rw [hcheck]
        rfl
      change (mutate .empty id.1 key (some encoded)).2 = .empty
      unfold mutate
      have hmetadata : metadataOf .empty id.1 = .default := rfl
      have hlookup : empty.values.lookup (id.1.text, key) = none := rfl
      rw [hmetadata, hlookup]
      dsimp only
      rw [hplan]
  | delete id key =>
    change (delete .empty id.1 key).2 = .empty
    unfold delete
    split <;> rfl
  | deleteAll id => rfl

theorem validateKey_eq_ok {key : String} (h : validateKey key = .ok ()) : key ≠ "" := by
  rintro rfl
  cases h

/-- The plan for the first key of an extension. -/
theorem planOver_default (key : String) {encoded : Bytes} (h : encoded.length ≤ maxValueBytes) :
    planOver .default key none (some encoded) = .ok (.apply 1 1 encoded.length) := by
  have hcheck : checkIncoming .default none (some encoded) = .ok () := by
    rw [checkIncoming, if_neg (not_lt.mpr h)]
    rfl
  have hvalue : encoded.length ≤ maxTotalBytesPerExtension := h.trans (by decide)
  have htotal : ((ExtensionMetadata.default.byteTotal : ℕ) : ℤ) +
      ((((utf8 key).length + encoded.length : ℕ) : ℤ) - ((utf8 key).length + 0 : ℕ)) =
      encoded.length := by
    rw [ExtensionMetadata.default]
    push_cast
    ring
  change planMutation .default (utf8 key).length none (some encoded) = _
  rw [planMutation, if_neg (by simp), hcheck]
  simp only [Option.map_some, Option.map_none, Option.getD_some, Option.getD_none]
  change (if _ then _ else _) = _
  rw [htotal, if_neg (by omega), if_neg (by omega), if_neg (by decide)]
  rfl

/-- Once a key is stored, its bytes are missing from the total. -/
theorem not_withinQuotas_of_stores {call : StateCall} (h : call.stores) :
    ¬ WithinQuotas entryBytes ((fakeStateStore.step .empty call).metadataOf call.id.1)
      ((fakeStateStore.step .empty call).stored call.id.1) := by
  cases call with
  | read id key => exact absurd h Bool.false_ne_true
  | write id key value =>
    rw [StateCall.stores] at h
    have hstep : fakeStateStore.step .empty (.write id key value) = (write .empty id.1 key value).2 :=
      rfl
    rw [hstep]
    unfold write
    cases hencoded : (do validateKey key; encodeValue value : Except StateStoreError Bytes) with
    | error err =>
      rw [hencoded] at h
      exact absurd h Bool.false_ne_true
    | ok encoded =>
      rw [hencoded] at h
      obtain ⟨⟨⟩, hkey, -⟩ := bind_eq_ok.mp hencoded
      have hmutate : (mutate .empty id.1 key (some encoded)).2 =
          mutated .empty id.1 key (some encoded) ⟨1, 1, encoded.length⟩ := by
        have hplan := planOver_default key (by simpa using h)
        unfold mutate
        have hmetadata : metadataOf .empty id.1 = .default := rfl
        have hlookup : empty.values.lookup (id.1.text, key) = none := rfl
        rw [hmetadata, hlookup]
        dsimp only
        rw [hplan]
        rfl
      dsimp only [StateCall.id]
      rw [hmutate, metadataOf_mutated, stored_mutated]
      intro hquotas
      have hbeside : beside .empty id.1 key = [] := rfl
      have htotal := hquotas.byteTotal
      rw [hbeside] at htotal
      have hlength : 0 < (utf8 key).length := length_utf8_pos (validateKey_eq_ok hkey)
      simp only [entryBytes, Option.toList_some, List.map_cons, List.map_nil, List.cons_append,
        List.nil_append, List.sum_cons, List.sum_nil] at htotal
      omega
  | delete id key => exact absurd h Bool.false_ne_true
  | deleteAll id => exact absurd h Bool.false_ne_true

/-- A run keeps the quotas if and only if it stores nothing. -/
theorem quotasKept_iff (calls : List StateCall) :
    QuotasKept fakeStateStore view entryBytes .empty calls ↔ ∀ call ∈ calls, ¬ call.stores := by
  constructor
  · rintro ⟨hquotas, -⟩
    induction calls with
    | nil => simp
    | cons call calls ih =>
      have hcall : ¬ call.stores := by
        intro hstores
        obtain ⟨metadata, hmetadata, hwithin⟩ := (always_iff _ _).mp hquotas [call] calls rfl call.id
        cases hmetadata
        exact not_withinQuotas_of_stores hstores hwithin
      have hrest := hquotas.2
      rw [step_empty hcall] at hrest
      exact List.forall_mem_cons.mpr ⟨hcall, ih hrest⟩
  · intro h
    have hempty : ∀ before after, calls = before ++ after →
        run fakeStateStore.step .empty before = .empty := by
      intro before
      induction before generalizing calls with
      | nil => exact fun _ _ => rfl
      | cons call before ih =>
        rintro after rfl
        rw [run_cons, step_empty (h call List.mem_cons_self)]
        exact ih (before ++ after) (fun c hc => h c (List.mem_cons_of_mem _ hc)) after rfl
    refine ⟨(always_iff _ _).mpr fun before after hsplit id => ⟨_, rfl, ?_⟩,
      (along_iff _ _).mpr fun _ call _ _ => callKept call⟩
    rw [hempty before after hsplit]
    exact withinQuotas_default entryBytes

end FakeInner

/-! ### The persistent store -/

/-- What is to be seen is the same in both stores. -/
theorem Represents.view {inner : FakeInner} {state : HeedState} (h : Represents inner state) :
    state.view = inner.view := by
  funext id
  rw [HeedState.view, FakeInner.view, h.metadataOf id, h.stored id]

/-- A promise is kept by calls that answer alike and are seen to do the same. -/
theorem CallKept.congr {σ τ : Type} {store : StateStore σ} {store' : StateStore τ}
    {view : σ → ValidId → ExtensionView} {view' : τ → ValidId → ExtensionView} {s : σ} {t : τ}
    {call : StateCall} (hanswer : (store.call s call).1 = (store'.call t call).1)
    (hview : view s = view' t) (hstep : view (store.step s call) = view' (store'.step t call))
    (h : CallKept store view s call) : CallKept store' view' t call := by
  obtain ⟨hrevision, hunchanged, hothers⟩ := h
  rw [hanswer, hview, hstep] at hrevision
  rw [hanswer, hview, hstep] at hunchanged
  rw [hview, hstep] at hothers
  exact ⟨hrevision, hunchanged, hothers⟩

/-- The persistent store keeps the quotas in the runs in which the one in memory does. -/
theorem heed_quotasKept_iff (size : Bytes × Bytes → ℕ) (calls : List StateCall) :
    QuotasKept heedStateStore HeedState.view size .empty calls ↔
      QuotasKept fakeStateStore FakeInner.view size .empty calls := by
  have hstep : ∀ inner state call, Represents inner state →
      Represents (fakeStateStore.step inner call) (heedStateStore.step state call) :=
    fun inner state call h => (h.call call).2
  have hquotas := always_iff_of_sim
    (P := fun inner : FakeInner => ∀ id, ∃ metadata,
      (inner.view id).1 = .ok metadata ∧ WithinQuotas size metadata (inner.view id).2)
    (Q := fun state : HeedState => ∀ id, ∃ metadata,
      (state.view id).1 = .ok metadata ∧ WithinQuotas size metadata (state.view id).2)
    hstep (fun inner state h => by rw [h.view]) .empty calls
  have hcalls := along_iff_of_sim (C := CallKept fakeStateStore FakeInner.view)
    (D := CallKept heedStateStore HeedState.view) hstep
    (fun inner state call h =>
      ⟨CallKept.congr (h.call call).1.symm h.view.symm (h.call call).2.view.symm,
        CallKept.congr (h.call call).1 h.view (h.call call).2.view⟩) .empty calls
  exact ⟨fun h => ⟨hquotas.mpr h.quotas, hcalls.mpr h.calls⟩,
    fun h => ⟨hquotas.mp h.quotas, hcalls.mp h.calls⟩⟩

/-- **A run of either store keeps the quotas if and only if it stores nothing.** -/
theorem quotas_kept_iff (calls : List StateCall) :
    (QuotasKept fakeStateStore FakeInner.view entryBytes .empty calls ↔
      ∀ call ∈ calls, ¬ call.stores) ∧
    (QuotasKept heedStateStore HeedState.view entryBytes .empty calls ↔
      ∀ call ∈ calls, ¬ call.stores) :=
  ⟨FakeInner.quotasKept_iff calls,
    (heed_quotasKept_iff entryBytes calls).trans (FakeInner.quotasKept_iff calls)⟩

/-- A key of one byte with a number of nine bytes counts nine. -/
theorem quotas_lost_number :
    ¬ QuotasKept heedStateStore HeedState.view entryBytes .empty
      [.write ⟨⟨"org.example.clock"⟩, by decide⟩ "k" (.int 1)] := by
  rw [heed_quotasKept_iff, FakeInner.quotasKept_iff]
  intro h
  exact h _ List.mem_cons_self (by decide)

end Shilpo.Extensions
