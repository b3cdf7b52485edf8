import Shilpo.Extensions.State

/-!
# The two stores agree

The persistent store answers every call as the store in memory does
(`stores_agree`). Its databases are the maps of the other under flattened keys
(`Represents`): the key of an extension's key starts with the bytes of the extension's
name, which have no zero among them, and a zero. So it is known from its bytes, and those
that start as one extension's do are that extension's, even where one name is the start of
another.
-/

namespace Shilpo.Extensions

open Theory

/-! ### Numbers as bytes -/

theorem length_toLeBytes (k n : ℕ) : (toLeBytes k n).length = k := by
  induction k generalizing n with
  | zero => rfl
  | succ k ih => rw [toLeBytes, List.length_cons, ih]

theorem fromLeBytes_toLeBytes (k n : ℕ) : fromLeBytes (toLeBytes k n) = n % 256 ^ k := by
  induction k generalizing n with
  | zero => simp [toLeBytes, fromLeBytes, Nat.mod_one]
  | succ k ih =>
    have hbyte : (UInt8.ofNat (n % 256)).toNat = n % 256 := by simp
    rw [toLeBytes, fromLeBytes, ih, hbyte, Nat.pow_succ', Nat.mod_mul]

/-- Metadata that fit the bytes they are stored in, and the limits. -/
structure ExtensionMetadata.Fits (metadata : ExtensionMetadata) : Prop where
  revision : metadata.revision < 2 ^ 64
  keyCount : metadata.keyCount ≤ maxKeysPerExtension
  byteTotal : metadata.byteTotal ≤ maxTotalBytesPerExtension

variable {metadata : ExtensionMetadata}

theorem decodeMetadata_encodeMetadata (h : metadata.Fits) :
    decodeMetadata (encodeMetadata metadata) = .ok metadata := by
  have hlength : (encodeMetadata metadata).length = 20 := by
    simp [encodeMetadata, length_toLeBytes]
  have hcount : metadata.keyCount < 256 ^ 4 := h.keyCount.trans_lt (by decide)
  have hbound : metadata.revision < 256 ^ 8 := h.revision.trans_le (by decide)
  have htotal : metadata.byteTotal < 256 ^ 8 := h.byteTotal.trans_lt (by decide)
  have hrevision : (encodeMetadata metadata).take 8 = toLeBytes 8 metadata.revision := by
    rw [encodeMetadata, List.append_assoc, List.take_left' (length_toLeBytes ..)]
  have hdrop : (encodeMetadata metadata).drop 8 =
      toLeBytes 4 metadata.keyCount ++ toLeBytes 8 metadata.byteTotal := by
    rw [encodeMetadata, List.append_assoc, List.drop_left' (length_toLeBytes ..)]
  have hrest : (encodeMetadata metadata).drop 12 = toLeBytes 8 metadata.byteTotal := by
    rw [show 12 = 8 + 4 from rfl, ← List.drop_drop, hdrop, List.drop_left' (length_toLeBytes ..)]
  rw [decodeMetadata, if_neg (not_not.mpr hlength), hrevision, hdrop, hrest,
    List.take_left' (length_toLeBytes ..), fromLeBytes_toLeBytes, fromLeBytes_toLeBytes,
    fromLeBytes_toLeBytes, Nat.mod_eq_of_lt hbound, Nat.mod_eq_of_lt hcount,
    Nat.mod_eq_of_lt htotal]

/-! ### Keys as bytes -/

theorem utf8_injective {a b : String} (h : utf8 a = utf8 b) : a = b :=
  String.toByteArray_inj.mp (ByteArray.ext (Array.toList_inj.mp h))

theorem utf8_eq (text : String) : utf8 text = text.toList.flatMap String.utf8EncodeChar := by
  obtain ⟨chars, rfl⟩ := text.exists_eq_ofList
  rw [utf8, String.toByteArray_ofList, String.toList_ofList, List.utf8Encode]
  simp

/-- Texts that are separated are put together from their parts. -/
theorem mem_intercalate {α : Type} {x c : α} {ls : List (List α)}
    (h : c ∈ [x].intercalate ls) : c = x ∨ ∃ l ∈ ls, c ∈ l := by
  induction ls with
  | nil => cases h
  | cons l ls ih =>
    cases ls with
    | nil => exact .inr ⟨l, List.mem_cons_self, by simpa using h⟩
    | cons l' ls =>
      rw [List.intercalate_cons_cons, List.append_assoc] at h
      obtain h | h := List.mem_append.mp h
      · exact .inr ⟨l, List.mem_cons_self, h⟩
      · obtain rfl | h := List.mem_cons.mp h
        · exact .inl rfl
        · obtain hc | ⟨l', hl', hc⟩ := ih h
          · exact .inl hc
          · exact .inr ⟨l', List.mem_cons_of_mem l hl', hc⟩

/-- A character of an extension's name. -/
def IsIdChar (c : Char) : Bool := Config.isLowerOrDigit c || c = '-' || c = '.'

theorem isIdChar_of_mem {text : String} (h : Config.isExtensionId text = true) {c : Char}
    (hc : c ∈ text.toList) : IsIdChar c := by
  simp only [Config.isExtensionId, Bool.and_eq_true, List.all_eq_true] at h
  rw [← @List.intercalate_splitOn _ text.toList _ _ '.'] at hc
  obtain rfl | ⟨segment, hsegment, hc⟩ := mem_intercalate hc
  · decide
  · have hchar := (h.2 segment hsegment).2 c hc
    simp only [Bool.or_eq_true] at hchar
    simp only [IsIdChar, Bool.or_eq_true]
    exact .inl hchar

theorem utf8EncodeChar_of_isIdChar {c : Char} (h : IsIdChar c) :
    ∀ b ∈ String.utf8EncodeChar c, b ≠ 0 := by
  have hrange : 0 < c.val.toNat ∧ c.val.toNat ≤ 0x7f := by
    simp only [IsIdChar, Config.isLowerOrDigit, Bool.or_eq_true, Bool.and_eq_true,
      decide_eq_true_eq] at h
    obtain ((⟨hlow, hhigh⟩ | ⟨hlow, hhigh⟩) | rfl) | rfl := h
    · exact ⟨lt_of_lt_of_le (by decide : 0 < 'a'.val.toNat) hlow,
        le_trans hhigh (by decide : 'z'.val.toNat ≤ 0x7f)⟩
    · exact ⟨lt_of_lt_of_le (by decide : 0 < '0'.val.toNat) hlow,
        le_trans hhigh (by decide : '9'.val.toNat ≤ 0x7f)⟩
    · decide
    · decide
  rw [String.utf8EncodeChar, if_pos hrange.2]
  intro b hb
  rw [List.mem_singleton.mp hb]
  intro hzero
  have hnat := congrArg UInt8.toNat hzero
  rw [UInt8.toNat_ofNat', UInt8.toNat_zero, Nat.mod_eq_of_lt (hrange.2.trans_lt (by decide))] at hnat
  exact absurd hnat hrange.1.ne'

/-- The bytes of an extension's name have no zero among them. -/
theorem zero_notMem_utf8 {text : String} (h : Config.isExtensionId text = true) :
    ∀ b ∈ utf8 text, b ≠ 0 := by
  intro b hb
  rw [utf8_eq, List.mem_flatMap] at hb
  obtain ⟨c, hc, hb⟩ := hb
  exact utf8EncodeChar_of_isIdChar (isIdChar_of_mem h hc) b hb

/-- **Keys in the database are told apart.** -/
theorem compositeKey_inj {id id' : ExtensionId} {key key' : String}
    (hid : Config.isExtensionId id.text = true) (hid' : Config.isExtensionId id'.text = true)
    (h : compositeKey id key = compositeKey id' key') : id = id' ∧ key = key' := by
  have hname : utf8 id.text = utf8 id'.text :=
    @append_inj_of_stop _ (fun b => b != 0) _ _ _ _ (by simpa using zero_notMem_utf8 hid)
      (by simpa using zero_notMem_utf8 hid') rfl rfl h
  obtain ⟨text⟩ := id
  obtain ⟨text'⟩ := id'
  obtain rfl : text = text' := utf8_injective hname
  have hkey := List.append_cancel_left h
  exact ⟨rfl, utf8_injective (List.cons.inj hkey).2⟩

theorem compositeKey_eq (id : ExtensionId) (key : String) :
    compositeKey id key = compositeKey id "" ++ utf8 key := by
  simp [compositeKey, utf8]

/-- **What starts as an extension's keys do is one of them.** -/
theorem isPrefixOf_compositeKey {id id' : ExtensionId} {key : String}
    (hid : Config.isExtensionId id.text = true) (hid' : Config.isExtensionId id'.text = true) :
    (compositeKey id "").isPrefixOf (compositeKey id' key) = true ↔ id = id' := by
  rw [List.isPrefixOf_iff_prefix]
  constructor
  · rintro ⟨rest, hrest⟩
    have hname : utf8 id.text = utf8 id'.text := by
      rw [compositeKey, List.append_assoc] at hrest
      exact @append_inj_of_stop _ (fun b => b != 0) _ _ _ _ (by simpa using zero_notMem_utf8 hid)
        (by simpa using zero_notMem_utf8 hid') rfl rfl hrest
    obtain ⟨text⟩ := id
    obtain ⟨text'⟩ := id'
    obtain rfl : text = text' := utf8_injective hname
    rfl
  · rintro rfl
    exact ⟨utf8 key, (compositeKey_eq id key).symm⟩

/-! ### Plans -/

/-- What is true of a plan that changes something. -/
structure Applies (metadata : ExtensionMetadata) (existing incoming : Option Bytes)
    (newRevision newKeyCount newByteTotal : ℕ) : Prop where
  changes : existing ≠ incoming
  valueSize : ∀ value ∈ incoming, value.length ≤ maxValueBytes
  room : incoming.isSome → existing = none → metadata.keyCount < maxKeysPerExtension
  revision : newRevision = metadata.revision + 1
  revision_lt : newRevision < 2 ^ 64
  keyCount : newKeyCount =
    metadata.keyCount + (if existing.isNone then 1 else 0) - (if incoming.isNone then 1 else 0)
  byteTotal : newByteTotal + (existing.map List.length).getD 0 =
    metadata.byteTotal + (incoming.map List.length).getD 0
  byteTotal_le : newByteTotal ≤ maxTotalBytesPerExtension

variable {existing incoming : Option Bytes}

theorem checkIncoming_eq_ok (h : checkIncoming metadata existing incoming = .ok ()) :
    (∀ value ∈ incoming, value.length ≤ maxValueBytes) ∧
      (incoming.isSome → existing = none → metadata.keyCount < maxKeysPerExtension) := by
  cases incoming with
  | none => exact ⟨by simp, by simp⟩
  | some value =>
    simp only [checkIncoming] at h
    split_ifs at h with hsize hcount
    refine ⟨by simpa using hsize, fun _ hnone => ?_⟩
    subst hnone
    simpa using hcount

/-- Beside nothing and rejections, a plan is this. -/
theorem planOver_eq_apply {key : String} {newRevision newKeyCount newByteTotal : ℕ}
    (h : planOver metadata key existing incoming =
      .ok (.apply newRevision newKeyCount newByteTotal)) :
    Applies metadata existing incoming newRevision newKeyCount newByteTotal := by
  have hplan : planMutation metadata (utf8 key).length existing incoming =
      .ok (.apply newRevision newKeyCount newByteTotal) := by
    cases existing with
    | none => exact h
    | some record =>
      unfold planOver at h
      cases hrecord : decodeValue record with
      | error err =>
        simp only [hrecord] at h
        cases h
      | ok value =>
        simp only [hrecord] at h
        exact h
  unfold planMutation at hplan
  by_cases hchanges : existing = incoming
  · rw [if_pos hchanges] at hplan
    cases hplan
  · rw [if_neg hchanges] at hplan
    obtain ⟨⟨⟩, hcheck, hplan⟩ := bind_eq_ok.mp hplan
    obtain ⟨hsize, hroom⟩ := checkIncoming_eq_ok hcheck
    dsimp only at hplan
    split at hplan
    · cases hplan
    · split at hplan
      · cases hplan
      · split at hplan
        · cases hplan
        · cases hplan
          exact ⟨hchanges, hsize, hroom, rfl, by omega, rfl, by omega, by omega⟩

theorem Applies.fits {newRevision newKeyCount newByteTotal : ℕ} (hmetadata : metadata.Fits)
    (h : Applies metadata existing incoming newRevision newKeyCount newByteTotal) :
    (ExtensionMetadata.mk newRevision newKeyCount newByteTotal).Fits := by
  refine ⟨h.revision_lt, ?_, h.byteTotal_le⟩
  have hcount := h.keyCount
  have hroom := h.room
  have hbound := hmetadata.keyCount
  cases existing <;> cases incoming <;> simp at hcount hroom <;> dsimp only <;> omega

/-! ### One store represents the other -/

/-- The databases are the maps in memory under flattened keys. -/
structure Represents (inner : FakeInner) (state : HeedState) : Prop where
  values : Flattens (fun k : String × String => compositeKey ⟨k.1⟩ k.2) id inner.values state.values
  owners : ∀ e ∈ inner.values.entries, Config.isExtensionId e.1.1 = true
  metadata : Flattens id encodeMetadata inner.metadata state.metadata
  fits : ∀ e ∈ inner.metadata.entries, e.2.Fits

namespace Represents

theorem empty : Represents .empty .empty := ⟨rfl, by simp [FakeInner.empty], rfl, by simp [FakeInner.empty]⟩

variable {inner : FakeInner} {state : HeedState} (h : Represents inner state) (id : ValidId)
  (key : String)

include h

/-- Keys that are flattened alike are the same. -/
theorem inj : ∀ e ∈ inner.values.entries,
    compositeKey ⟨e.1.1⟩ e.1.2 = compositeKey id.1 key → e.1 = (id.1.text, key) := by
  intro e he hkey
  obtain ⟨hid, hkey⟩ := @compositeKey_inj ⟨e.1.1⟩ id.1 _ _ (h.owners e he) id.2 hkey
  exact Prod.ext (congrArg ExtensionId.text hid) hkey

theorem lookup : state.values.lookup (compositeKey id.1 key) =
    inner.values.lookup (id.1.text, key) := by
  have hlookup := @Flattens.lookup _ _ _ _ _ _ _ _ _ _ h.values (id.1.text, key) (h.inj id key)
  rw [Option.map_id, id_eq] at hlookup
  exact hlookup

theorem fits_metadataOf : (inner.metadataOf id.1).Fits := by
  unfold FakeInner.metadataOf
  cases hlookup : inner.metadata.lookup id.1.text with
  | none => exact ⟨by decide, by decide, by decide⟩
  | some metadata => exact h.fits _ (List.of_mem_dlookup hlookup)

theorem metadataOf : state.metadataOf id.1 = .ok (inner.metadataOf id.1) := by
  have hfits := h.fits_metadataOf id
  have hlookup := @Flattens.lookup _ _ _ _ _ _ _ _ _ _ h.metadata id.1.text fun e _ he => he
  rw [id_eq] at hlookup
  unfold HeedState.metadataOf
  unfold FakeInner.metadataOf at *
  rw [hlookup]
  cases hmetadata : inner.metadata.lookup id.1.text with
  | none => rfl
  | some metadata =>
    rw [hmetadata] at hfits
    exact decodeMetadata_encodeMetadata hfits

/-- A mutation is answered alike, and the databases go on representing the maps. -/
theorem mutate (incoming : Option Bytes) :
    (state.mutate id.1 key incoming).1 = (inner.mutate id.1 key incoming).1 ∧
      Represents (inner.mutate id.1 key incoming).2 (state.mutate id.1 key incoming).2 := by
  unfold HeedState.mutate FakeInner.mutate
  rw [h.metadataOf id, h.lookup id key]
  dsimp only
  cases hplan : planOver (inner.metadataOf id.1) key (inner.values.lookup (id.1.text, key))
      incoming with
  | error err => exact ⟨rfl, h⟩
  | ok plan =>
    cases plan with
    | noOp => exact ⟨rfl, h⟩
    | apply newRevision newKeyCount newByteTotal =>
      have happlies := planOver_eq_apply hplan
      refine ⟨rfl, ?_, ?_, ?_, ?_⟩
      · cases incoming with
        | none => exact @Flattens.erase _ _ _ _ _ _ _ _ _ _ h.values (id.1.text, key) (h.inj id key)
        | some encoded =>
          exact @Flattens.insert _ _ _ _ _ _ _ _ _ _ h.values (id.1.text, key) (h.inj id key)
            encoded
      · cases incoming with
        | none => exact fun e he => h.owners e (mem_entries_of_mem_erase he)
        | some encoded =>
          intro e he
          obtain rfl | he := List.mem_cons.mp he
          · exact id.2
          · exact h.owners e (mem_entries_of_mem_erase he)
      · exact @Flattens.insert _ _ _ _ _ _ _ _ _ _ h.metadata id.1.text (fun e _ he => he)
          ⟨newRevision, newKeyCount, newByteTotal⟩
      · intro e he
        obtain rfl | he := List.mem_cons.mp he
        · exact happlies.fits (h.fits_metadataOf id)
        · exact h.fits e (mem_entries_of_mem_erase he)

theorem write (value : StateValue) :
    (state.write id.1 key value).1 = (inner.write id.1 key value).1 ∧
      Represents (inner.write id.1 key value).2 (state.write id.1 key value).2 := by
  unfold HeedState.write FakeInner.write
  cases (do validateKey key; encodeValue value : Except StateStoreError Bytes) with
  | error err => exact ⟨rfl, h⟩
  | ok encoded => exact h.mutate id key (some encoded)

theorem delete :
    (state.delete id.1 key).1 = (inner.delete id.1 key).1 ∧
      Represents (inner.delete id.1 key).2 (state.delete id.1 key).2 := by
  unfold HeedState.delete FakeInner.delete
  cases validateKey key with
  | error err => exact ⟨rfl, h⟩
  | ok _ => exact h.mutate id key none

theorem read : state.read id.1 key = inner.read id.1 key := by
  unfold HeedState.read FakeInner.read
  rw [h.metadataOf id, h.lookup id key]
  rfl

/-- What starts as an extension's keys do is what the extension has in memory. -/
theorem isPrefixOf {e : Σ _ : String × String, Bytes} (he : e ∈ inner.values.entries) :
    (compositeKey id.1 "").isPrefixOf (compositeKey ⟨e.1.1⟩ e.1.2) = decide (e.1.1 = id.1.text) := by
  rw [Bool.eq_iff_iff, @isPrefixOf_compositeKey id.1 ⟨e.1.1⟩ _ id.2 (h.owners e he),
    decide_eq_true_eq]
  constructor
  · intro hid
    rw [hid]
  · intro htext
    rw [htext]

theorem deleteAll : Represents (inner.deleteAll id.1).2 (state.deleteAll id.1).2 := by
  refine ⟨?_, ?_, ?_, ?_⟩
  · refine h.values.retain fun e he => ?_
    rw [h.isPrefixOf id he, decide_not]
  · exact fun e he => h.owners e (List.mem_of_mem_filter he)
  · exact @Flattens.erase _ _ _ _ _ _ _ _ _ _ h.metadata id.1.text fun e _ he => he
  · exact fun e he => h.fits e (mem_entries_of_mem_erase he)

/-- An extension has the same keys with the same values in both. -/
theorem stored : state.stored id.1 = inner.stored id.1 := by
  unfold HeedState.stored FakeInner.stored
  rw [h.values, List.filterMap_map]
  refine List.filterMap_congr fun e he => ?_
  have hprefix := h.isPrefixOf id he
  simp only [Function.comp_apply, hprefix, decide_eq_true_eq]
  split_ifs with hid
  · have hkey : compositeKey ⟨e.1.1⟩ e.1.2 = compositeKey id.1 "" ++ utf8 e.1.2 := by
      rw [hid]
      exact compositeKey_eq id.1 e.1.2
    rw [hkey, List.drop_left]
    rfl
  · rfl

/-- A call is answered alike, and the databases go on representing the maps. -/
theorem call (call : StateCall) :
    (heedStateStore.call state call).1 = (fakeStateStore.call inner call).1 ∧
      Represents (fakeStateStore.step inner call) (heedStateStore.step state call) := by
  cases call with
  | read id key => exact ⟨congrArg StateAnswer.snapshot (h.read id key), h⟩
  | write id key value =>
    obtain ⟨hanswer, hnext⟩ := h.write id key value
    exact ⟨congrArg StateAnswer.mutation hanswer, hnext⟩
  | delete id key =>
    obtain ⟨hanswer, hnext⟩ := h.delete id key
    exact ⟨congrArg StateAnswer.mutation hanswer, hnext⟩
  | deleteAll id => exact ⟨rfl, h.deleteAll id⟩

omit h in
theorem run (calls : List StateCall) : ∀ {inner : FakeInner} {state : HeedState},
    Represents inner state →
      heedStateStore.answers state calls = fakeStateStore.answers inner calls ∧
      Represents (Theory.run fakeStateStore.step inner calls)
        (Theory.run heedStateStore.step state calls) := by
  induction calls with
  | nil => exact fun h => ⟨rfl, h⟩
  | cons call calls ih =>
    intro inner state h
    obtain ⟨hanswer, hnext⟩ := h.call call
    obtain ⟨hanswers, hrun⟩ := ih hnext
    exact ⟨congrArg₂ List.cons hanswer hanswers, hrun⟩

end Represents

/-! ### Agreement -/

theorem FakeInner.stored_deleteAll (inner : FakeInner) (id : ExtensionId) :
    (inner.deleteAll id).2.stored id = [] := by
  refine List.filterMap_eq_nil_iff.mpr fun e he => ?_
  have hid := (List.mem_filter.mp he).2
  rw [if_neg (by simpa using hid)]

theorem FakeInner.stored_deleteAll_of_ne (inner : FakeInner) {id other : ExtensionId}
    (h : other ≠ id) : (inner.deleteAll id).2.stored other = inner.stored other := by
  have htext : other.text ≠ id.text := fun htext => h (by cases other; cases id; cases htext; rfl)
  unfold FakeInner.stored FakeInner.deleteAll retain
  dsimp only
  rw [List.filterMap_filter]
  refine List.filterMap_congr fun e _ => ?_
  by_cases hother : e.1.1 = other.text
  · rw [if_pos (by simpa [hother] using htext)]
  · simp [hother]

/-- **The persistent store answers as the one in memory.** And to delete all of an extension
removes all its keys, and none of another's. -/
theorem stores_agree (calls : List StateCall) :
    heedStateStore.answers .empty calls = fakeStateStore.answers .empty calls ∧
      ∀ id : ValidId,
        ((run heedStateStore.step .empty calls).deleteAll id.1).2.stored id.1 = [] ∧
        ∀ other : ValidId, other ≠ id →
          ((run heedStateStore.step .empty calls).deleteAll id.1).2.stored other.1 =
            (run heedStateStore.step .empty calls).stored other.1 := by
  obtain ⟨hanswers, hrun⟩ := Represents.run calls .empty
  refine ⟨hanswers, fun id => ⟨?_, fun other hother => ?_⟩⟩
  · rw [(hrun.deleteAll id).stored id]
    exact FakeInner.stored_deleteAll _ id.1
  · rw [(hrun.deleteAll id).stored other, hrun.stored other]
    exact FakeInner.stored_deleteAll_of_ne _ fun h => hother (Subtype.ext h)

end Shilpo.Extensions
