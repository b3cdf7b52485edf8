import Shilpo.Extensions.StateRefinement

/-!
# Records of values

A value is stored as a tag and what belongs to it: nothing, one byte, eight bytes, or a length
of four bytes and as many bytes. What is decoded was encoded so (`decodeValue_eq_ok_iff`),
and two values are never encoded alike (`encodeValue_injective`). A length that does not fit
four bytes is cut off by the encoder, and the record cannot be decoded.
-/

namespace Shilpo.Extensions

/-! ### Numbers of bytes -/

variable (bytes : Bytes)

theorem fromLeBytes_lt : fromLeBytes bytes < 256 ^ bytes.length := by
  induction bytes with
  | nil => simp [fromLeBytes]
  | cons b rest ih =>
    have hb := b.toNat_lt
    rw [fromLeBytes, List.length_cons, Nat.pow_succ']
    omega

theorem toLeBytes_fromLeBytes :
    toLeBytes bytes.length (fromLeBytes bytes) = bytes := by
  induction bytes with
  | nil => rfl
  | cons b rest ih =>
    have hb := b.toNat_lt
    have hlow : (b.toNat + 256 * fromLeBytes rest) % 256 = b.toNat := by omega
    have hhigh : (b.toNat + 256 * fromLeBytes rest) / 256 = fromLeBytes rest := by omega
    rw [List.length_cons, fromLeBytes, toLeBytes, hlow, hhigh, ih, UInt8.ofNat_toNat]

/-- Eight bytes are the bytes of a number of 64 bits. -/
theorem toLeBytes_of_length_eight {bytes : Bytes} (h : bytes.length = 8) :
    toLeBytes 8 (UInt64.ofNat (fromLeBytes bytes)).toNat = bytes := by
  have hlt := fromLeBytes_lt bytes
  rw [h] at hlt
  rw [UInt64.toNat_ofNat_of_lt' (hlt.trans_le (by decide))]
  rw [← h]
  exact toLeBytes_fromLeBytes bytes

theorem fromLeBytes_uint64 (n : UInt64) : UInt64.ofNat (fromLeBytes (toLeBytes 8 n.toNat)) = n := by
  have hlt : n.toNat < 256 ^ 8 := n.toNat_lt.trans_le (by decide)
  rw [fromLeBytes_toLeBytes, Nat.mod_eq_of_lt hlt, UInt64.ofNat_toNat]

/-- The text of these bytes, if they are one's. -/
theorem fromUTF8?_eq_some_iff (text : String) :
    String.fromUTF8? ⟨bytes.toArray⟩ = some text ↔ utf8 text = bytes := by
  rw [String.fromUTF8?]
  constructor
  · intro h
    split_ifs at h with hvalid
    obtain rfl := Option.some.inj h
    rfl
  · rintro rfl
    have hbytes : (⟨(utf8 text).toArray⟩ : ByteArray) = text.toByteArray := rfl
    rw [hbytes, dif_pos text.isValidUTF8]
    rfl

/-! ### Records -/

/-- How many bytes stand behind the length, if there is one. -/
def StateValue.payloadLength : StateValue → ℕ
  | .text value => (utf8 value).length
  | .bytes value => value.length
  | _ => 0

variable (length : ℕ)

/-- The length in front of a payload is read modulo 2³². -/
theorem readU32Payload_append (payload : Bytes) :
    readU32Payload (toLeBytes 4 length ++ payload) = .ok (length % 2 ^ 32) := by
  have hlength : ¬ (toLeBytes 4 length ++ payload).length < 4 := by
    simp [length_toLeBytes]
  rw [readU32Payload, if_neg hlength, List.take_left' (length_toLeBytes 4 length),
    fromLeBytes_toLeBytes]
  rfl

/-- Four bytes and more are a length and a payload. -/
theorem exists_length_payload {rest : Bytes} (h : ¬ rest.length < 4) :
    ∃ length payload, length < 2 ^ 32 ∧ rest = toLeBytes 4 length ++ payload := by
  have htake : (rest.take 4).length = 4 := by
    rw [List.length_take]
    omega
  refine ⟨fromLeBytes (rest.take 4), rest.drop 4, ?_, ?_⟩
  · have hlt := fromLeBytes_lt (rest.take 4)
    rw [htake] at hlt
    exact hlt.trans_le (by decide)
  · have hbytes := toLeBytes_fromLeBytes (rest.take 4)
    rw [htake] at hbytes
    rw [hbytes, List.take_append_drop]

variable (rest : Bytes)

theorem decodeValue_none (v : StateValue) :
    decodeValue (0x00 :: rest) = .ok v ↔ rest = [] ∧ v = .none := by
  cases rest with
  | nil => exact ⟨fun h => ⟨rfl, (Except.ok.inj h).symm⟩, fun h => h.2 ▸ rfl⟩
  | cons => exact iff_of_false (by simp [decodeValue]) fun h => List.cons_ne_nil _ _ h.1

theorem decodeValue_bool (v : StateValue) :
    decodeValue (0x01 :: rest) = .ok v ↔
      ∃ value, rest = [if value then 1 else 0] ∧ v = .bool value := by
  by_cases hfalse : rest = [0]
  · subst hfalse
    have h : decodeValue [0x01, 0] = .ok (.bool false) := rfl
    rw [h, Except.ok.injEq]
    exact ⟨fun h => ⟨false, rfl, h.symm⟩, by rintro ⟨_ | _, hvalue, rfl⟩ <;> simp_all⟩
  · by_cases htrue : rest = [1]
    · subst htrue
      have h : decodeValue [0x01, 1] = .ok (.bool true) := rfl
      rw [h, Except.ok.injEq]
      exact ⟨fun h => ⟨true, rfl, h.symm⟩, by rintro ⟨_ | _, hvalue, rfl⟩ <;> simp_all⟩
    · refine iff_of_false (fun h => ?_) ?_
      · by_cases hlength : rest.length = 1 <;> simp [decodeValue, hfalse, htrue, hlength] at h
      rintro ⟨_ | _, hvalue, -⟩
      · exact hfalse hvalue
      · exact htrue hvalue

theorem decodeValue_int (v : StateValue) :
    decodeValue (0x02 :: rest) = .ok v ↔
      rest.length = 8 ∧ v = .int (UInt64.ofNat (fromLeBytes rest)).toInt64 := by
  by_cases hlength : rest.length = 8
  · have h : decodeValue (0x02 :: rest) = .ok (.int (UInt64.ofNat (fromLeBytes rest)).toInt64) := by
      simp [decodeValue, hlength]
    rw [h, Except.ok.injEq]
    exact ⟨fun h => ⟨hlength, h.symm⟩, fun h => h.2.symm⟩
  · exact iff_of_false (by simp [decodeValue, hlength]) fun h => hlength h.1

theorem decodeValue_float (v : StateValue) :
    decodeValue (0x03 :: rest) = .ok v ↔
      rest.length = 8 ∧ F64.isFinite ⟨UInt64.ofNat (fromLeBytes rest)⟩ ∧
        v = .float ⟨UInt64.ofNat (fromLeBytes rest)⟩ := by
  by_cases hlength : rest.length = 8
  · by_cases hfinite : F64.isFinite ⟨UInt64.ofNat (fromLeBytes rest)⟩
    · have h : decodeValue (0x03 :: rest) = .ok (.float ⟨UInt64.ofNat (fromLeBytes rest)⟩) := by
        simp [decodeValue, hlength, hfinite]
      rw [h, Except.ok.injEq]
      exact ⟨fun h => ⟨hlength, hfinite, h.symm⟩, fun h => h.2.2.symm⟩
    · exact iff_of_false (by simp [decodeValue, hlength, hfinite]) fun h => hfinite h.2.1
  · exact iff_of_false (by simp [decodeValue, hlength]) fun h => hlength h.1

theorem decodeValue_text :
    decodeValue (0x04 :: rest) = (do
      let length ← readU32Payload rest
      if rest.length < 4 + length then .error (.corrupt "truncated text record")
      else
        match String.fromUTF8? ⟨((rest.drop 4).take length).toArray⟩ with
        | none => .error (.corrupt "text record is not UTF-8")
        | some text =>
          if rest.length ≠ 4 + length then
            .error (.corrupt "text record contains trailing bytes")
          else .ok (.text text)) := rfl

theorem decodeValue_bytes :
    decodeValue (0x05 :: rest) = (do
      let length ← readU32Payload rest
      if rest.length < 4 + length then .error (.corrupt "truncated bytes record")
      else if rest.length ≠ 4 + length then
        .error (.corrupt "bytes record contains trailing bytes")
      else .ok (.bytes ((rest.drop 4).take length))) := rfl

/-- A record of bytes is decoded if the length is right. -/
theorem decodeValue_bytes_iff (payload : Bytes) (v : StateValue) :
    decodeValue (0x05 :: (toLeBytes 4 length ++ payload)) = .ok v ↔
      payload.length = length % 2 ^ 32 ∧ v = .bytes payload := by
  have hrest : (toLeBytes 4 length ++ payload).length = 4 + payload.length := by
    rw [List.length_append, length_toLeBytes]
  have hpayload : (toLeBytes 4 length ++ payload).drop 4 = payload :=
    List.drop_left' (length_toLeBytes 4 length)
  rw [decodeValue_bytes]
  simp only [readU32Payload_append, hrest, hpayload]
  generalize length % 2 ^ 32 = n
  simp only [bind, Except.bind, Nat.add_lt_add_iff_left, Nat.add_left_cancel_iff, ne_eq]
  by_cases hlt : payload.length < n
  · exact iff_of_false (by simp [hlt]) fun h => absurd h.1 hlt.ne
  · by_cases heq : payload.length = n
    · subst heq
      rw [if_neg (lt_irrefl _), if_neg (not_not.mpr rfl), List.take_length, Except.ok.injEq]
      exact ⟨fun h => ⟨rfl, h.symm⟩, fun h => h.2.symm⟩
    · exact iff_of_false (by simp [hlt, heq]) fun h => heq h.1

/-- A record of a text is decoded if the length is right and the bytes are a text's. -/
theorem decodeValue_text_iff (payload : Bytes) (v : StateValue) :
    decodeValue (0x04 :: (toLeBytes 4 length ++ payload)) = .ok v ↔
      payload.length = length % 2 ^ 32 ∧ ∃ text, utf8 text = payload ∧ v = .text text := by
  have hrest : (toLeBytes 4 length ++ payload).length = 4 + payload.length := by
    rw [List.length_append, length_toLeBytes]
  have hpayload : (toLeBytes 4 length ++ payload).drop 4 = payload :=
    List.drop_left' (length_toLeBytes 4 length)
  rw [decodeValue_text]
  simp only [readU32Payload_append, hrest, hpayload]
  generalize length % 2 ^ 32 = n
  simp only [bind, Except.bind, Nat.add_lt_add_iff_left, Nat.add_left_cancel_iff, ne_eq]
  by_cases hlt : payload.length < n
  · exact iff_of_false (by simp [hlt]) fun h => absurd h.1 hlt.ne
  · by_cases heq : payload.length = n
    · subst heq
      rw [if_neg (lt_irrefl _), List.take_length]
      cases htext : String.fromUTF8? ⟨payload.toArray⟩ with
      | none =>
        refine iff_of_false (by simp) ?_
        rintro ⟨-, text, hutf8, -⟩
        rw [(fromUTF8?_eq_some_iff _ text).mpr hutf8] at htext
        cases htext
      | some text =>
        have hutf8 := (fromUTF8?_eq_some_iff _ text).mp htext
        dsimp only
        rw [if_neg (not_not.mpr rfl), Except.ok.injEq]
        constructor
        · rintro rfl
          exact ⟨rfl, text, hutf8, rfl⟩
        · rintro ⟨-, text', hutf8', rfl⟩
          rw [utf8_injective (hutf8'.trans hutf8.symm)]
    · refine iff_of_false ?_ fun h => heq h.1
      cases String.fromUTF8? ⟨(payload.take n).toArray⟩ <;> simp [hlt, heq]

/-- What is decoded from a record is what is encoded so, if its length fits. -/
theorem decodeValue_eq_ok_iff (record : Bytes) (v : StateValue) :
    decodeValue record = .ok v ↔ encodeValue v = .ok record ∧ v.payloadLength < 2 ^ 32 := by
  constructor
  · intro h
    cases record with
    | nil => cases h
    | cons tag rest =>
      by_cases hnone : tag = 0x00
      · subst hnone
        obtain ⟨rfl, rfl⟩ := (decodeValue_none _ _).mp h
        exact ⟨rfl, by decide⟩
      by_cases hbool : tag = 0x01
      · subst hbool
        obtain ⟨value, rfl, rfl⟩ := (decodeValue_bool _ _).mp h
        exact ⟨rfl, by simp [StateValue.payloadLength]⟩
      by_cases hint : tag = 0x02
      · subst hint
        obtain ⟨hlength, rfl⟩ := (decodeValue_int _ _).mp h
        refine ⟨?_, by simp [StateValue.payloadLength]⟩
        rw [encodeValue, UInt64.toUInt64_toInt64, toLeBytes_of_length_eight hlength]
      by_cases hfloat : tag = 0x03
      · subst hfloat
        obtain ⟨hlength, hfinite, rfl⟩ := (decodeValue_float _ _).mp h
        refine ⟨?_, by simp [StateValue.payloadLength]⟩
        rw [encodeValue, if_pos hfinite, toLeBytes_of_length_eight hlength]
      by_cases htext : tag = 0x04
      · subst htext
        by_cases hshort : rest.length < 4
        · simp [decodeValue_text, readU32Payload, hshort, bind, Except.bind] at h
        · obtain ⟨length, payload, hlt, rfl⟩ := exists_length_payload hshort
          obtain ⟨hlength, text, rfl, rfl⟩ := (decodeValue_text_iff _ _ _).mp h
          rw [Nat.mod_eq_of_lt hlt] at hlength
          subst hlength
          exact ⟨rfl, hlt⟩
      by_cases hbytes : tag = 0x05
      · subst hbytes
        by_cases hshort : rest.length < 4
        · simp [decodeValue_bytes, readU32Payload, hshort, bind, Except.bind] at h
        · obtain ⟨length, payload, hlt, rfl⟩ := exists_length_payload hshort
          obtain ⟨hlength, rfl⟩ := (decodeValue_bytes_iff _ _ _).mp h
          rw [Nat.mod_eq_of_lt hlt] at hlength
          subst hlength
          exact ⟨rfl, hlt⟩
      · simp [decodeValue, hnone, hbool, hint, hfloat, htext, hbytes] at h
  · rintro ⟨h, hlength⟩
    cases v with
    | none =>
      obtain rfl := Except.ok.inj h
      rfl
    | bool value =>
      obtain rfl := Except.ok.inj h
      exact (decodeValue_bool _ _).mpr ⟨value, rfl, rfl⟩
    | int value =>
      obtain rfl := Except.ok.inj h
      refine (decodeValue_int _ _).mpr ⟨length_toLeBytes _ _, ?_⟩
      rw [fromLeBytes_uint64, Int64.toInt64_toUInt64]
    | float value =>
      rw [encodeValue] at h
      split_ifs at h with hfinite
      obtain rfl := Except.ok.inj h
      refine (decodeValue_float _ _).mpr ⟨length_toLeBytes _ _, ?_⟩
      rw [fromLeBytes_uint64]
      exact ⟨hfinite, rfl⟩
    | text value =>
      obtain rfl := Except.ok.inj h
      exact (decodeValue_text_iff _ _ _).mpr
        ⟨(Nat.mod_eq_of_lt hlength).symm, value, rfl, rfl⟩
    | bytes value =>
      obtain rfl := Except.ok.inj h
      exact (decodeValue_bytes_iff _ _ _).mpr ⟨(Nat.mod_eq_of_lt hlength).symm, rfl⟩

theorem length_encodeValue {v : StateValue} {record : Bytes} (h : encodeValue v = .ok record) :
    record.length = encodedLen v := by
  cases v with
  | float value =>
    rw [encodeValue] at h
    split_ifs at h
    obtain rfl := Except.ok.inj h
    simp [length_toLeBytes, encodedLen]
  | none | bool | int =>
    obtain rfl := Except.ok.inj h
    simp [length_toLeBytes, encodedLen]
  | text value | bytes value =>
    obtain rfl := Except.ok.inj h
    simp [length_toLeBytes, encodedLen]
    omega

/-- Whether the length fits can be seen from the record. -/
theorem payloadLength_lt_iff (v : StateValue) :
    v.payloadLength < 2 ^ 32 ↔ encodedLen v < 5 + 2 ^ 32 := by
  cases v with
  | none | bool | int | float => exact iff_of_true (Nat.two_pow_pos 32) (by simp [encodedLen])
  | text value | bytes value =>
    simp only [StateValue.payloadLength, encodedLen]
    omega

/-- Two values are not encoded alike, whatever their lengths. -/
theorem encodeValue_injective {v w : StateValue} {record : Bytes}
    (hv : encodeValue v = .ok record) (hw : encodeValue w = .ok record) : v = w := by
  have hlengths := (length_encodeValue hv).symm.trans (length_encodeValue hw)
  by_cases hfits : v.payloadLength < 2 ^ 32
  · have hfits' : w.payloadLength < 2 ^ 32 := by
      rwa [payloadLength_lt_iff, ← hlengths, ← payloadLength_lt_iff]
    have hdecoded := (decodeValue_eq_ok_iff record v).mpr ⟨hv, hfits⟩
    rw [(decodeValue_eq_ok_iff record w).mpr ⟨hw, hfits'⟩] at hdecoded
    exact (Except.ok.inj hdecoded).symm
  · -- what does not fit is a text or bytes, and the tags are different
    have hfits' : ¬ w.payloadLength < 2 ^ 32 := by
      rwa [payloadLength_lt_iff, ← hlengths, ← payloadLength_lt_iff]
    cases v with
    | none | bool | int | float => exact absurd (Nat.two_pow_pos 32) hfits
    | text value =>
      cases w with
      | none | bool | int | float => exact absurd (Nat.two_pow_pos 32) hfits'
      | text value' =>
        obtain rfl := Except.ok.inj hv
        have hrest := (List.cons.inj (Except.ok.inj hw)).2
        exact congrArg _ (utf8_injective
          (List.append_inj_right hrest (by simp [length_toLeBytes])).symm)
      | bytes value' =>
        obtain rfl := Except.ok.inj hv
        exact absurd (List.cons.inj (Except.ok.inj hw)).1 (by decide)
    | bytes value =>
      cases w with
      | none | bool | int | float => exact absurd (Nat.two_pow_pos 32) hfits'
      | text value' =>
        obtain rfl := Except.ok.inj hv
        exact absurd (List.cons.inj (Except.ok.inj hw)).1 (by decide)
      | bytes value' =>
        obtain rfl := Except.ok.inj hv
        have hrest := (List.cons.inj (Except.ok.inj hw)).2
        exact congrArg _ (List.append_inj_right hrest (by simp [length_toLeBytes])).symm

/-- What is encoded is decoded to the same value, and is as long as is said. -/
def StateValue.RoundTrips (v : StateValue) : Prop :=
  ∀ record, encodeValue v = .ok record →
    decodeValue record = .ok v ∧ encodedLen v = record.length

end Shilpo.Extensions
