import Shilpo.Extensions.CircuitBreaker
import Shilpo.Config.Validation
import Shilpo.Theory.Fallible
import Shilpo.Theory.Flattening
import Shilpo.Theory.Runs

/-!
# The state of extensions

`desktop/ext-runtime/src/state.rs`: for each extension a store of values under keys, with
limits on the number of keys and on the bytes. Both stores of the source are here:
`FakeStateStore` keeps values in memory under an extension and a key, `HeedStateStore` in
an LMDB database under the bytes of both.

A byte string is a list of bytes. A database is a map whose write transactions are atomic
and whose backend never fails; nothing depends on the order of its keys, which is the
order in which `delete_all` comes to them.
-/

namespace Shilpo.Extensions

open Theory

/-- A byte string. -/
abbrev Bytes := List UInt8

/-- The bytes of a text. -/
def utf8 (text : String) : Bytes := text.toByteArray.data.toList

/-! ### Limits -/

/-- How many bytes a key may have. -/
def maxKeyBytes : ℕ := 256

/-- How many keys an extension may have. -/
def maxKeysPerExtension : ℕ := 256

/-- How many bytes a value may have. -/
def maxValueBytes : ℕ := 64 * 1024

/-- How many bytes an extension may have. -/
def maxTotalBytesPerExtension : ℕ := 4 * 1024 * 1024

/-! ### Values -/

/-- A floating-point number of 64 bits, as its bits. -/
structure F64 where
  bits : UInt64
  deriving DecidableEq

/-- It is neither infinite nor no number: the bits of its exponent are not all ones. -/
def F64.isFinite (value : F64) : Bool := value.bits.toNat / 2 ^ 52 % 2 ^ 11 ≠ 2 ^ 11 - 1

/-- What an extension may store. -/
inductive StateValue where
  | none
  | bool (value : Bool)
  | int (value : Int64)
  | float (value : F64)
  | text (value : String)
  | bytes (value : Bytes)

/-- Why there is no result. -/
inductive StateStoreError where
  | invalidKey (message : String)
  | invalidValue (message : String)
  | keyCountLimit
  | valueSizeLimit (limit actual : ℕ)
  | byteBudgetExceeded (limit actual : ℕ)
  | revisionOverflow
  | corrupt (message : String)
  | internal (message : String)
  deriving DecidableEq

/-- The value of a key, and the revision of the extension. -/
structure StateSnapshot where
  value : Option StateValue
  revision : ℕ

/-- What has become of a write or a deletion. -/
structure StateMutation where
  changed : Bool
  revision : ℕ
  deriving DecidableEq

/-- Whether a text can be a key. -/
def validateKey (key : String) : Except StateStoreError Unit :=
  if key = "" then .error (.invalidKey "key must be non-empty")
  else if maxKeyBytes < (utf8 key).length then
    .error (.invalidKey
      ("key is " ++ toString (utf8 key).length ++ " bytes; the maximum is " ++
        toString maxKeyBytes))
  else .ok ()

/-- The last `k` bytes of a number, the lowest first. -/
def toLeBytes : ℕ → ℕ → Bytes
  | 0, _ => []
  | k + 1, n => UInt8.ofNat (n % 256) :: toLeBytes k (n / 256)

/-- The number of these bytes, the lowest first. -/
def fromLeBytes : Bytes → ℕ
  | [] => 0
  | b :: rest => b.toNat + 256 * fromLeBytes rest

/-- A value as it is stored. -/
def encodeValue : StateValue → Except StateStoreError Bytes
  | .none => .ok [0x00]
  | .bool value => .ok [0x01, if value then 1 else 0]
  | .int value => .ok (0x02 :: toLeBytes 8 value.toUInt64.toNat)
  | .float value =>
    if value.isFinite then .ok (0x03 :: toLeBytes 8 value.bits.toNat)
    else
      .error (.invalidValue "non-finite floats cannot be stored in extension state")
  | .text value => .ok (0x04 :: (toLeBytes 4 (utf8 value).length ++ utf8 value))
  | .bytes value => .ok (0x05 :: (toLeBytes 4 value.length ++ value))

/-- How long the record of a value is. -/
def encodedLen : StateValue → ℕ
  | .none => 1
  | .bool _ => 2
  | .int _ | .float _ => 9
  | .text value => 5 + (utf8 value).length
  | .bytes value => 5 + value.length

/-- The first four bytes as a length. -/
def readU32Payload (bytes : Bytes) : Except StateStoreError ℕ :=
  if bytes.length < 4 then .error (.corrupt "truncated record length")
  else .ok (fromLeBytes (bytes.take 4))

/-- A value that has been stored. -/
def decodeValue : Bytes → Except StateStoreError StateValue
  | [] => .error (.corrupt "empty state record")
  | tag :: rest =>
    if tag = 0x00 && rest = [] then .ok .none
    else if tag = 0x01 && rest.length = 1 then
      if rest = [0] then .ok (.bool false)
      else if rest = [1] then .ok (.bool true)
      else .error (.corrupt "boolean record contains an invalid value")
    else if tag = 0x02 && rest.length = 8 then
      .ok (.int (UInt64.ofNat (fromLeBytes rest)).toInt64)
    else if tag = 0x03 && rest.length = 8 then
      let value : F64 := ⟨UInt64.ofNat (fromLeBytes rest)⟩
      if value.isFinite then .ok (.float value)
      else .error (.corrupt "record contains a non-finite float")
    else if tag = 0x04 then do
      let length ← readU32Payload rest
      if rest.length < 4 + length then .error (.corrupt "truncated text record")
      else
        match String.fromUTF8? ⟨((rest.drop 4).take length).toArray⟩ with
        | none => .error (.corrupt "text record is not UTF-8")
        | some text =>
          if rest.length ≠ 4 + length then
            .error (.corrupt "text record contains trailing bytes")
          else .ok (.text text)
    else if tag = 0x05 then do
      let length ← readU32Payload rest
      if rest.length < 4 + length then .error (.corrupt "truncated bytes record")
      else if rest.length ≠ 4 + length then
        .error (.corrupt "bytes record contains trailing bytes")
      else .ok (.bytes ((rest.drop 4).take length))
    else .error (.corrupt ("record has unknown tag byte " ++ toString tag.toNat))

/-! ### Metadata -/

/-- What is kept of an extension beside its values. -/
structure ExtensionMetadata where
  revision : ℕ
  keyCount : ℕ
  byteTotal : ℕ
  deriving DecidableEq

/-- An extension that has nothing. -/
def ExtensionMetadata.default : ExtensionMetadata := ⟨0, 0, 0⟩

/-- Metadata as it is stored. -/
def encodeMetadata (metadata : ExtensionMetadata) : Bytes :=
  toLeBytes 8 metadata.revision ++ toLeBytes 4 metadata.keyCount ++ toLeBytes 8 metadata.byteTotal

/-- Metadata that has been stored. -/
def decodeMetadata (bytes : Bytes) : Except StateStoreError ExtensionMetadata :=
  if bytes.length ≠ 20 then
    .error (.corrupt
      ("metadata record has " ++ toString bytes.length ++ " bytes; expected 20"))
  else
    .ok ⟨fromLeBytes (bytes.take 8), fromLeBytes ((bytes.drop 8).take 4),
      fromLeBytes (bytes.drop 12)⟩

/-! ### Mutations -/

/-- What is to be done about a mutation. -/
inductive MutationPlan where
  | noOp
  | apply (newRevision newKeyCount newByteTotal : ℕ)

/-- Whether an incoming value is within the limits, beside what is there. -/
def checkIncoming (metadata : ExtensionMetadata) (existing incoming : Option Bytes) :
    Except StateStoreError Unit :=
  match incoming with
  | some value =>
    if maxValueBytes < value.length then .error (.valueSizeLimit maxValueBytes value.length)
    else if existing.isNone && maxKeysPerExtension ≤ metadata.keyCount then
      .error .keyCountLimit
    else .ok ()
  | none => .ok ()

/-- The plan for a key of `keyBytes` bytes with the value `existing` that is to have the value
`incoming`. -/
def planMutation (metadata : ExtensionMetadata) (keyBytes : ℕ)
    (existing incoming : Option Bytes) : Except StateStoreError MutationPlan :=
  if existing = incoming then .ok .noOp
  else do
    checkIncoming metadata existing incoming
    let oldBytes := (existing.map List.length).getD 0
    let newBytes := (incoming.map List.length).getD 0
    -- the bytes of the key are in both terms, whether it is new or not
    let delta : ℤ := ((keyBytes + newBytes : ℕ) : ℤ) - (keyBytes + oldBytes : ℕ)
    let newTotal : ℤ := metadata.byteTotal + delta
    if newTotal < 0 then .error (.internal "state byte accounting underflow")
    else if (maxTotalBytesPerExtension : ℤ) < newTotal then
      .error (.byteBudgetExceeded maxTotalBytesPerExtension newTotal.toNat)
    else if 2 ^ 64 ≤ metadata.revision + 1 then .error .revisionOverflow
    else
      .ok (.apply (metadata.revision + 1)
        (metadata.keyCount + (if existing.isNone then 1 else 0) -
          (if incoming.isNone then 1 else 0))
        newTotal.toNat)

/-- The plan, if what is there can be read. -/
def planOver (metadata : ExtensionMetadata) (key : String) (existing incoming : Option Bytes) :
    Except StateStoreError MutationPlan := do
  if let some record := existing then
    let _ ← decodeValue record
  planMutation metadata (utf8 key).length existing incoming

/-! ### Stores -/

/-- A store with states `σ`: what its calls answer, and what they leave. -/
structure StateStore (σ : Type) where
  read : σ → ExtensionId → String → Except StateStoreError StateSnapshot
  write : σ → ExtensionId → String → StateValue → Except StateStoreError StateMutation × σ
  delete : σ → ExtensionId → String → Except StateStoreError StateMutation × σ
  deleteAll : σ → ExtensionId → Except StateStoreError Unit × σ

/-! ### The store in memory -/

/-- What the store in memory holds. -/
structure FakeInner where
  values : AList fun _ : String × String => Bytes
  metadata : AList fun _ : String => ExtensionMetadata

namespace FakeInner

/-- Nothing is stored. -/
def empty : FakeInner := ⟨∅, ∅⟩

variable (inner : FakeInner) (id : ExtensionId)

/-- What is kept of an extension. -/
def metadataOf : ExtensionMetadata := (inner.metadata.lookup id.text).getD .default

/-- The value of a key. -/
def read (key : String) : Except StateStoreError StateSnapshot := do
  validateKey key
  match inner.values.lookup (id.text, key) with
  | none => return ⟨none, (inner.metadataOf id).revision⟩
  | some encoded =>
    let value ← decodeValue encoded
    return ⟨some value, (inner.metadataOf id).revision⟩

/-- A key is to have a value, or none. -/
def mutate (key : String) (incoming : Option Bytes) :
    Except StateStoreError StateMutation × FakeInner :=
  let metadata := inner.metadataOf id
  match planOver metadata key (inner.values.lookup (id.text, key)) incoming with
  | .error err => (.error err, inner)
  | .ok .noOp => (.ok ⟨false, metadata.revision⟩, inner)
  | .ok (.apply newRevision newKeyCount newByteTotal) =>
    (.ok ⟨true, newRevision⟩,
      { values :=
          match incoming with
          | some encoded => inner.values.insert (id.text, key) encoded
          | none => inner.values.erase (id.text, key)
        metadata := inner.metadata.insert id.text ⟨newRevision, newKeyCount, newByteTotal⟩ })

/-- A key gets a value. -/
def write (key : String) (value : StateValue) : Except StateStoreError StateMutation × FakeInner :=
  match (do validateKey key; encodeValue value) with
  | .error err => (.error err, inner)
  | .ok encoded => inner.mutate id key (some encoded)

/-- A key is deleted. -/
def delete (key : String) : Except StateStoreError StateMutation × FakeInner :=
  match validateKey key with
  | .error err => (.error err, inner)
  | .ok () => inner.mutate id key none

/-- All of an extension is deleted. -/
def deleteAll : Except StateStoreError Unit × FakeInner :=
  (.ok (), ⟨retain inner.values fun e => e.1.1 ≠ id.text, inner.metadata.erase id.text⟩)

/-- The keys of an extension, with their values. -/
def stored : List (Bytes × Bytes) :=
  inner.values.entries.filterMap fun e =>
    if e.1.1 = id.text then some (utf8 e.1.2, e.2) else none

end FakeInner

/-- The store in memory. -/
def fakeStateStore : StateStore FakeInner where
  read := FakeInner.read
  write := FakeInner.write
  delete := FakeInner.delete
  deleteAll := FakeInner.deleteAll

/-! ### The persistent store -/

/-- The two databases. -/
structure HeedState where
  values : AList fun _ : Bytes => Bytes
  metadata : AList fun _ : String => Bytes

/-- The key in the database of an extension's key: the two with a zero between them. -/
def compositeKey (id : ExtensionId) (key : String) : Bytes := utf8 id.text ++ 0 :: utf8 key

namespace HeedState

/-- Nothing is stored. -/
def empty : HeedState := ⟨∅, ∅⟩

variable (state : HeedState) (id : ExtensionId)

/-- What is kept of an extension. -/
def metadataOf : Except StateStoreError ExtensionMetadata :=
  match state.metadata.lookup id.text with
  | some bytes => decodeMetadata bytes
  | none => .ok .default

/-- The value of a key. -/
def read (key : String) : Except StateStoreError StateSnapshot := do
  validateKey key
  let metadata ← state.metadataOf id
  match state.values.lookup (compositeKey id key) with
  | none => return ⟨none, metadata.revision⟩
  | some encoded =>
    let value ← decodeValue encoded
    return ⟨some value, metadata.revision⟩

/-- A key is to have a value, or none. -/
def mutate (key : String) (incoming : Option Bytes) :
    Except StateStoreError StateMutation × HeedState :=
  match state.metadataOf id with
  | .error err => (.error err, state)
  | .ok metadata =>
    match planOver metadata key (state.values.lookup (compositeKey id key)) incoming with
    | .error err => (.error err, state)
    | .ok .noOp => (.ok ⟨false, metadata.revision⟩, state)
    | .ok (.apply newRevision newKeyCount newByteTotal) =>
      (.ok ⟨true, newRevision⟩,
        { values :=
            match incoming with
            | some encoded => state.values.insert (compositeKey id key) encoded
            | none => state.values.erase (compositeKey id key)
          metadata :=
            state.metadata.insert id.text
              (encodeMetadata ⟨newRevision, newKeyCount, newByteTotal⟩) })

/-- A key gets a value. -/
def write (key : String) (value : StateValue) : Except StateStoreError StateMutation × HeedState :=
  match (do validateKey key; encodeValue value) with
  | .error err => (.error err, state)
  | .ok encoded => state.mutate id key (some encoded)

/-- A key is deleted. -/
def delete (key : String) : Except StateStoreError StateMutation × HeedState :=
  match validateKey key with
  | .error err => (.error err, state)
  | .ok () => state.mutate id key none

/-- The keys in the database that start as those of an extension do. -/
def keysOf : List Bytes :=
  (state.values.entries.map Sigma.fst).filter fun key => (compositeKey id "").isPrefixOf key

/-- All of an extension is deleted, one key after the other. -/
def deleteAll : Except StateStoreError Unit × HeedState :=
  (.ok (), ⟨eraseAll state.values (state.keysOf id), state.metadata.erase id.text⟩)

/-- The keys of an extension, with their values. -/
def stored : List (Bytes × Bytes) :=
  state.values.entries.filterMap fun e =>
    if (compositeKey id "").isPrefixOf e.1 then
      some (e.1.drop (compositeKey id "").length, e.2)
    else none

end HeedState

/-- The persistent store. -/
def heedStateStore : StateStore HeedState where
  read := HeedState.read
  write := HeedState.write
  delete := HeedState.delete
  deleteAll := HeedState.deleteAll

/-! ### Runs -/

/-- The name of an extension as it can be made: three segments or more, in reverse domain
notation. -/
abbrev ValidId := {id : ExtensionId // Config.isExtensionId id.text = true}

/-- A call of a store. -/
inductive StateCall where
  | read (id : ValidId) (key : String)
  | write (id : ValidId) (key : String) (value : StateValue)
  | delete (id : ValidId) (key : String)
  | deleteAll (id : ValidId)

/-- The extension that a call is about. -/
def StateCall.id : StateCall → ValidId
  | .read id _ | .write id _ _ | .delete id _ | .deleteAll id => id

/-- What a call answers. -/
inductive StateAnswer where
  | snapshot (result : Except StateStoreError StateSnapshot)
  | mutation (result : Except StateStoreError StateMutation)
  | done (result : Except StateStoreError Unit)

namespace StateStore

variable {σ : Type} (store : StateStore σ)

/-- What a call answers, and what it leaves. -/
def call (s : σ) : StateCall → StateAnswer × σ
  | .read id key => (.snapshot (store.read s id key), s)
  | .write id key value =>
    (.mutation (store.write s id key value).1, (store.write s id key value).2)
  | .delete id key => (.mutation (store.delete s id key).1, (store.delete s id key).2)
  | .deleteAll id => (.done (store.deleteAll s id).1, (store.deleteAll s id).2)

/-- What a call leaves. -/
def step (s : σ) (call : StateCall) : σ := (store.call s call).2

/-- What the calls of a run answer. -/
def answers (s : σ) : List StateCall → List StateAnswer
  | [] => []
  | call :: calls => (store.call s call).1 :: answers (store.step s call) calls

end StateStore

end Shilpo.Extensions
