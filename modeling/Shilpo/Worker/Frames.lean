import Shilpo.Theory.Decoding

/-!
# Frames between the shell and its workers

`read_frame`, `write_frame` and `FrameReader` of `ext-runtime/src/worker/process.rs`. A frame is the
length of its payload in four bytes, the highest first, and the payload. `read_frame` waits for what
it needs of a stream; `FrameReader` takes what a nonblocking pipe has and keeps what is not a
whole frame yet.

A stream that is read to its end is the list of its bytes. What a pipe gives is a list of reads
(`ReadResult`), at whose end the stream has ended: a read gives some bytes, none at the end of
the stream, or an error.
-/

namespace Shilpo.Worker

open Shilpo.Theory

/-- `MAX_FRAME_SIZE`. -/
def maxFrameSize : ℕ := 8 * 1024 * 1024

/-- The errors of a stream that are told apart. -/
inductive IoErrorKind where
  | unexpectedEof
  | other (code : ℕ)
  deriving DecidableEq

/-- `ProcessCodecError`, as far as frames are concerned. -/
inductive ProcessCodecError where
  | zeroLengthFrame
  | frameTooLarge (length : ℕ)
  | io (kind : IoErrorKind)
  deriving DecidableEq

/-! ### Lengths -/

/-- `u32::to_be_bytes`. -/
def toBeBytes (n : ℕ) : List UInt8 :=
  [UInt8.ofNat (n / 2 ^ 24), UInt8.ofNat (n / 2 ^ 16), UInt8.ofNat (n / 2 ^ 8), UInt8.ofNat n]

/-- `u32::from_be_bytes`. -/
def fromBeBytes (bytes : List UInt8) : ℕ := bytes.foldl (fun n byte => n * 256 + byte.toNat) 0

theorem fromBeBytes_toBeBytes {n : ℕ} (h : n < 2 ^ 32) : fromBeBytes (toBeBytes n) = n := by
  simp only [toBeBytes, fromBeBytes, List.foldl_cons, List.foldl_nil, UInt8.toNat_ofNat']
  omega

/-! ### Whole streams -/

/-- `Read::read_exact`: so many bytes, and the rest of the stream. -/
def readExact (n : ℕ) (stream : List UInt8) :
    Except ProcessCodecError (List UInt8 × List UInt8) :=
  if n ≤ stream.length then .ok (stream.take n, stream.drop n) else .error (.io .unexpectedEof)

/-- `read_frame`: a payload, and the rest of the stream. -/
def readFrame (stream : List UInt8) : Except ProcessCodecError (List UInt8 × List UInt8) := do
  let (header, stream) ← readExact 4 stream
  let length := fromBeBytes header
  if length = 0 then throw .zeroLengthFrame
  if maxFrameSize < length then throw (.frameTooLarge length)
  readExact length stream

/-- `write_frame`: the bytes that are written. -/
def writeFrame (payload : List UInt8) : Except ProcessCodecError (List UInt8) :=
  if payload.isEmpty then .error .zeroLengthFrame
  else if maxFrameSize < payload.length then .error (.frameTooLarge payload.length)
  else .ok (toBeBytes payload.length ++ payload)

/-- Payloads written one after the other. -/
def writeFrames : List (List UInt8) → Except ProcessCodecError (List UInt8)
  | [] => .ok []
  | payload :: payloads => do
    let first ← writeFrame payload
    let rest ← writeFrames payloads
    return first ++ rest

/-- `n` calls of `read_frame`, or fewer if one fails: the payloads, and the error. -/
def readFrames : ℕ → List UInt8 → List (List UInt8) × Option ProcessCodecError
  | 0, _ => ([], none)
  | n + 1, stream =>
    match readFrame stream with
    | .ok (payload, stream) => ((readFrames n stream).map (payload :: ·) id)
    | .error err => ([], some err)

/-! ### Pipes -/

/-- What a call of `Read::read` gives. -/
inductive ReadResult where
  | read (bytes : List UInt8)
  | wouldBlock
  | failed (kind : IoErrorKind)
  deriving DecidableEq

/-- `FrameReader`. -/
structure FrameReader where
  buffer : List UInt8
  deriving DecidableEq

/-- `FrameReader::default`. -/
def FrameReader.default : FrameReader := ⟨[]⟩

/-- What is at the start of the buffer. -/
def FrameReader.head (buffer : List UInt8) : Parsed UInt8 (List UInt8) ProcessCodecError :=
  if 4 ≤ buffer.length then
    let length := fromBeBytes (buffer.take 4)
    if length = 0 then .failed .zeroLengthFrame
    else if maxFrameSize < length then .failed (.frameTooLarge length)
    else if 4 + length ≤ buffer.length then
      .found ((buffer.drop 4).take length) (buffer.drop (4 + length))
    else .more
  else .more

/-- What a call of `try_read_frame` leaves: its answer, the reader, and the reads to come. -/
structure Attempt where
  answer : Except ProcessCodecError (Option (List UInt8))
  reader : FrameReader
  reads : List ReadResult

/-- `FrameReader::try_read_frame`. -/
def FrameReader.tryReadFrame (reader : FrameReader) (reads : List ReadResult) : Attempt :=
  match FrameReader.head reader.buffer with
  | .failed err => ⟨.error err, reader, reads⟩
  | .found payload rest => ⟨.ok (some payload), ⟨rest⟩, reads⟩
  | .more =>
    match reads with
    | [] => ⟨.error (.io .unexpectedEof), reader, []⟩
    | .read [] :: reads => ⟨.error (.io .unexpectedEof), reader, reads⟩
    | .read (byte :: bytes) :: reads =>
      FrameReader.tryReadFrame ⟨reader.buffer ++ byte :: bytes⟩ reads
    | .wouldBlock :: reads => ⟨.ok none, reader, reads⟩
    | .failed kind :: reads => ⟨.error (.io kind), reader, reads⟩

/-- `n` calls of `try_read_frame`, or fewer if one fails: the payloads, the error, and what the calls
leave. -/
def FrameReader.tryReadFrames (reader : FrameReader) (reads : List ReadResult) :
    ℕ → List (List UInt8) × Option ProcessCodecError × FrameReader × List ReadResult
  | 0 => ([], none, reader, reads)
  | n + 1 =>
    let attempt := reader.tryReadFrame reads
    match attempt.answer with
    | .ok payload =>
      (attempt.reader.tryReadFrames attempt.reads n).map (payload.toList ++ ·) id
    | .error err => ([], some err, attempt.reader, attempt.reads)

end Shilpo.Worker
