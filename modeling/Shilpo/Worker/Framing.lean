import Shilpo.Worker.Frames

/-!
# Framing is lossless

The decoder of frames (`frames`) is what both readers are made of: `read_frame` is the decoder on a
stream that ends where it wants more (`readFrame_eq`), and a call of `try_read_frame` is the
decoder on what has been delivered so far (`tryReadFrame_spec`). So repeated calls give what is in
the stream, however it is cut into reads, and refuse it where a whole read does (`framing`).
-/

namespace Shilpo.Worker

open Shilpo.Theory

variable {s t rest payload : List UInt8} {payloads : List (List UInt8)} {err : ProcessCodecError}
  {reads : List ReadResult} {reader : FrameReader} {n : ℕ}

/-! ### The decoder -/

/-- The bytes of a frame. -/
def encode (payload : List UInt8) : List UInt8 := toBeBytes payload.length ++ payload

/-- A payload that can be framed. -/
def Framable (payload : List UInt8) : Prop := 1 ≤ payload.length ∧ payload.length ≤ maxFrameSize

theorem length_toBeBytes (n : ℕ) : (toBeBytes n).length = 4 := rfl

theorem length_encode (payload : List UInt8) : (encode payload).length = 4 + payload.length := by
  rw [encode, List.length_append, length_toBeBytes]

theorem toBeBytes_fromBeBytes {header : List UInt8} (h : header.length = 4) :
    toBeBytes (fromBeBytes header) = header := by
  match header, h with
  | [a, b, c, d], _ =>
    have ha := a.toNat_lt
    have hb := b.toNat_lt
    have hc := c.toNat_lt
    have hd := d.toNat_lt
    simp only [toBeBytes, fromBeBytes, List.foldl_cons, List.foldl_nil, List.cons.injEq, and_true]
    refine ⟨?_, ?_, ?_, ?_⟩ <;>
    · apply UInt8.toNat_inj.mp
      rw [UInt8.toNat_ofNat']
      omega

theorem head_encode (h : Framable payload) (t : List UInt8) :
    FrameReader.head (encode payload ++ t) = .found payload t := by
  obtain ⟨hpos, hmax⟩ := h
  have hlength : fromBeBytes ((encode payload ++ t).take 4) = payload.length := by
    rw [encode, List.append_assoc, List.take_append_of_le_length (by rw [length_toBeBytes])]
    exact fromBeBytes_toBeBytes (by rw [maxFrameSize] at hmax; omega)
  have hpayload : ((encode payload ++ t).drop 4).take payload.length = payload := by
    rw [encode, List.append_assoc, List.drop_append_of_le_length (by rw [length_toBeBytes])]
    simp [toBeBytes]
  have hrest : (encode payload ++ t).drop (4 + payload.length) = t := by
    rw [← length_encode, List.drop_left]
  have hall : (encode payload ++ t).length = 4 + payload.length + t.length := by
    rw [List.length_append, length_encode]
  simp only [FrameReader.head, hlength, hpayload, hrest]
  rw [if_pos (by omega), if_neg (by omega), if_neg (by omega), if_pos (by omega)]

/-- What it takes to find a frame: its bytes are there. -/
theorem head_eq_found_iff : FrameReader.head s = .found payload rest ↔
    Framable payload ∧ s = encode payload ++ rest := by
  constructor
  · intro h
    simp only [FrameReader.head] at h
    split_ifs at h with hheader hzero hmax hwhole
    cases h
    have hlength : ((s.drop 4).take (fromBeBytes (s.take 4))).length = fromBeBytes (s.take 4) := by
      rw [List.length_take, List.length_drop]
      omega
    refine ⟨⟨by omega, by omega⟩, ?_⟩
    rw [encode, hlength, toBeBytes_fromBeBytes (by rw [List.length_take]; omega),
      List.append_assoc, ← List.drop_drop, List.take_append_drop, List.take_append_drop]
  · rintro ⟨hframable, rfl⟩
    exact head_encode hframable rest

theorem head_eq_failed_iff : FrameReader.head s = .failed err ↔
    4 ≤ s.length ∧ (fromBeBytes (s.take 4) = 0 ∧ err = .zeroLengthFrame ∨
      maxFrameSize < fromBeBytes (s.take 4) ∧ err = .frameTooLarge (fromBeBytes (s.take 4))) := by
  have hmax : 0 < maxFrameSize := by decide
  simp only [FrameReader.head]
  split_ifs with hheader hzero hlarge hwhole
  · simp only [Parsed.failed.injEq, hheader, hzero, true_and]
    constructor
    · rintro rfl
      exact .inl rfl
    · rintro (rfl | ⟨hlarge, -⟩)
      · rfl
      · omega
  · simp only [Parsed.failed.injEq, hheader, hzero, hlarge, true_and, false_and, false_or]
    exact eq_comm
  all_goals
    constructor
    · intro h
      cases h
    · rintro ⟨_, ⟨_, -⟩ | ⟨_, -⟩⟩ <;> omega

/-- The decoder of frames. -/
def frames : Decoder UInt8 (List UInt8) ProcessCodecError where
  parse := FrameReader.head
  found_append h t := by
    rw [head_eq_found_iff] at h ⊢
    obtain ⟨hframable, rfl⟩ := h
    exact ⟨hframable, List.append_assoc ..⟩
  failed_append h t := by
    rw [head_eq_failed_iff] at h ⊢
    rw [List.take_append_of_le_length h.1, List.length_append]
    exact ⟨by omega, h.2⟩
  shorter h := by
    obtain ⟨-, rfl⟩ := head_eq_found_iff.mp h
    rw [List.length_append, length_encode]
    omega

/-- What is in a stream: the payloads, and the error they end in. -/
def transcript (s : List UInt8) : List (List UInt8) × ProcessCodecError :=
  ((frames.results s).1, (frames.results s).2.getD (.io .unexpectedEof))

theorem transcript_of_more (h : FrameReader.head s = .more) :
    transcript s = ([], .io .unexpectedEof) := by
  rw [transcript, frames.results_of_more h]
  rfl

theorem transcript_of_failed (h : FrameReader.head s = .failed err) (t : List UInt8) :
    transcript (s ++ t) = ([], err) := by
  rw [transcript, frames.results_of_failed h]
  rfl

theorem transcript_of_found (h : FrameReader.head s = .found payload rest) (t : List UInt8) :
    transcript (s ++ t) = ((transcript (rest ++ t)).map (payload :: ·) id) := by
  rw [transcript, frames.results_of_found h]
  rfl

/-! ### Reading a whole stream -/

theorem readFrame_of_header (h : 4 ≤ s.length) : readFrame s =
    if fromBeBytes (s.take 4) = 0 then .error .zeroLengthFrame
    else if maxFrameSize < fromBeBytes (s.take 4) then
      .error (.frameTooLarge (fromBeBytes (s.take 4)))
    else readExact (fromBeBytes (s.take 4)) (s.drop 4) := by
  have hheader : readExact 4 s = .ok (s.take 4, s.drop 4) := by rw [readExact, if_pos h]
  simp only [readFrame, hheader, bind, Except.bind]
  split_ifs <;> rfl

/-- `read_frame` is the decoder, where a stream that ends is refused. -/
theorem readFrame_eq (s : List UInt8) : readFrame s =
    match FrameReader.head s with
    | .more => .error (.io .unexpectedEof)
    | .found payload rest => .ok (payload, rest)
    | .failed err => .error err := by
  by_cases hheader : 4 ≤ s.length
  · rw [readFrame_of_header hheader]
    simp only [FrameReader.head, readExact, hheader, if_true, List.length_drop, List.drop_drop]
    split_ifs <;> first | rfl | omega
  · have hheader' : readExact 4 s = .error (.io .unexpectedEof) := by
      rw [readExact, if_neg hheader]
    simp only [readFrame, hheader', FrameReader.head, hheader, if_false]
    rfl

/-- Enough calls of `read_frame` give what is in the stream. -/
theorem readFrames_eq (h : s.length < n) :
    readFrames n s = ((transcript s).1, some (transcript s).2) := by
  induction n generalizing s with
  | zero => omega
  | succ n ih =>
    rw [readFrames, readFrame_eq]
    cases hhead : FrameReader.head s with
    | more => rw [transcript_of_more hhead]
    | failed err =>
      have htranscript := transcript_of_failed hhead []
      rw [List.append_nil] at htranscript
      rw [htranscript]
    | found payload rest =>
      have hshorter := frames.shorter hhead
      have htranscript := transcript_of_found hhead []
      rw [List.append_nil, List.append_nil] at htranscript
      rw [htranscript]
      simp only [ih (by omega : rest.length < n)]
      rfl

/-! ### Reading a pipe -/

/-- The bytes that reads deliver. -/
def delivered : List ReadResult → List UInt8
  | [] => []
  | .read bytes :: reads => bytes ++ delivered reads
  | _ :: reads => delivered reads

theorem delivered_append (used left : List ReadResult) :
    delivered (used ++ left) = delivered used ++ delivered left := by
  induction used with
  | nil => rfl
  | cons r used ih => cases r <;> simp [delivered, ih]

/-- Reads of a pipe that does not fail: some bytes, or none yet. -/
def Cut (reads : List ReadResult) : Prop :=
  ∀ r ∈ reads, r = .wouldBlock ∨ ∃ byte bytes, r = .read (byte :: bytes)

theorem Cut.right {used left : List ReadResult} (h : Cut (used ++ left)) : Cut left :=
  fun r hr => h r (List.mem_append_right _ hr)

/-- How a call answers, when `used` is what it took of the pipe: with what the decoder finds in the
bytes there are, and, where it wants more, with nothing before the end. -/
def Attempt.Explained (attempt : Attempt) (buffer : List UInt8) (used : List ReadResult) : Prop :=
  match attempt.answer with
  | .ok (some payload) =>
    FrameReader.head (buffer ++ delivered used) = .found payload attempt.reader.buffer
  | .ok none => used ≠ [] ∧ attempt.reader.buffer = buffer ++ delivered used
  | .error err => attempt.reader.buffer = buffer ++ delivered used ∧
      (FrameReader.head attempt.reader.buffer = .failed err ∨
        FrameReader.head attempt.reader.buffer = .more ∧ attempt.reads = [] ∧
          err = .io .unexpectedEof)

theorem Attempt.Explained.read {attempt : Attempt} {buffer bytes : List UInt8}
    {used : List ReadResult} (h : attempt.Explained (buffer ++ bytes) used) :
    attempt.Explained buffer (.read bytes :: used) := by
  have hbytes : buffer ++ bytes ++ delivered used = buffer ++ delivered (.read bytes :: used) :=
    List.append_assoc ..
  obtain ⟨answer, reader, reads⟩ := attempt
  rcases answer with err | _ | payload
  · exact ⟨h.1.trans hbytes, h.2⟩
  · exact ⟨List.cons_ne_nil _ _, h.2.trans hbytes⟩
  · exact (congrArg FrameReader.head hbytes).symm.trans h

/-- A call that need not read explains itself by the bytes kept. -/
theorem tryReadFrame_of_decided (reader : FrameReader) (reads : List ReadResult)
    (h : FrameReader.head reader.buffer ≠ .more) :
    (reader.tryReadFrame reads).reads = reads ∧
      (reader.tryReadFrame reads).Explained reader.buffer [] := by
  rw [FrameReader.tryReadFrame.eq_def]
  cases hhead : FrameReader.head reader.buffer with
  | more => exact absurd hhead h
  | failed err => exact ⟨rfl, (List.append_nil _).symm, .inl hhead⟩
  | found payload rest =>
    refine ⟨rfl, ?_⟩
    rw [← List.append_nil reader.buffer] at hhead
    exact hhead

theorem tryReadFrame_spec (reader : FrameReader) (hcut : Cut reads) : ∃ used,
    reads = used ++ (reader.tryReadFrame reads).reads ∧
      (reader.tryReadFrame reads).Explained reader.buffer used := by
  by_cases hhead : FrameReader.head reader.buffer = .more
  swap
  · obtain ⟨hreads, hexplained⟩ := tryReadFrame_of_decided reader reads hhead
    exact ⟨[], hreads.symm, hexplained⟩
  -- the induction follows the reads, and the bytes kept grow with each
  induction reads generalizing reader with
  | nil =>
    rw [FrameReader.tryReadFrame.eq_def, hhead]
    exact ⟨[], rfl, (List.append_nil _).symm, .inr ⟨hhead, rfl, rfl⟩⟩
  | cons r reads ih =>
    obtain rfl | ⟨byte, bytes, rfl⟩ := hcut r (List.mem_cons_self ..)
    · rw [FrameReader.tryReadFrame.eq_def, hhead]
      exact ⟨[.wouldBlock], rfl, List.cons_ne_nil _ _, (List.append_nil _).symm⟩
    · have hstep : reader.tryReadFrame (.read (byte :: bytes) :: reads) =
          FrameReader.tryReadFrame ⟨reader.buffer ++ byte :: bytes⟩ reads := by
        rw [FrameReader.tryReadFrame.eq_def, hhead]
      rw [hstep]
      have hrest : Cut reads := fun r hr => hcut r (List.mem_cons_of_mem _ hr)
      have hlater : ∃ used,
          reads = used ++ (FrameReader.tryReadFrame ⟨reader.buffer ++ byte :: bytes⟩ reads).reads ∧
            (FrameReader.tryReadFrame ⟨reader.buffer ++ byte :: bytes⟩ reads).Explained
              (reader.buffer ++ byte :: bytes) used := by
        by_cases hagain : FrameReader.head (reader.buffer ++ byte :: bytes) = .more
        · exact ih _ hrest hagain
        · obtain ⟨hreads, hexplained⟩ := tryReadFrame_of_decided
            ⟨reader.buffer ++ byte :: bytes⟩ reads hagain
          exact ⟨[], hreads.symm, hexplained⟩
      obtain ⟨used, hreads, hexplained⟩ := hlater
      exact ⟨.read (byte :: bytes) :: used, congrArg (_ :: ·) hreads, hexplained.read⟩

/-- The account of `n` calls that took `used` of the pipe: what they give and what they keep is what
they were given, without an error each has given or taken something, and an error is one of the bytes
kept. -/
structure Accounted (buffer : List UInt8) (used left : List ReadResult) (n : ℕ)
    (payloads : List (List UInt8)) (err : Option ProcessCodecError) (kept : List UInt8) : Prop where
  framable : ∀ payload ∈ payloads, Framable payload
  bytes : buffer ++ delivered used = payloads.flatMap encode ++ kept
  going : err = none → n + kept.length + (delivered left).length + left.length ≤
    buffer.length + (delivered (used ++ left)).length + (used ++ left).length
  ended : ∀ e, err = some e → FrameReader.head kept = .failed e ∨
    FrameReader.head kept = .more ∧ left = [] ∧ e = .io .unexpectedEof

variable {buffer kept : List UInt8} {used used' left : List ReadResult}
  {error : Option ProcessCodecError}

theorem Accounted.after_nothing (hused : used ≠ [])
    (h : Accounted (buffer ++ delivered used) used' left n payloads error kept) :
    Accounted buffer (used ++ used') left (n + 1) payloads error kept where
  framable := h.framable
  bytes := by rw [delivered_append, ← List.append_assoc, h.bytes]
  going herror := by
    have hgoing := h.going herror
    have hpos := List.length_pos_of_ne_nil hused
    simp only [delivered_append, List.length_append] at hgoing ⊢
    omega
  ended := h.ended

theorem Accounted.after_payload
    (hhead : FrameReader.head (buffer ++ delivered used) = .found payload rest)
    (h : Accounted rest used' left n payloads error kept) :
    Accounted buffer (used ++ used') left (n + 1) (payload :: payloads) error kept := by
  obtain ⟨hframable, hbytes⟩ := head_eq_found_iff.mp hhead
  refine ⟨?_, ?_, ?_, h.ended⟩
  · rintro q (_ | ⟨_, hq⟩)
    · exact hframable
    · exact h.framable q hq
  · rw [delivered_append, ← List.append_assoc, hbytes, List.append_assoc, h.bytes,
      List.flatMap_cons, List.append_assoc]
  · intro herror
    have hgoing := h.going herror
    have hlength := congrArg List.length hbytes
    simp only [delivered_append, List.length_append, length_encode] at hgoing hlength ⊢
    omega

/-- What calls do. -/
theorem tryReadFrames_spec (reader : FrameReader) (hcut : Cut reads) (n : ℕ) :
    ∃ used, reads = used ++ (reader.tryReadFrames reads n).2.2.2 ∧
      Accounted reader.buffer used (reader.tryReadFrames reads n).2.2.2 n
        (reader.tryReadFrames reads n).1 (reader.tryReadFrames reads n).2.1
        (reader.tryReadFrames reads n).2.2.1.buffer := by
  induction n generalizing reader reads with
  | zero =>
    refine ⟨[], rfl, ?_⟩
    exact {
      framable := List.forall_mem_nil _
      bytes := List.append_nil _
      going := fun _ => by rw [Nat.zero_add]; exact le_rfl
      ended := fun _ h => by cases h }
  | succ n ih =>
    obtain ⟨used, hreads, hexplained⟩ := tryReadFrame_spec reader hcut
    rw [FrameReader.tryReadFrames]
    generalize reader.tryReadFrame reads = attempt at hreads hexplained
    obtain ⟨answer, reader', left⟩ := attempt
    subst hreads
    rcases answer with err | _ | payload
    · refine ⟨used, rfl, ?_⟩
      exact {
        framable := List.forall_mem_nil _
        bytes := hexplained.1.symm
        going := fun h => by cases h
        ended := by
          rintro _ ⟨⟩
          exact hexplained.2 }
    · obtain ⟨used', hleft, haccounted⟩ := ih reader' hcut.right
      refine ⟨used ++ used', ?_, ?_⟩
      · rw [List.append_assoc]
        exact congrArg (used ++ ·) hleft
      · rw [hexplained.2] at haccounted
        exact haccounted.after_nothing hexplained.1
    · obtain ⟨used', hleft, haccounted⟩ := ih reader' hcut.right
      refine ⟨used ++ used', ?_, ?_⟩
      · rw [List.append_assoc]
        exact congrArg (used ++ ·) hleft
      · exact haccounted.after_payload hexplained

/-! ### Both readers -/

/-- A stream that starts with no frame: its length is zero, or too large, or it is cut short. -/
inductive Refused (rest : List UInt8) : ProcessCodecError → Prop where
  | zeroLength : 4 ≤ rest.length → fromBeBytes (rest.take 4) = 0 → Refused rest .zeroLengthFrame
  | tooLarge : 4 ≤ rest.length → maxFrameSize < fromBeBytes (rest.take 4) →
    Refused rest (.frameTooLarge (fromBeBytes (rest.take 4)))
  | header : rest.length < 4 → Refused rest (.io .unexpectedEof)
  | payload : 0 < fromBeBytes (rest.take 4) → fromBeBytes (rest.take 4) ≤ maxFrameSize →
    rest.length < 4 + fromBeBytes (rest.take 4) → Refused rest (.io .unexpectedEof)

theorem refused_of_failed (h : FrameReader.head s = .failed err) : Refused s err := by
  obtain ⟨hheader, ⟨hzero, rfl⟩ | ⟨hlarge, rfl⟩⟩ := head_eq_failed_iff.mp h
  · exact .zeroLength hheader hzero
  · exact .tooLarge hheader hlarge

theorem refused_of_more (h : FrameReader.head s = .more) : Refused s (.io .unexpectedEof) := by
  simp only [FrameReader.head] at h
  split_ifs at h with hheader hzero hlarge hwhole
  · exact .payload (by omega) (by omega) (by omega)
  · exact .header (by omega)

theorem writeFrame_eq (h : Framable payload) : writeFrame payload = .ok (encode payload) := by
  have hne : payload.isEmpty = false := by
    rw [List.isEmpty_eq_false_iff]
    exact List.ne_nil_of_length_pos h.1
  rw [writeFrame, hne, if_neg (by decide), if_neg (Nat.not_lt.mpr h.2)]
  rfl

theorem writeFrames_eq (h : ∀ payload ∈ payloads, Framable payload) :
    writeFrames payloads = .ok (payloads.flatMap encode) := by
  induction payloads with
  | nil => rfl
  | cons payload payloads ih =>
    rw [writeFrames, writeFrame_eq (h payload (List.mem_cons_self ..)),
      ih fun q hq => h q (List.mem_cons_of_mem _ hq)]
    rfl

/-- Frames at the start of a stream are the first of what is in it. -/
theorem transcript_append (h : ∀ payload ∈ payloads, Framable payload) (t : List UInt8) :
    transcript (payloads.flatMap encode ++ t) =
      (payloads ++ (transcript t).1, (transcript t).2) := by
  induction payloads with
  | nil => rfl
  | cons payload payloads ih =>
    have hfirst := head_encode (h payload (List.mem_cons_self ..)) (payloads.flatMap encode ++ t)
    have htranscript := transcript_of_found hfirst []
    rw [List.append_nil, List.append_nil,
      ih fun q hq => h q (List.mem_cons_of_mem _ hq)] at htranscript
    rw [List.flatMap_cons, List.append_assoc, htranscript]
    rfl

/-- What is in a stream are frames, up to where it is refused. -/
theorem transcript_spec (s : List UInt8) : ∃ rest,
    (∀ payload ∈ (transcript s).1, Framable payload) ∧
      s = (transcript s).1.flatMap encode ++ rest ∧ Refused rest (transcript s).2 := by
  induction hlength : s.length using Nat.strong_induction_on generalizing s with
  | _ length ih =>
    cases hhead : FrameReader.head s with
    | more =>
      rw [transcript_of_more hhead]
      exact ⟨s, List.forall_mem_nil _, rfl, refused_of_more hhead⟩
    | failed err =>
      have htranscript := transcript_of_failed hhead []
      rw [List.append_nil] at htranscript
      rw [htranscript]
      exact ⟨s, List.forall_mem_nil _, rfl, refused_of_failed hhead⟩
    | found payload rest =>
      have hshorter := frames.shorter hhead
      obtain ⟨hframable, hs⟩ := head_eq_found_iff.mp hhead
      obtain ⟨rest', hframables, hrest, hrefused⟩ := ih rest.length (by omega) rest rfl
      have htranscript := transcript_of_found hhead []
      rw [List.append_nil, List.append_nil] at htranscript
      rw [htranscript]
      refine ⟨rest', List.forall_mem_cons.mpr ⟨hframable, hframables⟩, ?_, hrefused⟩
      change s = encode payload ++ (transcript rest).1.flatMap encode ++ rest'
      rw [List.append_assoc, ← hrest, hs]

/-- What calls have given comes first, and what they keep is what comes next. -/
theorem Accounted.transcript_eq (h : Accounted [] used left n payloads error kept) :
    transcript (delivered (used ++ left)) = (payloads ++ (transcript (kept ++ delivered left)).1,
      (transcript (kept ++ delivered left)).2) := by
  rw [delivered_append, ← List.nil_append (delivered used), h.bytes, List.append_assoc,
    transcript_append h.framable]

/-- Enough calls give all there is. -/
theorem Accounted.finished (h : Accounted [] used left n payloads error kept)
    (hn : (delivered (used ++ left)).length + (used ++ left).length < n) :
    payloads = (transcript (delivered (used ++ left))).1 ∧
      error = some (transcript (delivered (used ++ left))).2 := by
  cases herror : error with
  | none =>
    have hgoing := h.going herror
    rw [List.length_nil] at hgoing
    omega
  | some err =>
    rw [h.transcript_eq]
    obtain hfailed | ⟨hmore, rfl, rfl⟩ := h.ended err herror
    · rw [transcript_of_failed hfailed, List.append_nil]
      exact ⟨rfl, rfl⟩
    · rw [delivered, List.append_nil, transcript_of_more hmore, List.append_nil]
      exact ⟨rfl, rfl⟩

/-- What calls give of a pipe: at any time the first of what was sent, and only what has come; and
in the end all of it, and the error. -/
structure Gives (reads : List ReadResult) (payloads : List (List UInt8))
    (err : ProcessCodecError) : Prop where
  inTime : ∀ n, (FrameReader.default.tryReadFrames reads n).1 <+: payloads ∧
    ∃ used bytes, reads = used ++ (FrameReader.default.tryReadFrames reads n).2.2.2 ∧
      writeFrames (FrameReader.default.tryReadFrames reads n).1 = .ok bytes ∧
      bytes <+: delivered used
  atEnd : ∀ n, (delivered reads).length + reads.length < n →
    (FrameReader.default.tryReadFrames reads n).1 = payloads ∧
      (FrameReader.default.tryReadFrames reads n).2.1 = some err

theorem gives_transcript (hcut : Cut reads) :
    Gives reads (transcript (delivered reads)).1 (transcript (delivered reads)).2 := by
  constructor
  · intro n
    obtain ⟨used, hreads, haccounted⟩ := tryReadFrames_spec .default hcut n
    refine ⟨?_, used, _, hreads, writeFrames_eq haccounted.framable, ?_⟩
    · have htranscript := haccounted.transcript_eq
      rw [← hreads] at htranscript
      rw [htranscript]
      exact List.prefix_append ..
    · have hbytes : delivered used = _ := haccounted.bytes
      rw [hbytes]
      exact List.prefix_append ..
  · intro n hn
    obtain ⟨used, hreads, haccounted⟩ := tryReadFrames_spec .default hcut n
    have hfinished := haccounted.finished
    rw [← hreads] at hfinished
    exact hfinished hn

/-- Framing is lossless: payloads that are written are read back, of the whole stream and of any cut
of it. Of any stream both readers give the same payloads, those of the frames before the first that
is refused, and there the same error. -/
theorem framing :
    (∀ payloads, (∀ payload ∈ payloads, Framable payload) → ∃ stream,
      writeFrames payloads = .ok stream ∧
      (∀ n, stream.length < n → readFrames n stream = (payloads, some (.io .unexpectedEof))) ∧
      ∀ reads, Cut reads → delivered reads = stream →
        Gives reads payloads (.io .unexpectedEof)) ∧
    ∀ stream, ∃ payloads bytes rest err,
      writeFrames payloads = .ok bytes ∧ stream = bytes ++ rest ∧ Refused rest err ∧
      (∀ n, stream.length < n → readFrames n stream = (payloads, some err)) ∧
      ∀ reads, Cut reads → delivered reads = stream → Gives reads payloads err := by
  constructor
  · intro payloads hframable
    have htranscript : transcript (payloads.flatMap encode) =
        (payloads, .io .unexpectedEof) := by
      have hnil : transcript [] = ([], .io .unexpectedEof) := transcript_of_more rfl
      have happend := transcript_append hframable []
      rw [List.append_nil, hnil, List.append_nil] at happend
      exact happend
    refine ⟨_, writeFrames_eq hframable, ?_, ?_⟩
    · intro n hn
      rw [readFrames_eq hn, htranscript]
    · intro reads hcut hdelivered
      have hgives := gives_transcript hcut
      rw [hdelivered, htranscript] at hgives
      exact hgives
  · intro stream
    obtain ⟨rest, hframable, hstream, hrefused⟩ := transcript_spec stream
    refine ⟨_, _, rest, _, writeFrames_eq hframable, hstream, hrefused,
      fun n hn => readFrames_eq hn, ?_⟩
    rintro reads hcut rfl
    exact gives_transcript hcut

/-- Two frames, the end of one and the start of the other in one read. -/
example : FrameReader.default.tryReadFrames
    [.read [0, 0], .wouldBlock, .read [0, 1, 7, 0, 0, 0], .wouldBlock, .read [2, 8, 9]] 5 =
    ([[7], [8, 9]], some (.io .unexpectedEof), ⟨[]⟩, []) := by
  decide +kernel

end Shilpo.Worker
