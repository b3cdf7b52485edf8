import Shilpo.Config.Validation
import Shilpo.Theory.LossyUtf8

/-!
# Dropped files

`desktop/services/src/applications/mod.rs`: the `text/uri-list` of files that another client lets
drop, in whose paths escapes stand for bytes. Slicing a text where no character ends panics, and
`from_str_radix` reads a sign, so that an escape is read as the byte it denotes exactly where the
two bytes after the per cent sign end a character and are no sign with a digit
(`percentDecode_iff`). Which paths exist, and the lower case of a text, are parameters.
-/

namespace Shilpo.Applications

open Config (PathBuf)
open Theory

/-! ### Escapes -/

def percent : UInt8 := 37

def plus : UInt8 := 43

def minus : UInt8 := 45

/-- A digit to the base 16. -/
def hexValue (b : UInt8) : Option ℕ :=
  if 48 ≤ b.toNat ∧ b.toNat ≤ 57 then some (b.toNat - 48)
  else if 65 ≤ b.toNat ∧ b.toNat ≤ 70 then some (b.toNat - 55)
  else if 97 ≤ b.toNat ∧ b.toNat ≤ 102 then some (b.toNat - 87)
  else none

def digitsValue : List UInt8 → ℕ → Option ℕ
  | [], value => some value
  | b :: rest, value => (hexValue b).bind fun digit => digitsValue rest (16 * value + digit)

/-- `u8::from_str_radix` to the base 16. -/
def fromStrRadix (src : List UInt8) : Option UInt8 :=
  let digits := if src.head? = some plus then src.tail else src
  if src = [] ∨ src = [plus] ∨ src = [minus] then none
  else (digitsValue digits 0).bind fun value =>
    if value < 256 then some (UInt8.ofNat value) else none

/-- What is left of a text begins with a character, or the text has ended. -/
def isCharBoundary : List UInt8 → Bool
  | [] => true
  | b :: _ => b.toNat < 0x80 || 0xC0 ≤ b.toNat

/-- The bytes with their escapes read; nothing if a slice panics. -/
def decodeLoop : List UInt8 → Option (List UInt8)
  | [] => some []
  | b :: h :: l :: rest =>
    if b = percent then
      if isCharBoundary (h :: l :: rest) && isCharBoundary rest then
        match fromStrRadix [h, l] with
        | some byte => (decodeLoop rest).map (byte :: ·)
        | none => (decodeLoop (h :: l :: rest)).map (b :: ·)
      else none
    else (decodeLoop (h :: l :: rest)).map (b :: ·)
  | b :: rest => (decodeLoop rest).map (b :: ·)

def percentDecode (s : String) : Option String := (decodeLoop (Utf8.bytes s)).map Utf8.fromUtf8Lossy

/-! ### Lists of files -/

section

variable (toLowercase : String → String) (pathExists : String → Bool)

/-- The path of a line, if it has one. -/
def uriPath (line : List Char) : Option String :=
  let trimmed := Config.trim line
  if trimmed = [] ∨ trimmed.head? = some '#' then none
  else some (String.ofList ((Config.stripPrefix "file://".toList trimmed).getD trimmed))

/-- The paths of all lines. -/
def uriPaths (rawData : String) : List String := (Config.lines rawData.toList).filterMap uriPath

/-- The files that there are; nothing if decoding panics. -/
def parseUriList (rawData : String) : Option (List PathBuf) :=
  ((uriPaths rawData).mapM percentDecode).map fun decoded =>
    (decoded.filter pathExists).map PathBuf.mk

def isAcceptedMime (mimeType : String) : Bool :=
  toLowercase mimeType ∈ ["text/uri-list", "text/plain", "application/x-uri"]

/-- The path is absolute and does not go up. -/
def isSafePath (path : PathBuf) : Bool := path.components.1 && ['.', '.'] ∉ path.components.2

def validateDragDropPayload (mimeType : String) (data : List UInt8) : Option (List PathBuf) :=
  if isAcceptedMime toLowercase mimeType then
    (parseUriList pathExists (Utf8.fromUtf8Lossy data)).map (List.filter isSafePath)
  else some []

end

/-! ### What escapes denote -/

/-- Each per cent sign and the two digits after it are the byte that they denote; other bytes are
kept. -/
def decodeEscapes : List UInt8 → List UInt8
  | [] => []
  | b :: h :: l :: rest =>
    if b = percent then
      match hexValue h, hexValue l with
      | some high, some low => UInt8.ofNat (16 * high + low) :: decodeEscapes rest
      | _, _ => b :: decodeEscapes (h :: l :: rest)
    else b :: decodeEscapes (h :: l :: rest)
  | b :: rest => b :: decodeEscapes rest

/-- Of some per cent sign and the two bytes after it, and the rest, this is so. -/
def anyEscape (p : UInt8 → UInt8 → List UInt8 → Bool) : List UInt8 → Bool
  | b :: h :: l :: rest => b = percent && p h l rest || anyEscape p (h :: l :: rest)
  | _ => false

/-- The two bytes after some per cent sign do not end a character. -/
def splitsChar : List UInt8 → Bool :=
  anyEscape fun h l rest => !(isCharBoundary (h :: l :: rest) && isCharBoundary rest)

/-- The two bytes after some per cent sign are a sign and a digit. -/
def signed : List UInt8 → Bool := anyEscape fun h l _ => h = plus && (hexValue l).isSome

example : percentDecode "Hello%20World" = some "Hello World" := by decide +kernel

/-! ### Pairs of bytes -/

variable {b : UInt8}

theorem hexValue_lt {value : ℕ} (h : hexValue b = some value) : value < 16 := by
  rw [hexValue] at h
  split_ifs at h
  all_goals
    have hvalue := Option.some.inj h
    omega

theorem ne_of_hexValue {b c : UInt8} {value : ℕ} (h : hexValue b = some value)
    (hc : hexValue c = none) : b ≠ c := by
  rintro rfl
  rw [hc] at h
  cases h

theorem hexValue_percent : hexValue percent = none := rfl

theorem hexValue_plus : hexValue plus = none := rfl

/-- Two bytes are read as two digits, or as a sign and a digit. -/
theorem fromStrRadix_pair (h l : UInt8) : fromStrRadix [h, l] =
    if h = plus then (hexValue l).map UInt8.ofNat
    else (hexValue h).bind fun high =>
      (hexValue l).map fun low => UInt8.ofNat (16 * high + low) := by
  rw [fromStrRadix, if_neg (by simp)]
  by_cases hplus : h = plus
  · subst hplus
    rw [if_pos rfl, List.head?_cons, if_pos rfl, List.tail_cons]
    cases hl : hexValue l with
    | none => simp [digitsValue, hl]
    | some low =>
      have hlow := hexValue_lt hl
      simp [digitsValue, hl, show low < 256 by omega]
  · rw [if_neg hplus, List.head?_cons, if_neg fun hhead => hplus (Option.some.inj hhead)]
    cases hh : hexValue h with
    | none => simp [digitsValue, hh]
    | some high =>
      cases hl : hexValue l with
      | none => simp [digitsValue, hh, hl]
      | some low =>
        have hhigh := hexValue_lt hh
        have hlow := hexValue_lt hl
        simp [digitsValue, hh, hl, show 16 * high + low < 256 by omega]

/-- Neither of two bytes that are read is a per cent sign. -/
theorem ne_percent_of_fromStrRadix {h l byte : UInt8} (heq : fromStrRadix [h, l] = some byte) :
    h ≠ percent ∧ l ≠ percent := by
  rw [fromStrRadix_pair] at heq
  split_ifs at heq with hplus
  · obtain ⟨low, hlow, -⟩ := Option.map_eq_some_iff.mp heq
    exact ⟨hplus ▸ by decide, ne_of_hexValue hlow hexValue_percent⟩
  · obtain ⟨high, hhigh, heq⟩ := Option.bind_eq_some_iff.mp heq
    obtain ⟨low, hlow, -⟩ := Option.map_eq_some_iff.mp heq
    exact ⟨ne_of_hexValue hhigh hexValue_percent, ne_of_hexValue hlow hexValue_percent⟩

theorem anyEscape_of_ne {p : UInt8 → UInt8 → List UInt8 → Bool} (h : b ≠ percent)
    (rest : List UInt8) : anyEscape p (b :: rest) = anyEscape p rest := by
  match rest with
  | [] => rfl
  | [_] => rfl
  | c :: d :: rest => rw [anyEscape, decide_eq_false h, Bool.false_and, Bool.false_or]

theorem anyEscape_percent {p : UInt8 → UInt8 → List UInt8 → Bool} {h l : UInt8}
    {rest : List UInt8} : anyEscape p (percent :: h :: l :: rest) =
      (p h l rest || anyEscape p (h :: l :: rest)) := by
  rw [anyEscape, decide_eq_true rfl, Bool.true_and]

/-! ### Where decoding panics -/

theorem decodeLoop_eq_none_iff (bytes : List UInt8) :
    decodeLoop bytes = none ↔ splitsChar bytes = true := by
  induction bytes using decodeLoop.induct with
  | case1 => simp [decodeLoop, splitsChar, anyEscape]
  | case2 h l rest hboundary byte hbyte ih =>
    obtain ⟨hh, hl⟩ := ne_percent_of_fromStrRadix hbyte
    rw [decodeLoop, if_pos rfl, if_pos hboundary, hbyte, Option.map_eq_none_iff, ih, splitsChar,
      anyEscape_percent, anyEscape_of_ne hh, anyEscape_of_ne hl, hboundary]
    rfl
  | case3 h l rest hboundary hnone ih =>
    rw [decodeLoop, if_pos rfl, if_pos hboundary, hnone, Option.map_eq_none_iff, ih, splitsChar,
      anyEscape_percent, hboundary]
    rfl
  | case4 h l rest hboundary =>
    rw [decodeLoop, if_pos rfl, if_neg hboundary, splitsChar, anyEscape_percent,
      Bool.eq_false_of_not_eq_true hboundary]
    exact iff_of_true rfl rfl
  | case5 b h l rest hb ih =>
    rw [decodeLoop, if_neg hb, Option.map_eq_none_iff, ih, splitsChar, anyEscape_of_ne hb]
  | case6 b rest hrest ih =>
    match rest with
    | [] => simp [decodeLoop, splitsChar, anyEscape]
    | [c] => simp [decodeLoop, splitsChar, anyEscape]
    | h :: l :: rest => exact absurd rfl (hrest h l rest)

/-! ### Where decoding reads more than escapes -/

theorem decodeEscapes_of_ne (h : b ≠ percent) (rest : List UInt8) :
    decodeEscapes (b :: rest) = b :: decodeEscapes rest := by
  match rest with
  | [] => rfl
  | [_] => rfl
  | c :: d :: rest => rw [decodeEscapes, if_neg h]

/-- Where a sign is read as a digit a per cent sign is lost, else the escapes are what is read. -/
def ReadAs (bytes decoded : List UInt8) : Prop :=
  if signed bytes then decoded.count percent < (decodeEscapes bytes).count percent
  else decoded = decodeEscapes bytes

namespace ReadAs

variable {bytes decoded : List UInt8}

theorem count_le (h : ReadAs bytes decoded) :
    decoded.count percent ≤ (decodeEscapes bytes).count percent := by
  rw [ReadAs] at h
  split_ifs at h
  · exact h.le
  · rw [h]

/-- More of the same in front of both. -/
theorem cons (h : ReadAs bytes decoded) (more : List UInt8) {b : UInt8}
    (hsigned : signed (more ++ bytes) = signed bytes)
    (hescapes : decodeEscapes (more ++ bytes) = b :: decodeEscapes bytes) :
    ReadAs (more ++ bytes) (b :: decoded) := by
  rw [ReadAs] at h ⊢
  rw [hsigned, hescapes]
  split_ifs at h ⊢ with hs
  · rw [List.count_cons, List.count_cons]
    omega
  · rw [h]

end ReadAs

theorem readAs_of_decodeLoop (bytes : List UInt8) :
    ∀ decoded, decodeLoop bytes = some decoded → ReadAs bytes decoded := by
  induction bytes using decodeLoop.induct with
  | case1 =>
    intro decoded h
    obtain rfl := Option.some.inj h
    exact rfl
  | case2 h l rest hboundary byte hbyte ih =>
    intro decoded hdecoded
    obtain ⟨hh, hl⟩ := ne_percent_of_fromStrRadix hbyte
    rw [decodeLoop, if_pos rfl, if_pos hboundary, hbyte] at hdecoded
    obtain ⟨more, hmore, rfl⟩ := Option.map_eq_some_iff.mp hdecoded
    rw [fromStrRadix_pair] at hbyte
    split_ifs at hbyte with hplus
    · -- The sign is read as if it were not there.
      subst hplus
      obtain ⟨low, hlow, rfl⟩ := Option.map_eq_some_iff.mp hbyte
      have hsigned : signed (percent :: plus :: l :: rest) = true := by
        rw [signed, anyEscape_percent, hlow]
        rfl
      have hne : UInt8.ofNat low ≠ percent := by
        have hlt := hexValue_lt hlow
        intro heq
        have htoNat := congrArg UInt8.toNat heq
        rw [Utf8.toNat_ofNat (by omega), show percent.toNat = 37 from rfl] at htoNat
        omega
      have hescapes : decodeEscapes (percent :: plus :: l :: rest) =
          percent :: plus :: l :: decodeEscapes rest := by
        rw [decodeEscapes, if_pos rfl, hexValue_plus, decodeEscapes_of_ne hh,
          decodeEscapes_of_ne hl]
      rw [ReadAs, if_pos hsigned, hescapes, List.count_cons_of_ne hne, List.count_cons_self,
        List.count_cons_of_ne hh, List.count_cons_of_ne hl]
      exact Nat.lt_succ_of_le (ih more hmore).count_le
    · obtain ⟨high, hhigh, hbyte⟩ := Option.bind_eq_some_iff.mp hbyte
      obtain ⟨low, hlow, rfl⟩ := Option.map_eq_some_iff.mp hbyte
      refine (ih more hmore).cons [percent, h, l] ?_ ?_
      · rw [signed, List.cons_append, List.cons_append, List.cons_append, List.nil_append,
          anyEscape_percent, anyEscape_of_ne hh, anyEscape_of_ne hl, decide_eq_false hplus]
        rfl
      · rw [List.cons_append, List.cons_append, List.cons_append, List.nil_append, decodeEscapes,
          if_pos rfl, hhigh, hlow]
  | case3 h l rest hboundary hnone ih =>
    intro decoded hdecoded
    rw [decodeLoop, if_pos rfl, if_pos hboundary, hnone] at hdecoded
    obtain ⟨more, hmore, rfl⟩ := Option.map_eq_some_iff.mp hdecoded
    rw [fromStrRadix_pair] at hnone
    refine (ih more hmore).cons [percent] ?_ ?_
    · rw [signed, List.singleton_append, anyEscape_percent]
      split_ifs at hnone with hplus
      · rw [Option.map_eq_none_iff.mp hnone, Option.isSome_none, Bool.and_false, Bool.false_or]
      · rw [decide_eq_false hplus]
        rfl
    · rw [List.singleton_append, decodeEscapes, if_pos rfl]
      split_ifs at hnone with hplus
      · rw [hplus, hexValue_plus]
      · cases hh : hexValue h with
        | none => rfl
        | some high =>
          cases hl : hexValue l with
          | none => rfl
          | some low =>
            rw [hh, hl] at hnone
            cases hnone
  | case4 h l rest hboundary =>
    intro decoded hdecoded
    rw [decodeLoop, if_pos rfl, if_neg hboundary] at hdecoded
    cases hdecoded
  | case5 b h l rest hb ih =>
    intro decoded hdecoded
    rw [decodeLoop, if_neg hb] at hdecoded
    obtain ⟨more, hmore, rfl⟩ := Option.map_eq_some_iff.mp hdecoded
    exact (ih more hmore).cons [b] (anyEscape_of_ne hb _) (decodeEscapes_of_ne hb _)
  | case6 b rest hrest ih =>
    intro decoded hdecoded
    match rest with
    | [] =>
      obtain rfl := Option.some.inj hdecoded
      exact rfl
    | [c] =>
      obtain rfl := Option.some.inj hdecoded
      exact rfl
    | h :: l :: rest => exact absurd rfl (hrest h l rest)

/-- A text is decoded to what its escapes denote exactly if the two bytes after each per cent sign
end a character and are no sign with a digit. -/
theorem percentDecode_iff (s : String) :
    percentDecode s = some (Utf8.fromUtf8Lossy (decodeEscapes (Utf8.bytes s))) ↔
      splitsChar (Utf8.bytes s) = false ∧ signed (Utf8.bytes s) = false := by
  rw [percentDecode]
  cases hdecode : decodeLoop (Utf8.bytes s) with
  | none =>
    refine iff_of_false (by simp) fun h => ?_
    rw [(decodeLoop_eq_none_iff _).mp hdecode] at h
    exact absurd h.1 (by decide)
  | some decoded =>
    have hsplits : splitsChar (Utf8.bytes s) = false := by
      by_contra h
      rw [(decodeLoop_eq_none_iff _).mpr (Bool.eq_true_of_not_eq_false h)] at hdecode
      cases hdecode
    have hread := readAs_of_decodeLoop _ _ hdecode
    rw [ReadAs] at hread
    constructor
    · intro h
      refine ⟨hsplits, Bool.eq_false_of_not_eq_true fun hsigned => ?_⟩
      rw [if_pos hsigned] at hread
      have hchars := String.ofList_injective (Option.some.inj h)
      have hcount := congrArg (List.count '%') hchars
      have hpercent := @Utf8.count_lossyFrom '%' (by decide) (by decide)
      rw [hpercent decoded .start trivial, hpercent _ .start trivial] at hcount
      exact hread.ne hcount
    · rintro ⟨-, hsigned⟩
      rw [hsigned, if_neg Bool.false_ne_true] at hread
      rw [hread]
      rfl

/-! ### Encoded paths -/

/-- The bytes that need no escape: they are characters, and none is a per cent sign. -/
structure Unreserved where
  keeps : UInt8 → Bool
  ascii : ∀ b, keeps b = true → b.toNat < 0x80
  percent : keeps percent = false

/-- A digit to the base 16, in upper case. -/
def hexDigit (n : ℕ) : Char := Char.ofNat (if n < 10 then 48 + n else 55 + n)

/-- A byte, or an escape for it. -/
def encodeByte (unreserved : Unreserved) (b : UInt8) : List Char :=
  if unreserved.keeps b then [Char.ofNat b.toNat]
  else ['%', hexDigit (b.toNat / 16), hexDigit (b.toNat % 16)]

def percentEncode (unreserved : Unreserved) (path : String) : String :=
  String.ofList ((Utf8.bytes path).flatMap (encodeByte unreserved))

/-- The byte of a character of one. -/
def asciiByte (c : Char) : UInt8 := UInt8.ofNat c.toNat

theorem utf8EncodeChar_of_lt {c : Char} (h : c.toNat < 0x80) :
    String.utf8EncodeChar c = [asciiByte c] := by
  have hval : c.val.toNat = c.toNat := rfl
  rw [String.utf8EncodeChar]
  simp only [hval]
  exact if_pos (by omega)

theorem hexDigit_spec : ∀ n < 16, (hexDigit n).toNat < 0x80 ∧
    hexValue (asciiByte (hexDigit n)) = some n := by
  decide +kernel

theorem toNat_ofNat_ascii {n : ℕ} (h : n < 0x80) : (Char.ofNat n).toNat = n := by
  have hvalid : n.isValidChar := .inl (by omega)
  rw [Char.ofNat, dif_pos hvalid]
  rfl

variable (unreserved : Unreserved)

/-- The bytes of an encoded path, byte by byte. -/
theorem bytes_percentEncode (path : String) :
    Utf8.bytes (percentEncode unreserved path) =
      (Utf8.bytes path).flatMap fun b => (encodeByte unreserved b).map asciiByte := by
  rw [Utf8.bytes_eq, percentEncode, String.toList_ofList, List.flatMap_assoc]
  refine List.flatMap_congr fun b _ => ?_
  have hascii : ∀ c ∈ encodeByte unreserved b, c.toNat < 0x80 := by
    have hb := b.toNat_lt
    intro c hc
    rw [encodeByte] at hc
    split_ifs at hc with hkeeps
    · rw [List.mem_singleton.mp hc, toNat_ofNat_ascii (unreserved.ascii b hkeeps)]
      exact unreserved.ascii b hkeeps
    · simp only [List.mem_cons, List.not_mem_nil, or_false] at hc
      obtain rfl | rfl | rfl := hc
      · decide
      · exact (hexDigit_spec _ (by omega)).1
      · exact (hexDigit_spec _ (by omega)).1
  generalize encodeByte unreserved b = chars at hascii
  induction chars with
  | nil => rfl
  | cons c chars ih =>
    rw [List.forall_mem_cons] at hascii
    rw [List.flatMap_cons, utf8EncodeChar_of_lt hascii.1, ih hascii.2]
    rfl

variable {b : UInt8}

theorem decodeLoop_of_ne (h : b ≠ percent) (rest : List UInt8) :
    decodeLoop (b :: rest) = (decodeLoop rest).map (b :: ·) := by
  match rest with
  | [] => rfl
  | [_] => rfl
  | c :: d :: rest => rw [decodeLoop, if_neg h]

/-- A byte that needs no escape is written as it is. -/
theorem encodeByte_of_keeps {unreserved : Unreserved} (h : unreserved.keeps b = true) :
    (encodeByte unreserved b).map asciiByte = [b] := by
  rw [encodeByte, if_pos h, List.map_singleton, asciiByte,
    toNat_ofNat_ascii (unreserved.ascii b h), UInt8.ofNat_toNat]

theorem encodeByte_of_not_keeps {unreserved : Unreserved} (h : unreserved.keeps b = false) :
    (encodeByte unreserved b).map asciiByte =
      [percent, asciiByte (hexDigit (b.toNat / 16)), asciiByte (hexDigit (b.toNat % 16))] := by
  rw [encodeByte, h]
  rfl

theorem isCharBoundary_of_lt (h : b.toNat < 0x80) (rest : List UInt8) :
    isCharBoundary (b :: rest) = true := by
  rw [isCharBoundary, decide_eq_true h, Bool.true_or]

theorem isCharBoundary_encoded (bytes : List UInt8) :
    isCharBoundary (bytes.flatMap fun b => (encodeByte unreserved b).map asciiByte) = true := by
  cases bytes with
  | nil => rfl
  | cons b bytes =>
    rw [List.flatMap_cons]
    cases hkeeps : unreserved.keeps b with
    | true =>
      rw [encodeByte_of_keeps hkeeps]
      exact isCharBoundary_of_lt (unreserved.ascii b hkeeps) _
    | false =>
      rw [encodeByte_of_not_keeps hkeeps]
      exact isCharBoundary_of_lt (by decide) _

/-- Decoding the encoded bytes gives the bytes back. -/
theorem decodeLoop_encoded (bytes : List UInt8) :
    decodeLoop (bytes.flatMap fun b => (encodeByte unreserved b).map asciiByte) = some bytes := by
  induction bytes with
  | nil => rfl
  | cons b bytes ih =>
    rw [List.flatMap_cons]
    cases hkeeps : unreserved.keeps b with
    | true =>
      have hne : b ≠ percent := by
        rintro rfl
        rw [unreserved.percent] at hkeeps
        cases hkeeps
      rw [encodeByte_of_keeps hkeeps, List.singleton_append, decodeLoop_of_ne hne, ih,
        Option.map_some]
    | false =>
      have hb := b.toNat_lt
      obtain ⟨hascii, hhigh⟩ := hexDigit_spec (b.toNat / 16) (by omega)
      obtain ⟨-, hlow⟩ := hexDigit_spec (b.toNat % 16) (by omega)
      have hlt : (asciiByte (hexDigit (b.toNat / 16))).toNat < 0x80 := by
        rwa [asciiByte, Utf8.toNat_ofNat (by omega)]
      have hbyte : UInt8.ofNat (16 * (b.toNat / 16) + b.toNat % 16) = b := by
        rw [Nat.div_add_mod, UInt8.ofNat_toNat]
      rw [encodeByte_of_not_keeps hkeeps, List.cons_append, List.cons_append, List.cons_append,
        List.nil_append, decodeLoop, if_pos rfl, isCharBoundary_of_lt hlt,
        isCharBoundary_encoded unreserved bytes, Bool.true_and, if_pos rfl, fromStrRadix_pair,
        if_neg (ne_of_hexValue hhigh hexValue_plus), hhigh, hlow, Option.bind_some,
        Option.map_some, hbyte, ih]
      rfl

/-- A path is what its encoding is decoded to. -/
theorem percentDecode_percentEncode (path : String) :
    percentDecode (percentEncode unreserved path) = some path := by
  rw [percentDecode, bytes_percentEncode, decodeLoop_encoded, Option.map_some,
    Utf8.fromUtf8Lossy_bytes]

/-! ### Main results -/

theorem percentDecode_isSome_iff (s : String) :
    (percentDecode s).isSome ↔ splitsChar (Utf8.bytes s) = false := by
  rw [percentDecode, Option.isSome_map, Option.isSome_iff_ne_none, ne_eq, decodeLoop_eq_none_iff,
    Bool.not_eq_true]

theorem mapM_isSome_iff {f : String → Option String} {l : List String} :
    (l.mapM f).isSome ↔ ∀ s ∈ l, (f s).isSome := by
  induction l with
  | nil => simp
  | cons s l ih =>
    rw [List.mapM_cons, List.forall_mem_cons, ← ih]
    cases f s <;> cases l.mapM f <;> simp

/-- A payload is validated without a panic exactly if each of its paths is decoded so. -/
theorem validateDragDropPayload_isSome_iff (toLowercase : String → String)
    (pathExists : String → Bool) (mimeType : String) (data : List UInt8) :
    (validateDragDropPayload toLowercase pathExists mimeType data).isSome ↔
      (isAcceptedMime toLowercase mimeType = true →
        ∀ path ∈ uriPaths (Utf8.fromUtf8Lossy data), splitsChar (Utf8.bytes path) = false) := by
  rw [validateDragDropPayload]
  split_ifs with hmime
  · rw [Option.isSome_map, parseUriList, Option.isSome_map, mapM_isSome_iff]
    simp only [percentDecode_isSome_iff, hmime, true_imp_iff]
  · exact iff_of_true rfl fun h => absurd h hmime

/-- **Decoding is exact where escapes end characters and have no sign.** Encoded paths are decoded
to what they were, and the payloads that do no harm are those whose paths have no escape that ends
within a character. -/
theorem percentDecode_exact_iff (toLowercase : String → String) (pathExists : String → Bool)
    (s path mimeType : String) (unreserved : Unreserved) (data : List UInt8) :
    (percentDecode s = some (Utf8.fromUtf8Lossy (decodeEscapes (Utf8.bytes s))) ↔
      splitsChar (Utf8.bytes s) = false ∧ signed (Utf8.bytes s) = false) ∧
    percentDecode (percentEncode unreserved path) = some path ∧
    ((validateDragDropPayload toLowercase pathExists mimeType data).isSome ↔
      (isAcceptedMime toLowercase mimeType = true →
        ∀ path ∈ uriPaths (Utf8.fromUtf8Lossy data), splitsChar (Utf8.bytes path) = false)) :=
  ⟨percentDecode_iff s, percentDecode_percentEncode unreserved path,
    validateDragDropPayload_isSome_iff toLowercase pathExists mimeType data⟩

/-- A letter of two bytes two places after the per cent sign is cut in two, and a sign is passed
over. -/
theorem percentDecode_not_exact :
    percentDecode "%aé" = none ∧
      percentDecode "%+f" ≠ some (Utf8.fromUtf8Lossy (decodeEscapes (Utf8.bytes "%+f"))) ∧
      validateDragDropPayload id (fun _ => true) "text/uri-list" (Utf8.bytes "file:///%aé") =
        none := by
  decide +kernel

end Shilpo.Applications
