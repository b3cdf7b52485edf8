import Mathlib

/-!
# Lossy UTF-8

The text of bytes of which not all need be one's: what no text goes on as becomes a replacement
character, as much at once as some text goes on as (`fromUtf8Lossy`). The text of the bytes of a
text is the text itself (`fromUtf8Lossy_bytes`), and a character of one byte is in the text as often
as its byte is among the bytes (`count_lossyFrom`).
-/

namespace Shilpo.Theory.Utf8

/-- Between characters, or in one: how many bytes are owed besides the next, between what the next
is, and what those so far amount to. -/
inductive State where
  | start
  | owed (more low high value : ℕ)

def replacement : Char := '\uFFFD'

/-- What comes of the first byte of a character. -/
def first (b : UInt8) : List Char × State :=
  if b.toNat < 0x80 then ([Char.ofNat b.toNat], .start)
  else if 0xC2 ≤ b.toNat ∧ b.toNat ≤ 0xDF then ([], .owed 0 0x80 0xBF (b.toNat - 0xC0))
  else if b.toNat = 0xE0 then ([], .owed 1 0xA0 0xBF 0)
  else if b.toNat = 0xED then ([], .owed 1 0x80 0x9F 0xD)
  else if 0xE1 ≤ b.toNat ∧ b.toNat ≤ 0xEF then ([], .owed 1 0x80 0xBF (b.toNat - 0xE0))
  else if b.toNat = 0xF0 then ([], .owed 2 0x90 0xBF 0)
  else if b.toNat = 0xF4 then ([], .owed 2 0x80 0x8F 4)
  else if 0xF1 ≤ b.toNat ∧ b.toNat ≤ 0xF3 then ([], .owed 2 0x80 0xBF (b.toNat - 0xF0))
  else ([replacement], .start)

/-- What comes of a byte; one that is not owed is the first of a character. -/
def next : State → UInt8 → List Char × State
  | .start, b => first b
  | .owed more low high value, b =>
    if low ≤ b.toNat ∧ b.toNat ≤ high then
      match more with
      | 0 => ([Char.ofNat (value * 64 + (b.toNat - 0x80))], .start)
      | more + 1 => ([], .owed more 0x80 0xBF (value * 64 + (b.toNat - 0x80)))
    else (replacement :: (first b).1, (first b).2)

/-- The text of bytes from where it stands. -/
def lossyFrom : State → List UInt8 → List Char
  | .start, [] => []
  | .owed .., [] => [replacement]
  | state, b :: bytes => (next state b).1 ++ lossyFrom (next state b).2 bytes

/-- `String::from_utf8_lossy`. -/
def fromUtf8Lossy (bytes : List UInt8) : String := String.ofList (lossyFrom .start bytes)

/-! ### Bytes of texts -/

/-- The bytes of a text. -/
def bytes (text : String) : List UInt8 := text.toByteArray.data.toList

theorem lossyFrom_cons (state : State) (b : UInt8) (bytes : List UInt8) :
    lossyFrom state (b :: bytes) = (next state b).1 ++ lossyFrom (next state b).2 bytes := by
  cases state <;> rfl

theorem toNat_ofNat {n : ℕ} (h : n < 256) : (UInt8.ofNat n).toNat = n :=
  UInt8.toNat_ofNat_of_lt' h

theorem next_owed {more low high value n : ℕ} (hn : n < 256) (h : low ≤ n ∧ n ≤ high) :
    next (.owed (more + 1) low high value) (UInt8.ofNat n) =
      ([], .owed more 0x80 0xBF (value * 64 + (n - 0x80))) := by
  rw [next, toNat_ofNat hn, if_pos h]

theorem next_last {low high value n : ℕ} (hn : n < 256) (h : low ≤ n ∧ n ≤ high) :
    next (.owed 0 low high value) (UInt8.ofNat n) =
      ([Char.ofNat (value * 64 + (n - 0x80))], .start) := by
  rw [next, toNat_ofNat hn, if_pos h]

theorem first_one {n : ℕ} (h : n < 0x80) : first (UInt8.ofNat n) = ([Char.ofNat n], .start) := by
  rw [first, toNat_ofNat (by omega), if_pos h]

theorem first_two {n : ℕ} (h : 0xC2 ≤ n ∧ n ≤ 0xDF) :
    first (UInt8.ofNat n) = ([], .owed 0 0x80 0xBF (n - 0xC0)) := by
  rw [first, toNat_ofNat (by omega), if_neg (by omega), if_pos h]

/-- The second byte of three is bounded more closely after some first ones. -/
theorem first_three {n : ℕ} (h : 0xE0 ≤ n ∧ n ≤ 0xEF) :
    ∃ low high, first (UInt8.ofNat n) = ([], .owed 1 low high (n - 0xE0)) ∧
      ∀ m, 0x80 ≤ m → m ≤ 0xBF → (n = 0xE0 → 0xA0 ≤ m) → (n = 0xED → m ≤ 0x9F) →
        low ≤ m ∧ m ≤ high := by
  rw [first, toNat_ofNat (by omega), if_neg (by omega), if_neg (by omega)]
  split_ifs with h1 h2 h3
  · exact ⟨0xA0, 0xBF, by rw [h1], fun m _ hm hlow _ => ⟨hlow h1, hm⟩⟩
  · exact ⟨0x80, 0x9F, by rw [h2], fun m hm _ _ hhigh => ⟨hm, hhigh h2⟩⟩
  · exact ⟨0x80, 0xBF, rfl, fun m hlow hhigh _ _ => ⟨hlow, hhigh⟩⟩
  all_goals omega

/-- And so is the second byte of four. -/
theorem first_four {n : ℕ} (h : 0xF0 ≤ n ∧ n ≤ 0xF4) :
    ∃ low high, first (UInt8.ofNat n) = ([], .owed 2 low high (n - 0xF0)) ∧
      ∀ m, 0x80 ≤ m → m ≤ 0xBF → (n = 0xF0 → 0x90 ≤ m) → (n = 0xF4 → m ≤ 0x8F) →
        low ≤ m ∧ m ≤ high := by
  rw [first, toNat_ofNat (by omega), if_neg (by omega), if_neg (by omega),
    if_neg (by omega), if_neg (by omega), if_neg (by omega)]
  split_ifs with h1 h2 h3
  · exact ⟨0x90, 0xBF, by rw [h1], fun m _ hm hlow _ => ⟨hlow h1, hm⟩⟩
  · exact ⟨0x80, 0x8F, by rw [h2], fun m hm _ _ hhigh => ⟨hm, hhigh h2⟩⟩
  · exact ⟨0x80, 0xBF, rfl, fun m hlow hhigh _ _ => ⟨hlow, hhigh⟩⟩
  · omega

theorem lossyFrom_encodeChar (c : Char) (bytes : List UInt8) :
    lossyFrom .start (String.utf8EncodeChar c ++ bytes) = c :: lossyFrom .start bytes := by
  have hvalid : c.toNat < 0xD800 ∨ 0xDFFF < c.toNat ∧ c.toNat < 0x110000 := c.valid
  have hval : c.val.toNat = c.toNat := rfl
  rw [String.utf8EncodeChar]
  simp only [hval]
  have hchar : ∀ m, m = c.toNat → Char.ofNat m = c := by
    rintro m rfl
    exact Char.ofNat_toNat c
  generalize c.toNat = n at hvalid hchar
  by_cases h1 : n ≤ 0x7F
  · rw [if_pos h1, List.singleton_append, lossyFrom_cons, next, first_one (by omega),
      hchar n rfl]
    rfl
  by_cases h2 : n ≤ 0x7FF
  · rw [if_neg h1, if_pos h2]
    simp only [List.cons_append, List.nil_append]
    rw [lossyFrom_cons, next, first_two (by omega), lossyFrom_cons, next_last (by omega) (by omega),
      hchar _ (by omega)]
    rfl
  by_cases h3 : n ≤ 0xFFFF
  · rw [if_neg h1, if_neg h2, if_pos h3]
    simp only [List.cons_append, List.nil_append]
    obtain ⟨low, high, hfirst, hnext⟩ := @first_three (n / 4096 % 16 + 0xE0) (by omega)
    rw [lossyFrom_cons, next, hfirst, lossyFrom_cons,
      next_owed (by omega) (hnext _ (by omega) (by omega) (by omega) (by omega)), lossyFrom_cons,
      next_last (by omega) (by omega), hchar _ (by omega)]
    rfl
  · rw [if_neg h1, if_neg h2, if_neg h3]
    simp only [List.cons_append, List.nil_append]
    obtain ⟨low, high, hfirst, hnext⟩ := @first_four (n / 262144 % 8 + 0xF0) (by omega)
    rw [lossyFrom_cons, next, hfirst, lossyFrom_cons,
      next_owed (by omega) (hnext _ (by omega) (by omega) (by omega) (by omega)), lossyFrom_cons,
      next_owed (by omega) (by omega), lossyFrom_cons, next_last (by omega) (by omega),
      hchar _ (by omega)]
    rfl

theorem lossyFrom_flatMap (chars : List Char) :
    lossyFrom .start (chars.flatMap String.utf8EncodeChar) = chars := by
  induction chars with
  | nil => rfl
  | cons c chars ih => rw [List.flatMap_cons, lossyFrom_encodeChar, ih]

/-- The bytes of a text are those of its characters. -/
theorem bytes_eq (text : String) : bytes text = text.toList.flatMap String.utf8EncodeChar := by
  rw [bytes, ← String.utf8Encode_toList, List.utf8Encode, List.data_toByteArray]

/-- The text of the bytes of a text is the text. -/
theorem fromUtf8Lossy_bytes (text : String) : fromUtf8Lossy (bytes text) = text := by
  rw [fromUtf8Lossy, bytes_eq, lossyFrom_flatMap, String.ofList_toList]

/-! ### Characters of one byte -/

/-- What is owed ends a character of more than one byte. -/
def Long : State → Prop
  | .start => True
  | .owed 0 low _ value => 0x80 ≤ low ∧ 2 ≤ value
  | .owed (_ + 1) low _ value => 0x80 ≤ low ∧ 0x82 ≤ value * 64 + low

section

variable {c : Char} (hpos : 0 < c.toNat) (hc : c.toNat < 0x80)

include hpos in
theorem toNat_ofNat_ne {n : ℕ} (h : n ≠ c.toNat) : Char.ofNat n ≠ c := by
  rintro rfl
  rw [Char.ofNat] at h hpos
  split_ifs at h hpos with hvalid
  · exact h rfl
  · exact absurd hpos (by decide)

include hc in
theorem replacement_ne : replacement ≠ c := by
  rintro rfl
  exact absurd hc (by decide)

include hc in
theorem count_of_long {b : UInt8} (h : 0x80 ≤ b.toNat) : [b].count (UInt8.ofNat c.toNat) = 0 := by
  refine List.count_eq_zero.mpr fun hmem => ?_
  have htoNat := congrArg UInt8.toNat (List.mem_singleton.mp hmem)
  rw [toNat_ofNat (by omega)] at htoNat
  omega

include hpos hc

theorem count_first (b : UInt8) :
    (first b).1.count c = [b].count (UInt8.ofNat c.toNat) ∧ Long (first b).2 := by
  have hreplacement := replacement_ne hc
  by_cases hb : b.toNat < 0x80
  · have hfirst : first b = ([Char.ofNat b.toNat], .start) := if_pos hb
    rw [hfirst]
    refine ⟨?_, trivial⟩
    by_cases hbc : b.toNat = c.toNat
    · rw [hbc, Char.ofNat_toNat, ← hbc, UInt8.ofNat_toNat, List.count_singleton_self,
        List.count_singleton_self]
    · have hne : UInt8.ofNat c.toNat ≠ b := by
        rintro rfl
        exact hbc (toNat_ofNat (by omega))
      rw [List.count_eq_zero.mpr, List.count_eq_zero.mpr]
      · exact fun hmem => hne (List.mem_singleton.mp hmem)
      · exact fun hmem => toNat_ofNat_ne hpos hbc (List.mem_singleton.mp hmem).symm
  · rw [count_of_long hc (not_lt.mp hb), first, if_neg hb]
    split_ifs
    all_goals simp [Long, hreplacement]
    all_goals omega

theorem count_next {state : State} (h : Long state) (b : UInt8) :
    (next state b).1.count c = [b].count (UInt8.ofNat c.toNat) ∧ Long (next state b).2 := by
  cases state with
  | start => exact count_first hpos hc b
  | owed more low high value =>
    by_cases hb : low ≤ b.toNat ∧ b.toNat ≤ high
    · cases more with
      | zero =>
        have hnext : next (.owed 0 low high value) b =
            ([Char.ofNat (value * 64 + (b.toNat - 0x80))], .start) := if_pos hb
        have hlong : value * 64 + (b.toNat - 0x80) ≠ c.toNat := by
          have hvalue := h.2
          omega
        rw [hnext, count_of_long hc (h.1.trans hb.1)]
        refine ⟨List.count_eq_zero.mpr fun hmem => ?_, trivial⟩
        exact toNat_ofNat_ne hpos hlong (List.mem_singleton.mp hmem).symm
      | succ more =>
        have hnext : next (.owed (more + 1) low high value) b =
            ([], .owed more 0x80 0xBF (value * 64 + (b.toNat - 0x80))) := if_pos hb
        rw [hnext, count_of_long hc (h.1.trans hb.1)]
        refine ⟨rfl, ?_⟩
        have hvalue := h.2
        cases more with
        | zero => exact ⟨le_rfl, by omega⟩
        | succ more => exact ⟨le_rfl, by omega⟩
    · have hnext : next (.owed more low high value) b =
          (replacement :: (first b).1, (first b).2) := if_neg hb
      rw [hnext, List.count_cons_of_ne (replacement_ne hc)]
      exact count_first hpos hc b

/-- A character of one byte is as often in the text as its byte is among the bytes. -/
theorem count_lossyFrom (bytes : List UInt8) : ∀ state, Long state →
    (lossyFrom state bytes).count c = bytes.count (UInt8.ofNat c.toNat) := by
  induction bytes with
  | nil =>
    intro state _
    cases state with
    | start => rfl
    | owed more low high value => exact List.count_cons_of_ne (replacement_ne hc)
  | cons b bytes ih =>
    intro state h
    obtain ⟨hcount, hnext⟩ := count_next hpos hc h b
    rw [lossyFrom_cons, List.count_append, hcount, ih _ hnext, ← List.count_append,
      List.singleton_append]

end

end Shilpo.Theory.Utf8
