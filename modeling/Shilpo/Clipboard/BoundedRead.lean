import Mathlib

/-!
# Reading an offer

`read_bounded_stream` of `clipboard/mod.rs`: a reader is read into a buffer until its end, an error,
more than the cap, or a cancellation. The source says that what is cut off must not be stored. A
cancellation leaves the loop as the end does, so that a part is returned if one has been read
(`readBoundedStream_complete_iff`).
-/

namespace Shilpo.Clipboard

/-- What one read puts into the buffer, which has room for 4096 bytes. -/
abbrev Chunk := {bytes : List UInt8 // bytes.length ≤ 4096}

/-- What a read gives. -/
inductive ReadResult where
  /-- Nothing is read at the end. -/
  | ok (chunk : Chunk)
  | wouldBlock
  | failed

/-- Once around the loop: whether it has been cancelled, and what the reader gives if not. -/
structure ReadTurn where
  cancelled : Bool
  result : ReadResult

/-- What has been read, if anything has. -/
def finishRead (bytes : List UInt8) : Option (List UInt8) := if bytes = [] then none else some bytes

/-- The loop; there is no result yet where there are no more turns. -/
def readLoop (cap : ℕ) : List UInt8 → List ReadTurn → Option (Option (List UInt8))
  | _, [] => none
  | bytes, turn :: turns =>
    if turn.cancelled then some (finishRead bytes)
    else
      match turn.result with
      | .ok chunk =>
        if chunk.1 = [] then some (finishRead bytes)
        else if cap < (bytes ++ chunk.1).length then some none
        else readLoop cap (bytes ++ chunk.1) turns
      | .wouldBlock => readLoop cap bytes turns
      | .failed => some none

def readBoundedStream (cap : ℕ) (turns : List ReadTurn) : Option (Option (List UInt8)) :=
  readLoop cap [] turns

/-! ### What has been delivered -/

namespace ReadTurn

/-- What is delivered. -/
def chunk (turn : ReadTurn) : List UInt8 :=
  match turn.result with
  | .ok chunk => chunk.1
  | _ => []

/-- The reader has more to give, and is asked for it. -/
def Goes (turn : ReadTurn) : Prop :=
  turn.cancelled = false ∧
    match turn.result with
    | .ok chunk => chunk.1 ≠ []
    | .wouldBlock => True
    | .failed => False

instance (turn : ReadTurn) : Decidable turn.Goes :=
  match h : turn.result with
  | .ok chunk => decidable_of_iff (turn.cancelled = false ∧ chunk.1 ≠ []) (by rw [Goes, h])
  | .wouldBlock => decidable_of_iff (turn.cancelled = false) (by rw [Goes, h]; simp)
  | .failed => decidable_of_iff False (by rw [Goes, h]; simp)

/-- The reader says that it has reached the end. -/
def Ends (turn : ReadTurn) : Prop :=
  turn.cancelled = false ∧ ∃ chunk, turn.result = .ok chunk ∧ chunk.1 = []

end ReadTurn

/-- All that the turns deliver. -/
def delivered (turns : List ReadTurn) : List UInt8 := turns.flatMap ReadTurn.chunk

/-- The reader is read to its end, and these bytes are all that it has delivered. -/
def Complete (cap : ℕ) (turns : List ReadTurn) (bytes : List UInt8) : Prop :=
  ∃ before turn after, turns = before ++ turn :: after ∧ (∀ t ∈ before, t.Goes) ∧ turn.Ends ∧
    bytes = delivered before ∧ 0 < bytes.length ∧ bytes.length ≤ cap

/-- The loop is cancelled when something has been read, though not too much. -/
def CutShort (cap : ℕ) (turns : List ReadTurn) : Prop :=
  ∃ before turn after, turns = before ++ turn :: after ∧ (∀ t ∈ before, t.Goes) ∧
    turn.cancelled = true ∧ 0 < (delivered before).length ∧ (delivered before).length ≤ cap

/-- What is returned, if anything is, is a complete payload, and it is if there is one. -/
def OnlyComplete (cap : ℕ) (turns : List ReadTurn) : Prop :=
  ∀ result, readBoundedStream cap turns = some result →
    ∀ bytes, result = some bytes ↔ Complete cap turns bytes

/-! ### The loop -/

/-- As long as it goes on the loop gathers what is delivered, and it stops where this is too
much. -/
theorem readLoop_append {cap : ℕ} {before : List ReadTurn} (h : ∀ t ∈ before, t.Goes)
    (rest : List ReadTurn) {bytes : List UInt8} (hcap : bytes.length ≤ cap) :
    readLoop cap bytes (before ++ rest) =
      if cap < (bytes ++ delivered before).length then some none
      else readLoop cap (bytes ++ delivered before) rest := by
  induction before generalizing bytes with
  | nil =>
    rw [delivered, List.flatMap_nil, List.append_nil, List.nil_append, if_neg (not_lt.mpr hcap)]
  | cons turn before ih =>
    rw [List.forall_mem_cons] at h
    obtain ⟨⟨hcancelled, hgoes⟩, hbefore⟩ := h
    rw [List.cons_append, readLoop, hcancelled, if_neg Bool.false_ne_true, delivered,
      List.flatMap_cons, ReadTurn.chunk]
    cases hresult : turn.result with
    | failed => exact absurd hgoes (by rw [hresult]; exact id)
    | wouldBlock => exact ih hbefore hcap
    | ok chunk =>
      have hne : chunk.1 ≠ [] := by
        rw [hresult] at hgoes
        exact hgoes
      simp only [if_neg hne, ← List.append_assoc]
      by_cases hover : cap < (bytes ++ chunk.1).length
      · have hmore : cap < (bytes ++ chunk.1 ++ before.flatMap ReadTurn.chunk).length := by
          rw [List.length_append]
          omega
        rw [if_pos hover, if_pos hmore]
      · rw [if_neg hover]
        exact ih hbefore (not_lt.mp hover)

/-- The loop goes on through all turns, or until one. -/
theorem goes_or_stops (turns : List ReadTurn) : (∀ t ∈ turns, t.Goes) ∨
    ∃ before turn after, turns = before ++ turn :: after ∧ (∀ t ∈ before, t.Goes) ∧
      ¬turn.Goes := by
  induction turns with
  | nil => exact .inl (by simp)
  | cons t turns ih =>
    by_cases ht : t.Goes
    · rcases ih with hall | ⟨before, turn, after, rfl, hbefore, hturn⟩
      · exact .inl (List.forall_mem_cons.mpr ⟨ht, hall⟩)
      · exact .inr ⟨t :: before, turn, after, rfl, List.forall_mem_cons.mpr ⟨ht, hbefore⟩, hturn⟩
    · exact .inr ⟨[], t, turns, rfl, by simp, ht⟩

/-- Where the loop stops is told by the turns. -/
theorem stop_unique {before before' : List ReadTurn} {turn turn' : ReadTurn}
    {after after' : List ReadTurn} (heq : before ++ turn :: after = before' ++ turn' :: after')
    (h : ∀ t ∈ before, t.Goes) (h' : ∀ t ∈ before', t.Goes) (hturn : ¬turn.Goes)
    (hturn' : ¬turn'.Goes) : before = before' ∧ turn = turn' := by
  have hsplit : ∀ {before : List ReadTurn} {turn : ReadTurn} {after : List ReadTurn},
      (∀ t ∈ before, t.Goes) → ¬turn.Goes →
        (before ++ turn :: after).takeWhile (fun t => decide t.Goes) = before ∧
        (before ++ turn :: after).dropWhile (fun t => decide t.Goes) = turn :: after := by
    intro before turn after hbefore hturn
    have hall : ∀ t ∈ before, decide t.Goes = true := fun t ht => decide_eq_true (hbefore t ht)
    rw [List.takeWhile_append_of_pos hall, List.dropWhile_append_of_pos hall,
      List.takeWhile_cons_of_neg (by simpa using hturn),
      List.dropWhile_cons_of_neg (by simpa using hturn), List.append_nil]
    exact ⟨rfl, rfl⟩
  obtain ⟨htake, hdrop⟩ := @hsplit _ _ after h hturn
  obtain ⟨htake', hdrop'⟩ := @hsplit _ _ after' h' hturn'
  rw [heq] at htake hdrop
  exact ⟨htake.symm.trans htake', (List.cons.inj (hdrop.symm.trans hdrop')).1⟩

theorem ReadTurn.Ends.not_goes {turn : ReadTurn} (h : turn.Ends) : ¬turn.Goes := by
  obtain ⟨-, chunk, hresult, hempty⟩ := h
  rintro ⟨-, hgoes⟩
  rw [hresult] at hgoes
  exact hgoes hempty

theorem ReadTurn.not_goes_of_cancelled {turn : ReadTurn} (h : turn.cancelled = true) :
    ¬turn.Goes := by
  rintro ⟨hcancelled, -⟩
  rw [h] at hcancelled
  cases hcancelled

theorem finishRead_eq_some_iff {bytes payload : List UInt8} :
    finishRead bytes = some payload ↔ bytes = payload ∧ 0 < bytes.length := by
  rw [finishRead]
  split_ifs with h
  · simp [h]
  · simp [List.length_pos_iff, h]

/-- What is returned where the loop stops, if what has been read is not too much. -/
theorem readLoop_stop {cap : ℕ} {turn : ReadTurn} (h : ¬turn.Goes) (bytes : List UInt8)
    (after : List ReadTurn) (payload : List UInt8) :
    ∃ result, readLoop cap bytes (turn :: after) = some result ∧
      (result = some payload ↔
        (turn.cancelled = true ∨ turn.Ends) ∧ bytes = payload ∧ 0 < bytes.length) := by
  rw [readLoop]
  cases hcancelled : turn.cancelled with
  | true => exact ⟨_, rfl, by simp [finishRead_eq_some_iff]⟩
  | false =>
    rw [if_neg Bool.false_ne_true]
    have hends : (false = true ∨ turn.Ends) ↔ turn.Ends := by simp
    rw [hends]
    cases hresult : turn.result with
    | wouldBlock => exact absurd ⟨hcancelled, by rw [hresult]; trivial⟩ h
    | failed =>
      refine ⟨none, rfl, iff_of_false (by simp) ?_⟩
      rintro ⟨⟨-, chunk, hchunk, -⟩, -⟩
      rw [hresult] at hchunk
      cases hchunk
    | ok chunk =>
      have hempty : chunk.1 = [] := by
        by_contra hne
        exact h ⟨hcancelled, by rw [hresult]; exact hne⟩
      refine ⟨finishRead bytes, if_pos hempty, ?_⟩
      rw [finishRead_eq_some_iff]
      exact (and_iff_right ⟨hcancelled, chunk, hresult, hempty⟩).symm

/-! ### Main result -/

/-- **Only complete payloads are returned unless a read is cut short.** -/
theorem readBoundedStream_complete_iff (cap : ℕ) (turns : List ReadTurn) :
    OnlyComplete cap turns ↔ ¬CutShort cap turns := by
  rcases goes_or_stops turns with hall | ⟨before, turn, after, rfl, hbefore, hturn⟩
  · -- All turns go on: what is read is too much, or nothing is returned yet.
    have hnever : ∀ {before : List ReadTurn} {turn : ReadTurn} {after : List ReadTurn},
        turns = before ++ turn :: after → ¬¬turn.Goes := fun heq hturn =>
      hturn (hall _ (heq ▸ by simp))
    refine iff_of_true ?_ ?_
    · intro result hresult bytes
      have hloop := @readLoop_append cap turns hall [] [] (Nat.zero_le _)
      rw [List.append_nil] at hloop
      rw [readBoundedStream, hloop] at hresult
      refine iff_of_false ?_ ?_
      · rintro rfl
        split_ifs at hresult
        · cases Option.some.inj hresult
        · cases hresult
      · rintro ⟨before, turn, after, heq, -, hends, -⟩
        exact hnever heq hends.not_goes
    · rintro ⟨before, turn, after, heq, -, hcancelled, -⟩
      exact hnever heq (ReadTurn.not_goes_of_cancelled hcancelled)
  · have hloop := @readLoop_append cap before hbefore (turn :: after) [] (Nat.zero_le _)
    rw [List.nil_append] at hloop
    have hcomplete : ∀ bytes, Complete cap (before ++ turn :: after) bytes ↔
        turn.Ends ∧ delivered before = bytes ∧ 0 < (delivered before).length ∧
          (delivered before).length ≤ cap := by
      intro bytes
      constructor
      · rintro ⟨before', turn', after', heq, hbefore', hends, rfl, hpos, hcap⟩
        obtain ⟨rfl, rfl⟩ := stop_unique heq hbefore hbefore' hturn hends.not_goes
        exact ⟨hends, rfl, hpos, hcap⟩
      · rintro ⟨hends, rfl, hpos, hcap⟩
        exact ⟨before, turn, after, rfl, hbefore, hends, rfl, hpos, hcap⟩
    have hcut : CutShort cap (before ++ turn :: after) ↔ turn.cancelled = true ∧
        0 < (delivered before).length ∧ (delivered before).length ≤ cap := by
      constructor
      · rintro ⟨before', turn', after', heq, hbefore', hcancelled, hpos, hcap⟩
        obtain ⟨rfl, rfl⟩ := stop_unique heq hbefore hbefore' hturn
          (ReadTurn.not_goes_of_cancelled hcancelled)
        exact ⟨hcancelled, hpos, hcap⟩
      · rintro ⟨hcancelled, hpos, hcap⟩
        exact ⟨before, turn, after, rfl, hbefore, hcancelled, hpos, hcap⟩
    rw [hcut]
    by_cases hover : cap < (delivered before).length
    · rw [if_pos hover] at hloop
      refine iff_of_true (fun result hresult bytes => ?_) fun h => absurd h.2.2 (not_le.mpr hover)
      rw [readBoundedStream, hloop] at hresult
      obtain rfl := Option.some.inj hresult
      rw [hcomplete]
      exact iff_of_false (by simp) fun h => absurd h.2.2.2 (not_le.mpr hover)
    · rw [if_neg hover] at hloop
      have hcap := not_lt.mp hover
      constructor
      · rintro honly ⟨hcancelled, hpos, -⟩
        obtain ⟨result, hresult, hiff⟩ :=
          @readLoop_stop cap turn hturn (delivered before) after (delivered before)
        have hreturned := hiff.mpr ⟨.inl hcancelled, rfl, hpos⟩
        have hends := ((hcomplete _).mp ((honly result (hloop.trans hresult) _).mp hreturned)).1
        rw [hends.1] at hcancelled
        cases hcancelled
      · intro hcut result hresult bytes
        obtain ⟨result', hresult', hiff⟩ :=
          @readLoop_stop cap turn hturn (delivered before) after bytes
        obtain rfl : result = result' :=
          Option.some.inj (hresult.symm.trans (hloop.trans hresult'))
        rw [hiff, hcomplete]
        constructor
        · rintro ⟨hcancelled | hends, rfl, hpos⟩
          · exact absurd ⟨hcancelled, hpos, hcap⟩ hcut
          · exact ⟨hends, rfl, hpos, hcap⟩
        · rintro ⟨hends, rfl, hpos, -⟩
          exact ⟨.inr hends, rfl, hpos⟩

/-- A byte is read, and then the loop is cancelled. -/
def cutOffer : List ReadTurn := [⟨false, .ok ⟨[120], by decide⟩⟩, ⟨true, .wouldBlock⟩]

/-- The part that has been read is returned. -/
theorem cutOffer_returned : readBoundedStream 10 cutOffer = some (some [120]) ∧
    ¬OnlyComplete 10 cutOffer := by
  refine ⟨by decide, fun h => ?_⟩
  obtain ⟨before, turn, after, heq, -, ⟨hcancelled, chunk, hresult, hempty⟩, hbytes, -⟩ :=
    (h (some [120]) (by decide) [120]).mp rfl
  have hmem : turn ∈ cutOffer := heq ▸ by simp
  simp only [cutOffer, List.mem_cons, List.not_mem_nil, or_false] at hmem
  rcases hmem with rfl | rfl
  · obtain rfl := ReadResult.ok.inj hresult
    cases hempty
  · cases hcancelled

end Shilpo.Clipboard
