import Shilpo.Search.Matcher

/-!
# Alignments

An alignment has a place of the target for each character of the query. What the table of
`fuzzy_match` has in a cell is the greatest score of the alignments that end there
(`endScore_le_cellAt`), and going back from a cell makes one of them (`reached_backtrack`). The
table begins with a number in place of no score, so that this is about the alignments of which
every beginning scores more than that number (`Reached`); a target of a million characters has no
others.

As the table is gone through from its last row, queries and places are read backwards here.
-/

namespace Shilpo.Search

open Theory

section

variable (tables : CharTables) (target : List Char)

/-! ### Alignments and their scores -/

/-- A place for each character of a query, in order. -/
structure IsAlignment (query : List Char) (positions : List ℕ) : Prop where
  nonempty : query ≠ []
  increasing : positions.Pairwise (· < ·)
  matched : List.Forall₂ (fun qc j => ∃ tc, target[j]? = some tc ∧
    charsEqualIgnoreCase tables qc tc = true) query positions

/-- A character after the one before. -/
def stepScore (qc : Char) (k j : ℕ) : ℤ :=
  if j = k + 1 then consecutiveScore target qc j else gapScore tables target qc k j

/-- The characters after the one at `k`. -/
def followScore : ℕ → List Char → List ℕ → ℤ
  | k, qc :: query, j :: positions =>
    stepScore tables target qc k j + followScore j query positions
  | _, _, _ => 0

/-- All characters, with what is behind the last taken off. -/
def alignmentScore : List Char → List ℕ → ℤ
  | qc :: query, j :: positions =>
    firstScore tables target qc j + followScore tables target j query positions -
      ((target.length - 1 - (j :: positions).getLastD 0 : ℕ) : ℤ) * scoreTrailingGapPenalty
  | _, _ => 0

/-- The score of a beginning, read backwards. -/
def endScore : List Char → List ℕ → ℤ
  | qc :: next :: query, j :: k :: places =>
    endScore (next :: query) (k :: places) + stepScore tables target qc k j
  | [qc], [j] => firstScore tables target qc j
  | _, _ => 0

/-- The character is at the place. -/
def MatchesAt (qc : Char) (j : ℕ) : Prop :=
  j < target.length ∧ charsEqualIgnoreCase tables qc (charAt target j) = true

/-- An alignment, read backwards, of which every beginning has a score in the table. -/
inductive Reached : List Char → List ℕ → Prop where
  | first {qc : Char} {j : ℕ} : MatchesAt tables target qc j → Reached [qc] [j]
  | next {qc next : Char} {query : List Char} {j k : ℕ} {places : List ℕ} :
      MatchesAt tables target qc j → k < j → Reached (next :: query) (k :: places) →
      negInfinity < endScore tables target (qc :: next :: query) (j :: k :: places) →
      Reached (qc :: next :: query) (j :: k :: places)

/-! ### Scores are not small -/

variable {tables target}

theorem bonus_nonneg (j : ℕ) : 0 ≤ bonus tables target j := by
  rw [bonus]
  split_ifs <;> decide

theorem caseBonus_nonneg (qc : Char) (j : ℕ) : 0 ≤ caseBonus target qc j := by
  rw [caseBonus]
  split_ifs <;> decide

theorem firstScore_ge (qc : Char) (j : ℕ) : -15 ≤ firstScore tables target qc j := by
  have hbonus := @bonus_nonneg tables target j
  have hcase := @caseBonus_nonneg target qc j
  have hmin := min_le_right ((j : ℤ) * scoreLeadingGapPenalty) maxLeadingPenalty
  simp only [firstScore, scoreBaseMatch, maxLeadingPenalty] at hmin ⊢
  omega

theorem consecutiveScore_pos (qc : Char) (j : ℕ) : 0 < consecutiveScore target qc j := by
  have hcase := @caseBonus_nonneg target qc j
  simp only [consecutiveScore, scoreBaseMatch, scoreConsecutive]
  omega

theorem stepScore_ge {qc : Char} {k j : ℕ} (h : k < j) :
    -10 - ((j : ℤ) - k) ≤ stepScore tables target qc k j := by
  have hbonus := @bonus_nonneg tables target j
  have hcase := @caseBonus_nonneg target qc j
  rw [stepScore]
  split_ifs
  · have := @consecutiveScore_pos target qc j
    omega
  · simp only [gapScore, scoreBaseMatch, scoreGapOpen, scoreGapExtension]
    omega

/-! ### Cells -/

theorem cellAt_map (f : ℕ → ℤ) (j : ℕ) :
    cellAt ((List.range target.length).map f) j =
      if j < target.length then f j else negInfinity := by
  rw [cellAt, List.getD_eq_getElem?_getD, List.getElem?_map]
  by_cases h : j < target.length
  · rw [if_pos h, List.getElem?_range h]
    rfl
  · rw [if_neg h, List.getElem?_eq_none (by simpa using h)]
    rfl

theorem cellAt_firstRow (qc : Char) (j : ℕ) [Decidable (MatchesAt tables target qc j)] :
    cellAt (firstRow tables target qc) j =
      if MatchesAt tables target qc j then firstScore tables target qc j else negInfinity := by
  rw [firstRow, cellAt_map]
  by_cases hj : j < target.length
  · by_cases hc : charsEqualIgnoreCase tables qc (charAt target j)
    · rw [if_pos hj, if_pos hc, if_pos ⟨hj, hc⟩]
    · rw [if_pos hj, if_neg hc, if_neg fun h => hc h.2]
  · rw [if_neg hj, if_neg fun h => hj h.1]

/-- The score of a character next to the one before, if there is one. -/
def consecutiveCell (target : List Char) (prev : List ℤ) (qc : Char) (j : ℕ) : ℤ :=
  if cellAt prev (j - 1) ≠ negInfinity then
    cellAt prev (j - 1) + consecutiveScore target qc j
  else negInfinity

theorem cellAt_nextRow {prev : List ℤ} {qc : Char} {j : ℕ} (hj : 0 < j)
    (h : MatchesAt tables target qc j) :
    cellAt (nextRow tables target prev qc) j =
      max (consecutiveCell target prev qc j) (bestGapScore tables target prev qc j) := by
  rw [nextRow, cellAt_map, if_pos h.1, nextCell, if_neg hj.ne', if_pos h.2]
  rfl

theorem matchesAt_of_cellAt_nextRow {prev : List ℤ} {qc : Char} {j : ℕ}
    (h : cellAt (nextRow tables target prev qc) j ≠ negInfinity) :
    0 < j ∧ MatchesAt tables target qc j := by
  rw [nextRow, cellAt_map] at h
  by_cases hj : j < target.length
  · rw [if_pos hj, nextCell] at h
    by_cases hzero : j = 0
    · rw [if_pos hzero] at h
      exact absurd rfl h
    · rw [if_neg hzero] at h
      by_cases hc : charsEqualIgnoreCase tables qc (charAt target j)
      · exact ⟨Nat.pos_of_ne_zero hzero, hj, hc⟩
      · rw [if_neg hc] at h
        exact absurd rfl h
  · rw [if_neg hj] at h
    exact absurd rfl h

theorem negInfinity_le_bestGapScore (prev : List ℤ) (qc : Char) (j : ℕ) :
    negInfinity ≤ bestGapScore tables target prev qc j := by
  rw [bestGapScore]
  exact le_foldl_keepGreater (List.range (j - 1)) (negInfinity, 0)

theorem le_bestGapScore {prev : List ℤ} {qc : Char} {k j : ℕ} (hk : k < j - 1)
    (h : cellAt prev k ≠ negInfinity) :
    cellAt prev k + gapScore tables target qc k j ≤ bestGapScore tables target prev qc j :=
  score_le_foldl_keepGreater (List.mem_range.mpr hk) (if_pos h)

theorem exists_of_bestGapScore {prev : List ℤ} {qc : Char} {j : ℕ}
    (h : bestGapScore tables target prev qc j ≠ negInfinity) :
    ∃ k < j - 1, cellAt prev k ≠ negInfinity ∧
      bestGapScore tables target prev qc j = cellAt prev k + gapScore tables target qc k j := by
  rw [bestGapScore] at h ⊢
  rcases foldl_keepGreater_cases (List.range (j - 1)) (negInfinity, 0) with
    heq | ⟨-, hmem, hscore⟩
  · rw [heq] at h
    exact absurd rfl h
  · split_ifs at hscore with hcell
    exact ⟨_, List.mem_range.mp hmem, hcell, (Option.some.inj hscore).symm⟩

theorem negInfinity_le_cellAt_nextRow (prev : List ℤ) (qc : Char) (j : ℕ) :
    negInfinity ≤ cellAt (nextRow tables target prev qc) j := by
  by_cases h : cellAt (nextRow tables target prev qc) j = negInfinity
  · exact h.ge
  · obtain ⟨hj, hmatch⟩ := matchesAt_of_cellAt_nextRow h
    rw [cellAt_nextRow hj hmatch]
    exact (negInfinity_le_bestGapScore prev qc j).trans (le_max_right _ _)

/-- A cell holds nothing that is less than where the table begins. -/
theorem negInfinity_le_cellAt : ∀ (query : List Char) (j : ℕ),
    negInfinity ≤ cellAt (lastRow tables target query) j
  | [], _ => le_rfl
  | [qc], j => by
    classical
    rw [lastRow, cellAt_firstRow]
    split_ifs
    · exact le_trans (by decide) (firstScore_ge qc j)
    · exact le_rfl
  | _ :: _ :: _, _ => negInfinity_le_cellAt_nextRow _ _ _

theorem lastRow_cons (qc next : Char) (query : List Char) :
    lastRow tables target (qc :: next :: query) =
      nextRow tables target (lastRow tables target (next :: query)) qc := rfl

/-! ### The table has the greatest scores -/

theorem Reached.negInfinity_lt {query : List Char} {places : List ℕ}
    (h : Reached tables target query places) :
    negInfinity < endScore tables target query places := by
  cases h with
  | first => exact lt_of_lt_of_le (by decide) (firstScore_ge _ _)
  | next _ _ _ hscore => exact hscore

theorem endScore_le_cellAt {query : List Char} {places : List ℕ}
    (h : Reached tables target query places) {j : ℕ} (hj : places.head? = some j) :
    endScore tables target query places ≤ cellAt (lastRow tables target query) j := by
  classical
  induction h generalizing j with
  | first hmatch =>
    obtain rfl := Option.some.inj hj
    rw [lastRow, cellAt_firstRow, if_pos hmatch]
    exact le_rfl
  | @next qc next query j' k places hmatch hk hbefore _ ih =>
    obtain rfl := Option.some.inj hj
    have hprev := ih rfl
    have hcell : cellAt (lastRow tables target (next :: query)) k ≠ negInfinity :=
      (hbefore.negInfinity_lt.trans_le hprev).ne'
    rw [lastRow_cons, cellAt_nextRow (by omega) hmatch, endScore, stepScore]
    split_ifs with hnext
    · subst hnext
      refine le_trans ?_ (le_max_left _ _)
      rw [consecutiveCell, Nat.add_sub_cancel, if_pos hcell]
      omega
    · have hgap := @le_bestGapScore tables target _ qc k j' (by omega) hcell
      exact le_trans (by omega) (hgap.trans (le_max_right _ _))

/-! ### Going back -/

theorem backtrack_eq_cons (query : List Char) (j : ℕ) :
    ∃ places, backtrack tables target query j = j :: places := by
  match query with
  | [] => exact ⟨[], rfl⟩
  | [_] => exact ⟨[], rfl⟩
  | _ :: _ :: _ => exact ⟨_, rfl⟩

/-- The place before one is a place that its score has been made from. -/
theorem predecessor_spec {prev row : List ℤ} {qc : Char} {j : ℕ}
    (hrow : row = nextRow tables target prev qc) (hcell : cellAt row j ≠ negInfinity) :
    predecessor tables target prev row qc j < j ∧
      cellAt prev (predecessor tables target prev row qc j) ≠ negInfinity ∧
      cellAt row j = cellAt prev (predecessor tables target prev row qc j) +
        stepScore tables target qc (predecessor tables target prev row qc j) j := by
  subst hrow
  obtain ⟨hj, hmatch⟩ := matchesAt_of_cellAt_nextRow hcell
  rw [predecessor]
  by_cases hnext : (cellAt prev (j - 1) ≠ negInfinity &&
      cellAt (nextRow tables target prev qc) j =
        cellAt prev (j - 1) + consecutiveScore target qc j : Bool)
  · rw [if_pos hnext]
    simp only [ne_eq, Bool.and_eq_true, decide_eq_true_eq] at hnext
    refine ⟨by omega, hnext.1, ?_⟩
    rw [stepScore, if_pos (by omega)]
    exact hnext.2
  · rw [if_neg hnext]
    simp only [ne_eq, Bool.and_eq_true, decide_eq_true_eq, not_and] at hnext
    have hgap : cellAt (nextRow tables target prev qc) j =
        bestGapScore tables target prev qc j := by
      rw [cellAt_nextRow hj hmatch] at hcell hnext ⊢
      rcases max_choice (consecutiveCell target prev qc j) (bestGapScore tables target prev qc j)
        with h | h
      · rw [h] at hcell hnext
        rw [consecutiveCell] at hcell hnext
        split_ifs at hcell hnext with hprev
        · exact absurd rfl (hnext hprev)
        · exact absurd rfl hcell
      · exact h
    obtain ⟨k, hk, hprev, hscore⟩ := exists_of_bestGapScore (hgap ▸ hcell)
    cases hfind : (List.range (j - 1)).reverse.find? fun k =>
      cellAt prev k ≠ negInfinity && cellAt prev k + gapScore tables target qc k j =
        cellAt (nextRow tables target prev qc) j with
    | none =>
      have hnone := List.find?_eq_none.mp hfind k (by simpa using hk)
      simp [hprev, hgap, hscore] at hnone
    | some k' =>
      have hk' : k' < j - 1 := by simpa using List.mem_of_find?_eq_some hfind
      have hspec := List.find?_some hfind
      simp only [ne_eq, Bool.and_eq_true, decide_eq_true_eq] at hspec
      rw [Option.getD_some]
      refine ⟨by omega, hspec.1, ?_⟩
      rw [stepScore, if_neg (by omega), hspec.2]

/-- Going back from a cell makes an alignment that has its score. -/
theorem reached_backtrack {query : List Char} (hquery : query ≠ []) {j : ℕ}
    (hcell : cellAt (lastRow tables target query) j ≠ negInfinity) :
    Reached tables target query (backtrack tables target query j) ∧
      endScore tables target query (backtrack tables target query j) =
        cellAt (lastRow tables target query) j := by
  classical
  match query with
  | [] => exact absurd rfl hquery
  | [qc] =>
    rw [lastRow, cellAt_firstRow] at hcell ⊢
    split_ifs at hcell ⊢ with hmatch
    · exact ⟨.first hmatch, rfl⟩
    · exact absurd rfl hcell
  | qc :: next :: query =>
    have hmatch := (matchesAt_of_cellAt_nextRow hcell).2
    obtain ⟨hk, hprev, hscore⟩ := predecessor_spec (lastRow_cons qc next query) hcell
    obtain ⟨hreached, hend⟩ := reached_backtrack (List.cons_ne_nil next query) hprev
    rw [backtrack]
    obtain ⟨places, hplaces⟩ := @backtrack_eq_cons tables target
      (next :: query) (predecessor tables target (lastRow tables target (next :: query))
        (lastRow tables target (qc :: next :: query)) qc j)
    rw [hplaces] at hreached hend ⊢
    have htotal : endScore tables target (qc :: next :: query)
        (j :: predecessor tables target (lastRow tables target (next :: query))
          (lastRow tables target (qc :: next :: query)) qc j :: places) =
        cellAt (lastRow tables target (qc :: next :: query)) j := by
      rw [endScore, hend, hscore]
    refine ⟨.next hmatch hk hreached ?_, htotal⟩
    rw [htotal]
    exact lt_of_le_of_ne (negInfinity_le_cellAt _ _) (Ne.symm hcell)

/-- Of the alignments that have the score of a cell one that is a run is found. -/
theorem backtrack_of_run {query : List Char} {places : List ℕ}
    (h : Reached tables target query places) {j : ℕ} (hj : places.head? = some j)
    (hrun : places.IsChain fun j k => j = k + 1)
    (hbest : endScore tables target query places = cellAt (lastRow tables target query) j) :
    backtrack tables target query j = places := by
  induction h generalizing j with
  | first =>
    obtain rfl := Option.some.inj hj
    rfl
  | @next qc next query j' k places hmatch hk hbefore _ ih =>
    obtain rfl := Option.some.inj hj
    obtain ⟨rfl, hrest⟩ := List.isChain_cons_cons.mp hrun
    have hprev := endScore_le_cellAt hbefore (j := k) rfl
    have hcell : cellAt (lastRow tables target (next :: query)) k ≠ negInfinity :=
      (hbefore.negInfinity_lt.trans_le hprev).ne'
    rw [endScore, stepScore, if_pos rfl] at hbest
    have hmax : cellAt (lastRow tables target (next :: query)) k +
        consecutiveScore target qc (k + 1) ≤
        cellAt (lastRow tables target (qc :: next :: query)) (k + 1) := by
      rw [lastRow_cons, cellAt_nextRow (Nat.succ_pos k) hmatch]
      refine le_trans ?_ (le_max_left _ _)
      rw [consecutiveCell, Nat.succ_sub_one, if_pos hcell]
    have hpredecessor : predecessor tables target (lastRow tables target (next :: query))
        (lastRow tables target (qc :: next :: query)) qc (k + 1) = k := by
      have hnext : cellAt (lastRow tables target (qc :: next :: query)) (k + 1) =
          cellAt (lastRow tables target (next :: query)) k +
            consecutiveScore target qc (k + 1) := by omega
      rw [predecessor, Nat.add_sub_cancel, if_pos (by simp [hcell, hnext])]
    rw [backtrack, hpredecessor, ih rfl hrest (by omega)]

/-! ### Both directions -/

theorem matchesAt_iff (qc : Char) (j : ℕ) :
    MatchesAt tables target qc j ↔
      ∃ tc, target[j]? = some tc ∧ charsEqualIgnoreCase tables qc tc = true := by
  rw [MatchesAt, charAt, List.getD_eq_getElem?_getD]
  by_cases hj : j < target.length
  · simp [hj]
  · simp [hj]

/-- What is reached is an alignment. -/
theorem Reached.isAlignment {query : List Char} {places : List ℕ}
    (h : Reached tables target query places) :
    IsAlignment tables target query.reverse places.reverse := by
  have hdescending : places.IsChain (· > ·) ∧
      List.Forall₂ (MatchesAt tables target) query places := by
    induction h with
    | first hmatch => exact ⟨List.isChain_singleton _, .cons hmatch .nil⟩
    | next hmatch hk _ _ ih => exact ⟨List.isChain_cons_cons.mpr ⟨hk, ih.1⟩, .cons hmatch ih.2⟩
  refine ⟨?_, ?_, ?_⟩
  · cases h <;> simp
  · rw [List.pairwise_reverse]
    exact hdescending.1.pairwise
  · rw [List.forall₂_reverse_iff]
    exact hdescending.2.imp fun qc j => (matchesAt_iff qc j).mp

/-- The last place has room for the others before it. -/
theorem Reached.length_le {query : List Char} {places : List ℕ}
    (h : Reached tables target query places) {j : ℕ} (hj : places.head? = some j) :
    query.length ≤ j + 1 ∧ j < target.length := by
  induction h generalizing j with
  | first hmatch =>
    obtain rfl := Option.some.inj hj
    exact ⟨by simp, hmatch.1⟩
  | next hmatch hk _ _ ih =>
    obtain rfl := Option.some.inj hj
    have := (ih rfl).1
    rw [List.length_cons] at this ⊢
    exact ⟨by simp only [List.length_cons] at this ⊢; omega, hmatch.1⟩

theorem endScore_append {query : List Char} (hquery : query ≠ []) (k : ℕ) (places : List ℕ)
    {q : List Char} {ps : List ℕ} (hlength : q.length = ps.length) :
    endScore tables target (q.reverse ++ query) (ps.reverse ++ k :: places) =
      endScore tables target query (k :: places) + followScore tables target k q ps := by
  induction q generalizing query k places ps with
  | nil =>
    obtain rfl : ps = [] := List.length_eq_zero_iff.mp hlength.symm
    simp [followScore]
  | cons qc q ih =>
    obtain ⟨j, ps, rfl⟩ := List.exists_cons_of_length_eq_add_one hlength.symm
    obtain ⟨next, query, rfl⟩ := List.exists_cons_of_ne_nil hquery
    have hrest := ih (List.cons_ne_nil qc (next :: query)) j (k :: places)
      (Nat.succ.inj hlength)
    rw [List.reverse_cons, List.reverse_cons, List.append_assoc, List.append_assoc]
    rw [List.singleton_append, List.singleton_append, hrest, endScore, followScore]
    omega

/-- What is behind the end. -/
def trailing (target : List Char) (j : ℕ) : ℤ :=
  ((target.length - 1 - j : ℕ) : ℤ) * scoreTrailingGapPenalty

theorem alignmentScore_eq {q : List Char} {ps : List ℕ} (hq : q ≠ [])
    (hlength : q.length = ps.length) :
    alignmentScore tables target q ps =
      endScore tables target q.reverse ps.reverse - trailing target (ps.getLastD 0) := by
  obtain ⟨qc, q, rfl⟩ := List.exists_cons_of_ne_nil hq
  obtain ⟨j, ps, rfl⟩ := List.exists_cons_of_length_eq_add_one hlength.symm
  have happend := @endScore_append tables target [qc]
    (List.cons_ne_nil qc []) j [] q ps (Nat.succ.inj hlength)
  rw [List.reverse_cons, List.reverse_cons, happend, alignmentScore, endScore, trailing]

end

end Shilpo.Search
