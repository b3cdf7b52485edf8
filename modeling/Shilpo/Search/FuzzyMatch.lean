import Shilpo.Search.Alignments

/-!
# Fuzzy matching is optimal

For queries and targets of fewer than a million characters `fuzzy_match` finds something whenever
the query is a subsequence of the target, and what it finds has the greatest score of all
alignments (`fuzzyMatch_optimal`). The reward for a run is given after this, to the one alignment
that has been found; so a run can be passed over for an alignment that has a greater score without
the reward and a smaller one with it (`fuzzyMatch_neverMisses_iff`).
-/

namespace Shilpo.Search

open Theory

section

variable {tables : CharTables} {target : List Char}

/-! ### Subsequences -/

/-- The target has the characters of the query in order, whatever their case. -/
def IsSubsequence (tables : CharTables) (query target : List Char) : Prop :=
  List.SublistForall₂ (fun qc tc => charsEqualIgnoreCase tables qc tc = true) query target

/-- Going through the target and taking what comes first finds all there is. -/
theorem remaining_eq_nil_iff (query target : List Char) :
    remaining tables query target = [] ↔ IsSubsequence tables query target := by
  rw [IsSubsequence]
  induction target generalizing query with
  | nil =>
    cases query with
    | nil => exact iff_of_true rfl .nil
    | cons qc query =>
      refine iff_of_false (List.cons_ne_nil qc query) fun h => ?_
      cases h
  | cons tc target ih =>
    cases query with
    | nil => exact iff_of_true rfl .nil
    | cons qc query =>
      rw [remaining]
      split_ifs with hc
      · rw [ih]
        refine ⟨.cons hc, fun h => ?_⟩
        cases h with
        | cons _ h => exact h
        | cons_right h =>
          obtain ⟨chars, hmatched, hsublist⟩ := List.sublistForall₂_iff.mp h
          cases hmatched with
          | cons _ hrest =>
            refine List.sublistForall₂_iff.mpr ⟨_, hrest, ?_⟩
            exact (List.sublist_cons_self _ _).trans hsublist
      · rw [ih]
        refine ⟨.cons_right, fun h => ?_⟩
        cases h with
        | cons h _ => exact absurd h hc
        | cons_right h => exact h

theorem exists_isAlignment_iff (query : List Char) :
    (∃ positions, IsAlignment tables target query positions) ↔
      query ≠ [] ∧ IsSubsequence tables query target := by
  rw [IsSubsequence, List.sublistForall₂_iff]
  constructor
  · rintro ⟨positions, hne, hincreasing, hmatched⟩
    refine ⟨hne, ?_⟩
    have hlt : ∀ j ∈ positions, j < target.length := by
      intro j hj
      obtain ⟨i, hi, rfl⟩ := List.getElem_of_mem hj
      obtain ⟨tc, htc, -⟩ := hmatched.get (hmatched.length_eq ▸ hi) hi
      exact (List.getElem?_eq_some_iff.mp htc).1
    lift positions to List (Fin target.length) using hlt
    rw [List.pairwise_map] at hincreasing
    refine ⟨_, ?_, List.map_getElem_sublist hincreasing⟩
    rw [List.forall₂_map_right_iff] at hmatched ⊢
    refine hmatched.imp fun qc j h => ?_
    obtain ⟨tc, htc, hc⟩ := h
    rw [List.getElem?_eq_getElem j.isLt] at htc
    exact Option.some.inj htc ▸ hc
  · rintro ⟨hne, chars, hmatched, hsublist⟩
    obtain ⟨places, rfl, hincreasing⟩ := List.sublist_eq_map_getElem hsublist
    refine ⟨places.map Fin.val, hne, ?_, ?_⟩
    · rw [List.pairwise_map]
      exact hincreasing
    · rw [List.forall₂_map_right_iff] at hmatched ⊢
      exact hmatched.imp fun qc j h => ⟨_, List.getElem?_eq_getElem j.isLt, h⟩

/-! ### The best end -/

/-- An alignment of which every beginning scores more than the table begins with. -/
def IsCounted (tables : CharTables) (target query : List Char) (positions : List ℕ) : Prop :=
  Reached tables target query.reverse positions.reverse

variable {positions : List ℕ} {query : List Char}

theorem IsCounted.isAlignment (h : IsCounted tables target query positions) :
    IsAlignment tables target query positions := by
  have := Reached.isAlignment h
  rwa [List.reverse_reverse, List.reverse_reverse] at this

/-- The last place of an alignment, where its score is in the table. -/
theorem IsCounted.exists_last (h : IsCounted tables target query positions) :
    ∃ j, positions.reverse.head? = some j ∧ positions.getLastD 0 = j ∧
      query.length - 1 ≤ j ∧ j < target.length ∧
      alignmentScore tables target query positions =
        endScore tables target query.reverse positions.reverse - trailing target j := by
  have halign := h.isAlignment
  have hlength := halign.matched.length_eq
  have hne : positions ≠ [] := by
    rintro rfl
    exact halign.nonempty (List.length_eq_zero_iff.mp hlength)
  refine ⟨positions.getLast hne, ?_, ?_, ?_⟩
  · rw [List.head?_reverse, List.getLast?_eq_some_getLast hne]
  · rw [List.getLastD_eq_getLast?, List.getLast?_eq_some_getLast hne, Option.getD_some]
  · have hhead : positions.reverse.head? = some (positions.getLast hne) := by
      rw [List.head?_reverse, List.getLast?_eq_some_getLast hne]
    have hle := Reached.length_le h hhead
    rw [List.length_reverse] at hle
    refine ⟨by omega, hle.2, ?_⟩
    rw [alignmentScore_eq halign.nonempty hlength, List.getLastD_eq_getLast?,
      List.getLast?_eq_some_getLast hne, Option.getD_some]

/-- What `bestEnd` looks at. -/
def endTotal (target : List Char) (row : List ℤ) (j : ℕ) : Option ℤ :=
  if cellAt row j ≠ negInfinity then some (cellAt row j - trailing target j) else none

theorem bestEnd_eq (n : ℕ) (row : List ℤ) :
    bestEnd target n row =
      (List.range' (n - 1) (target.length - (n - 1))).foldl (keepGreater (endTotal target row))
        (negInfinity, 0) := rfl

theorem mem_ends {n j : ℕ} :
    j ∈ List.range' (n - 1) (target.length - (n - 1)) ↔ n - 1 ≤ j ∧ j < target.length := by
  rw [List.mem_range'_1]
  omega

/-- No alignment that is counted has a greater score than the one that is found. -/
theorem IsCounted.alignmentScore_le (h : IsCounted tables target query positions) :
    alignmentScore tables target query positions ≤
      (bestEnd target query.length (lastRow tables target query.reverse)).1 := by
  obtain ⟨j, hhead, -, hfrom, hto, hscore⟩ := h.exists_last
  have hcell := endScore_le_cellAt h hhead
  have hne := ((Reached.negInfinity_lt h).trans_le hcell).ne'
  rw [hscore, bestEnd_eq]
  refine le_trans ?_ (score_le_foldl_keepGreater (mem_ends.mpr ⟨hfrom, hto⟩) (if_pos hne))
  omega

/-- Where the alignment with the greatest score ends, and what is found from there. -/
theorem bestEnd_spec (hquery : query ≠ [])
    (hbest : negInfinity < (bestEnd target query.length (lastRow tables target query.reverse)).1) :
    ∃ positions,
      (backtrack tables target query.reverse
        (bestEnd target query.length (lastRow tables target query.reverse)).2).reverse = positions ∧
      IsCounted tables target query positions ∧
      alignmentScore tables target query positions =
        (bestEnd target query.length (lastRow tables target query.reverse)).1 ∧
      positions.getLastD 0 =
        (bestEnd target query.length (lastRow tables target query.reverse)).2 := by
  refine ⟨_, rfl, ?_⟩
  rw [bestEnd_eq] at hbest ⊢
  rcases foldl_keepGreater_cases
    (List.range' (query.length - 1) (target.length - (query.length - 1)))
    (negInfinity, 0) with heq | ⟨-, -, hscore⟩
  · rw [heq] at hbest
    exact absurd hbest (lt_irrefl _)
  · generalize (List.foldl _ _ _ : ℤ × ℕ) = best at hbest hscore ⊢
    rw [endTotal] at hscore
    split_ifs at hscore with hcell
    obtain ⟨hreached, hend⟩ := reached_backtrack (by simpa using hquery) hcell
    have hcounted : IsCounted tables target query
        (backtrack tables target query.reverse best.2).reverse := by
      rwa [IsCounted, List.reverse_reverse]
    obtain ⟨j, hhead, hlast, -, -, htotal⟩ := hcounted.exists_last
    obtain ⟨places, hplaces⟩ := @backtrack_eq_cons tables target query.reverse best.2
    rw [List.reverse_reverse] at hhead htotal
    rw [hplaces] at hhead
    obtain rfl := Option.some.inj hhead
    refine ⟨hcounted, ?_, hlast⟩
    rw [htotal, hend]
    exact Option.some.inj hscore

/-- Of the alignments with the greatest score the ones that end first are found. -/
theorem IsCounted.bestEnd_le (h : IsCounted tables target query positions)
    (hbest : alignmentScore tables target query positions =
      (bestEnd target query.length (lastRow tables target query.reverse)).1)
    (hlt : negInfinity < (bestEnd target query.length (lastRow tables target query.reverse)).1) :
    (bestEnd target query.length (lastRow tables target query.reverse)).2 ≤
        positions.getLastD 0 ∧
      endScore tables target query.reverse positions.reverse =
        cellAt (lastRow tables target query.reverse) (positions.getLastD 0) := by
  obtain ⟨j, hhead, hlast, hfrom, hto, hscore⟩ := h.exists_last
  have hcell := endScore_le_cellAt h hhead
  have hne := ((Reached.negInfinity_lt h).trans_le hcell).ne'
  have htotal : endTotal target (lastRow tables target query.reverse) j = some _ := if_pos hne
  have hmem := (@mem_ends target query.length j).mpr ⟨hfrom, hto⟩
  have hle : _ ≤ (bestEnd target query.length (lastRow tables target query.reverse)).1 :=
    score_le_foldl_keepGreater hmem htotal
  have hcells : cellAt (lastRow tables target query.reverse) j =
      endScore tables target query.reverse positions.reverse := by omega
  rw [hlast]
  refine ⟨?_, hcells.symm⟩
  rw [bestEnd_eq] at hlt hbest ⊢
  refine foldl_keepGreater_le (List.pairwise_lt_range' _) hlt hmem ?_
  rw [htotal, ← hbest, hscore, hcells]

/-! ### Short targets -/

/-- The score of a beginning is not much less than the place where it ends is far. -/
theorem endScore_ge {places : List ℕ} (hplaces : places.IsChain (· > ·))
    (hmatched : List.Forall₂ (MatchesAt tables target) query places) {j : ℕ}
    (hj : places.head? = some j) :
    -5 - 10 * (query.length : ℤ) - j ≤ endScore tables target query places := by
  induction hmatched generalizing j with
  | nil => cases hj
  | @cons qc j' query places hmatch hrest ih =>
    obtain rfl := Option.some.inj hj
    cases hrest with
    | nil =>
      have := @firstScore_ge tables target qc j'
      rw [endScore, List.length_singleton]
      omega
    | @cons next k query places hnext hrest =>
      obtain ⟨hk, hchain⟩ := List.isChain_cons_cons.mp hplaces
      have hbefore := ih hchain rfl
      have hstep := @stepScore_ge tables target qc k j' hk
      rw [endScore, List.length_cons]
      rw [List.length_cons] at hbefore ⊢
      push_cast at hbefore ⊢
      omega

theorem reached_of_matched {places : List ℕ} (hquery : query ≠ [])
    (hplaces : places.IsChain (· > ·))
    (hmatched : List.Forall₂ (MatchesAt tables target) query places)
    (hlength : query.length < 10 ^ 6) (htarget : target.length < 10 ^ 6) :
    Reached tables target query places := by
  induction hmatched with
  | nil => exact absurd rfl hquery
  | @cons qc j query places hmatch hrest ih =>
    cases hrest with
    | nil => exact .first hmatch
    | @cons next k query places hnext hrest =>
      obtain ⟨hk, hchain⟩ := List.isChain_cons_cons.mp hplaces
      have hbefore := ih (List.cons_ne_nil next query) hchain (Nat.lt_of_succ_lt hlength)
      refine .next hmatch hk hbefore ?_
      have hscore := endScore_ge hplaces (.cons hmatch (.cons hnext hrest)) rfl
      have hj := hmatch.1
      rw [negInfinity]
      omega

/-- The alignments of a short query in a short target are all counted. -/
theorem IsAlignment.isCounted (h : IsAlignment tables target query positions)
    (hlength : query.length < 10 ^ 6) (htarget : target.length < 10 ^ 6) :
    IsCounted tables target query positions := by
  refine reached_of_matched (by simpa using h.nonempty) ?_ ?_ (by simpa using hlength) htarget
  · rw [List.isChain_iff_pairwise, List.pairwise_reverse]
    exact h.increasing
  · rw [List.forall₂_reverse_iff]
    exact h.matched.imp fun qc j => (matchesAt_iff qc j).mpr

theorem IsAlignment.negInfinity_lt (h : IsAlignment tables target query positions)
    (hlength : query.length < 10 ^ 6) (htarget : target.length < 10 ^ 6) :
    negInfinity / 2 < alignmentScore tables target query positions := by
  obtain ⟨j, hhead, -, -, hj, hscore⟩ := (h.isCounted hlength htarget).exists_last
  have hge := endScore_ge
    (List.isChain_iff_pairwise.mpr (List.pairwise_reverse.mpr h.increasing))
    (List.forall₂_reverse_iff.mpr (h.matched.imp fun qc j => (matchesAt_iff qc j).mpr)) hhead
  rw [List.length_reverse] at hge
  rw [hscore, trailing, scoreTrailingGapPenalty, negInfinity]
  omega

/-! ### What is returned -/

/-- The rewards that are given to what has been found. -/
def reward (query target : List Char) (positions : List ℕ) : ℤ :=
  (if contiguous query.length positions then scoreFullContiguous else 0) +
    if query.length = target.length then scoreExactMatch else 0

theorem IsSubsequence.length_le (h : IsSubsequence tables query target) :
    query.length ≤ target.length := by
  obtain ⟨chars, hmatched, hsublist⟩ := List.sublistForall₂_iff.mp h
  rw [hmatched.length_eq]
  exact hsublist.length_le

/-- Why something is found, and what it is. -/
theorem fuzzyMatch_eq_some_iff (query target : String) (r : MatchResult) :
    fuzzyMatch tables query target = some r ↔
      (∃ positions, IsAlignment tables target.toList query.toList positions) ∧
        negInfinity / 2 < (bestEnd target.toList query.toList.length
          (lastRow tables target.toList query.toList.reverse)).1 ∧
        r.positions = (backtrack tables target.toList query.toList.reverse
          (bestEnd target.toList query.toList.length
            (lastRow tables target.toList query.toList.reverse)).2).reverse ∧
        r.score = (bestEnd target.toList query.toList.length
            (lastRow tables target.toList query.toList.reverse)).1 +
          reward query.toList target.toList r.positions := by
  rw [exists_isAlignment_iff, ← remaining_eq_nil_iff, fuzzyMatch]
  by_cases hsub : query.toList ≠ [] ∧ remaining tables query.toList target.toList = []
  · have hlength := ((remaining_eq_nil_iff _ _).mp hsub.2).length_le
    have htarget : target.toList ≠ [] := by
      intro h
      rw [h, List.length_nil, Nat.le_zero] at hlength
      exact hsub.1 (List.length_eq_zero_iff.mp hlength)
    rw [if_neg (by simp [hsub.1, htarget]), if_neg hlength.not_gt, if_neg (not_not.mpr hsub.2)]
    dsimp only
    by_cases hsmall : (bestEnd target.toList query.toList.length
        (lastRow tables target.toList query.toList.reverse)).1 ≤ negInfinity / 2
    · rw [if_pos hsmall]
      exact iff_of_false (fun h => by cases h) fun h => absurd hsmall (not_le_of_gt h.2.1)
    · rw [if_neg hsmall]
      constructor
      · rintro ⟨⟩
        exact ⟨hsub, not_le.mp hsmall, rfl, add_assoc _ _ _⟩
      · rintro ⟨-, -, hpositions, hscore⟩
        rw [hpositions, reward, ← add_assoc] at hscore
        rw [Option.some.injEq, MatchResult.mk.injEq]
        exact ⟨hscore.symm, hpositions.symm⟩
  · refine iff_of_false (fun hsome => hsub ?_) fun h => hsub h.1
    split at hsome
    · cases hsome
    · next hempty =>
      split at hsome
      · cases hsome
      · split at hsome
        · cases hsome
        · next hrest => exact ⟨fun h => hempty (by simp [h]), not_not.mp hrest⟩

theorem exists_fuzzyMatch {query target : String}
    (hex : ∃ positions, IsAlignment tables target.toList query.toList positions)
    (hlt : negInfinity / 2 < (bestEnd target.toList query.toList.length
      (lastRow tables target.toList query.toList.reverse)).1) :
    ∃ r, fuzzyMatch tables query target = some r := by
  let positions := (backtrack tables target.toList query.toList.reverse
    (bestEnd target.toList query.toList.length
      (lastRow tables target.toList query.toList.reverse)).2).reverse
  exact ⟨⟨_ + reward query.toList target.toList positions, positions⟩,
    (fuzzyMatch_eq_some_iff query target _).mpr ⟨hex, hlt, rfl, rfl⟩⟩

/-- What is found in a target that something is found in. -/
theorem fuzzyMatch_spec {query target : String} {r : MatchResult}
    (h : fuzzyMatch tables query target = some r) :
    IsCounted tables target.toList query.toList r.positions ∧
      alignmentScore tables target.toList query.toList r.positions =
        (bestEnd target.toList query.toList.length
          (lastRow tables target.toList query.toList.reverse)).1 ∧
      r.positions.getLastD 0 = (bestEnd target.toList query.toList.length
        (lastRow tables target.toList query.toList.reverse)).2 ∧
      r.score = alignmentScore tables target.toList query.toList r.positions +
        reward query.toList target.toList r.positions := by
  obtain ⟨⟨_, halign⟩, hlt, hpositions, hscore⟩ := (fuzzyMatch_eq_some_iff query target r).mp h
  obtain ⟨positions, heq, hcounted, hbest, hlast⟩ :=
    bestEnd_spec halign.nonempty (lt_trans (by decide) hlt)
  obtain rfl := hpositions.trans heq
  exact ⟨hcounted, hbest, hlast, hbest ▸ hscore⟩

/-! ### The greatest score -/

/-- What is found is an alignment with the greatest score, and it is found if there is one. -/
structure IsOptimal (tables : CharTables) (query target : String) : Prop where
  found_iff : (fuzzyMatch tables query target).isSome ↔
    query ≠ "" ∧ IsSubsequence tables query.toList target.toList
  aligned : ∀ r, fuzzyMatch tables query target = some r →
    IsAlignment tables target.toList query.toList r.positions
  attained : ∀ r, fuzzyMatch tables query target = some r →
    alignmentScore tables target.toList query.toList r.positions =
      (bestEnd target.toList query.toList.length
        (lastRow tables target.toList query.toList.reverse)).1
  greatest : ∀ r, fuzzyMatch tables query target = some r →
    ∀ positions, IsAlignment tables target.toList query.toList positions →
      alignmentScore tables target.toList query.toList positions ≤
        alignmentScore tables target.toList query.toList r.positions
  rewarded : ∀ r, fuzzyMatch tables query target = some r →
    r.score = alignmentScore tables target.toList query.toList r.positions +
      reward query.toList target.toList r.positions

theorem fuzzyMatch_optimal (tables : CharTables) (query target : String)
    (hquery : query.toList.length < 10 ^ 6) (htarget : target.toList.length < 10 ^ 6) :
    IsOptimal tables query target := by
  refine ⟨?_, ?_, ?_, ?_, ?_⟩
  · have hne : query.toList ≠ [] ↔ query ≠ "" := by simp
    rw [← hne, ← exists_isAlignment_iff, Option.isSome_iff_exists]
    constructor
    · rintro ⟨r, hr⟩
      exact ⟨r.positions, (fuzzyMatch_spec hr).1.isAlignment⟩
    · rintro ⟨positions, halign⟩
      have hle := (halign.isCounted hquery htarget).alignmentScore_le
      exact exists_fuzzyMatch ⟨positions, halign⟩
        ((halign.negInfinity_lt hquery htarget).trans_le hle)
  · exact fun r hr => (fuzzyMatch_spec hr).1.isAlignment
  · exact fun r hr => (fuzzyMatch_spec hr).2.1
  · intro r hr positions halign
    rw [(fuzzyMatch_spec hr).2.1]
    exact (halign.isCounted hquery htarget).alignmentScore_le
  · exact fun r hr => (fuzzyMatch_spec hr).2.2.2

/-- What Unicode says of the characters of ASCII. -/
def ascii : CharTables := ⟨fun c => [c.toLower], Char.isLower, Char.isUpper⟩

theorem fuzzyMatch_optimal_firefox : IsOptimal ascii "fx" "Firefox" :=
  fuzzyMatch_optimal ascii "fx" "Firefox" (by decide) (by decide)

/-! ### Runs -/

/-- The score of an alignment with its rewards. -/
def rewardedScore (tables : CharTables) (query target : List Char) (positions : List ℕ) : ℤ :=
  alignmentScore tables target query positions + reward query target positions

/-- What is found has the greatest score of all alignments, rewards included. -/
def NeverMisses (tables : CharTables) (query target : String) : Prop :=
  match fuzzyMatch tables query target with
  | none => ¬∃ positions, IsAlignment tables target.toList query.toList positions
  | some r =>
    IsGreatest {s | ∃ positions, IsAlignment tables target.toList query.toList positions ∧
      rewardedScore tables query.toList target.toList positions = s} r.score

/-- An alignment has the greatest score, both with and without the rewards, and if it is a run no
other with the greatest score ends before it. -/
def RewardsBest (tables : CharTables) (query target : List Char) : Prop :=
  ∃ best, IsCounted tables target query best ∧
    negInfinity / 2 < alignmentScore tables target query best ∧
    (∀ positions, IsCounted tables target query positions →
      alignmentScore tables target query positions ≤ alignmentScore tables target query best) ∧
    (∀ positions, IsAlignment tables target query positions →
      rewardedScore tables query target positions ≤ rewardedScore tables query target best) ∧
    (contiguous query.length best → ∀ positions, IsCounted tables target query positions →
      alignmentScore tables target query positions = alignmentScore tables target query best →
      best.getLastD 0 ≤ positions.getLastD 0)

/-- Places that increase are as far from one another as they are many. -/
theorem add_length_le_getLastD {j : ℕ} (h : (j :: positions).Pairwise (· < ·)) :
    j + positions.length ≤ (j :: positions).getLastD 0 := by
  induction positions generalizing j with
  | nil => exact le_rfl
  | cons k positions ih =>
    obtain ⟨hj, hrest⟩ := List.pairwise_cons.mp h
    have hlast := ih hrest
    have hk := hj k List.mem_cons_self
    rw [List.length_cons]
    rw [List.getLastD_cons] at hlast ⊢
    rw [List.getLastD_cons]
    omega

theorem isChain_of_getLastD_le (h : positions.Pairwise (· < ·))
    (hlast : positions.getLastD 0 + 1 ≤ positions.headD 0 + positions.length) :
    positions.IsChain fun j k => k = j + 1 := by
  induction positions with
  | nil => exact .nil
  | cons j positions ih =>
    cases positions with
    | nil => exact List.isChain_singleton _
    | cons k positions =>
      obtain ⟨hj, hrest⟩ := List.pairwise_cons.mp h
      have hk := hj k List.mem_cons_self
      have hfar := add_length_le_getLastD hrest
      rw [List.getLastD_cons] at hfar
      rw [List.getLastD_cons, List.getLastD_cons, List.headD_cons, List.length_cons,
        List.length_cons] at hlast
      refine List.isChain_cons_cons.mpr ⟨by omega, ih hrest ?_⟩
      rw [List.getLastD_cons, List.headD_cons, List.length_cons]
      omega

/-- A run, read backwards. -/
theorem IsAlignment.isChain_reverse {query target : List Char}
    (h : IsAlignment tables target query positions)
    (hrun : contiguous query.length positions = true) :
    positions.reverse.IsChain fun j k => j = k + 1 := by
  rw [List.isChain_reverse]
  refine isChain_of_getLastD_le h.increasing ?_
  rw [contiguous, Bool.and_eq_true, decide_eq_true_eq, decide_eq_true_eq] at hrun
  omega

theorem fuzzyMatch_neverMisses_iff (tables : CharTables) (query target : String) :
    NeverMisses tables query target ↔
      ((∃ positions, IsAlignment tables target.toList query.toList positions) →
        RewardsBest tables query.toList target.toList) := by
  rw [NeverMisses]
  cases hfound : fuzzyMatch tables query target with
  | none =>
    refine ⟨fun h hex => absurd hex h, fun h hex => ?_⟩
    obtain ⟨best, hcounted, hlt, -⟩ := h hex
    obtain ⟨r, hr⟩ := exists_fuzzyMatch hex (hlt.trans_le hcounted.alignmentScore_le)
    rw [hfound] at hr
    cases hr
  | some r =>
    obtain ⟨hcounted, hbest, hlast, hscore⟩ := fuzzyMatch_spec hfound
    obtain ⟨-, hlt, hpositions, -⟩ := (fuzzyMatch_eq_some_iff query target r).mp hfound
    constructor
    · rintro hgreatest -
      refine ⟨r.positions, hcounted, hbest ▸ hlt, fun positions h => ?_, fun positions h => ?_,
        fun _ positions h heq => ?_⟩
      · rw [hbest]
        exact h.alignmentScore_le
      · rw [rewardedScore.eq_def _ _ _ r.positions, ← hscore]
        exact hgreatest.2 ⟨positions, h, rfl⟩
      · rw [hlast]
        exact (h.bestEnd_le (heq.trans hbest) (lt_trans (by decide) hlt)).1
    · intro h
      obtain ⟨best, hcounted', -, hmax, hrewarded, hfirst⟩ := h ⟨_, hcounted.isAlignment⟩
      refine ⟨⟨r.positions, hcounted.isAlignment, hscore.symm⟩, ?_⟩
      rintro s ⟨positions, halign, rfl⟩
      refine (hrewarded positions halign).trans ?_
      have hequal : alignmentScore tables target.toList query.toList best =
          alignmentScore tables target.toList query.toList r.positions :=
        le_antisymm (hbest ▸ hcounted'.alignmentScore_le) (hmax _ hcounted)
      rw [rewardedScore, hscore, hequal]
      by_cases hrun : contiguous query.toList.length best
      · -- the run ends where the search goes back from, and so is what it finds
        have hends := hcounted'.bestEnd_le (hequal.trans hbest) (lt_trans (by decide) hlt)
        have hfirst := hfirst hrun r.positions hcounted hequal.symm
        have hlast' : best.getLastD 0 = (bestEnd target.toList query.toList.length
            (lastRow tables target.toList query.toList.reverse)).2 :=
          le_antisymm (hlast ▸ hfirst) hends.1
        obtain ⟨j, hhead, hj, -⟩ := hcounted'.exists_last
        have hback := backtrack_of_run hcounted' hhead
          (hcounted'.isAlignment.isChain_reverse hrun) (hj ▸ hends.2)
        rw [hpositions, ← hlast', hj, hback, List.reverse_reverse]
      · have hreward : 0 ≤ if contiguous query.toList.length r.positions then
            scoreFullContiguous else 0 := by split_ifs <;> decide
        rw [reward, reward, if_neg hrun]
        omega

/-- A run after a word boundary is passed over for a word boundary before it. -/
theorem not_neverMisses_ab : ¬NeverMisses ascii "ab" "a-bxab" := by
  rw [NeverMisses]
  have hfound : fuzzyMatch ascii "ab" "a-bxab" = some ⟨106, [0, 2]⟩ := by decide +kernel
  rw [hfound]
  intro h
  have hrun : IsAlignment ascii "a-bxab".toList "ab".toList [4, 5] :=
    ⟨by decide, by decide, .cons ⟨'a', by decide, by decide⟩
      (.cons ⟨'b', by decide, by decide⟩ .nil)⟩
  have hle := h.2 ⟨[4, 5], hrun, rfl⟩
  exact absurd hle (by decide +kernel)

end

end Shilpo.Search
