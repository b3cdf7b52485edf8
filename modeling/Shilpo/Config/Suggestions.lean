import Shilpo.Config.UnknownKeys
import Shilpo.Theory.EditDistance

/-!
# Suggestions

`levenshtein_distance` keeps one row of a table of distances between beginnings of the two
words; `best_suggestion` keeps the nearest of the candidates so far. A beginning that is read
backwards is a list whose head is the last character, which is how the distance of
`editDistance` goes down the two lists.
-/

namespace Shilpo.Config

/-! ### The table of distances -/

/-- The distances between a word and the beginnings of another from `q` on, backwards. -/
def distancesFrom (p q : List Char) : List Char → List ℕ
  | [] => [editDistance p q]
  | cb :: b => editDistance p q :: distancesFrom p (cb :: q) b

theorem distancesFrom_eq_cons (p q b : List Char) :
    distancesFrom p q b = editDistance p q :: (distancesFrom p q b).tail := by
  cases b <;> rfl

/-- The first row holds the lengths. -/
theorem distancesFrom_nil (q b : List Char) :
    distancesFrom [] q b = List.range' q.length (b.length + 1) := by
  induction b generalizing q with
  | nil => simp [distancesFrom]
  | cons cb b ih =>
    rw [distancesFrom, ih, List.length_cons, List.length_cons, editDistance_nil_left,
      ← List.range'_succ]

/-- A row is made from the row above. -/
theorem distanceRow_distancesFrom (ca : Char) (p q b : List Char) :
    distanceRow ca (editDistance (ca :: p) q) (distancesFrom p q b) b =
      (distancesFrom (ca :: p) q b).tail := by
  induction b generalizing q with
  | nil => rfl
  | cons cb b ih =>
    have hcell : (if ca = cb then editDistance p q
        else 1 + min (min (editDistance p q) (editDistance (ca :: p) q))
          (editDistance p (cb :: q))) = editDistance (ca :: p) (cb :: q) := by
      rw [editDistance]
    have hrest := ih (cb :: q)
    rw [distancesFrom_eq_cons p (cb :: q) b] at hrest
    rw [distancesFrom, distancesFrom_eq_cons p (cb :: q) b, distancesFrom, List.tail_cons,
      distancesFrom_eq_cons (ca :: p) (cb :: q) b, distanceRow, hcell, hrest]

/-- The row after all characters of `a`. -/
theorem foldl_distancesFrom (a p b : List Char) :
    (a.zipIdx p.length).foldl
        (fun previous (ca, i) => (i + 1) :: distanceRow ca (i + 1) previous b)
        (distancesFrom p [] b) =
      distancesFrom (a.reverse ++ p) [] b := by
  induction a generalizing p with
  | nil => rfl
  | cons ca a ih =>
    have hleft : p.length + 1 = editDistance (ca :: p) [] := by simp
    have hrow : (p.length + 1) :: distanceRow ca (p.length + 1) (distancesFrom p [] b) b =
        distancesFrom (ca :: p) [] b := by
      rw [distancesFrom_eq_cons (ca :: p) [] b, hleft, distanceRow_distancesFrom]
    rw [List.zipIdx_cons, List.foldl_cons, List.reverse_cons, List.append_assoc]
    dsimp only
    rw [hrow]
    exact ih (ca :: p)

theorem getLastD_distancesFrom (p q b : List Char) (d : ℕ) :
    (distancesFrom p q b).getLastD d = editDistance p (b.reverse ++ q) := by
  induction b generalizing q d with
  | nil => rfl
  | cons cb b ih =>
    rw [distancesFrom, List.getLastD_cons, ih, List.reverse_cons, List.append_assoc]
    rfl

/-- The table ends with the least number of edits. -/
theorem levenshteinDistance_eq (a b : String) :
    levenshteinDistance a b = editDistance a.toList b.toList := by
  have hfirst : List.range (b.toList.length + 1) = distancesFrom [] [] b.toList := by
    rw [distancesFrom_nil, List.range_eq_range']
    rfl
  have hrows := foldl_distancesFrom a.toList [] b.toList
  rw [List.length_nil] at hrows
  rw [levenshteinDistance, hfirst]
  dsimp only
  rw [hrows, getLastD_distancesFrom, List.append_nil, List.append_nil, editDistance_reverse]

/-! ### The nearest candidate -/

/-- The candidate is the only one at the least distance. -/
def UniqueNearest (unknown : String) (candidates : List String) (c : String) : Prop :=
  c ∈ candidates ∧ ∀ d ∈ candidates, d ≠ c →
    levenshteinDistance unknown c < levenshteinDistance unknown d

/-- What the loop has found in the candidates that it has seen. -/
structure Nearest.Found (unknown : String) (seen : List String) (best : Nearest) : Prop where
  mem : best.candidate ∈ seen
  distance : best.distance = levenshteinDistance unknown best.candidate
  least : ∀ d ∈ seen, best.distance ≤ levenshteinDistance unknown d
  tied : best.tied = true ↔
    ∃ d ∈ seen, d ≠ best.candidate ∧ levenshteinDistance unknown d = best.distance

variable {best : Nearest} {unknown : String}

/-- One more candidate, which has not been seen. -/
theorem Nearest.Found.next {seen : List String} (h : best.Found unknown seen) {c : String}
    (hc : c ∉ seen) :
    ∃ best', Nearest.next unknown (some best) c = some best' ∧
      best'.Found unknown (seen ++ [c]) := by
  have hne : c ≠ best.candidate := fun heq => hc (heq ▸ h.mem)
  dsimp only [Nearest.next]
  by_cases hlt : levenshteinDistance unknown c < best.distance
  · rw [if_pos hlt]
    refine ⟨_, rfl, by simp, rfl, ?_, ?_⟩
    · intro d hd
      rcases List.mem_append.mp hd with hd | hd
      · exact hlt.le.trans (h.least d hd)
      · rw [List.mem_singleton.mp hd]
    · simp only [Bool.false_eq_true, List.mem_append, List.mem_singleton, false_iff]
      rintro ⟨d, hd | rfl, hdc, hdist⟩
      · have := h.least d hd
        omega
      · exact hdc rfl
  · rw [if_neg hlt]
    by_cases heq : levenshteinDistance unknown c = best.distance
    · rw [if_pos heq]
      refine ⟨_, rfl, List.mem_append_left _ h.mem, h.distance, ?_, ?_⟩
      · intro d hd
        rcases List.mem_append.mp hd with hd | hd
        · exact h.least d hd
        · rw [List.mem_singleton.mp hd]
          exact heq.ge
      · exact iff_of_true rfl ⟨c, by simp, hne, heq⟩
    · rw [if_neg heq]
      refine ⟨_, rfl, List.mem_append_left _ h.mem, h.distance, ?_, h.tied.trans ?_⟩
      · intro d hd
        rcases List.mem_append.mp hd with hd | hd
        · exact h.least d hd
        · rw [List.mem_singleton.mp hd]
          exact Nat.le_of_not_lt hlt
      · constructor
        · rintro ⟨d, hd, hdc⟩
          exact ⟨d, List.mem_append_left _ hd, hdc⟩
        · rintro ⟨d, hd, hdc, hdist⟩
          rcases List.mem_append.mp hd with hd | hd
          · exact ⟨d, hd, hdc, hdist⟩
          · rw [List.mem_singleton.mp hd] at hdist
            exact absurd hdist heq

theorem foldl_next_found (candidates seen : List String) (h : best.Found unknown seen)
    (hnodup : (seen ++ candidates).Nodup) :
    ∃ best', candidates.foldl (Nearest.next unknown) (some best) = some best' ∧
      best'.Found unknown (seen ++ candidates) := by
  induction candidates generalizing seen best with
  | nil => exact ⟨best, rfl, by simpa using h⟩
  | cons c candidates ih =>
    rw [List.append_cons] at hnodup ⊢
    have hc : c ∉ seen := by
      have hsub := hnodup.of_append_left
      rw [List.nodup_append] at hsub
      exact fun hmem => hsub.2.2 c hmem c (List.mem_singleton_self c) rfl
    obtain ⟨best', hnext, hfound⟩ := h.next hc
    rw [List.foldl_cons, hnext]
    exact ih _ hfound hnodup

/-- After all candidates, if there is one. -/
theorem foldl_next (unknown c : String) (candidates : List String)
    (hnodup : (c :: candidates).Nodup) :
    ∃ best, (c :: candidates).foldl (Nearest.next unknown) none = some best ∧
      best.Found unknown (c :: candidates) :=
  foldl_next_found candidates [c]
    ⟨by simp, rfl, by simp, by simp⟩ hnodup

/-- What has been found without a tie is the only nearest candidate. -/
theorem Nearest.Found.unique_iff {seen : List String} (h : best.Found unknown seen) (c : String) :
    UniqueNearest unknown seen c ↔ best.tied = false ∧ best.candidate = c := by
  constructor
  · rintro ⟨hmem, hleast⟩
    have hc : best.candidate = c := by
      by_contra hne
      have hlt := hleast _ h.mem hne
      have hle := h.least c hmem
      rw [h.distance] at hle
      omega
    refine ⟨?_, hc⟩
    rw [← Bool.not_eq_true, h.tied]
    rintro ⟨d, hd, hdc, hdist⟩
    have hlt := hleast d hd (hc ▸ hdc)
    rw [hdist, h.distance, hc] at hlt
    exact lt_irrefl _ hlt
  · rintro ⟨htied, rfl⟩
    refine ⟨h.mem, fun d hd hne => ?_⟩
    rw [← h.distance]
    refine lt_of_le_of_ne (h.least d hd) fun heq => ?_
    rw [← Bool.not_eq_true, h.tied] at htied
    exact htied ⟨d, hd, hne, heq.symm⟩

/-- What is suggested is the only nearest candidate, and it is near. -/
theorem bestSuggestion_eq_some_iff (unknown : String) {candidates : List String}
    (hnodup : candidates.Nodup) (c : String) :
    bestSuggestion unknown candidates = some c ↔
      UniqueNearest unknown candidates c ∧ levenshteinDistance unknown c ≤ 3 := by
  cases candidates with
  | nil => exact iff_of_false (by simp [bestSuggestion]) fun h => absurd h.1.1 List.not_mem_nil
  | cons d candidates =>
    obtain ⟨best, hbest, hfound⟩ := foldl_next unknown d candidates hnodup
    rw [bestSuggestion, hbest, hfound.unique_iff c]
    dsimp only
    constructor
    · intro h
      split_ifs at h with hnear
      simp only [Bool.and_eq_true, decide_eq_true_eq, Bool.not_eq_true'] at hnear
      obtain rfl := Option.some.inj h
      exact ⟨⟨hnear.2, rfl⟩, hfound.distance ▸ hnear.1⟩
    · rintro ⟨⟨htied, rfl⟩, hnear⟩
      rw [if_pos (by simp [htied, hfound.distance, hnear])]

/-- The distance is the least number of edits between two words, and so a metric; and what is
suggested is the only candidate at the least distance, which is at most three, whatever the
order of the candidates. -/
theorem suggestion_nearest :
    (∀ a b, IsLeast {n | Edits n a.toList b.toList} (levenshteinDistance a b)) ∧
    (∀ a b, levenshteinDistance a b = 0 ↔ a = b) ∧
    (∀ a b, levenshteinDistance a b = levenshteinDistance b a) ∧
    (∀ a b c, levenshteinDistance a c ≤ levenshteinDistance a b + levenshteinDistance b c) ∧
    ∀ unknown candidates, candidates.Nodup → ∀ c,
      bestSuggestion unknown candidates = some c ↔
        UniqueNearest unknown candidates c ∧ levenshteinDistance unknown c ≤ 3 := by
  simp only [levenshteinDistance_eq]
  refine ⟨fun a b => editDistance_isLeast _ _, fun a b => ?_,
    fun a b => editDistance_comm _ _, fun a b c => editDistance_triangle _ _ _, ?_⟩
  · rw [editDistance_eq_zero_iff, String.toList_inj]
  · intro unknown candidates hnodup c
    rw [bestSuggestion_eq_some_iff unknown hnodup c, levenshteinDistance_eq]

end Shilpo.Config
