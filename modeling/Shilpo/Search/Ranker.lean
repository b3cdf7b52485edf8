import Shilpo.Config.Validation
import Shilpo.Search.FuzzyMatch
import Shilpo.Search.Learning
import Shilpo.Search.Sink
import Shilpo.Theory.Sorting

/-!
# Ranking

`rank` in `desktop/shilpo/src/shell/overview_search/ranker.rs` gives candidates scores, leaves out
those that have none, and keeps the first of the others in the order of their scores. The order
does not depend on the order in which they came, as long as no two have one identity. A candidate
is left out unless one of its texts has a positive score, so that it can be left out although the
query is in all of them (`rank_selects_iff`).

Weights are rationals, and sums of scores are not near to what 64 bits hold.
-/

namespace Shilpo.Search

open Theory

/-! ### Scores -/

/-- The weights of the texts of a candidate, and the prior scores of the categories. -/
structure RankerConfig where
  topK : ℕ
  titleWeight : ℚ
  aliasWeight : ℚ
  keywordWeight : ℚ
  subtitleWeight : ℚ
  windowPrior : ℤ
  appPrior : ℤ
  actionPrior : ℤ
  keybindingPrior : ℤ
  clipboardPrior : ℤ
  pathUriPrior : ℤ
  calcPrior : ℤ
  commandPrior : ℤ
  webPrior : ℤ
  customPrior : ℤ

def RankerConfig.default : RankerConfig where
  topK := 8
  titleWeight := 1
  aliasWeight := 85 / 100
  keywordWeight := 6 / 10
  subtitleWeight := 4 / 10
  windowPrior := 250
  appPrior := 200
  actionPrior := 150
  keybindingPrior := 120
  clipboardPrior := 100
  pathUriPrior := 100
  calcPrior := 500
  commandPrior := -100
  webPrior := -200
  customPrior := 100

def RankerConfig.prior (config : RankerConfig) : ResultCategory → ℤ
  | .window => config.windowPrior
  | .application => config.appPrior
  | .action => config.actionPrior
  | .keybinding => config.keybindingPrior
  | .clipboard => config.clipboardPrior
  | .filePath | .uri => config.pathUriPrior
  | .calculator => config.calcPrior
  | .command => config.commandPrior
  | .webSearch => config.webPrior
  | .custom => config.customPrior

/-- A rounded score, as far as 64 bits go. -/
def roundToI64 (x : ℚ) : ℤ := max (-2 ^ 63) (min (2 ^ 63 - 1) (roundAway x))

section

variable (tables : CharTables) (boost : String → ℤ) (config : RankerConfig) (query : String)

/-- The better of a score and that of one more text. -/
def betterScore (weight best : ℚ) (text : String) : ℚ :=
  match fuzzyMatch tables query text with
  | some res => if best < res.score * weight then res.score * weight else best
  | none => best

def bestFieldScore (candidate : SearchCandidate) : ℚ :=
  let best := betterScore tables query config.titleWeight 0 candidate.title
  let best := candidate.aliases.foldl (betterScore tables query config.aliasWeight) best
  let best := candidate.keywords.foldl (betterScore tables query config.keywordWeight) best
  candidate.subtitle.toList.foldl (betterScore tables query config.subtitleWeight) best

/-- The score of a candidate and where its title has the query, or nothing if it is left out. -/
def scoreCandidate (candidate : SearchCandidate) : Option (ℤ × List ℕ) :=
  let learned := boost candidate.canonicalId
  if query = "" then
    match candidate.category with
    | .command | .webSearch => none
    | category => some (config.prior category + learned, [])
  else
    match candidate.category with
    | .calculator => some (2000 + config.calcPrior + learned, [])
    | .filePath | .uri => some (1500 + config.pathUriPrior + learned, [])
    | .command => some (config.commandPrior + learned, [])
    | .webSearch => some (config.webPrior + learned, [])
    | category =>
      let best := bestFieldScore tables config query candidate
      if best ≤ 0 then none
      else
        some (roundToI64 best + config.prior category + learned,
          ((fuzzyMatch tables query candidate.title).map (·.positions)).getD [])

/-! ### Ranking -/

/-- The candidates that are kept, with their scores. -/
def scored (candidates : List SearchCandidate) : List (SearchCandidate × ℤ) :=
  candidates.filterMap fun candidate =>
    (scoreCandidate tables boost config query candidate).map fun (score, matchPositions) =>
      ({ candidate with matchPositions }, score)

/-- A greater score goes first, and of equal ones the lesser identity. -/
def rankKey (kept : SearchCandidate × ℤ) : ℤᵒᵈ ×ₗ String :=
  toLex (OrderDual.toDual kept.2, kept.1.canonicalId)

/-- A query without the white space around it. -/
def trimmed (query : String) : String := String.ofList (Config.trim query.toList)

def rank (candidates : List SearchCandidate) : List SearchCandidate :=
  ((sortByKey rankKey (scored tables boost config (trimmed query) candidates)).take
    config.topK).map (·.1)

end

/-! ### What is kept -/

section

variable {tables : CharTables} {boost : String → ℤ} {config : RankerConfig} {query : String}

/-- The texts that a query is looked for in. -/
def SearchCandidate.texts (candidate : SearchCandidate) : List String :=
  candidate.title :: (candidate.aliases ++ candidate.keywords ++ candidate.subtitle.toList)

/-- No category of its own way to have a score. -/
def ResultCategory.IsOrdinary (category : ResultCategory) : Prop :=
  category ∉ [.calculator, .filePath, .uri, .command, .webSearch]

structure RankerConfig.WeightsPositive (config : RankerConfig) : Prop where
  title_pos : 0 < config.titleWeight
  alias_pos : 0 < config.aliasWeight
  keyword_pos : 0 < config.keywordWeight
  subtitle_pos : 0 < config.subtitleWeight

/-- The query is in the text, and better than nothing. -/
def ScoresIn (tables : CharTables) (query text : String) : Prop :=
  ∃ r, fuzzyMatch tables query text = some r ∧ 0 < r.score

theorem betterScore_pos_iff {weight : ℚ} (hweight : 0 < weight) (best : ℚ) (text : String) :
    0 < betterScore tables query weight best text ↔ 0 < best ∨ ScoresIn tables query text := by
  rw [betterScore, ScoresIn]
  cases fuzzyMatch tables query text with
  | none => simp
  | some res =>
    have hres : 0 < (res.score : ℚ) * weight ↔ 0 < res.score := by
      rw [mul_pos_iff_of_pos_right hweight, Int.cast_pos]
    simp only [Option.some.injEq, exists_eq_left']
    split_ifs with hlt
    · rw [hres]
      refine ⟨.inr, fun h => h.elim (fun hbest => ?_) id⟩
      exact hres.mp (hbest.trans hlt)
    · refine ⟨.inl, fun h => h.elim id fun hscore => ?_⟩
      exact (hres.mpr hscore).trans_le (not_lt.mp hlt)

theorem foldl_betterScore_pos_iff {weight : ℚ} (hweight : 0 < weight) (texts : List String)
    (best : ℚ) :
    0 < texts.foldl (betterScore tables query weight) best ↔
      0 < best ∨ ∃ text ∈ texts, ScoresIn tables query text := by
  induction texts generalizing best with
  | nil => simp
  | cons text texts ih =>
    rw [List.foldl_cons, ih, betterScore_pos_iff hweight, List.exists_mem_cons_iff, or_assoc]

theorem bestFieldScore_pos_iff (hconfig : config.WeightsPositive) (candidate : SearchCandidate) :
    0 < bestFieldScore tables config query candidate ↔
      ∃ text ∈ candidate.texts, ScoresIn tables query text := by
  rw [bestFieldScore, foldl_betterScore_pos_iff hconfig.subtitle_pos,
    foldl_betterScore_pos_iff hconfig.keyword_pos, foldl_betterScore_pos_iff hconfig.alias_pos,
    betterScore_pos_iff hconfig.title_pos, SearchCandidate.texts, List.exists_mem_cons_iff]
  simp only [lt_self_iff_false, false_or, List.mem_append, or_and_right, exists_or, or_assoc]

theorem isSome_scoreCandidate_iff {candidate : SearchCandidate} (hquery : query ≠ "")
    (hordinary : candidate.category.IsOrdinary) :
    (scoreCandidate tables boost config query candidate).isSome ↔
      0 < bestFieldScore tables config query candidate := by
  rw [ResultCategory.IsOrdinary] at hordinary
  rw [scoreCandidate, if_neg hquery, ← not_le]
  cases hcategory : candidate.category <;> rw [hcategory] at hordinary <;>
    simp_all

/-! ### What is returned -/

theorem map_scored_sublist (candidates : List SearchCandidate) :
    ((scored tables boost config query candidates).map (·.1.canonicalId)).Sublist
      (candidates.map (·.canonicalId)) := by
  rw [scored, List.map_filterMap]
  induction candidates with
  | nil => exact .slnil
  | cons candidate candidates ih =>
    cases hscore : scoreCandidate tables boost config query candidate with
    | none =>
      rw [List.filterMap_cons_none (by rw [hscore]; rfl)]
      exact ih.cons _
    | some kept =>
      rw [List.filterMap_cons_some (by rw [hscore]; rfl)]
      exact ih.cons_cons _

/-- The first of what is kept, best first; whatever the order in which it came. -/
structure SelectsByScore (tables : CharTables) (boost : String → ℤ) (config : RankerConfig)
    (query : String) (candidates : List SearchCandidate) : Prop where
  ordered : ∃ kept : List (SearchCandidate × ℤ),
    kept.Perm (scored tables boost config (trimmed query) candidates) ∧
    kept.Pairwise (fun a b =>
      b.2 < a.2 ∨ b.2 = a.2 ∧ a.1.canonicalId < b.1.canonicalId) ∧
    rank tables boost config query candidates = (kept.take config.topK).map (·.1)
  permuted : ∀ candidates', candidates'.Perm candidates →
    rank tables boost config query candidates' = rank tables boost config query candidates
  kept_iff : trimmed query ≠ "" → ∀ candidate ∈ candidates, candidate.category.IsOrdinary →
    ((scoreCandidate tables boost config (trimmed query) candidate).isSome ↔
      ∃ text ∈ candidate.texts, (fuzzyMatch tables (trimmed query) text).isSome)

/-- A query that is in one of the texts is so with a positive score in one of them. -/
def MatchesScore (tables : CharTables) (query : String) (candidates : List SearchCandidate) :
    Prop :=
  query ≠ "" → ∀ candidate ∈ candidates, candidate.category.IsOrdinary →
    (∃ text ∈ candidate.texts, (fuzzyMatch tables query text).isSome) →
    ∃ text ∈ candidate.texts, ScoresIn tables query text

theorem rank_selects_iff (tables : CharTables) (boost : String → ℤ) (config : RankerConfig)
    (query : String) (candidates : List SearchCandidate) (hconfig : config.WeightsPositive)
    (hdistinct : (candidates.map (·.canonicalId)).Nodup) :
    SelectsByScore tables boost config query candidates ↔
      MatchesScore tables (trimmed query) candidates := by
  have hkept {candidate : SearchCandidate} (hquery : trimmed query ≠ "")
      (hordinary : candidate.category.IsOrdinary) :
      (scoreCandidate tables boost config (trimmed query) candidate).isSome ↔
        ∃ text ∈ candidate.texts, ScoresIn tables (trimmed query) text :=
    (isSome_scoreCandidate_iff hquery hordinary).trans (bestFieldScore_pos_iff hconfig candidate)
  constructor
  · intro h hquery candidate hmem hordinary hmatch
    exact (hkept hquery hordinary).mp ((h.kept_iff hquery candidate hmem hordinary).mpr hmatch)
  · intro h
    have hnodup := hdistinct.sublist
      (@map_scored_sublist tables boost config (trimmed query) candidates)
    have hkeys : ∀ a ∈ scored tables boost config (trimmed query) candidates,
        ∀ b ∈ scored tables boost config (trimmed query) candidates,
        rankKey a = rankKey b → a = b := fun a ha b hb heq =>
      List.inj_on_of_nodup_map hnodup ha hb (congrArg (fun key => (ofLex key).2) heq)
    refine ⟨⟨_, perm_sortByKey _, ?_, rfl⟩, fun candidates' hperm => ?_,
      fun hquery candidate hmem hordinary => ⟨fun hsome => ?_, fun hmatch => ?_⟩⟩
    · have hsorted := @pairwise_sortByKey _ _ _ rankKey
        (scored tables boost config (trimmed query) candidates)
      have hids : (sortByKey rankKey (scored tables boost config (trimmed query)
          candidates)).Pairwise fun a b => a.1.canonicalId ≠ b.1.canonicalId :=
        List.pairwise_map.mp (((perm_sortByKey _).map _).nodup_iff.mpr hnodup)
      refine (hsorted.and hids).imp fun {a b} hab => ?_
      obtain ⟨hle, hne⟩ := hab
      rcases Prod.Lex.toLex_le_toLex.mp hle with hlt | ⟨heq, hid⟩
      · exact .inl (OrderDual.toDual_lt_toDual.mp hlt)
      · exact .inr ⟨(OrderDual.toDual_inj.mp heq).symm, lt_of_le_of_ne hid hne⟩
    · have hsame : sortByKey rankKey (scored tables boost config (trimmed query) candidates) =
          sortByKey rankKey (scored tables boost config (trimmed query) candidates') :=
        sortByKey_eq_of_perm (hperm.symm.filterMap _) hkeys
      rw [rank, rank, hsame]
    · obtain ⟨text, htext, r, hr, -⟩ := (hkept hquery hordinary).mp hsome
      exact ⟨text, htext, hr ▸ rfl⟩
    · exact (hkept hquery hordinary).mpr (h hquery candidate hmem hordinary hmatch)

/-- An action with the title `Bluetooth`. -/
def bluetooth : SearchCandidate where
  providerId := "actions"
  canonicalId := "action:bluetooth"
  generation := 1
  title := "Bluetooth"
  subtitle := none
  aliases := []
  keywords := []
  category := .action
  matchPositions := []
  activation := "bluetooth"

theorem weightsPositive_default : RankerConfig.default.WeightsPositive := by
  constructor <;> norm_num [RankerConfig.default]

theorem rank_selects_iff_bluetooth :
    SelectsByScore ascii (fun _ => 0) .default "eo" [bluetooth] ↔
      MatchesScore ascii (trimmed "eo") [bluetooth] :=
  rank_selects_iff ascii (fun _ => 0) .default "eo" [bluetooth] weightsPositive_default
    (List.nodup_singleton _)

theorem fuzzyMatch_bluetooth : fuzzyMatch ascii "eo" "Bluetooth" = some ⟨0, [3, 5]⟩ := by
  decide +kernel

/-- A title that the query is in goes away for a score of nothing. -/
theorem not_selects_bluetooth :
    ¬SelectsByScore ascii (fun _ => 0) .default "eo" [bluetooth] := by
  have htrimmed : trimmed "eo" = "eo" := by decide +kernel
  intro h
  have hkept := h.kept_iff (by rw [htrimmed]; decide) bluetooth List.mem_cons_self
    (by rw [ResultCategory.IsOrdinary]; decide)
  rw [htrimmed, isSome_scoreCandidate_iff (by decide) (by rw [ResultCategory.IsOrdinary]; decide),
    bestFieldScore_pos_iff weightsPositive_default] at hkept
  obtain ⟨text, htext, r, hr, hscore⟩ :=
    hkept.mpr ⟨"Bluetooth", List.mem_cons_self, by rw [fuzzyMatch_bluetooth]; rfl⟩
  obtain rfl : text = "Bluetooth" := by simpa [SearchCandidate.texts, bluetooth] using htext
  rw [fuzzyMatch_bluetooth] at hr
  obtain rfl := Option.some.inj hr
  exact absurd hscore (lt_irrefl _)

end

end Shilpo.Search
