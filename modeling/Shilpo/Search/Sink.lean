import Mathlib

/-!
# Candidates and the sink

What search providers find, and the sink they give it to (`types.rs` and `sink.rs` in
`desktop/shilpo/src/shell/overview_search/`). A sink takes candidates of its own generation, one of
an identity, and so many of a provider and in all.

Of a candidate there is what ranking and the sink read, and what activating it gives. How it is
shown is left out.
-/

namespace Shilpo.Search

/-! ### Candidates -/

inductive ResultCategory where
  | window | application | action | clipboard | calculator | command | webSearch | filePath | uri
  | keybinding | custom
  deriving DecidableEq

/-- What a provider has found. -/
structure SearchCandidate where
  providerId : String
  canonicalId : String
  generation : ℕ
  title : String
  subtitle : Option String
  aliases : List String
  keywords : List String
  category : ResultCategory
  matchPositions : List ℕ
  activation : String
  deriving DecidableEq

/-! ### The sink -/

/-- How many candidates there may be of a provider and in all. -/
structure SinkConfig where
  maxPerProvider : ℕ
  maxTotal : ℕ

structure SearchSink where
  generation : ℕ
  config : SinkConfig
  seenIdentities : List String
  providerCounts : String → ℕ
  candidates : List SearchCandidate

namespace SearchSink

def new (generation : ℕ) (config : SinkConfig) : SearchSink :=
  { generation, config, seenIdentities := [], providerCounts := fun _ => 0, candidates := [] }

/-- Why a candidate is not taken, in the order of the checks. -/
def refuses (sink : SearchSink) (candidate : SearchCandidate) : Bool :=
  candidate.generation ≠ sink.generation ||
    candidate.canonicalId ∈ sink.seenIdentities ||
    sink.config.maxTotal ≤ sink.candidates.length ||
    sink.config.maxPerProvider ≤ sink.providerCounts candidate.providerId

/-- The sink after a candidate, and whether it has been taken. -/
def push (sink : SearchSink) (candidate : SearchCandidate) : Bool × SearchSink :=
  if sink.refuses candidate then (false, sink)
  else
    (true,
      { sink with
        seenIdentities := candidate.canonicalId :: sink.seenIdentities
        providerCounts := Function.update sink.providerCounts candidate.providerId
          (sink.providerCounts candidate.providerId + 1)
        candidates := sink.candidates ++ [candidate] })

/-- The sink after some candidates. -/
def pushAll (sink : SearchSink) (candidates : List SearchCandidate) : SearchSink :=
  candidates.foldl (fun sink candidate => (sink.push candidate).2) sink

/-! ### What has been given to a sink -/

/-- A sink that has been given some candidates, some of which it may have refused. -/
structure Given (generation : ℕ) (config : SinkConfig) (pushed : List SearchCandidate)
    (sink : SearchSink) : Prop where
  generation_eq : sink.generation = generation
  config_eq : sink.config = config
  seen : ∀ id ∈ sink.seenIdentities, ∃ candidate ∈ pushed, candidate.canonicalId = id
  total_le : sink.candidates.length ≤ pushed.length
  count_le : ∀ provider, sink.providerCounts provider ≤ pushed.length

variable {generation : ℕ} {config : SinkConfig} {pushed : List SearchCandidate}
  {sink : SearchSink}

theorem given_new (generation : ℕ) (config : SinkConfig) :
    Given generation config [] (.new generation config) where
  generation_eq := rfl
  config_eq := rfl
  seen := fun _ hid => absurd hid List.not_mem_nil
  total_le := le_rfl
  count_le := fun _ => le_rfl

theorem Given.push (h : Given generation config pushed sink) (candidate : SearchCandidate) :
    Given generation config (pushed ++ [candidate]) (sink.push candidate).2 := by
  have htotal := h.total_le
  have hmore : pushed.length ≤ (pushed ++ [candidate]).length := by simp
  rw [SearchSink.push]
  split_ifs
  · refine ⟨h.generation_eq, h.config_eq, fun id hid => ?_, ?_, fun provider => ?_⟩
    · obtain ⟨earlier, hmem, heq⟩ := h.seen id hid
      exact ⟨earlier, List.mem_append_left _ hmem, heq⟩
    · exact htotal.trans hmore
    · exact (h.count_le provider).trans hmore
  · refine ⟨h.generation_eq, h.config_eq, fun id hid => ?_, ?_, fun provider => ?_⟩
    · rcases List.mem_cons.mp hid with rfl | hid
      · exact ⟨candidate, by simp, rfl⟩
      · obtain ⟨earlier, hmem, heq⟩ := h.seen id hid
        exact ⟨earlier, List.mem_append_left _ hmem, heq⟩
    · simp only [List.length_append, List.length_singleton]
      omega
    · have hcount := h.count_le provider
      have hown := h.count_le candidate.providerId
      rw [List.length_append, List.length_singleton]
      dsimp only
      by_cases hprovider : provider = candidate.providerId
      · rw [hprovider, Function.update_self]
        omega
      · rw [Function.update_of_ne hprovider]
        omega

theorem Given.pushAll (h : Given generation config pushed sink)
    (candidates : List SearchCandidate) :
    Given generation config (pushed ++ candidates) (sink.pushAll candidates) := by
  induction candidates generalizing pushed sink with
  | nil => rwa [List.append_nil]
  | cons candidate candidates ih =>
    have hrest := ih (h.push candidate)
    rwa [List.append_assoc, List.singleton_append] at hrest

/-- A candidate with an identity of its own is taken while there is room. -/
theorem Given.accepts (h : Given generation config pushed sink) {candidate : SearchCandidate}
    (hgeneration : candidate.generation = generation)
    (hnew : ∀ earlier ∈ pushed, earlier.canonicalId ≠ candidate.canonicalId)
    (htotal : pushed.length < config.maxTotal)
    (hprovider : pushed.length < config.maxPerProvider) : sink.refuses candidate = false := by
  have hlength := h.total_le
  have hcount := h.count_le candidate.providerId
  have hseen : candidate.canonicalId ∉ sink.seenIdentities := by
    intro hid
    obtain ⟨earlier, hmem, heq⟩ := h.seen _ hid
    exact hnew earlier hmem heq
  rw [refuses, h.config_eq, h.generation_eq]
  simp only [hgeneration, hseen, ne_eq, not_true_eq_false, decide_false, Bool.or_eq_false_iff,
    decide_eq_false_iff_not, not_le, Bool.false_or]
  omega

theorem push_of_accepts {candidate : SearchCandidate} (h : sink.refuses candidate = false) :
    (sink.push candidate).1 = true ∧ candidate ∈ (sink.push candidate).2.candidates := by
  rw [push, h]
  simp

theorem pushAll_append_cons (sink : SearchSink) (before after : List SearchCandidate)
    (candidate : SearchCandidate) :
    sink.pushAll (before ++ candidate :: after) =
      ((sink.pushAll before).push candidate).2.pushAll after := by
  rw [pushAll, List.foldl_append]
  rfl

/-- What has been taken stays. -/
theorem prefix_push (sink : SearchSink) (candidate : SearchCandidate) :
    sink.candidates <+: (sink.push candidate).2.candidates := by
  rw [push]
  split_ifs
  · exact List.prefix_rfl
  · exact List.prefix_append _ _

theorem prefix_pushAll (sink : SearchSink) (candidates : List SearchCandidate) :
    sink.candidates <+: (sink.pushAll candidates).candidates := by
  induction candidates generalizing sink with
  | nil => exact List.prefix_rfl
  | cons candidate candidates ih => exact (sink.prefix_push candidate).trans (ih _)

end SearchSink

end Shilpo.Search
