import Shilpo.Engine.Events
import Shilpo.Search.Sink

/-!
# Search in extensions

What a guest finds is given to a sink of its provider under an identity that begins with the names
of the extension and of the contribution (`extension_provider.rs` in
`desktop/shilpo/src/shell/overview_search/`). No other provider can have such an identity. Within a
provider what is no letter, digit, hyphen, underscore or dot is replaced in the identity, so that
two results of one guest can have one identity (`search_identitiesKept`).
-/

namespace Shilpo.Search

open Extensions

def extensionMaxCandidates : ℕ := 64
def extensionScratchCapacity : ℕ := 256

/-- A character of an identity in place of one that can be any. -/
def sanitizedChar (c : Char) : Char :=
  if c.isAlphanum || c = '-' || c = '_' || c = '.' then c else '_'

def sanitizedLocal (localId : String) : String :=
  String.ofList (localId.toList.map sanitizedChar)

/-- The identity of what a guest calls `localId`. -/
def hostNamespaceCandidateId (extensionId : ExtensionId) (contributionId : ContributionId)
    (localId : String) : String :=
  "ext:" ++ extensionId.text ++ "/" ++ contributionId.text ++ "/" ++ sanitizedLocal localId

/-- What a guest has found. -/
structure RawCandidate where
  id : String
  title : String
  subtitle : Option String
  aliases : List String
  keywords : List String
  category : ResultCategory
  activationPayload : String

namespace ExtensionSearchProvider

variable (canonical : CanonicalId)

/-- The name of the provider. -/
def id : String := "ext:" ++ canonical.extensionId.text ++ "/" ++ canonical.contributionId.text

def candidate (generation : ℕ) (raw : RawCandidate) : SearchCandidate where
  providerId := id canonical
  canonicalId :=
    hostNamespaceCandidateId canonical.extensionId canonical.contributionId raw.id
  generation
  title := raw.title
  subtitle := raw.subtitle
  aliases := raw.aliases
  keywords := raw.keywords
  category := raw.category
  matchPositions := []
  activation := raw.activationPayload

/-- The sink that the coordinator makes for the provider. -/
def scratch (generation : ℕ) : SearchSink :=
  .new generation ⟨extensionScratchCapacity, extensionScratchCapacity⟩

/-- What the guest has returned, or nothing if it has failed, is given to the sink. -/
def search (generation : ℕ) (returned : Option (List RawCandidate)) (sink : SearchSink) :
    SearchSink :=
  match returned with
  | some candidates =>
    sink.pushAll ((candidates.take extensionMaxCandidates).map (candidate canonical generation))
  | none => sink

end ExtensionSearchProvider

/-! ### Identities -/

/-- What stands before a slash, and what behind it. -/
theorem append_slash_inj {a b u v : List Char} (ha : '/' ∉ a) (hb : '/' ∉ b)
    (h : a ++ '/' :: u = b ++ '/' :: v) : a = b ∧ u = v := by
  have hno {l : List Char} (hl : '/' ∉ l) : ∀ c ∈ l, (c != '/') = true := by
    intro c hc
    rw [bne_iff_ne]
    exact fun heq => hl (heq ▸ hc)
  obtain rfl : a = b :=
    @Theory.append_inj_of_stop _ (· != '/') a b _ _ (hno ha) (hno hb) rfl rfl h
  exact ⟨rfl, (List.cons.inj (List.append_cancel_left h)).2⟩

/-- **Identities tell owners apart, and what is left of the names that guests give.** -/
theorem hostNamespaceCandidateId_inj {canonical canonical' : CanonicalId}
    (h : canonical.WellFormed) (h' : canonical'.WellFormed) {localId localId' : String} :
    hostNamespaceCandidateId canonical.extensionId canonical.contributionId localId =
        hostNamespaceCandidateId canonical'.extensionId canonical'.contributionId localId' ↔
      canonical = canonical' ∧ sanitizedLocal localId = sanitizedLocal localId' := by
  constructor
  · intro heq
    have hchars := congrArg String.toList heq
    have hslash : "/".toList = ['/'] := by simp
    simp only [hostNamespaceCandidateId, String.toList_append, List.append_assoc, hslash,
      List.singleton_append] at hchars
    have hrest := List.append_cancel_left hchars
    rw [List.cons_append, List.cons_append] at hrest
    obtain ⟨hextension, hrest⟩ := append_slash_inj (slash_notMem_of_isExtensionId h.extensionId)
      (slash_notMem_of_isExtensionId h'.extensionId) hrest
    obtain ⟨hcontribution, hlocal⟩ := append_slash_inj
      (ContributionId.slash_notMem h.contributionId)
      (ContributionId.slash_notMem h'.contributionId) hrest
    obtain ⟨⟨extensionId⟩, ⟨contributionId⟩⟩ := canonical
    obtain ⟨⟨extensionId'⟩, ⟨contributionId'⟩⟩ := canonical'
    obtain rfl := String.toList_inj.mp hextension
    obtain rfl := String.toList_inj.mp hcontribution
    exact ⟨rfl, String.toList_inj.mp hlocal⟩
  · rintro ⟨rfl, hlocal⟩
    rw [hostNamespaceCandidateId, hostNamespaceCandidateId, hlocal]

/-- What holds of the identities of a provider: they are told apart from those of others, and up to
what is replaced from one another; and of the first results all that have new ones are taken. -/
structure IdentitiesKept (canonical : CanonicalId) : Prop where
  separate : ∀ canonical' : CanonicalId, canonical'.WellFormed → ∀ localId localId',
    hostNamespaceCandidateId canonical.extensionId canonical.contributionId localId =
        hostNamespaceCandidateId canonical'.extensionId canonical'.contributionId localId' ↔
      canonical = canonical' ∧ sanitizedLocal localId = sanitizedLocal localId'
  accepted : ∀ generation returned before raw after,
    returned.take extensionMaxCandidates = before ++ raw :: after →
    (∀ earlier ∈ before, sanitizedLocal earlier.id ≠ sanitizedLocal raw.id) →
    (((ExtensionSearchProvider.scratch generation).pushAll (before.map
        (ExtensionSearchProvider.candidate canonical generation))).push
      (ExtensionSearchProvider.candidate canonical generation raw)).1 = true ∧
    ExtensionSearchProvider.candidate canonical generation raw ∈
      (ExtensionSearchProvider.search canonical generation (some returned)
        (ExtensionSearchProvider.scratch generation)).candidates

theorem search_identitiesKept (canonical : CanonicalId) (h : canonical.WellFormed) :
    IdentitiesKept canonical := by
  refine ⟨fun canonical' h' localId localId' => hostNamespaceCandidateId_inj h h', ?_⟩
  intro generation returned before raw after hreturned hnew
  have hgiven := (SearchSink.given_new generation
    ⟨extensionScratchCapacity, extensionScratchCapacity⟩).pushAll
      (before.map (ExtensionSearchProvider.candidate canonical generation))
  rw [List.nil_append] at hgiven
  have hlength : before.length < extensionScratchCapacity := by
    have htake := List.length_take_le extensionMaxCandidates returned
    rw [hreturned, List.length_append, List.length_cons, extensionMaxCandidates] at htake
    rw [extensionScratchCapacity]
    omega
  have haccepts : ((ExtensionSearchProvider.scratch generation).pushAll (before.map
      (ExtensionSearchProvider.candidate canonical generation))).refuses
        (ExtensionSearchProvider.candidate canonical generation raw) = false := by
    refine hgiven.accepts rfl (fun earlier hmem heq => ?_) ?_ ?_
    · obtain ⟨earlier, hearlier, rfl⟩ := List.mem_map.mp hmem
      exact hnew earlier hearlier ((hostNamespaceCandidateId_inj h h).mp heq).2
    · rwa [List.length_map]
    · rwa [List.length_map]
  have hpush := SearchSink.push_of_accepts haccepts
  refine ⟨hpush.1, ?_⟩
  rw [ExtensionSearchProvider.search, hreturned, List.map_append, List.map_cons,
    SearchSink.pushAll_append_cons]
  exact (SearchSink.prefix_pushAll _ _).subset hpush.2

/-- A search of the extension `io.example.foo`. -/
def mySearch : CanonicalId := ⟨⟨"io.example.foo"⟩, ⟨"my-search"⟩⟩

theorem wellFormed_mySearch : mySearch.WellFormed := by
  constructor <;> rfl

theorem search_identitiesKept_mySearch : IdentitiesKept mySearch :=
  search_identitiesKept mySearch wellFormed_mySearch

/-- A space and an underscore are one in an identity. -/
theorem not_hostNamespaceCandidateId_injective :
    ¬∀ canonical canonical' : CanonicalId, canonical.WellFormed → canonical'.WellFormed →
      ∀ localId localId',
        hostNamespaceCandidateId canonical.extensionId canonical.contributionId localId =
          hostNamespaceCandidateId canonical'.extensionId canonical'.contributionId localId' →
        canonical = canonical' ∧ localId = localId' := by
  intro h
  have hlocal := h mySearch mySearch wellFormed_mySearch wellFormed_mySearch "a b" "a_b"
    (by decide +kernel)
  exact absurd hlocal.2 (by decide)

end Shilpo.Search
