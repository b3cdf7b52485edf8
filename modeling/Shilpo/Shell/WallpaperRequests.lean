import Shilpo.Shell.WallpaperCoordinator
import Shilpo.Theory.Flattening
import Shilpo.Theory.Runs

/-!
# What becomes of wallpaper requests

A run of the coordinator is looked at with the requests that it has made and the answers that it
has accepted (`WallpaperSession`). In every state the table of requests is small, and a request
that is pending is the active one of its target; an answer is accepted once, and from whom the
request was sent to (`Sound`). A request that is made is pending, and only the oldest is dropped for
it; an answer from elsewhere changes nothing (`Kept`).

This holds of the runs in which the table, when it is full, comes to its oldest key first, no
answer to a pending request comes from elsewhere, and the numbers do not run out (`Calm`).
-/

namespace Shilpo.Shell

open Extensions Theory

/-! ### Calls -/

inductive CoordinatorOp where
  | syncActiveProvider (config : ExtensionsConfig) (descriptors : List ContributionDescriptor)
      (generation now : ℕ)
  | requestNextWallpaper
  | onWorkspaceChanged (workspaceId : String) (outputName : Option String)
  | onSettingsChanged
  | onSlideshowTick
  | onWallpaperTick (now : ℕ)
  | dispatchRequest (reason : WallpaperRequestReason) (mode : WallpaperMode)
      (target : WallpaperTarget)
  | validateWallpaperEffect (source : WallpaperSource) (requestId : Option String)
      (target : Option WallpaperTarget) (extensionId : ExtensionId) (generation : ℕ)
  | onProviderDisabledOrUnloaded
  | recordSuccessfulWallpaper (target : WallpaperTarget) (path : String)

/-- A call, and the order in which the requests are come to. -/
structure CoordinatorCall where
  order : HashOrder
  op : CoordinatorOp

namespace WallpaperCoordinator

variable (c : WallpaperCoordinator) (order : HashOrder)

/-- What a call does, and the request it makes. -/
def perform : CoordinatorOp → WallpaperCoordinator × Dispatched
  | .syncActiveProvider config descriptors generation now =>
    c.syncActiveProvider order config descriptors generation now
  | .requestNextWallpaper => c.requestNextWallpaper order
  | .onWorkspaceChanged workspaceId outputName => c.onWorkspaceChanged order workspaceId outputName
  | .onSettingsChanged => c.onSettingsChanged order
  | .onSlideshowTick => c.onSlideshowTick order
  | .onWallpaperTick now => c.onWallpaperTick order now
  | .dispatchRequest reason mode target => c.dispatchRequest order reason mode target
  | .validateWallpaperEffect source requestId target extensionId generation =>
    ((c.validateWallpaperEffect source requestId target extensionId generation).1, none)
  | .onProviderDisabledOrUnloaded => (c.onProviderDisabledOrUnloaded, none)
  | .recordSuccessfulWallpaper target path => (c.recordSuccessfulWallpaper target path, none)

/-- The state in which a call comes to `dispatch_request`, and what it asks for there; or the
state in which it ends otherwise. -/
def called : CoordinatorOp → WallpaperCoordinator ×
    Option (WallpaperRequestReason × WallpaperMode × WallpaperTarget)
  | .syncActiveProvider config descriptors generation now =>
    match chosen config descriptors with
    | none => (c.onProviderDisabledOrUnloaded, none)
    | some desc =>
      let settings := settingsOf config desc
      let signature := settings.map (·.text)
      if c.isNew desc generation then
        let c := (c.withInterval settings).adopt desc generation now signature
        (c, some (.activate, c.preferredMode, .global))
      else if c.settingsSignature ≠ signature then
        let c := { c.withInterval settings with settingsSignature := signature }
        (c, if c.activeProvider.isSome then some (.settingsChanged, .manual, .global) else none)
      else (c.withInterval settings, none)
  | .requestNextWallpaper =>
    match c.activeProvider with
    | none => (c, none)
    | some _ =>
      (c, some (.userNext, c.preferredMode,
        match c.lastActiveWorkspace with
        | some workspaceId =>
          if .workspace ∈ c.activeTargets then .workspace workspaceId none else .global
        | none => .global))
  | .onWorkspaceChanged workspaceId outputName =>
    ({ c with lastActiveWorkspace := some workspaceId },
      if .workspace ∉ c.activeTargets then none
      else
        match c.lastValidWallpapers.lookup (.workspace workspaceId outputName) with
        | some _ => none
        | none => some (.workspaceChanged, .manual, .workspace workspaceId outputName))
  | .onSettingsChanged =>
    (c, if c.activeProvider.isSome then some (.settingsChanged, .manual, .global) else none)
  | .onSlideshowTick =>
    (c, if c.activeProvider.isSome ∧ .slideshow ∈ c.activeModes then
        some (.slideshowTick, .slideshow, .global) else none)
  | .onWallpaperTick now =>
    if now - c.lastSlideshowTick < c.slideshowInterval then (c, none)
    else
      ({ c with lastSlideshowTick := now },
        if c.activeProvider.isSome ∧ .slideshow ∈ c.activeModes then
          some (.slideshowTick, .slideshow, .global) else none)
  | .dispatchRequest reason mode target => (c, some (reason, mode, target))
  | .validateWallpaperEffect source requestId target extensionId generation =>
    ((c.validateWallpaperEffect source requestId target extensionId generation).1, none)
  | .onProviderDisabledOrUnloaded => (c.onProviderDisabledOrUnloaded, none)
  | .recordSuccessfulWallpaper target path => (c.recordSuccessfulWallpaper target path, none)

/-- The provider has wallpapers of this mode for such a target. -/
def supports (mode : WallpaperMode) (target : WallpaperTarget) : Bool :=
  c.activeProvider.isSome && c.providerGeneration.isSome && mode ∈ c.activeModes &&
    targetKind target ∈ c.activeTargets

/-- The pending requests of other targets, newest first. -/
def others (target : WallpaperTarget) : List (Σ _ : String, PendingWallpaperRequest) :=
  c.pendingRequests.entries.filter fun entry => entry.2.target ≠ target

/-- Ask, if there is something to ask for. -/
def ask : Option (WallpaperRequestReason × WallpaperMode × WallpaperTarget) →
    WallpaperCoordinator × Dispatched
  | some (reason, mode, target) => c.dispatchRequest order reason mode target
  | none => (c, none)

theorem onSettingsChanged_eq : c.onSettingsChanged order =
    c.ask order (if c.activeProvider.isSome then some (.settingsChanged, .manual, .global)
      else none) := by
  simp only [onSettingsChanged]
  split_ifs <;> rfl

theorem onSlideshowTick_eq : c.onSlideshowTick order =
    c.ask order (if c.activeProvider.isSome ∧ .slideshow ∈ c.activeModes then
      some (.slideshowTick, .slideshow, .global) else none) := by
  simp only [onSlideshowTick]
  split_ifs <;> rfl

/-- Each call comes to `dispatch_request` at most once, at its end. -/
theorem perform_eq (op : CoordinatorOp) :
    c.perform order op = (c.called op).1.ask order (c.called op).2 := by
  cases op with
  | syncActiveProvider config descriptors generation now =>
    simp only [perform, called, syncActiveProvider]
    cases chosen config descriptors with
    | none => rfl
    | some desc =>
      dsimp only
      by_cases hnew : c.isNew desc generation
      · rw [if_pos hnew, if_pos hnew]
        rfl
      rw [if_neg hnew, if_neg hnew]
      by_cases hsettings : c.settingsSignature ≠ (settingsOf config desc).map (·.text)
      · rw [if_pos hsettings, if_pos hsettings]
        exact onSettingsChanged_eq _ order
      · rw [if_neg hsettings, if_neg hsettings]
        rfl
  | requestNextWallpaper =>
    simp only [perform, called, requestNextWallpaper]
    cases c.activeProvider <;> rfl
  | onWorkspaceChanged workspaceId outputName =>
    simp only [perform, called, onWorkspaceChanged]
    split_ifs
    · cases c.lastValidWallpapers.lookup (.workspace workspaceId outputName) <;> rfl
    · rfl
  | onSettingsChanged => exact onSettingsChanged_eq c order
  | onSlideshowTick => exact onSlideshowTick_eq c order
  | onWallpaperTick now =>
    simp only [perform, called, onWallpaperTick]
    split
    · rfl
    · exact onSlideshowTick_eq _ order
  | dispatchRequest reason mode target => rfl
  | validateWallpaperEffect source requestId target extensionId generation => rfl
  | onProviderDisabledOrUnloaded => rfl
  | recordSuccessfulWallpaper target path => rfl

/-- The request that a call accepts an answer to, with whose answer it is. -/
def accepts : CoordinatorOp → Option (String × ExtensionId × ℕ)
  | .validateWallpaperEffect source (some reqId) target extensionId generation =>
    match (c.validateWallpaperEffect source (some reqId) target extensionId generation).2 with
    | .ok _ => some (reqId, extensionId, generation)
    | .error _ => none
  | _ => none

end WallpaperCoordinator

/-! ### Requests of distinct numbers -/

theorem requestId_injective {a b : ℕ} (h : requestId a = requestId b) : a = b :=
  Nat.repr_injective ((String.append_right_inj _).mp h)

/-- A number that has not been used is the number of another request. -/
theorem requestId_ne {seq k : ℕ} (hk : k ≤ seq) : requestId (seq + 1) ≠ requestId k := by
  intro h
  have := requestId_injective h
  omega

/-! ### What dispatch does -/

theorem lookup_insert_cases {active : AList fun _ : WallpaperTarget => String}
    {t t' : WallpaperTarget} {id id' : String} (h : (active.insert t id).lookup t' = some id') :
    t' = t ∧ id' = id ∨ t' ≠ t ∧ active.lookup t' = some id' := by
  by_cases ht : t' = t
  · subst ht
    rw [AList.lookup_insert] at h
    exact .inl ⟨rfl, (Option.some.inj h).symm⟩
  · rw [AList.lookup_insert_ne ht] at h
    exact .inr ⟨ht, h⟩

/-- Without the last key there remains what stood before it. -/
theorem kerase_getLast {α : Type} [DecidableEq α] {β : α → Type} {l : List (Sigma β)} {k : α}
    (hnodup : l.keys.Nodup) (hk : l.keys.getLast? = some k) : l.kerase k = l.dropLast := by
  obtain rfl | ⟨front, last, rfl⟩ := l.eq_nil_or_concat
  · cases hk
  rw [List.concat_eq_append] at hnodup hk ⊢
  have hkey : last.1 = k := by simpa [List.keys] using hk
  have hnot : k ∉ front.keys := by
    rw [List.keys_append, List.nodup_append] at hnodup
    intro hmem
    exact hnodup.2.2 k hmem k (by simp [List.keys, hkey]) rfl
  rw [List.kerase_append_right hnot, List.kerase_cons_eq hkey.symm, List.append_nil,
    List.dropLast_concat]

namespace WallpaperCoordinator

variable {c : WallpaperCoordinator} {order : HashOrder} {target : WallpaperTarget}

/-- Each pending request is the active one of its target, and active for no other. -/
structure Inverse (c : WallpaperCoordinator) : Prop where
  active : ∀ id p, c.pendingRequests.lookup id = some p →
    c.activeRequestByTarget.lookup p.target = some id
  injective : ∀ t t' id, c.activeRequestByTarget.lookup t = some id →
    c.activeRequestByTarget.lookup t' = some id → t = t'

/-- Superseding the active request of a target leaves those of the others. -/
theorem Inverse.entries_coalesced (h : c.Inverse) :
    (c.coalesced target).entries = c.others target := by
  rw [coalesced, others]
  cases hactive : c.activeRequestByTarget.lookup target with
  | none =>
    refine (List.filter_eq_self.mpr fun entry hentry => ?_).symm
    have hof := h.active _ _ (AList.mem_lookup_iff.mpr hentry)
    rw [decide_eq_true_eq]
    rintro rfl
    rw [hactive] at hof
    cases hof
  | some oldReqId =>
    rw [entries_erase]
    refine List.filter_congr fun entry hentry => ?_
    have hof := h.active _ _ (AList.mem_lookup_iff.mpr hentry)
    rw [decide_eq_decide]
    refine not_congr ⟨?_, ?_⟩
    · intro hid
      exact h.injective _ _ _ hof (hid ▸ hactive)
    · rintro rfl
      exact Option.some.inj (hof.symm.trans hactive)

/-- What is pending once a request for the target has been put in. -/
theorem Inverse.entries_bounded (h : c.Inverse) (p : PendingWallpaperRequest)
    (hsmall : c.pendingRequests.entries.length ≤ maxPendingRequests)
    (hfresh : c.pendingRequests.lookup (requestId (c.nextRequestSeq + 1)) = none)
    (hfirst : (c.others target).length = maxPendingRequests →
      (order.arrange (requestId (c.nextRequestSeq + 1) :: (c.others target).map Sigma.fst)).head? =
        ((c.others target).map Sigma.fst).getLast?) :
    (bounded order ((c.coalesced target).insert (requestId (c.nextRequestSeq + 1)) p)).entries =
      (⟨requestId (c.nextRequestSeq + 1), p⟩ :: c.others target).take maxPendingRequests := by
  have hlength : (c.others target).length ≤ maxPendingRequests :=
    (List.length_filter_le _ _).trans hsmall
  have hnot : requestId (c.nextRequestSeq + 1) ∉ (c.others target).keys := by
    intro hmem
    obtain ⟨q, hq⟩ := List.exists_of_mem_keys hmem
    have hq := AList.mem_lookup_iff.mpr (List.mem_of_mem_filter hq)
    rw [hfresh] at hq
    cases hq
  have hentries : ((c.coalesced target).insert (requestId (c.nextRequestSeq + 1)) p).entries =
      ⟨requestId (c.nextRequestSeq + 1), p⟩ :: c.others target := by
    rw [AList.entries_insert, h.entries_coalesced, List.kerase_of_notMem_keys hnot]
  have hkeys : ((c.coalesced target).insert (requestId (c.nextRequestSeq + 1)) p).keys =
      requestId (c.nextRequestSeq + 1) :: (c.others target).map Sigma.fst := by
    rw [AList.keys, hentries, List.keys_cons]
    rfl
  rw [bounded, hentries]
  by_cases hfull : (c.others target).length = maxPendingRequests
  · obtain ⟨last, hlast⟩ : ∃ last, ((c.others target).map Sigma.fst).getLast? = some last := by
      refine Option.isSome_iff_exists.mp (List.getLast?_isSome.mpr ?_)
      rw [ne_eq, List.map_eq_nil_iff]
      rintro hnil
      rw [hnil] at hfull
      cases hfull
    rw [if_pos (by rw [List.length_cons]; omega), hkeys, hfirst hfull, hlast]
    have hnodup := ((c.coalesced target).insert (requestId (c.nextRequestSeq + 1)) p).nodupKeys
    rw [List.NodupKeys, hentries] at hnodup
    show (List.kerase last (AList.entries _)) = _
    rw [hentries, kerase_getLast hnodup, List.dropLast_eq_take, List.length_cons, hfull,
      Nat.add_sub_cancel]
    rw [List.keys_cons, List.keys, List.getLast?_cons, hlast]
    rfl
  · have hroom : (c.others target).length + 1 ≤ maxPendingRequests := by omega
    rw [if_neg (by rw [List.length_cons]; omega), hentries,
      List.take_of_length_le (by rwa [List.length_cons])]

/-- Nothing is asked for without a provider that has it. -/
theorem dispatchRequest_of_not_supports {reason : WallpaperRequestReason} {mode : WallpaperMode}
    (h : ¬c.supports mode target) : c.dispatchRequest order reason mode target = (c, none) := by
  simp only [supports, Bool.and_eq_true, Option.isSome_iff_exists, decide_eq_true_eq,
    not_and] at h
  rw [dispatchRequest]
  split
  · rename_i provider generation hprovider hgeneration
    split_ifs with hmode htarget
    · exact absurd htarget (h ⟨⟨⟨provider, hprovider⟩, generation, hgeneration⟩, hmode⟩)
    · rfl
    · rfl
  · rfl

theorem dispatchRequest_of_supports (order : HashOrder) (reason : WallpaperRequestReason)
    {mode : WallpaperMode} (h : c.supports mode target) (hseq : c.nextRequestSeq + 1 < 2 ^ 64) :
    ∃ (provider : CanonicalId) (generation : ℕ), c.providerGeneration = some generation ∧
      c.dispatchRequest order reason mode target =
        ({ c with
          nextRequestSeq := c.nextRequestSeq + 1
          activeRequestByTarget := c.activeRequestByTarget.insert target
            (requestId (c.nextRequestSeq + 1))
          pendingRequests := bounded order ((c.coalesced target).insert
            (requestId (c.nextRequestSeq + 1))
              ⟨generation, provider.extensionId, target, mode, reason⟩) },
        some (provider.extensionId,
          ⟨requestId (c.nextRequestSeq + 1), provider.contributionId.text, reason, mode,
            target⟩)) := by
  simp only [supports, Bool.and_eq_true, Option.isSome_iff_exists, decide_eq_true_eq] at h
  obtain ⟨⟨⟨⟨provider, hprovider⟩, generation, hgeneration⟩, hmode⟩, htarget⟩ := h
  refine ⟨provider, generation, hgeneration, ?_⟩
  rw [dispatchRequest, hprovider, hgeneration]
  simp only [hmode, htarget, not_true_eq_false, if_false, Nat.mod_eq_of_lt hseq]

/-- The tables are as they were, or empty. -/
structure Settles (c c' : WallpaperCoordinator) : Prop where
  seq : c'.nextRequestSeq = c.nextRequestSeq
  tables : c'.pendingRequests = c.pendingRequests ∧
      c'.activeRequestByTarget = c.activeRequestByTarget ∨
    c'.pendingRequests = ∅ ∧ c'.activeRequestByTarget = ∅

theorem Settles.refl : Settles c c := ⟨rfl, .inl ⟨rfl, rfl⟩⟩

theorem settles_unloaded : Settles c c.onProviderDisabledOrUnloaded := ⟨rfl, .inr ⟨rfl, rfl⟩⟩

theorem settles_withInterval (settings : Option ExtensionSettings) :
    Settles c (c.withInterval settings) := by
  rw [withInterval]
  split <;> exact ⟨rfl, .inl ⟨rfl, rfl⟩⟩

/-- An answer that is not taken changes nothing. -/
theorem validateWallpaperEffect_of_not_pending {source : WallpaperSource}
    {requestId : Option String} {target : Option WallpaperTarget} {extensionId : ExtensionId}
    {generation : ℕ}
    (h : source = .remote ∨ ∀ id ∈ requestId, c.pendingRequests.lookup id = none) :
    (c.validateWallpaperEffect source requestId target extensionId generation).1 = c := by
  simp only [validateWallpaperEffect]
  split_ifs with hremote
  · rfl
  · cases requestId with
    | none => rfl
    | some id => simp only [h.resolve_left hremote id rfl]

/-- All calls but answers come to `dispatch_request` with the tables as they were, or empty. -/
theorem settles_called {op : CoordinatorOp}
    (h : ∀ source reqId target extensionId generation,
      op = .validateWallpaperEffect source (some reqId) target extensionId generation →
      source = .remote ∨ c.pendingRequests.lookup reqId = none) :
    Settles c (c.called op).1 := by
  cases op with
  | syncActiveProvider config descriptors generation now =>
    simp only [called]
    cases chosen config descriptors with
    | none => exact settles_unloaded
    | some desc =>
      dsimp only
      by_cases hnew : c.isNew desc generation
      · rw [if_pos hnew]
        exact ⟨(settles_withInterval _).seq, .inr ⟨rfl, rfl⟩⟩
      rw [if_neg hnew]
      split
      · exact ⟨(settles_withInterval _).seq, (settles_withInterval _).tables⟩
      · exact settles_withInterval _
  | requestNextWallpaper =>
    simp only [called]
    cases c.activeProvider <;> exact .refl
  | onWorkspaceChanged workspaceId outputName => exact ⟨rfl, .inl ⟨rfl, rfl⟩⟩
  | onSettingsChanged => exact .refl
  | onSlideshowTick => exact .refl
  | onWallpaperTick now =>
    simp only [called]
    split
    · exact .refl
    · exact ⟨rfl, .inl ⟨rfl, rfl⟩⟩
  | dispatchRequest reason mode target => exact .refl
  | validateWallpaperEffect source requestId target extensionId generation =>
    have hsame : (c.called (.validateWallpaperEffect source requestId target extensionId
        generation)).1 = c := by
      refine validateWallpaperEffect_of_not_pending ?_
      by_cases hremote : source = .remote
      · exact .inl hremote
      · refine .inr ?_
        rintro reqId rfl
        exact (h _ _ _ _ _ rfl).resolve_left hremote
    rw [hsame]
    exact .refl
  | onProviderDisabledOrUnloaded => exact settles_unloaded
  | recordSuccessfulWallpaper target path => exact ⟨rfl, .inl ⟨rfl, rfl⟩⟩

/-- A request is put in, in the place of the one of its target, and for the oldest if they are too
many. -/
structure PutsIn (c c' : WallpaperCoordinator) (p : PendingWallpaperRequest) : Prop where
  generation : c'.providerGeneration = some p.generation
  seq : c'.nextRequestSeq = c.nextRequestSeq + 1
  active : c'.activeRequestByTarget =
    c.activeRequestByTarget.insert p.target (requestId (c.nextRequestSeq + 1))
  entries : c'.pendingRequests.entries =
    (⟨requestId (c.nextRequestSeq + 1), p⟩ :: c.others p.target).take maxPendingRequests

/-- What is pending then has been put in, or was pending and is of another target. -/
theorem PutsIn.of_lookup {c' : WallpaperCoordinator} {p q : PendingWallpaperRequest} {id : String}
    (h : PutsIn c c' p) (hq : c'.pendingRequests.lookup id = some q) :
    id = requestId (c.nextRequestSeq + 1) ∧ q = p ∨
      q.target ≠ p.target ∧ c.pendingRequests.lookup id = some q := by
  have hmem := AList.mem_lookup_iff.mp hq
  rw [h.entries] at hmem
  obtain heq | hmem := List.mem_cons.mp (List.mem_of_mem_take hmem)
  · cases heq
    exact .inl ⟨rfl, rfl⟩
  · rw [others, List.mem_filter, decide_eq_true_eq] at hmem
    exact .inr ⟨hmem.2, AList.mem_lookup_iff.mpr hmem.1⟩

/-- The call is no answer to a pending request, or one that is turned down unseen. -/
def Untaken (c : WallpaperCoordinator) (op : CoordinatorOp) : Prop :=
  ∀ source reqId target extensionId generation,
    op = .validateWallpaperEffect source (some reqId) target extensionId generation →
    source = .remote ∨ c.pendingRequests.lookup reqId = none

theorem accepts_of_untaken {op : CoordinatorOp} (h : c.Untaken op) : c.accepts op = none := by
  cases op with
  | validateWallpaperEffect source requestId target extensionId generation =>
    cases requestId with
    | none => rfl
    | some reqId =>
      simp only [accepts, validateWallpaperEffect]
      obtain hremote | hnone := h _ _ _ _ _ rfl
      · rw [if_pos hremote]
      · simp only [hnone]
        split_ifs <;> rfl
  | _ => rfl

/-- The rightful answer to a pending request is taken, and the request is pending no more. -/
theorem Inverse.validateWallpaperEffect_of_pending (h : c.Inverse) {source : WallpaperSource}
    {reqId : String} (target : Option WallpaperTarget) {p : PendingWallpaperRequest}
    (hremote : source ≠ .remote) (hp : c.pendingRequests.lookup reqId = some p) :
    c.validateWallpaperEffect source (some reqId) target p.extensionId p.generation =
      ({ c with pendingRequests := c.pendingRequests.erase reqId }, .ok p.target) := by
  simp only [validateWallpaperEffect, hremote, hp, if_false, ne_eq, not_true_eq_false, or_self,
    h.active _ _ hp]

theorem inverse_of_empty (hpending : c.pendingRequests = ∅)
    (hactive : c.activeRequestByTarget = ∅) : c.Inverse where
  active := by
    rw [hpending]
    intro id p hp
    cases hp
  injective := by
    rw [hactive]
    intro t t' id ht
    cases ht

theorem Inverse.erase (h : c.Inverse) (reqId : String) :
    Inverse { c with pendingRequests := c.pendingRequests.erase reqId } where
  active := fun id p hp =>
    h.active id p (AList.mem_lookup_iff.mpr
      (mem_entries_of_mem_erase (AList.mem_lookup_iff.mp hp)))
  injective := h.injective

end WallpaperCoordinator

/-! ### Runs -/

/-- The requests that go out, and to whom. -/
def sentOut (c : WallpaperCoordinator) : Dispatched → List (String × ExtensionId × ℕ)
  | some (extensionId, request) =>
    c.providerGeneration.toList.map fun generation => (request.requestId, extensionId, generation)
  | none => []

/-- A run of the coordinator, with the requests that have been made, to whom, and the answers that
have been accepted, from whom. -/
structure WallpaperSession where
  coordinator : WallpaperCoordinator
  sent : List (String × ExtensionId × ℕ)
  accepted : List (String × ExtensionId × ℕ)

namespace WallpaperSession

open WallpaperCoordinator

def new (now : ℕ) : WallpaperSession := ⟨.new now, [], []⟩

variable (s : WallpaperSession)

def step (call : CoordinatorCall) : WallpaperSession :=
  let (coordinator, request) := s.coordinator.perform call.order call.op
  { coordinator
    sent := s.sent ++ sentOut coordinator request
    accepted := s.accepted ++ (s.coordinator.accepts call.op).toList }

/-! ### The property -/

structure Sound : Prop where
  small : s.coordinator.pendingRequests.entries.length ≤ maxPendingRequests
  /-- A request that is pending is the active one of its target. -/
  active : ∀ id p, s.coordinator.pendingRequests.lookup id = some p →
    s.coordinator.activeRequestByTarget.lookup p.target = some id
  /-- The rightful answer to it is accepted. -/
  answerable : ∀ id p source target, s.coordinator.pendingRequests.lookup id = some p →
    source ≠ .remote → (s.coordinator.validateWallpaperEffect source (some id) target p.extensionId
      p.generation).2 = .ok p.target
  /-- An answer is accepted only from whom the request was sent to. -/
  rightful : ∀ answer ∈ s.accepted, answer ∈ s.sent
  /-- A request's answer is accepted at most once. -/
  once : (s.accepted.map Prod.fst).Nodup

/-- What a call should do. -/
structure Kept (call : CoordinatorCall) : Prop where
  /-- The request that is made is pending, with those that were when it was made but the one of
  its target, and but the oldest if they are too many. -/
  made : ∀ extensionId request,
    (s.coordinator.perform call.order call.op).2 = some (extensionId, request) →
    ∃ generation, (s.step call).coordinator.providerGeneration = some generation ∧
      (s.step call).coordinator.pendingRequests.entries =
        (⟨request.requestId, ⟨generation, extensionId, request.target, request.mode,
          request.reason⟩⟩ :: ((s.coordinator.called call.op).1.others request.target)).take
            maxPendingRequests
  /-- An answer from elsewhere changes nothing. -/
  foreign : ∀ source reqId target extensionId generation,
    call.op = .validateWallpaperEffect source (some reqId) target extensionId generation →
    (∀ p, s.coordinator.pendingRequests.lookup reqId = some p →
      p.generation ≠ generation ∨ p.extensionId ≠ extensionId) →
    (s.step call).coordinator = s.coordinator

/-- A request that is made for this target finds a number that has not been used; and if there are
too many, the first key that is come to is that of the oldest. -/
def Spares (c : WallpaperCoordinator) (order : HashOrder) (target : WallpaperTarget) : Prop :=
  c.nextRequestSeq + 1 < 2 ^ 64 ∧
    ((c.others target).length = maxPendingRequests →
      (order.arrange (requestId (c.nextRequestSeq + 1) :: (c.others target).map Sigma.fst)).head? =
        ((c.others target).map Sigma.fst).getLast?)

instance (c : WallpaperCoordinator) (order : HashOrder) (target : WallpaperTarget) :
    Decidable (Spares c order target) :=
  inferInstanceAs (Decidable (_ ∧ (_ → _)))

/-- The request that is asked for, if any, is spared if it is made. -/
def Unforced (order : HashOrder) : WallpaperCoordinator ×
    Option (WallpaperRequestReason × WallpaperMode × WallpaperTarget) → Prop
  | (c, some (_, mode, target)) => c.supports mode target = true → Spares c order target
  | (_, none) => True

instance (order : HashOrder) : DecidablePred (Unforced order)
  | (_, some (_, _, _)) => inferInstanceAs (Decidable (_ → Spares _ _ _))
  | (_, none) => .isTrue trivial

/-- An answer to a pending request, but not from whom it was sent to. -/
def foreign : CoordinatorOp → Bool
  | .validateWallpaperEffect source (some reqId) _ extensionId generation =>
    source ≠ .remote && (s.coordinator.pendingRequests.lookup reqId).any fun p =>
      p.generation ≠ generation || p.extensionId ≠ extensionId
  | _ => false

/-- The table comes to its oldest key first when it is full, no answer to a pending request comes
from elsewhere, and the numbers do not run out. -/
def Calm (call : CoordinatorCall) : Prop :=
  s.foreign call.op = false ∧ Unforced call.order (s.coordinator.called call.op)

instance (call : CoordinatorCall) : Decidable (s.Calm call) :=
  inferInstanceAs (Decidable (_ ∧ _))

/-! ### The invariant -/

/-- The two tables are inverse to one another, and everything in them has been sent. -/
structure Inv : Prop where
  small : s.coordinator.pendingRequests.entries.length ≤ maxPendingRequests
  inverse : s.coordinator.Inverse
  activeKnown : ∀ t id, s.coordinator.activeRequestByTarget.lookup t = some id →
    ∃ k ≤ s.coordinator.nextRequestSeq, id = requestId k
  sentKnown : ∀ request ∈ s.sent, ∃ k ≤ s.coordinator.nextRequestSeq, request.1 = requestId k
  pendingSent : ∀ id p, s.coordinator.pendingRequests.lookup id = some p →
    (id, p.extensionId, p.generation) ∈ s.sent
  acceptedSent : ∀ answer ∈ s.accepted, answer ∈ s.sent
  acceptedOnce : (s.accepted.map Prod.fst).Nodup
  acceptedGone : ∀ answer ∈ s.accepted, s.coordinator.pendingRequests.lookup answer.1 = none

theorem inv_new (now : ℕ) : (new now).Inv where
  small := Nat.zero_le _
  inverse := inverse_of_empty rfl rfl
  activeKnown := fun t id h => by cases h
  sentKnown := fun request h => by cases h
  pendingSent := fun id p h => by cases h
  acceptedSent := fun answer h => by cases h
  acceptedOnce := List.nodup_nil
  acceptedGone := fun answer h => by cases h

namespace Inv

variable {s} {c' : WallpaperCoordinator} {order : HashOrder}

theorem sound (h : s.Inv) : s.Sound where
  small := h.small
  active := h.inverse.active
  answerable := fun id p source target hp hremote => by
    rw [h.inverse.validateWallpaperEffect_of_pending target hremote hp]
  rightful := h.acceptedSent
  once := h.acceptedOnce

/-- The number of the next request has not been used. -/
theorem fresh (h : s.Inv) :
    s.coordinator.pendingRequests.lookup (requestId (s.coordinator.nextRequestSeq + 1)) = none := by
  rw [Option.eq_none_iff_forall_ne_some]
  intro p hp
  obtain ⟨k, hk, hid⟩ := h.sentKnown _ (h.pendingSent _ _ hp)
  exact requestId_ne hk hid

/-- Without tables, or with the same, what has been sent is what has been sent. -/
theorem settled (h : s.Inv) (hc : s.coordinator.Settles c') :
    ({ s with coordinator := c' } : WallpaperSession).Inv := by
  obtain ⟨hseq, ⟨hpending, hactive⟩ | ⟨hpending, hactive⟩⟩ := hc
  · exact {
      small := hpending ▸ h.small
      inverse := ⟨hpending ▸ hactive ▸ h.inverse.active, hactive ▸ h.inverse.injective⟩
      activeKnown := hactive ▸ hseq ▸ h.activeKnown
      sentKnown := hseq ▸ h.sentKnown
      pendingSent := hpending ▸ h.pendingSent
      acceptedSent := h.acceptedSent
      acceptedOnce := h.acceptedOnce
      acceptedGone := hpending ▸ h.acceptedGone }
  · exact {
      small := hpending ▸ Nat.zero_le _
      inverse := inverse_of_empty hpending hactive
      activeKnown := fun t id ht => by rw [hactive] at ht; cases ht
      sentKnown := hseq ▸ h.sentKnown
      pendingSent := fun id p hp => by rw [hpending] at hp; cases hp
      acceptedSent := h.acceptedSent
      acceptedOnce := h.acceptedOnce
      acceptedGone := fun answer _ => by rw [hpending]; rfl }

/-- A supported request is put in. -/
theorem putsIn (h : s.Inv) (reason : WallpaperRequestReason) {mode : WallpaperMode}
    {target : WallpaperTarget} (hsupports : s.coordinator.supports mode target)
    (hspares : Spares s.coordinator order target) :
    ∃ (provider : CanonicalId) (generation : ℕ) (c' : WallpaperCoordinator),
      s.coordinator.dispatchRequest order reason mode target =
        (c', some (provider.extensionId, ⟨requestId (s.coordinator.nextRequestSeq + 1),
          provider.contributionId.text, reason, mode, target⟩)) ∧
      PutsIn s.coordinator c' ⟨generation, provider.extensionId, target, mode, reason⟩ := by
  obtain ⟨provider, generation, hgeneration, hdispatch⟩ :=
    dispatchRequest_of_supports order reason hsupports hspares.1
  refine ⟨provider, generation, _, hdispatch, ?_⟩
  exact {
    generation := hgeneration
    seq := rfl
    active := rfl
    entries := h.inverse.entries_bounded _ h.small h.fresh hspares.2 }

theorem putIn (h : s.Inv) {p : PendingWallpaperRequest} (hput : PutsIn s.coordinator c' p) :
    ({ s with
        coordinator := c'
        sent := s.sent ++ [(requestId (s.coordinator.nextRequestSeq + 1), p.extensionId,
          p.generation)] } : WallpaperSession).Inv := by
  have hknown : ∀ id, (∃ k ≤ s.coordinator.nextRequestSeq, id = requestId k) →
      ∃ k ≤ c'.nextRequestSeq, id = requestId k := by
    rintro id ⟨k, hk, rfl⟩
    exact ⟨k, hput.seq ▸ Nat.le_succ_of_le hk, rfl⟩
  have hnew : ∃ k ≤ c'.nextRequestSeq,
      requestId (s.coordinator.nextRequestSeq + 1) = requestId k :=
    ⟨_, hput.seq ▸ le_rfl, rfl⟩
  exact {
    small := by
      rw [hput.entries]
      exact List.length_take_le _ _
    inverse := {
      active := fun id q hq => by
        rw [hput.active]
        obtain ⟨rfl, rfl⟩ | ⟨hne, hq⟩ := hput.of_lookup hq
        · exact AList.lookup_insert _
        · rw [AList.lookup_insert_ne hne]
          exact h.inverse.active id q hq
      injective := fun t t' id ht ht' => by
        rw [hput.active] at ht ht'
        have hold : ∀ t'', s.coordinator.activeRequestByTarget.lookup t'' ≠
            some (requestId (s.coordinator.nextRequestSeq + 1)) := by
          intro t'' hactive
          obtain ⟨k, hk, hid⟩ := h.activeKnown _ _ hactive
          exact requestId_ne hk hid
        obtain ⟨rfl, rfl⟩ | ⟨hne, ht⟩ := lookup_insert_cases ht <;>
          obtain ⟨rfl, hid⟩ | ⟨hne', ht'⟩ := lookup_insert_cases ht'
        · rfl
        · exact absurd ht' (hold _)
        · exact absurd (hid ▸ ht) (hold t)
        · exact h.inverse.injective _ _ _ ht ht' }
    activeKnown := fun t id ht => by
      rw [hput.active] at ht
      obtain ⟨rfl, rfl⟩ | ⟨hne, ht⟩ := lookup_insert_cases ht
      · exact hnew
      · exact hknown _ (h.activeKnown _ _ ht)
    sentKnown := fun request hrequest => by
      obtain hrequest | hrequest := List.mem_append.mp hrequest
      · exact hknown _ (h.sentKnown _ hrequest)
      · rw [List.mem_singleton.mp hrequest]
        exact hnew
    pendingSent := fun id q hq => by
      obtain ⟨rfl, rfl⟩ | ⟨hne, hq⟩ := hput.of_lookup hq
      · exact List.mem_append_right _ (List.mem_singleton.mpr rfl)
      · exact List.mem_append_left _ (h.pendingSent _ _ hq)
    acceptedSent := fun answer hanswer => List.mem_append_left _ (h.acceptedSent _ hanswer)
    acceptedOnce := h.acceptedOnce
    acceptedGone := fun answer hanswer => by
      rw [Option.eq_none_iff_forall_ne_some]
      intro q hq
      obtain ⟨hid, -⟩ | ⟨-, hq⟩ := hput.of_lookup hq
      · obtain ⟨k, hk, hk'⟩ := h.sentKnown _ (h.acceptedSent _ hanswer)
        exact requestId_ne hk (hid.symm.trans hk')
      · rw [h.acceptedGone _ hanswer] at hq
        cases hq }

/-- The rightful answer to a pending request. -/
theorem answered (h : s.Inv) {reqId : String} {p : PendingWallpaperRequest}
    (hp : s.coordinator.pendingRequests.lookup reqId = some p) :
    ({ s with
        coordinator := { s.coordinator with
          pendingRequests := s.coordinator.pendingRequests.erase reqId }
        accepted := s.accepted ++ [(reqId, p.extensionId, p.generation)] } :
      WallpaperSession).Inv := by
  have hleft : ∀ id q, (s.coordinator.pendingRequests.erase reqId).lookup id = some q →
      s.coordinator.pendingRequests.lookup id = some q := fun id q hq =>
    AList.mem_lookup_iff.mpr (mem_entries_of_mem_erase (AList.mem_lookup_iff.mp hq))
  exact {
    small := (List.kerase_sublist _ _).length_le.trans h.small
    inverse := h.inverse.erase reqId
    activeKnown := h.activeKnown
    sentKnown := h.sentKnown
    pendingSent := fun id q hq => h.pendingSent _ _ (hleft _ _ hq)
    acceptedSent := fun answer hanswer => by
      obtain hanswer | hanswer := List.mem_append.mp hanswer
      · exact h.acceptedSent _ hanswer
      · rw [List.mem_singleton.mp hanswer]
        exact h.pendingSent _ _ hp
    acceptedOnce := by
      rw [List.map_append, List.nodup_append]
      refine ⟨h.acceptedOnce, List.nodup_singleton _, ?_⟩
      rintro id hid _ hreqId rfl
      obtain ⟨answer, hanswer, rfl⟩ := List.mem_map.mp hid
      rw [List.map_singleton, List.mem_singleton] at hreqId
      have hgone := h.acceptedGone _ hanswer
      rw [hreqId, hp] at hgone
      cases hgone
    acceptedGone := fun answer hanswer => by
      obtain hanswer | hanswer := List.mem_append.mp hanswer
      · rw [Option.eq_none_iff_forall_ne_some]
        intro q hq
        have hq := hleft _ _ hq
        rw [h.acceptedGone _ hanswer] at hq
        cases hq
      · rw [List.mem_singleton.mp hanswer]
        exact AList.lookup_erase _ _ }

/-- What a request does, or does not, to the tables. -/
theorem ask (h : s.Inv)
    {request : Option (WallpaperRequestReason × WallpaperMode × WallpaperTarget)}
    (hforced : Unforced order (s.coordinator, request)) :
    (s.coordinator.ask order request = (s.coordinator, none)) ∨
    ∃ (contributionId : String) (c' : WallpaperCoordinator) (p : PendingWallpaperRequest),
      s.coordinator.ask order request = (c', some (p.extensionId,
        ⟨requestId (s.coordinator.nextRequestSeq + 1), contributionId, p.reason, p.mode,
          p.target⟩)) ∧ PutsIn s.coordinator c' p := by
  match request with
  | none => exact .inl rfl
  | some (reason, mode, target) =>
    by_cases hsupports : s.coordinator.supports mode target
    · obtain ⟨provider, generation, c', hask, hput⟩ := h.putsIn reason hsupports (hforced hsupports)
      exact .inr ⟨_, _, ⟨generation, provider.extensionId, target, mode, reason⟩, hask, hput⟩
    · exact .inl (dispatchRequest_of_not_supports hsupports)

end Inv

/-! ### One call -/

variable {s} {call : CoordinatorCall}

/-- A call is a rightful answer, or no answer that is looked at. -/
theorem answer_cases (h : s.foreign call.op = false) : s.coordinator.Untaken call.op ∨
    ∃ source reqId target p, s.coordinator.pendingRequests.lookup reqId = some p ∧
      source ≠ .remote ∧
      call.op = .validateWallpaperEffect source (some reqId) target p.extensionId p.generation := by
  by_cases huntaken : s.coordinator.Untaken call.op
  · exact .inl huntaken
  · simp only [Untaken, not_forall, not_or] at huntaken
    obtain ⟨source, reqId, target, extensionId, generation, hop, hremote, hpending⟩ := huntaken
    obtain ⟨p, hp⟩ := Option.ne_none_iff_exists'.mp hpending
    simp [hop, foreign, hremote, hp] at h
    exact .inr ⟨source, reqId, target, p, hp, hremote, by rw [hop, h.1, h.2]⟩

theorem step_of_untaken (h : s.coordinator.Untaken call.op) {c c' : WallpaperCoordinator}
    {request : Option (WallpaperRequestReason × WallpaperMode × WallpaperTarget)}
    {dispatched : Dispatched} (hcalled : s.coordinator.called call.op = (c, request))
    (hask : c.ask call.order request = (c', dispatched)) :
    s.coordinator.perform call.order call.op = (c', dispatched) ∧
      s.step call = { s with coordinator := c', sent := s.sent ++ sentOut c' dispatched } := by
  have hperform : s.coordinator.perform call.order call.op = (c', dispatched) := by
    rw [perform_eq, hcalled, hask]
  refine ⟨hperform, ?_⟩
  simp only [step, hperform, accepts_of_untaken h, Option.toList_none, List.append_nil]

/-- The rightful answer to a pending request is accepted. -/
theorem step_of_answer (h : s.Inv) {source : WallpaperSource} {reqId : String}
    {target : Option WallpaperTarget} {p : PendingWallpaperRequest} (hremote : source ≠ .remote)
    (hp : s.coordinator.pendingRequests.lookup reqId = some p)
    (hop : call.op =
      .validateWallpaperEffect source (some reqId) target p.extensionId p.generation) :
    s.coordinator.perform call.order call.op =
        ({ s.coordinator with
          pendingRequests := s.coordinator.pendingRequests.erase reqId }, none) ∧
      s.step call = { s with
        coordinator := { s.coordinator with
          pendingRequests := s.coordinator.pendingRequests.erase reqId }
        accepted := s.accepted ++ [(reqId, p.extensionId, p.generation)] } := by
  have hvalidate := h.inverse.validateWallpaperEffect_of_pending target hremote hp
  have hperform : s.coordinator.perform call.order call.op =
      ({ s.coordinator with
        pendingRequests := s.coordinator.pendingRequests.erase reqId }, none) := by
    rw [hop, perform, hvalidate]
  have haccepts : s.coordinator.accepts call.op = some (reqId, p.extensionId, p.generation) := by
    simp only [hop, accepts, hvalidate]
  refine ⟨hperform, ?_⟩
  simp only [step, hperform, haccepts, sentOut, List.append_nil, Option.toList_some]

/-- A calm call keeps the tables inverse to one another, and does what it should. -/
theorem step_of_calm (h : s.Inv) (hcalm : s.Calm call) : (s.step call).Inv ∧ s.Kept call := by
  obtain huntaken | ⟨source, reqId, target, p, hp, hremote, hop⟩ := answer_cases hcalm.1
  · have hsettled := h.settled (settles_called huntaken)
    have hunforced := hcalm.2
    have hforeign : ∀ source reqId target extensionId generation,
        call.op = .validateWallpaperEffect source (some reqId) target extensionId generation →
        (s.step call).coordinator = s.coordinator := by
      intro source reqId target extensionId generation hop
      simp only [step, hop, perform]
      refine validateWallpaperEffect_of_not_pending ?_
      obtain hremote | hnone := huntaken _ _ _ _ _ hop
      · exact .inl hremote
      · exact .inr fun id hid => Option.mem_some.mp hid ▸ hnone
    cases hcalled : s.coordinator.called call.op with
    | mk c request =>
      rw [hcalled] at hsettled hunforced
      obtain hask | ⟨contributionId, c', p, hask, hput⟩ := hsettled.ask hunforced
      · obtain ⟨hperform, hstep⟩ := step_of_untaken huntaken hcalled hask
        rw [hstep, sentOut, List.append_nil]
        refine ⟨hsettled, ?_, fun source reqId target extensionId generation hop _ =>
          hforeign source reqId target extensionId generation hop⟩
        intro extensionId request hmade
        rw [hperform] at hmade
        cases hmade
      · obtain ⟨hperform, hstep⟩ := step_of_untaken huntaken hcalled hask
        refine ⟨?_, ?_, fun source reqId target extensionId generation hop _ =>
          hforeign source reqId target extensionId generation hop⟩
        · rw [hstep, sentOut, hput.generation]
          exact hsettled.putIn hput
        · intro extensionId request hmade
          rw [hperform] at hmade
          cases hmade
          rw [hstep, hcalled]
          exact ⟨p.generation, hput.generation, hput.entries⟩
  · obtain ⟨hperform, hstep⟩ := step_of_answer h hremote hp hop
    refine ⟨hstep ▸ h.answered hp, ?_, ?_⟩
    · intro extensionId request hmade
      rw [hperform] at hmade
      cases hmade
    · intro source' reqId' target' extensionId generation hop' hforeign
      rw [hop] at hop'
      cases hop'
      obtain hne | hne := hforeign p hp
      · exact absurd rfl hne
      · exact absurd rfl hne

/-- **In a calm run the table of requests is small and its requests are the active ones, each
request that is made is pending with all but the oldest of the others, each answer is accepted once,
and an answer from elsewhere changes nothing.** -/
theorem requests_kept_of_calm (now : ℕ) (calls : List CoordinatorCall)
    (hcalm : Along step Calm (new now) calls) :
    Always step Sound (new now) calls ∧ Along step Kept (new now) calls := by
  constructor
  · rw [always_iff]
    rintro pre post rfl
    have hpre := ((along_append _ pre post).mp hcalm).1
    exact (hpre.holds (I := Inv) (fun _ _ h hcall => (step_of_calm h hcall).1) (inv_new now)).sound
  · rw [along_iff]
    rintro pre call post rfl
    have hpre := (along_append _ pre (call :: post)).mp hcalm
    have hinv := hpre.1.holds (I := Inv) (fun _ _ h hcall => (step_of_calm h hcall).1)
      (inv_new now)
    exact (step_of_calm hinv hpre.2.1).2

/-! ### Another extension -/

/-- The keys are come to newest first. -/
def newestFirst : HashOrder := ⟨id, fun _ => .refl _⟩

def picturesId : CanonicalId := ⟨⟨"shilpo.pictures"⟩, ⟨"wallpapers"⟩⟩

/-- Its wallpapers are of every kind. -/
def adoptPictures : CoordinatorCall where
  order := newestFirst
  op := .syncActiveProvider ⟨∅, some picturesId⟩ [⟨picturesId, .wallpaper, none, none⟩] 1 0

/-- The extension answers the request of number 1. -/
def answerFirst (extensionId : ExtensionId) : CoordinatorCall where
  order := newestFirst
  op := .validateWallpaperEffect .localFile (some (requestId 1)) none extensionId 1

/-- A provider is asked, answers, and is asked again. -/
theorem requests_kept_answered :
    Always step Sound (new 0) [adoptPictures, answerFirst picturesId.extensionId,
        ⟨newestFirst, .requestNextWallpaper⟩] ∧
      Along step Kept (new 0) [adoptPictures, answerFirst picturesId.extensionId,
        ⟨newestFirst, .requestNextWallpaper⟩] :=
  requests_kept_of_calm 0 _ (by decide +kernel)

/-- Another extension answers in the provider's place. -/
def answeredByOther : List CoordinatorCall := [adoptPictures, answerFirst ⟨"shilpo.other"⟩]

/-- The answer of the other extension takes the request. -/
theorem not_kept_answeredByOther : ¬ Along step Kept (new 0) answeredByOther := by
  intro halong
  have hkept := (along_iff _ _).mp halong [adoptPictures] (answerFirst ⟨"shilpo.other"⟩) [] rfl
  have hforeign := hkept.foreign _ _ _ _ _ rfl (by decide +kernel)
  have htaken := congrArg (·.pendingRequests.entries.length) hforeign
  revert htaken
  decide +kernel

end WallpaperSession

end Shilpo.Shell
