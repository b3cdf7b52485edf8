import Shilpo.Engine.Events

/-!
# Reconciling instances

`reconcile_instances` of `worker/engine.rs` makes the instances of the session those that the shell
wants, and tells their extensions what has changed. Sizes are rational numbers here, settings are
any values that can be compared, and the host is any machine that takes events: it says whether the
breaker of the extension has let the event through.

A name that is kept is never mounted anew, also where it is wanted for another contribution, and a
size is only taken if it differs by more than `f32::EPSILON`. Otherwise the instances become those
that are wanted, and each extension is told of just that (`reconcileInstances_reaches_iff`).
-/

namespace Shilpo.Engine.Reconciling

open Extensions

variable {σ H : Type}

/-! ### The session -/

/-- A contribution as it stands somewhere on the screen. -/
structure ContributionInstance (σ : Type) where
  id : String
  contribution : CanonicalId
  output : Option String
  width : ℚ
  height : ℚ
  settings : σ

/-- The events of an instance. -/
inductive InstanceEvent (σ : Type) where
  | contributionMounted (contributionId : String) (instanceId : Option String) (width height : ℚ)
  | contributionUnmounted (contributionId : String) (instanceId : Option String)
  | contributionResized (contributionId : String) (instanceId : Option String) (width height : ℚ)
  | contributionSettingsChanged (contributionId : String) (instanceId : Option String)
      (settings : σ)

/-- The extension and the instance an event is for, if it names one. -/
def InstanceEvent.located : InstanceEvent σ → Option (CanonicalId × String)
  | contributionMounted contributionId instanceId _ _
  | contributionUnmounted contributionId instanceId
  | contributionResized contributionId instanceId _ _
  | contributionSettingsChanged contributionId instanceId _ =>
    Engine.located contributionId instanceId

/-- An event that was dispatched to an extension; `told` if its breaker was closed. -/
structure Delivery (σ : Type) where
  extensionId : ExtensionId
  event : InstanceEvent σ
  told : Bool

/-- The surroundings: the host, and the settings of a new instance. -/
structure SessionEnv (σ H : Type) where
  dispatchEvent : H → ExtensionId → InstanceEvent σ → Bool × H
  noSettings : σ

/-- The order in which a map gives its entries. -/
structure Order where
  arrange : {α : Type} → List α → List α
  arrange_perm : ∀ {α : Type} (l : List α), (arrange l).Perm l

abbrev Instances (σ : Type) := AList fun _ : String => ContributionInstance σ

structure InstanceSession (σ H : Type) where
  host : H
  instances : Instances σ

namespace InstanceSession

variable (env : SessionEnv σ H)

/-- Where contributions stand after an event. -/
def noteInstance (event : InstanceEvent σ) (canonical : CanonicalId) (key : String)
    (instances : Instances σ) : Instances σ :=
  match event with
  | .contributionMounted _ _ width height =>
    instances.insert key ⟨key, canonical, none, width, height, env.noSettings⟩
  | .contributionUnmounted _ _ => instances.erase key
  | .contributionResized _ _ width height =>
    match instances.lookup key with
    | some placed => instances.insert key { placed with width, height }
    | none => instances
  | .contributionSettingsChanged _ _ settings =>
    match instances.lookup key with
    | some placed => instances.insert key { placed with settings }
    | none => instances

/-- `ExtensionSession::dispatch`. -/
def dispatch (event : InstanceEvent σ) (session : InstanceSession σ H) :
    List (Delivery σ) × InstanceSession σ H :=
  match event.located with
  | some (canonical, key) =>
    let (told, host) := env.dispatchEvent session.host canonical.extensionId event
    ([⟨canonical.extensionId, event, told⟩],
      ⟨host, noteInstance env event canonical key session.instances⟩)
  | none => ([], session)

/-- One is visited after the other. -/
def visitEach {κ : Type}
    (visit : κ → InstanceSession σ H → List (Delivery σ) × InstanceSession σ H) :
    List κ → InstanceSession σ H → List (Delivery σ) × InstanceSession σ H
  | [], session => ([], session)
  | k :: ks, session =>
    let (sent, session) := visit k session
    let (later, session) := visitEach visit ks session
    (sent ++ later, session)

/-! ### Reconciling -/

/-- The event that a contribution is not there any more. -/
def unmounted (placed : ContributionInstance σ) : InstanceEvent σ :=
  .contributionUnmounted placed.contribution.text (some placed.id)

/-- What stands where nothing is wanted is taken away. -/
def unmountMissing (desired : Instances σ) (key : String) (session : InstanceSession σ H) :
    List (Delivery σ) × InstanceSession σ H :=
  match desired.lookup key, session.instances.lookup key with
  | none, some placed => session.dispatch env (unmounted placed)
  | _, _ => ([], session)

/-- `f32::EPSILON`. -/
def floatEpsilon : ℚ := 1 / 2 ^ 23

/-- The size that is wanted is not the one there is. -/
def widthChanged (existing wanted : ContributionInstance σ) : Bool :=
  floatEpsilon < |existing.width - wanted.width| ||
    floatEpsilon < |existing.height - wanted.height|

variable [DecidableEq σ]

/-- The events that make what stands somewhere, if anything does, what is wanted. -/
def eventsFor (existing : Option (ContributionInstance σ)) (wanted : ContributionInstance σ) :
    List (InstanceEvent σ) :=
  let contributionId := wanted.contribution.text
  match existing with
  | some existing =>
    (if widthChanged existing wanted then
      [.contributionResized contributionId (some wanted.id) wanted.width wanted.height]
    else []) ++
      if existing.settings ≠ wanted.settings then
        [.contributionSettingsChanged contributionId (some wanted.id) wanted.settings]
      else []
  | none =>
    [.contributionMounted contributionId (some wanted.id) wanted.width wanted.height,
      .contributionSettingsChanged contributionId (some wanted.id) wanted.settings]

/-- What stands somewhere gets the size and the settings that are wanted. -/
def adjusted (existing wanted : ContributionInstance σ) : ContributionInstance σ :=
  { existing with
    width := if widthChanged existing wanted then wanted.width else existing.width
    height := if widthChanged existing wanted then wanted.height else existing.height
    settings := if existing.settings ≠ wanted.settings then wanted.settings else existing.settings }

/-- What is wanted is put where it belongs. -/
def place (wanted : Sigma fun _ : String => ContributionInstance σ)
    (session : InstanceSession σ H) : List (Delivery σ) × InstanceSession σ H :=
  let existing := session.instances.lookup wanted.1
  let instances :=
    match existing with
    | some placed => session.instances.insert wanted.1 (adjusted placed wanted.2)
    | none => session.instances
  visitEach (dispatch env) (eventsFor existing wanted.2) { session with instances }

omit [DecidableEq σ] in
/-- What is wanted, by its names. -/
def desiredKeys (desired : List (ContributionInstance σ)) : Instances σ :=
  desired.foldl (fun wanted placed => wanted.insert placed.id placed) ∅

/-- `reconcile_instances`. -/
def reconcileInstances (order : Order) (desired : List (ContributionInstance σ))
    (session : InstanceSession σ H) : List (Delivery σ) × InstanceSession σ H :=
  let wanted := desiredKeys desired
  let (sent, session) :=
    session |> visitEach (unmountMissing env wanted) (order.arrange session.instances.keys)
  let (later, session) := session |> visitEach (place env) (order.arrange wanted.entries)
  (sent ++ later, session)

/-! ### What an event notes -/

section

variable {env : SessionEnv σ H} {canonical : CanonicalId} {key : String} {instances : Instances σ}

omit [DecidableEq σ]

/-- What stands under a name after an event for it. -/
def noted (env : SessionEnv σ H) (event : InstanceEvent σ) (canonical : CanonicalId) (key : String)
    (placed : Option (ContributionInstance σ)) : Option (ContributionInstance σ) :=
  match event with
  | .contributionMounted _ _ width height =>
    some ⟨key, canonical, none, width, height, env.noSettings⟩
  | .contributionUnmounted _ _ => none
  | .contributionResized _ _ width height => placed.map fun placed => { placed with width, height }
  | .contributionSettingsChanged _ _ settings => placed.map fun placed => { placed with settings }

theorem lookup_noteInstance_self (event : InstanceEvent σ) :
    (noteInstance env event canonical key instances).lookup key =
      noted env event canonical key (instances.lookup key) := by
  cases event with
  | contributionMounted => exact AList.lookup_insert _
  | contributionUnmounted => exact AList.lookup_erase _ _
  | contributionResized | contributionSettingsChanged =>
    simp only [noteInstance, noted]
    cases h : instances.lookup key with
    | none => simpa using h
    | some placed => simp

theorem lookup_noteInstance_of_ne {other : String} (h : other ≠ key) (event : InstanceEvent σ) :
    (noteInstance env event canonical key instances).lookup other = instances.lookup other := by
  cases event with
  | contributionMounted => exact AList.lookup_insert_ne h
  | contributionUnmounted => exact AList.lookup_erase_ne h
  | contributionResized | contributionSettingsChanged =>
    simp only [noteInstance]
    cases instances.lookup key with
    | none => rfl
    | some placed => exact AList.lookup_insert_ne h

end

/-! ### Visits -/

/-- Events with the extensions they are for. -/
abbrev Addressed (σ : Type) := List (ExtensionId × InstanceEvent σ)

omit [DecidableEq σ] in
/-- What was dispatched, told or not. -/
def addressed (sent : List (Delivery σ)) : Addressed σ :=
  sent.map fun delivery => (delivery.extensionId, delivery.event)

section

variable {κ : Type} {env : SessionEnv σ H} {session : InstanceSession σ H}

omit [DecidableEq σ]

/-- A visit leaves what is under the name, and dispatches what is due; the rest stays. -/
structure Visited (session : InstanceSession σ H)
    (result : List (Delivery σ) × InstanceSession σ H) (key : String)
    (after : Option (ContributionInstance σ)) (due : Addressed σ) : Prop where
  self : result.2.instances.lookup key = after
  other : ∀ name, name ≠ key → result.2.instances.lookup name = session.instances.lookup name
  due : addressed result.1 = due

theorem visited_dispatch (env : SessionEnv σ H) (session : InstanceSession σ H)
    {event : InstanceEvent σ} {canonical : CanonicalId} {key : String}
    (h : event.located = some (canonical, key)) :
    Visited session (session.dispatch env event) key
      (noted env event canonical key (session.instances.lookup key))
      [(canonical.extensionId, event)] := by
  simp only [dispatch, h]
  exact ⟨lookup_noteInstance_self event, fun name hne => lookup_noteInstance_of_ne hne event, rfl⟩

/-- Nothing is done. -/
theorem Visited.nothing (session : InstanceSession σ H) (key : String) :
    Visited session ([], session) key (session.instances.lookup key) [] :=
  ⟨rfl, fun _ _ => rfl, rfl⟩

/-- Visits of different names, one after the other: each finds what was under its name at first. -/
theorem visitEach_spec (session : InstanceSession σ H)
    (visit : κ → InstanceSession σ H → List (Delivery σ) × InstanceSession σ H)
    (name : κ → String) (Good : κ → Option (ContributionInstance σ) → Prop)
    (after : κ → Option (ContributionInstance σ) → Option (ContributionInstance σ))
    (due : κ → Option (ContributionInstance σ) → Addressed σ)
    (hvisit : ∀ k session, Good k (session.instances.lookup (name k)) →
      Visited session (visit k session) (name k) (after k (session.instances.lookup (name k)))
        (due k (session.instances.lookup (name k))))
    {ks : List κ} (hnodup : (ks.map name).Nodup)
    (hgood : ∀ k ∈ ks, Good k (session.instances.lookup (name k))) :
    (∀ k ∈ ks, (session.visitEach visit ks).2.instances.lookup (name k) =
        after k (session.instances.lookup (name k))) ∧
      (∀ key, key ∉ ks.map name →
        (session.visitEach visit ks).2.instances.lookup key = session.instances.lookup key) ∧
      addressed (session.visitEach visit ks).1 =
        ks.flatMap fun k => due k (session.instances.lookup (name k)) := by
  induction ks generalizing session with
  | nil => exact ⟨fun _ h => absurd h List.not_mem_nil, fun _ _ => rfl, rfl⟩
  | cons k ks ih =>
    obtain ⟨hnotMem, hrest⟩ := List.nodup_cons.mp hnodup
    obtain ⟨hself, hother, hdue⟩ := hvisit k session (hgood k List.mem_cons_self)
    have hkept : ∀ later ∈ ks, (visit k session).2.instances.lookup (name later) =
        session.instances.lookup (name later) := by
      intro later hlater
      refine hother _ fun heq => hnotMem ?_
      exact heq ▸ List.mem_map_of_mem hlater
    obtain ⟨hlookup, hleft, hsent⟩ := ih (visit k session).2 hrest fun later hlater =>
      (hkept later hlater).symm ▸ hgood later (List.mem_cons_of_mem _ hlater)
    refine ⟨?_, ?_, ?_⟩
    · intro later hlater
      obtain rfl | hlater := List.mem_cons.mp hlater
      · exact (hleft _ hnotMem).trans hself
      · exact (hlookup later hlater).trans (congrArg _ (hkept later hlater))
    · intro key hkey
      simp only [List.map_cons, List.mem_cons, not_or] at hkey
      exact (hleft key hkey.2).trans (hother key hkey.1)
    · simp only [visitEach, addressed, List.map_append, List.flatMap_cons]
      refine congrArg₂ _ hdue (hsent.trans ?_)
      exact List.flatMap_congr fun later hlater => by rw [hkept later hlater]

/-- Events of one instance. -/
theorem visited_dispatchEach (env : SessionEnv σ H) (session : InstanceSession σ H)
    {canonical : CanonicalId} {key : String} {events : List (InstanceEvent σ)}
    (h : ∀ event ∈ events, event.located = some (canonical, key)) :
    Visited session (session.visitEach (dispatch env) events) key
      (events.foldl (fun placed event => noted env event canonical key placed)
        (session.instances.lookup key))
      (events.map fun event => (canonical.extensionId, event)) := by
  induction events generalizing session with
  | nil => exact .nothing session key
  | cons event events ih =>
    obtain ⟨hself, hother, hdue⟩ :=
      visited_dispatch env session (h event List.mem_cons_self)
    obtain ⟨hlast, hleft, hsent⟩ := ih (session.dispatch env event).2
      fun later hlater => h later (List.mem_cons_of_mem _ hlater)
    refine ⟨?_, fun name hne => (hleft name hne).trans (hother name hne), ?_⟩
    · rw [hself] at hlast
      exact hlast
    · simp only [visitEach, addressed, List.map_append]
      exact congrArg₂ _ hdue hsent

/-- What stands under a name is named so. -/
structure Fits (key : String) (placed : ContributionInstance σ) : Prop where
  id : placed.id = key
  contribution : placed.contribution.WellFormed

/-- An event with a well-formed name and an instance is for these. -/
theorem located_text {canonical : CanonicalId} (h : canonical.WellFormed) (key : String) :
    Engine.located canonical.text (some key) = some (canonical, key) := by
  rw [Engine.located, CanonicalId.parse_text h]
  rfl

/-! ### What the two rounds do -/

/-- The event that is due where something stands that is not wanted. -/
def dueUnmount (desired : Instances σ) (key : String) (placed : Option (ContributionInstance σ)) :
    Addressed σ :=
  match desired.lookup key, placed with
  | none, some placed => [(placed.contribution.extensionId, unmounted placed)]
  | _, _ => []

theorem visited_unmountMissing {desired : Instances σ} {key : String}
    (h : ∀ placed, session.instances.lookup key = some placed → Fits key placed) :
    Visited session (session.unmountMissing env desired key) key
      (if desired.lookup key = none then none else session.instances.lookup key)
      (dueUnmount desired key (session.instances.lookup key)) := by
  rw [unmountMissing.eq_def, dueUnmount.eq_def]
  cases hdesired : desired.lookup key with
  | some wanted => exact .nothing session key
  | none =>
    cases hplaced : session.instances.lookup key with
    | none => exact ⟨hplaced, fun _ _ => rfl, rfl⟩
    | some placed =>
      obtain ⟨rfl, hcontribution⟩ := h placed hplaced
      have hlocated : (unmounted placed).located = some (placed.contribution, placed.id) :=
        located_text hcontribution placed.id
      exact visited_dispatch env session hlocated

end

/-- What stands where something is wanted. -/
def placedAs (wanted : ContributionInstance σ) :
    Option (ContributionInstance σ) → ContributionInstance σ
  | some existing => adjusted existing wanted
  | none => { wanted with output := none }

theorem located_eventsFor {wanted : ContributionInstance σ} (h : wanted.contribution.WellFormed)
    (existing : Option (ContributionInstance σ)) :
    ∀ event ∈ eventsFor existing wanted,
      event.located = some (wanted.contribution, wanted.id) := by
  intro event hevent
  have hlocated := located_text h wanted.id
  cases existing with
  | none =>
    simp only [eventsFor, List.mem_cons, List.not_mem_nil, or_false] at hevent
    obtain rfl | rfl := hevent <;> exact hlocated
  | some existing =>
    simp only [eventsFor, List.mem_append] at hevent
    obtain hevent | hevent := hevent
    all_goals
      split_ifs at hevent
      · rw [List.mem_singleton] at hevent
        subst hevent
        exact hlocated
      · cases hevent

variable {env : SessionEnv σ H} {session : InstanceSession σ H}

theorem visited_place {entry : Sigma fun _ : String => ContributionInstance σ}
    (h : Fits entry.1 entry.2) :
    Visited session (session.place env entry) entry.1
      (some (placedAs entry.2 (session.instances.lookup entry.1)))
      ((eventsFor (session.instances.lookup entry.1) entry.2).map fun event =>
        (entry.2.contribution.extensionId, event)) := by
  obtain ⟨key, wanted⟩ := entry
  have hcontribution : wanted.contribution.WellFormed := h.contribution
  obtain rfl : wanted.id = key := h.id
  simp only [place]
  cases hexisting : session.instances.lookup wanted.id with
  | none =>
    obtain ⟨hself, hother, hdue⟩ := visited_dispatchEach env session
      (located_eventsFor hcontribution none)
    refine ⟨hself.trans ?_, hother, hdue⟩
    rfl
  | some existing =>
    obtain ⟨hself, hother, hdue⟩ := visited_dispatchEach env
      { session with
        instances := session.instances.insert wanted.id (adjusted existing wanted) }
      (located_eventsFor hcontribution (some existing))
    refine ⟨hself.trans ?_, fun name hne => (hother name hne).trans (AList.lookup_insert_ne hne),
      hdue⟩
    simp only [AList.lookup_insert, eventsFor, placedAs, adjusted]
    split_ifs <;> rfl

/-! ### A call -/

omit [DecidableEq σ] in
theorem entries_foldl_insert {desired : List (ContributionInstance σ)} {wanted : Instances σ}
    (hnodup : (desired.map ContributionInstance.id).Nodup)
    (hnew : ∀ placed ∈ desired, placed.id ∉ wanted) :
    (desired.foldl (fun wanted placed => wanted.insert placed.id placed) wanted).entries.Perm
      (desired.map (fun placed => ⟨placed.id, placed⟩) ++ wanted.entries) := by
  induction desired generalizing wanted with
  | nil => exact .refl _
  | cons placed desired ih =>
    obtain ⟨hnotMem, hrest⟩ := List.nodup_cons.mp hnodup
    have hlater : ∀ later ∈ desired, later.id ∉ wanted.insert placed.id placed := by
      intro later hlater hmem
      obtain heq | hmem := (AList.mem_insert _).mp hmem
      · exact hnotMem (heq ▸ List.mem_map_of_mem hlater)
      · exact hnew later (List.mem_cons_of_mem _ hlater) hmem
    refine (ih hrest hlater).trans ?_
    rw [AList.entries_insert_of_notMem (hnew placed List.mem_cons_self)]
    exact List.perm_middle

/-- A list of instances that can be wanted: their names are distinct. -/
structure Desirable (desired : List (ContributionInstance σ)) : Prop where
  nodup : (desired.map ContributionInstance.id).Nodup
  contribution : ∀ wanted ∈ desired, wanted.contribution.WellFormed

section

omit [DecidableEq σ]

variable {desired : List (ContributionInstance σ)}

theorem Desirable.entries (h : Desirable desired) :
    (desiredKeys desired).entries.Perm (desired.map fun placed => ⟨placed.id, placed⟩) := by
  have hnew : ∀ placed ∈ desired, placed.id ∉ (∅ : Instances σ) := fun _ _ => AList.notMem_empty _
  simpa [desiredKeys] using entries_foldl_insert h.nodup hnew

theorem Desirable.lookup_iff (h : Desirable desired) {key : String}
    {wanted : ContributionInstance σ} :
    (desiredKeys desired).lookup key = some wanted ↔ wanted ∈ desired ∧ wanted.id = key := by
  rw [← Option.mem_def, AList.mem_lookup_iff, h.entries.mem_iff, List.mem_map]
  constructor
  · rintro ⟨placed, hmem, heq⟩
    cases heq
    exact ⟨hmem, rfl⟩
  · rintro ⟨hmem, rfl⟩
    exact ⟨wanted, hmem, rfl⟩

end

/-- The names in the session are those of what stands under them. -/
def Tidy (session : InstanceSession σ H) : Prop :=
  ∀ key placed, session.instances.lookup key = some placed → Fits key placed

section

variable {order : Order} {desired : List (ContributionInstance σ)}

omit [DecidableEq σ] in
/-- The session between the two rounds. -/
theorem unmountEach_spec (env : SessionEnv σ H) (htidy : session.Tidy) (order : Order)
    (desired : Instances σ) :
    (∀ key, (session.visitEach (unmountMissing env desired)
        (order.arrange session.instances.keys)).2.instances.lookup key =
      if desired.lookup key = none then none else session.instances.lookup key) ∧
    addressed (session.visitEach (unmountMissing env desired)
        (order.arrange session.instances.keys)).1 =
      (order.arrange session.instances.keys).flatMap fun key =>
        dueUnmount desired key (session.instances.lookup key) := by
  have hperm := order.arrange_perm session.instances.keys
  obtain ⟨hself, hother, hsent⟩ := visitEach_spec session (unmountMissing env desired) id
    (fun key placed => ∀ found, placed = some found → Fits key found)
    (fun key placed => if desired.lookup key = none then none else placed) (dueUnmount desired)
    (fun key session h => visited_unmountMissing h)
    (by simpa using hperm.nodup_iff.mpr session.instances.keys_nodup)
    (fun key _ => htidy key)
  refine ⟨fun key => ?_, hsent⟩
  by_cases hkey : key ∈ order.arrange session.instances.keys
  · exact hself key hkey
  · have hnone : session.instances.lookup key = none := by
      rw [AList.lookup_eq_none, AList.mem_keys]
      exact fun h => hkey (hperm.mem_iff.mpr h)
    refine (hother key (by simpa using hkey)).trans ?_
    rw [hnone, ite_self]

/-- The second round, from any session. -/
theorem placeEach_spec (env : SessionEnv σ H) (session : InstanceSession σ H)
    (hdesired : Desirable desired) (order : Order) :
    (∀ key wanted, (desiredKeys desired).lookup key = some wanted →
      (session.visitEach (place env)
          (order.arrange (desiredKeys desired).entries)).2.instances.lookup key =
        some (placedAs wanted (session.instances.lookup key))) ∧
    (∀ key, (desiredKeys desired).lookup key = none →
      (session.visitEach (place env)
          (order.arrange (desiredKeys desired).entries)).2.instances.lookup key =
        session.instances.lookup key) ∧
    addressed (session.visitEach (place env) (order.arrange (desiredKeys desired).entries)).1 =
      (order.arrange (desiredKeys desired).entries).flatMap fun entry =>
        (eventsFor (session.instances.lookup entry.1) entry.2).map fun event =>
          (entry.2.contribution.extensionId, event) := by
  have hperm := order.arrange_perm (desiredKeys desired).entries
  have hfits : ∀ entry ∈ order.arrange (desiredKeys desired).entries, Fits entry.1 entry.2 := by
    intro entry hmem
    have hentry : (desiredKeys desired).lookup entry.1 = some entry.2 :=
      AList.mem_lookup_iff.mpr (hperm.mem_iff.mp hmem)
    obtain ⟨hwanted, hid⟩ := hdesired.lookup_iff.mp hentry
    exact ⟨hid, hdesired.contribution entry.2 hwanted⟩
  have hnodup : ((order.arrange (desiredKeys desired).entries).map Sigma.fst).Nodup :=
    (hperm.map Sigma.fst).nodup_iff.mpr (desiredKeys desired).keys_nodup
  obtain ⟨hself, hother, hsent⟩ := visitEach_spec session (place env) Sigma.fst
    (fun entry _ => Fits entry.1 entry.2) (fun entry placed => some (placedAs entry.2 placed))
    (fun entry placed => (eventsFor placed entry.2).map fun event =>
      (entry.2.contribution.extensionId, event))
    (fun _ _ h => visited_place h) hnodup hfits
  refine ⟨fun key wanted hkey => ?_, fun key hkey => hother key ?_, hsent⟩
  · exact hself ⟨key, wanted⟩ (hperm.mem_iff.mpr (AList.mem_lookup_iff.mp hkey))
  · rw [(hperm.map Sigma.fst).mem_iff]
    exact AList.lookup_eq_none.mp hkey

theorem reconcileInstances_spec (env : SessionEnv σ H) (htidy : session.Tidy)
    (hdesired : Desirable desired) (order : Order) :
    (∀ key, (session.reconcileInstances env order desired).2.instances.lookup key =
      ((desiredKeys desired).lookup key).map fun wanted =>
        placedAs wanted (session.instances.lookup key)) ∧
    addressed (session.reconcileInstances env order desired).1 =
      ((order.arrange session.instances.keys).flatMap fun key =>
        dueUnmount (desiredKeys desired) key (session.instances.lookup key)) ++
      (order.arrange (desiredKeys desired).entries).flatMap fun entry =>
        (eventsFor (session.instances.lookup entry.1) entry.2).map fun event =>
          (entry.2.contribution.extensionId, event) := by
  obtain ⟨hbetween, hunmounted⟩ := unmountEach_spec env htidy order (desiredKeys desired)
  obtain ⟨hwanted, hunwanted, hplaced⟩ := placeEach_spec env
    (session.visitEach (unmountMissing env (desiredKeys desired))
      (order.arrange session.instances.keys)).2 hdesired order
  have hsame : ∀ key wanted, (desiredKeys desired).lookup key = some wanted →
      (session.visitEach (unmountMissing env (desiredKeys desired))
          (order.arrange session.instances.keys)).2.instances.lookup key =
        session.instances.lookup key := by
    intro key wanted hkey
    rw [hbetween, if_neg (by simp [hkey])]
  constructor
  · intro key
    cases hkey : (desiredKeys desired).lookup key with
    | some wanted =>
      rw [← hsame key wanted hkey]
      exact hwanted key wanted hkey
    | none =>
      refine (hunwanted key hkey).trans ?_
      rw [hbetween, if_pos hkey]
      rfl
  · rw [addressed, reconcileInstances, List.map_append]
    refine congrArg₂ _ hunmounted (hplaced.trans (List.flatMap_congr fun entry hmem => ?_))
    have hentry : (desiredKeys desired).lookup entry.1 = some entry.2 :=
      AList.mem_lookup_iff.mpr ((order.arrange_perm _).mem_iff.mp hmem)
    rw [hsame entry.1 entry.2 hentry]

end

/-! ### Reaching what is wanted -/

omit [DecidableEq σ] in
/-- What is seen of an instance. -/
def shows (placed : ContributionInstance σ) : String × CanonicalId × ℚ × ℚ × σ :=
  (placed.id, placed.contribution, placed.width, placed.height, placed.settings)

/-- What an extension is to be told of an instance that is not wanted any more, or for another
contribution. -/
def expectedUnmount (desired : List (ContributionInstance σ)) (existing : ContributionInstance σ) :
    Addressed σ :=
  if ∃ wanted ∈ desired, wanted.id = existing.id ∧ wanted.contribution = existing.contribution then
    []
  else [(existing.contribution.extensionId, unmounted existing)]

/-- What an extension is to be told of an instance that is wanted. -/
def expectedPlace (instances : Instances σ) (wanted : ContributionInstance σ) : Addressed σ :=
  let id := wanted.contribution.extensionId
  let contributionId := wanted.contribution.text
  let mounted : Addressed σ :=
    [(id, .contributionMounted contributionId (some wanted.id) wanted.width wanted.height),
      (id, .contributionSettingsChanged contributionId (some wanted.id) wanted.settings)]
  match instances.lookup wanted.id with
  | some existing =>
    if existing.contribution = wanted.contribution then
      (if existing.width = wanted.width ∧ existing.height = wanted.height then []
        else
          [(id,
            .contributionResized contributionId (some wanted.id) wanted.width wanted.height)]) ++
      (if existing.settings = wanted.settings then []
        else [(id, .contributionSettingsChanged contributionId (some wanted.id) wanted.settings)])
    else mounted
  | none => mounted

/-- A call makes the instances those that are wanted, each extension whose breaker lets everything
through is told of just that, and another call tells nobody anything. -/
structure Reaches (env : SessionEnv σ H) (order later : Order) (session : InstanceSession σ H)
    (desired : List (ContributionInstance σ)) : Prop where
  instances : ∀ key seen,
    ((session.reconcileInstances env order desired).2.instances.lookup key).map shows = some seen ↔
      ∃ wanted ∈ desired, wanted.id = key ∧ shows wanted = seen
  told : ∃ existing wanted : List (ContributionInstance σ),
    existing.Perm (session.instances.entries.map Sigma.snd) ∧ wanted.Perm desired ∧
    ∀ id, (∀ delivery ∈ (session.reconcileInstances env order desired).1,
        delivery.extensionId = id → delivery.told = true) →
      ((session.reconcileInstances env order desired).1.filter fun delivery =>
          delivery.extensionId = id ∧ delivery.told).map Delivery.event =
        ((existing.flatMap (expectedUnmount desired) ++
          wanted.flatMap (expectedPlace session.instances)).filter (·.1 = id)).map Prod.snd
  quiet :
    ((session.reconcileInstances env order desired).2.reconcileInstances env later desired).1 = []

/-- The size that is wanted is the one there is, or it is taken. -/
def SizeSettles (existing wanted : ContributionInstance σ) : Prop :=
  existing.width = wanted.width ∧ existing.height = wanted.height ∨
    floatEpsilon < |existing.width - wanted.width| ∨
    floatEpsilon < |existing.height - wanted.height|

/-- What stands under a name that is wanted is of the contribution that is wanted, and its size
settles. -/
def Reconcilable (instances : Instances σ) (desired : List (ContributionInstance σ)) : Prop :=
  ∀ wanted ∈ desired, ∀ existing, instances.lookup wanted.id = some existing →
    existing.contribution = wanted.contribution ∧ SizeSettles existing wanted

section

variable {desired : List (ContributionInstance σ)}

omit [DecidableEq σ] in
theorem widthChanged_iff {existing wanted : ContributionInstance σ} :
    widthChanged existing wanted = true ↔ floatEpsilon < |existing.width - wanted.width| ∨
      floatEpsilon < |existing.height - wanted.height| := by
  simp [widthChanged]

theorem shows_adjusted_iff {existing wanted : ContributionInstance σ}
    (hid : existing.id = wanted.id) :
    shows (adjusted existing wanted) = shows wanted ↔
      existing.contribution = wanted.contribution ∧ SizeSettles existing wanted := by
  have hsettings : (adjusted existing wanted).settings = wanted.settings := by
    simp only [adjusted]
    split_ifs with h
    · rfl
    · exact not_not.mp h
  simp only [shows, Prod.mk.injEq, hsettings, and_true, SizeSettles, ← widthChanged_iff]
  simp only [adjusted, hid, true_and]
  by_cases hchanged : widthChanged existing wanted = true
  · simp [hchanged]
  · simp [hchanged]

theorem floatEpsilon_pos : 0 < floatEpsilon := by norm_num [floatEpsilon]

omit [DecidableEq σ] in
/-- Where the size settles it is taken exactly if it is another. -/
theorem widthChanged_iff_of_settles {existing wanted : ContributionInstance σ}
    (h : SizeSettles existing wanted) :
    widthChanged existing wanted = true ↔
      ¬ (existing.width = wanted.width ∧ existing.height = wanted.height) := by
  constructor
  · rintro hchanged ⟨hwidth, hheight⟩
    rw [widthChanged_iff, hwidth, hheight, sub_self, sub_self, abs_zero, or_self] at hchanged
    exact absurd hchanged floatEpsilon_pos.not_gt
  · intro hdiffers
    exact widthChanged_iff.mpr (h.resolve_left hdiffers)

/-- What has been taken is not taken again. -/
theorem eventsFor_placedAs (existing : Option (ContributionInstance σ))
    (wanted : ContributionInstance σ) :
    eventsFor (some (placedAs wanted existing)) wanted = [] := by
  have hsize : widthChanged (placedAs wanted existing) wanted = false := by
    have hsame : ∀ placed : ContributionInstance σ, placed.width = wanted.width →
        placed.height = wanted.height → widthChanged placed wanted = false := by
      intro placed hwidth hheight
      rw [← Bool.not_eq_true, widthChanged_iff, hwidth, hheight, sub_self, sub_self, abs_zero,
        or_self]
      exact floatEpsilon_pos.not_gt
    cases existing with
    | none => exact hsame _ rfl rfl
    | some existing =>
      by_cases hchanged : widthChanged existing wanted = true
      · exact hsame _ (if_pos hchanged) (if_pos hchanged)
      · have hwidth : (adjusted existing wanted).width = existing.width := if_neg hchanged
        have hheight : (adjusted existing wanted).height = existing.height := if_neg hchanged
        rw [placedAs, widthChanged, hwidth, hheight]
        exact Bool.eq_false_iff.mpr hchanged
  have hsettings : (placedAs wanted existing).settings = wanted.settings := by
    cases existing with
    | none => rfl
    | some existing =>
      simp only [placedAs, adjusted]
      split_ifs with h
      · rfl
      · exact not_not.mp h
  simp [eventsFor, hsize, hsettings]

/-- The instances are those that are wanted exactly if they can be reconciled. -/
theorem instances_iff (env : SessionEnv σ H) (order : Order) (htidy : session.Tidy)
    (hdesired : Desirable desired) :
    (∀ key seen,
      ((session.reconcileInstances env order desired).2.instances.lookup key).map shows =
          some seen ↔ ∃ wanted ∈ desired, wanted.id = key ∧ shows wanted = seen) ↔
      Reconcilable session.instances desired := by
  have hafter := (reconcileInstances_spec env htidy hdesired order).1
  constructor
  · intro h wanted hwanted existing hexisting
    have hkey := hdesired.lookup_iff.mpr ⟨hwanted, rfl⟩
    have hseen := (h wanted.id (shows wanted)).mpr ⟨wanted, hwanted, rfl, rfl⟩
    rw [hafter, hkey, hexisting] at hseen
    exact (shows_adjusted_iff (htidy _ _ hexisting).id).mp (Option.some.inj hseen)
  · intro h key seen
    have hplaced : ∀ wanted, (desiredKeys desired).lookup key = some wanted →
        shows (placedAs wanted (session.instances.lookup key)) = shows wanted := by
      intro wanted hkey
      obtain ⟨hwanted, rfl⟩ := hdesired.lookup_iff.mp hkey
      cases hexisting : session.instances.lookup wanted.id with
      | none => rfl
      | some existing =>
        exact (shows_adjusted_iff (htidy _ _ hexisting).id).mpr
          (h wanted hwanted existing hexisting)
    rw [hafter]
    constructor
    · intro hseen
      simp only [Option.map_map, Option.map_eq_some_iff, Function.comp_apply] at hseen
      obtain ⟨wanted, hkey, rfl⟩ := hseen
      obtain ⟨hwanted, hid⟩ := hdesired.lookup_iff.mp hkey
      exact ⟨wanted, hwanted, hid, (hplaced wanted hkey).symm⟩
    · rintro ⟨wanted, hwanted, hid, rfl⟩
      have hkey := hdesired.lookup_iff.mpr ⟨hwanted, hid⟩
      rw [hkey, Option.map_some, Option.map_some, hplaced wanted hkey]

/-- A second call finds nothing to do. -/
theorem quiet (env : SessionEnv σ H) (order later : Order) (htidy : session.Tidy)
    (hdesired : Desirable desired) :
    ((session.reconcileInstances env order desired).2.reconcileInstances env later desired).1 =
      [] := by
  have hafter := (reconcileInstances_spec env htidy hdesired order).1
  have hkept : (session.reconcileInstances env order desired).2.Tidy := by
    intro key placed hplaced
    rw [hafter, Option.map_eq_some_iff] at hplaced
    obtain ⟨wanted, hkey, rfl⟩ := hplaced
    obtain ⟨hwanted, rfl⟩ := hdesired.lookup_iff.mp hkey
    cases hexisting : session.instances.lookup wanted.id with
    | none => exact ⟨rfl, hdesired.contribution wanted hwanted⟩
    | some existing => exact ⟨(htidy _ _ hexisting).id, (htidy _ _ hexisting).contribution⟩
  have hsent := (reconcileInstances_spec env hkept hdesired later).2
  have hnothing : addressed ((session.reconcileInstances env order desired).2.reconcileInstances env
      later desired).1 = [] := by
    rw [hsent, List.append_eq_nil_iff, List.flatMap_eq_nil_iff, List.flatMap_eq_nil_iff]
    constructor
    · intro key _
      rw [hafter, dueUnmount.eq_def]
      cases (desiredKeys desired).lookup key <;> rfl
    · intro entry hentry
      have hkey : (desiredKeys desired).lookup entry.1 = some entry.2 :=
        AList.mem_lookup_iff.mpr ((later.arrange_perm _).mem_iff.mp hentry)
      rw [hafter, hkey, Option.map_some, eventsFor_placedAs, List.map_nil]
  exact List.map_eq_nil_iff.mp hnothing

omit [DecidableEq σ] in
/-- What is due where something stands is what is expected. -/
theorem dueUnmount_eq (htidy : session.Tidy) (hdesired : Desirable desired)
    (h : Reconcilable session.instances desired) {key : String}
    {existing : ContributionInstance σ} (hexisting : session.instances.lookup key = some existing) :
    dueUnmount (desiredKeys desired) key (some existing) = expectedUnmount desired existing := by
  obtain rfl := (htidy _ _ hexisting).id
  rw [dueUnmount.eq_def, expectedUnmount]
  cases hkey : (desiredKeys desired).lookup existing.id with
  | some wanted =>
    obtain ⟨hwanted, hid⟩ := hdesired.lookup_iff.mp hkey
    have hcontribution := (h wanted hwanted existing (hid ▸ hexisting)).1
    rw [if_pos ⟨wanted, hwanted, hid, hcontribution.symm⟩]
  | none =>
    rw [if_neg]
    rintro ⟨wanted, hwanted, hid, -⟩
    rw [hdesired.lookup_iff.mpr ⟨hwanted, hid⟩] at hkey
    cases hkey

theorem duePlace_eq (h : Reconcilable session.instances desired) {wanted : ContributionInstance σ}
    (hwanted : wanted ∈ desired) :
    ((eventsFor (session.instances.lookup wanted.id) wanted).map fun event =>
        (wanted.contribution.extensionId, event)) = expectedPlace session.instances wanted := by
  rw [expectedPlace]
  cases hexisting : session.instances.lookup wanted.id with
  | none => rfl
  | some existing =>
    obtain ⟨hcontribution, hsettles⟩ := h wanted hwanted existing hexisting
    simp only [eventsFor, widthChanged_iff_of_settles hsettles, if_pos hcontribution,
      List.map_append, ite_not, apply_ite (List.map _), List.map_cons, List.map_nil]

/-- Where the instances can be reconciled, each extension is told of what is expected. -/
theorem told_of_reconcilable (env : SessionEnv σ H) (order : Order) (htidy : session.Tidy)
    (hdesired : Desirable desired) (h : Reconcilable session.instances desired) :
    ∃ existing wanted : List (ContributionInstance σ),
      existing.Perm (session.instances.entries.map Sigma.snd) ∧ wanted.Perm desired ∧
      addressed (session.reconcileInstances env order desired).1 =
        existing.flatMap (expectedUnmount desired) ++
          wanted.flatMap (expectedPlace session.instances) := by
  have hkeys := order.arrange_perm session.instances.keys
  have hentries := order.arrange_perm (desiredKeys desired).entries
  refine ⟨(order.arrange session.instances.keys).flatMap fun key =>
      (session.instances.lookup key).toList,
    (order.arrange (desiredKeys desired).entries).map Sigma.snd, ?_, ?_, ?_⟩
  · have hall : (session.instances.keys.flatMap fun key =>
        (session.instances.lookup key).toList) = session.instances.entries.map Sigma.snd := by
      rw [AList.keys, List.keys, List.flatMap_map, List.map_eq_flatMap]
      refine List.flatMap_congr fun entry hentry => ?_
      have hlookup : session.instances.lookup entry.1 = some entry.2 :=
        AList.mem_lookup_iff.mpr hentry
      rw [hlookup, Option.toList_some]
    exact hall ▸ hkeys.flatMap_right _
  · have hsnd := (hentries.trans hdesired.entries).map Sigma.snd
    rw [List.map_map] at hsnd
    simpa [Function.comp_def] using hsnd
  · rw [(reconcileInstances_spec env htidy hdesired order).2]
    refine congrArg₂ _ ?_ ?_
    · rw [List.flatMap_assoc]
      refine List.flatMap_congr fun key _ => ?_
      cases hexisting : session.instances.lookup key with
      | none =>
        rw [dueUnmount.eq_def]
        cases (desiredKeys desired).lookup key <;> rfl
      | some existing =>
        rw [dueUnmount_eq htidy hdesired h hexisting, Option.toList_some, List.flatMap_singleton]
    · rw [List.flatMap_map]
      refine List.flatMap_congr fun entry hentry => ?_
      have hkey : (desiredKeys desired).lookup entry.1 = some entry.2 :=
        AList.mem_lookup_iff.mpr (hentries.mem_iff.mp hentry)
      obtain ⟨hwanted, hid⟩ := hdesired.lookup_iff.mp hkey
      rw [← hid]
      exact duePlace_eq h hwanted

end

end InstanceSession

open InstanceSession

/-! ### Main result -/

/-- **Reconciling reaches what is wanted** exactly where no name is kept for another contribution
and no size differs by no more than `f32::EPSILON`. -/
theorem reconcileInstances_reaches_iff [DecidableEq σ] (env : SessionEnv σ H)
    (order later : Order) (session : InstanceSession σ H) (htidy : session.Tidy)
    (desired : List (ContributionInstance σ)) (hdesired : Desirable desired) :
    Reaches env order later session desired ↔ Reconcilable session.instances desired := by
  constructor
  · intro h
    exact (instances_iff env order htidy hdesired).mp h.instances
  · intro h
    obtain ⟨existing, wanted, hexisting, hwanted, hsent⟩ :=
      told_of_reconcilable env order htidy hdesired h
    refine ⟨(instances_iff env order htidy hdesired).mpr h,
      ⟨existing, wanted, hexisting, hwanted, fun id htold => ?_⟩,
      quiet env order later htidy hdesired⟩
    rw [← hsent, addressed, List.filter_map, List.map_map]
    have hfilter : ∀ delivery ∈ (session.reconcileInstances env order desired).1,
        decide (delivery.extensionId = id ∧ delivery.told = true) =
          decide (delivery.extensionId = id) := by
      intro delivery hdelivery
      exact decide_eq_decide.mpr ⟨And.left, fun hid => ⟨hid, htold delivery hdelivery hid⟩⟩
    rw [List.filter_congr hfilter]
    rfl

/-- A host that lets everything through. -/
def openEnv : SessionEnv ℕ Unit := ⟨fun host _ _ => (true, host), 0⟩

/-- The entries as they are. -/
def asIs : Order := ⟨id, fun _ => .refl _⟩

/-- A contribution, as it is placed for the examples. -/
def placedClock (contribution : String) (width : ℚ) : ContributionInstance ℕ :=
  ⟨"bar:1:left:0", ⟨⟨"org.example.clock"⟩, ⟨contribution⟩⟩, none, width, 32, 0⟩

/-- A session in which it stands. -/
def clockSession : InstanceSession ℕ Unit :=
  ⟨(), (∅ : Instances ℕ).insert "bar:1:left:0" (placedClock "clock" 100)⟩

theorem tidy_clockSession : clockSession.Tidy := by
  intro key placed hplaced
  by_cases hkey : key = "bar:1:left:0"
  · subst hkey
    have hsame : clockSession.instances.lookup "bar:1:left:0" = some (placedClock "clock" 100) :=
      AList.lookup_insert _
    obtain rfl := Option.some.inj (hsame.symm.trans hplaced)
    exact ⟨rfl, rfl, rfl⟩
  · have hnone : clockSession.instances.lookup key = none :=
      (AList.lookup_insert_ne hkey).trans (AList.lookup_empty _)
    rw [hnone] at hplaced
    cases hplaced

theorem desirable_placedClock : Desirable [placedClock "clock" 120] := by
  refine ⟨List.nodup_singleton _, fun wanted hwanted => ?_⟩
  rw [List.mem_singleton] at hwanted
  subst hwanted
  exact ⟨rfl, rfl⟩

/-- A clock that is made wider. -/
theorem reconcileInstances_reaches_clock :
    Reaches openEnv asIs asIs clockSession [placedClock "clock" 120] :=
  (reconcileInstances_reaches_iff openEnv asIs asIs clockSession tidy_clockSession
    [placedClock "clock" 120] desirable_placedClock).mpr (by
      intro wanted hwanted existing hexisting
      rw [List.mem_singleton] at hwanted
      subst hwanted
      have hsame : clockSession.instances.lookup "bar:1:left:0" = some (placedClock "clock" 100) :=
        AList.lookup_insert _
      obtain rfl := Option.some.inj (hsame.symm.trans hexisting)
      exact ⟨rfl, .inr (.inl (by decide +kernel))⟩)

/-- A name is kept, and its place is wanted for another contribution. -/
theorem reconcileInstances_not_reaches :
    ¬ Reaches openEnv asIs asIs clockSession [placedClock "calendar" 100] := by
  intro h
  have hseen := (h.instances "bar:1:left:0" (shows (placedClock "calendar" 100))).mpr
    ⟨_, List.mem_singleton_self _, rfl, rfl⟩
  exact absurd hseen (by decide +kernel)

end Shilpo.Engine.Reconciling
