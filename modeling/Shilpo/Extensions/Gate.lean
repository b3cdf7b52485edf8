import Shilpo.Extensions.Host
import Shilpo.Theory.Runs

/-!
# The capability gate

What an extension asks of the host is carried out only if its manifest declares and its
grants contain capabilities that allow it (`Authorizes`), and what it is told of events
depends on both in the same way (`MayHear`). The manifest and the grants are those of the
last registration or replacement that succeeded, and in every run each call keeps to them
(`gate_kept`).
-/

namespace Shilpo.Extensions

open Theory

/-! ### Operations -/

/-- The capability allows requests for the host and the path of the URL. -/
def AllowsRequest (capability : Capability) (host path : String) : Prop :=
  ∃ hosts paths, capability = .networkHttp hosts paths ∧
    (∃ pattern ∈ hosts, wildcardMatches pattern host = true) ∧
    (paths = [] ∨ ∃ pattern ∈ paths, wildcardMatches pattern path = true)

/-- A URL over HTTPS, without credentials or a fragment, with this host. -/
structure IsRequestUrl (url : Url) (hostname : String) : Prop where
  scheme : url.scheme = "https"
  host : url.host = some hostname
  hostname_ne : hostname ≠ ""
  username : url.username = ""
  password : url.password = none
  fragment : url.fragment = none

/-- The operation, as it is carried out, is declared and granted. -/
inductive Authorizes (parseUrl : String → Option Url) (registration : Registration) :
    HostOperation → AuthorizedHostOperation → Prop where
  | nonHttp (operation : HostOperation) (h : operation.isHttp = false)
    (declared : ∃ capability ∈ registration.manifest.capabilities,
      capability.allowsOperation parseUrl operation = true)
    (granted : ∃ capability ∈ registration.grants,
      capability.allowsOperation parseUrl operation = true) :
    Authorizes parseUrl registration operation (.nonHttp operation h)
  | httpRequest (requestId url host : String) (target : CanonicalHttpTarget)
    (parsed : parseUrl url = some target.url) (isRequestUrl : IsRequestUrl target.url host)
    (declared : ∃ capability ∈ registration.manifest.capabilities,
      AllowsRequest capability host target.url.path)
    (granted : ∃ capability ∈ registration.grants,
      AllowsRequest capability host target.url.path) :
    Authorizes parseUrl registration (.httpRequest requestId url "GET")
      (.httpRequest requestId target)

/-- Each operation is accepted or rejected once, and what is accepted is authorized. -/
inductive Sorted (parseUrl : String → Option Url) (registration : Registration) :
    List HostOperation → DispatchResult → Prop where
  | nil : Sorted parseUrl registration [] ⟨[], []⟩
  | accepted {operation : HostOperation} {authorized : AuthorizedHostOperation}
    {operations : List HostOperation} {result : DispatchResult}
    (h : Authorizes parseUrl registration operation authorized)
    (rest : Sorted parseUrl registration operations result) :
    Sorted parseUrl registration (operation :: operations)
      ⟨authorized :: result.accepted, result.rejected⟩
  | rejected {operation : HostOperation} {operations : List HostOperation}
    {result : DispatchResult} (rest : Sorted parseUrl registration operations result) :
    Sorted parseUrl registration (operation :: operations)
      ⟨result.accepted, operation :: result.rejected⟩

section

variable {parseUrl : String → Option Url} {registration : Registration}

theorem parse_eq_some {url method : String} {target : CanonicalHttpTarget}
    (h : CanonicalHttpTarget.parse parseUrl url method = some target) :
    method = "GET" ∧ parseUrl url = some target.url := by
  unfold CanonicalHttpTarget.parse at h
  split_ifs at h with hmethod
  split at h
  · cases h
  · split_ifs at h
    obtain rfl := Option.some.inj h
    exact ⟨not_not.mp hmethod, by assumption⟩

theorem CanonicalHttpTarget.isRequestUrl (target : CanonicalHttpTarget) :
    IsRequestUrl target.url (target.url.host.getD "") := by
  have h := target.isHttpTarget
  simp only [Url.isHttpTarget, Bool.and_eq_true, decide_eq_true_eq, Option.isNone_iff_eq_none] at h
  obtain ⟨⟨⟨⟨hscheme, hhost⟩, husername⟩, hpassword⟩, hfragment⟩ := h
  cases hurl : target.url.host with
  | none =>
    rw [hurl] at hhost
    cases hhost
  | some host =>
    rw [hurl] at hhost
    exact ⟨hscheme, hurl, by simpa using hhost, husername, hpassword, hfragment⟩

theorem allowsRequest_of_allowsHttpTarget {capability : Capability} {target : CanonicalHttpTarget}
    (h : capability.allowsHttpTarget target = true) :
    AllowsRequest capability (target.url.host.getD "") target.url.path := by
  unfold Capability.allowsHttpTarget at h
  split at h
  · simp only [Bool.and_eq_true, Bool.or_eq_true, List.any_eq_true, List.isEmpty_iff] at h
    exact ⟨_, _, rfl, h⟩
  · cases h

/-- What is let through is authorized. -/
theorem authorizes_of_authorizeOperation {operation : HostOperation}
    {authorized : AuthorizedHostOperation}
    (h : authorizeOperation parseUrl registration operation = .ok authorized) :
    Authorizes parseUrl registration operation authorized := by
  unfold authorizeOperation at h
  split at h
  · split at h
    · cases h
    case h_2 target hparse =>
      split_ifs at h with hallowed
      cases h
      obtain ⟨rfl, hurl⟩ := parse_eq_some hparse
      simp only [Bool.and_eq_true, List.any_eq_true] at hallowed
      obtain ⟨⟨declared, hdeclared, hallows⟩, granted, hgranted, hallows'⟩ := hallowed
      exact .httpRequest _ _ _ target hurl target.isRequestUrl
        ⟨declared, hdeclared, allowsRequest_of_allowsHttpTarget hallows⟩
        ⟨granted, hgranted, allowsRequest_of_allowsHttpTarget hallows'⟩
  · split_ifs at h with hallowed hhttp
    cases h
    simp only [Bool.and_eq_true, List.any_eq_true] at hallowed
    exact .nonHttp _ hhttp hallowed.1 hallowed.2

/-- What is not let through is the operation itself. -/
theorem eq_of_authorizeOperation {operation rejected : HostOperation}
    (h : authorizeOperation parseUrl registration operation = .error rejected) :
    rejected = operation := by
  unfold authorizeOperation at h
  split at h
  · split at h
    · exact (Except.error.inj h).symm
    · split_ifs at h
      exact (Except.error.inj h).symm
  · split_ifs at h <;> exact (Except.error.inj h).symm

theorem sorted_authorizeOperations (operations : List HostOperation) :
    Sorted parseUrl registration operations
      (authorizeOperations parseUrl registration operations) := by
  induction operations with
  | nil => exact .nil
  | cons operation operations ih =>
    rw [authorizeOperations]
    cases h : authorizeOperation parseUrl registration operation with
    | ok authorized => exact .accepted (authorizes_of_authorizeOperation h) ih
    | error rejected =>
      obtain rfl := eq_of_authorizeOperation h
      exact .rejected ih

end

/-! ### Events -/

/-- The extension may be told of the event: if it has to be subscribed to, it is subscribed to,
declared and granted; and an input is for a contribution that is declared. -/
structure MayHear (registration : Registration) (event : ExtensionEvent) : Prop where
  subscription : ∀ kind, event.subscriptionKind = some kind →
    kind ∈ registration.manifest.subscriptions ∧
    (∃ capability ∈ registration.manifest.capabilities, capability.allowsEvent kind = true) ∧
    ∃ capability ∈ registration.grants, capability.allowsEvent kind = true
  input : ∀ contributionId instanceId eventId value,
    event = .input contributionId instanceId eventId value →
      ∃ contribution, ContributionId.new contributionId = .ok contribution ∧
        registration.manifest.contributions.contains contribution = true

namespace ExtensionHost

variable {T : Payloads} {ρ : Type}

theorem mayHear {id : ExtensionId} {registration : Registration} {event : ExtensionEvent}
    (hhears : hears registration event = true)
    (hinput : checkInput id registration event = .ok ()) : MayHear registration event := by
  refine ⟨fun kind hkind => ?_, ?_⟩
  · unfold hears at hhears
    rw [hkind] at hhears
    simp only [Bool.and_eq_true, List.contains_iff_mem, List.any_eq_true] at hhears
    exact ⟨hhears.1.1, hhears.1.2, hhears.2⟩
  · rintro contributionId instanceId eventId value rfl
    unfold checkInput at hinput
    dsimp only at hinput
    split at hinput
    · cases hinput
    · split_ifs at hinput with hcontains
      exact ⟨_, by assumption, hcontains⟩

variable (env : HostEnv T) (machine : ExtensionRuntime T ρ) (host : ExtensionHost ρ)

/-- How an event ends for an extension: the runtime is told of it, or is not called. -/
inductive Told (id : ExtensionId) (event : ExtensionEvent) :
    Except Error DispatchResult → ρ → Prop where
  | untold (result : Except Error DispatchResult)
    (h : ∀ dispatched, result = .ok dispatched → dispatched = .default) :
    Told id event result host.runtime
  | failed (registration : Registration) (err : RuntimeError) (runtime : ρ)
    (hregistration : host.registrations.lookup id = some registration)
    (hhear : MayHear registration event)
    (hdispatch : machine.dispatch host.runtime id event env.runtimeBudget = (.error err, runtime)) :
    Told id event (.error (.runtime err)) runtime
  | told (registration : Registration) (operations : List HostOperation)
    (result : DispatchResult) (runtime : ρ)
    (hregistration : host.registrations.lookup id = some registration)
    (hhear : MayHear registration event)
    (hdispatch :
      machine.dispatch host.runtime id event env.runtimeBudget = (.ok operations, runtime))
    (hsorted : Sorted env.parseUrl registration operations result) :
    Told id event (.ok result) runtime

variable (clock : ClockReadings)

theorem told (id : ExtensionId) (event : ExtensionEvent) :
    Told env machine host id event (host.dispatchEvent env machine clock id event).1
      (host.dispatchEvent env machine clock id event).2.runtime := by
  unfold dispatchEvent enter
  split
  · exact .untold _ nofun
  · split
    · exact .untold _ nofun
    case h_2 registration hregistration =>
      dsimp only
      split_ifs with hhears
      · exact .untold _ fun _ h => (Except.ok.inj h).symm
      · rw [Bool.not_eq_true', Bool.not_eq_false] at hhears
        split
        · exact .untold _ nofun
        case h_2 hinput =>
          have hhear := mayHear hhears hinput
          split
          case h_1 err runtime hdispatch => exact .failed registration err runtime hregistration hhear hdispatch
          case h_2 operations runtime hdispatch =>
            split_ifs
            · exact .told registration operations _ runtime hregistration hhear hdispatch
                (sorted_authorizeOperations operations)
            · exact .told registration operations _ runtime hregistration hhear hdispatch
                (sorted_authorizeOperations operations)

/-! ### Runs -/

/-- What is known of an extension after a call with this answer: the manifest and the grants that
it was registered with or replaced by, if the call succeeded. -/
def registrationAfter (call : HostCall T) (answer : HostAnswer T) (id : ExtensionId)
    (before : Option Registration) : Option Registration :=
  match call, answer with
  | .register _ manifest _ grants, .done (.ok ()) | .replace _ manifest _ grants, .done (.ok ()) =>
    if id = manifest.id then some ⟨manifest, grants⟩ else before
  | .unregister _ id', .done (.ok ()) => if id = id' then none else before
  | .clear _, _ => none
  | _, _ => before

/-- What is promised of a call. -/
structure GateKept (call : HostCall T) : Prop where
  registrations : ∀ id, (host.step env machine call).registrations.lookup id =
    registrationAfter call (host.call env machine call).1 id (host.registrations.lookup id)
  told : ∀ clock id event, call = .dispatchEvent clock id event →
    ∃ result, (host.call env machine call).1 = .dispatched result ∧
      Told env machine host id event result (host.step env machine call).runtime

theorem lookup_insert_registration {id id' : ExtensionId} {registration : Registration} :
    (host.registrations.insert id' registration).lookup id =
      if id = id' then some registration else host.registrations.lookup id := by
  split_ifs with h
  · rw [h, AList.lookup_insert]
  · rw [AList.lookup_insert_ne h]

theorem registrations_enter {α : Type} {clock : ClockReadings} {id : ExtensionId}
    {granted : Registration → ExtensionHost ρ → Except Error α × ExtensionHost ρ}
    (h : ∀ registration host, (granted registration host).2.registrations = host.registrations) :
    (host.enter clock id granted).2.registrations = host.registrations := by
  unfold enter
  split
  · rfl
  · split
    · rfl
    · exact h _ _

/-- Calls of an extension leave what is known of the extensions. -/
theorem registrations_dispatchEvent (id : ExtensionId) (event : ExtensionEvent) :
    (host.dispatchEvent env machine clock id event).2.registrations = host.registrations := by
  refine registrations_enter host fun registration host => ?_
  dsimp only
  repeat' split
  all_goals rfl

theorem registrations_renderView (canonical : CanonicalId) :
    (host.renderView env machine clock canonical).2.registrations = host.registrations := by
  refine registrations_enter host fun registration host => ?_
  repeat' split
  all_goals rfl

theorem registrations_search (canonical : CanonicalId) (request : T.Request)
    (budget : RuntimeBudget) :
    (host.search machine clock canonical request budget).2.registrations = host.registrations := by
  refine registrations_enter host fun registration host => ?_
  repeat' split
  all_goals rfl

theorem lookup_step (call : HostCall T) (id : ExtensionId) :
    (host.step env machine call).registrations.lookup id =
      registrationAfter call (host.call env machine call).1 id (host.registrations.lookup id) := by
  cases call with
  | register now manifest module grants =>
    change (host.register env machine now manifest module grants).2.registrations.lookup id =
      registrationAfter _ (.done (host.register env machine now manifest module grants).1) id _
    unfold register
    split
    · rfl
    · split_ifs
      · rfl
      · split
        · rfl
        · split
          · rfl
          · exact host.lookup_insert_registration
  | unregister now id' =>
    change (host.unregister machine now id').2.registrations.lookup id =
      registrationAfter _ (.done (host.unregister machine now id').1) id _
    unfold unregister
    split_ifs
    · rfl
    · split
      · rfl
      · dsimp only [registrationAfter]
        split_ifs with hid
        · rw [hid, AList.lookup_erase]
        · rw [AList.lookup_erase_ne hid]
  | replace now manifest module grants =>
    change (host.replace env machine now manifest module grants).2.registrations.lookup id =
      registrationAfter _ (.done (host.replace env machine now manifest module grants).1) id _
    unfold replace
    split
    · rfl
    · split_ifs
      · rfl
      · split
        · rfl
        · split
          · rfl
          · exact host.lookup_insert_registration
  | dispatchEvent clock id' event =>
    exact congrArg (·.lookup id) (host.registrations_dispatchEvent env machine clock id' event)
  | renderView clock canonical =>
    exact congrArg (·.lookup id) (host.registrations_renderView env machine clock canonical)
  | search clock canonical request budget =>
    exact congrArg (·.lookup id) (host.registrations_search machine clock canonical request budget)
  | recordCoordinatorTimeout now id' => rfl
  | resetExtension id' => rfl
  | clear ids => rfl
  | advanceClock now => rfl

/-- **The gate is kept.** In every run of a new host with any runtime: what an extension asks for
is accepted or rejected once each and in order, and accepted only where the manifest declares and
the grants contain a capability that allows it; it is told of an event only if it may be; and
manifests and grants change by registrations, replacements and removals that succeed. -/
theorem gate_kept (runtime : ρ) (policy : CircuitBreakerPolicy) (calls : List (HostCall T)) :
    Along (step env machine) (GateKept env machine) (new runtime policy) calls := by
  refine (along_iff _ _).mpr fun before call _ _ => ⟨lookup_step env machine _ call, ?_⟩
  rintro clock id event rfl
  exact ⟨_, rfl, told env machine _ clock id event⟩

end ExtensionHost

end Shilpo.Extensions
