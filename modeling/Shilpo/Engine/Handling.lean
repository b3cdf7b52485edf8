import Shilpo.Engine.Engine
import Shilpo.Extensions.Gate

/-!
# What handling an event can do

Whatever the session does with events, it does by telling a guest of one, by rendering a
contribution, and by noting where contributions stand (`Handling`). That the functions of the session
do nothing else is said here once; what each of the three keeps, all of them keep.
-/

namespace Shilpo.Engine

open Extensions

variable {T : Payloads} {ρ σ : Type} {env : EngineEnv T ρ σ}

namespace ExtensionChanges

end ExtensionChanges

/-- The session goes on to another while events are handled, with these changes. -/
inductive Handling (env : EngineEnv T ρ σ) :
    ExtensionSession T ρ → ExtensionChanges → ExtensionSession T ρ → Prop where
  | refl (session : ExtensionSession T ρ) : Handling env session .default session
  | noted (session : ExtensionSession T ρ) (instances : AList fun _ : String => ContributionInstance) :
    Handling env session .default { session with instances }
  | refused (session : ExtensionSession T ρ) {id : ExtensionId} {event : ExtensionEvent}
    {err : ExtensionHost.Error} {host : Host ρ}
    (h : session.host.dispatchEvent env id event = (.error err, host)) :
    Handling env session .default { session with host }
  | dispatched (session : ExtensionSession T ρ) {id : ExtensionId} {event : ExtensionEvent}
    {result : DispatchResult} {host : Host ρ}
    (h : session.host.dispatchEvent env id event = (.ok result, host)) :
    Handling env session ⟨result.accepted.map (applyEffect id), []⟩ { session with host }
  | unrendered (session : ExtensionSession T ρ) {canonical : CanonicalId}
    {answer : Except ExtensionHost.Error (Option T.View)} {host : Host ρ}
    (h : session.host.renderView env canonical = (answer, host)) :
    Handling env session .default { session with host }
  | rendered (session : ExtensionSession T ρ) {canonical : CanonicalId} {view : T.View}
    {host : Host ρ} (h : session.host.renderView env canonical = (.ok (some view), host)) :
    Handling env session ⟨[], [canonical]⟩
      { session with host := host.viewed canonical, views := session.views.insert canonical view }
  | trans {session session' session'' : ExtensionSession T ρ} {changes changes' : ExtensionChanges}
    (h : Handling env session changes session') (h' : Handling env session' changes' session'') :
    Handling env session (changes.merge changes') session''

namespace ExtensionSession

variable {session : ExtensionSession T ρ}

theorem handling_render (canonical : CanonicalId) :
    Handling env session ⟨[], (session.render env canonical).1⟩
      (session.render env canonical).2 := by
  unfold render
  split
  case h_1 hrender => exact .rendered session hrender
  case h_2 answer host hview hrender => exact .unrendered session hrender

theorem handling_renderAll (canonicals : List CanonicalId) (session : ExtensionSession T ρ) :
    Handling env session ⟨[], (session.renderAll env canonicals).1⟩
      (session.renderAll env canonicals).2 := by
  induction canonicals generalizing session with
  | nil => exact .refl session
  | cons canonical canonicals ih => exact (handling_render canonical).trans (ih _)

theorem handling_refreshEventViews (event : ExtensionEvent) (id : ExtensionId)
    (session : ExtensionSession T ρ) :
    Handling env session ⟨[], (session.refreshEventViews env event id).1⟩
      (session.refreshEventViews env event id).2 := by
  unfold refreshEventViews
  split
  · split
    · exact .refl session
    · split
      · exact .refl session
      · exact handling_renderAll _ session
  · exact handling_renderAll _ session

theorem handling_dispatchToExtension (id : ExtensionId) (event : ExtensionEvent)
    (session : ExtensionSession T ρ) :
    Handling env session (session.dispatchToExtension env id event).1
      (session.dispatchToExtension env id event).2 := by
  unfold dispatchToExtension
  split
  case h_1 hdispatch => exact .refused session hdispatch
  case h_2 result host hdispatch =>
    have hviews : Handling env _ _ _ := handling_refreshEventViews event id { session with host }
    have htrans := (Handling.dispatched session hdispatch).trans hviews
    simpa [ExtensionChanges.merge] using htrans

theorem handling_dispatchEach (event : ExtensionEvent) (ids : List ExtensionId)
    (session : ExtensionSession T ρ) :
    Handling env session (session.dispatchEach env event ids).1
      (session.dispatchEach env event ids).2 := by
  induction ids generalizing session with
  | nil => exact .refl session
  | cons id ids ih => exact (handling_dispatchToExtension id event session).trans (ih _)

theorem handling_dispatch (event : ExtensionEvent) (session : ExtensionSession T ρ) :
    Handling env session (session.dispatch env event).1 (session.dispatch env event).2 :=
  (Handling.noted session _).trans (handling_dispatchEach event _ _)

theorem handling_dispatchAll (events : List ExtensionEvent) (session : ExtensionSession T ρ) :
    Handling env session (session.dispatchAll env events).1
      (session.dispatchAll env events).2 := by
  induction events generalizing session with
  | nil => exact .refl session
  | cons event events ih => exact (handling_dispatch event session).trans (ih _)

theorem handling_unmountEach (desired : AList fun _ : String => ContributionInstance)
    (keys : List String) (session : ExtensionSession T ρ) :
    Handling env session (session.unmountEach env desired keys).1
      (session.unmountEach env desired keys).2 := by
  induction keys generalizing session with
  | nil => exact .refl session
  | cons key keys ih =>
    rw [unmountEach]
    cases hdesired : desired.lookup key with
    | some wanted => exact (Handling.refl session).trans (ih _)
    | none =>
      cases hplaced : session.instances.lookup key with
      | none => exact (Handling.refl session).trans (ih _)
      | some placed => exact (handling_dispatch _ session).trans (ih _)

theorem handling_placeEach (entries : List (Sigma fun _ : String => ContributionInstance))
    (session : ExtensionSession T ρ) :
    Handling env session (session.placeEach env entries).1
      (session.placeEach env entries).2 := by
  induction entries generalizing session with
  | nil => exact .refl session
  | cons entry entries ih =>
    obtain ⟨key, wanted⟩ := entry
    exact ((Handling.noted session _).trans (handling_dispatchAll _ _)).trans (ih _)

theorem handling_reconcileInstances (desired : List ContributionInstance)
    (session : ExtensionSession T ρ) :
    Handling env session (session.reconcileInstances env desired).1
      (session.reconcileInstances env desired).2 :=
  (handling_unmountEach _ _ session).trans (handling_placeEach _ _)

end ExtensionSession

theorem ExtensionEngine.handling_startExtension (id : ExtensionId) (events : List ExtensionEvent)
    (session : ExtensionSession T ρ) :
    ∃ changes, Handling env session changes (startExtension env id events session) := by
  induction events generalizing session with
  | nil => exact ⟨_, .refl session⟩
  | cons event events ih =>
    obtain ⟨changes, hrest⟩ := ih (session.dispatchToExtension env id event).2
    exact ⟨_, (ExtensionSession.handling_dispatchToExtension id event session).trans hrest⟩

/-! ### Commands for another generation -/

/-- The generation that a command is for, if it is for one. -/
def ExtensionCommand.expected : ExtensionCommand → Option ℕ
  | .lifecycle expected _ | .input expected .. | .response expected .. |
    .reconcileInstances expected _ => some expected
  | _ => none

/-- A command is passed over where it is for another generation. -/
theorem ExtensionEngine.answer_eq_none_iff {engine : ExtensionEngine T ρ σ} {files : Files}
    {command : ExtensionCommand} :
    engine.answer env files command = none ↔
      ∃ expected, command.expected = some expected ∧ expected ≠ engine.generation := by
  have hexpected : ∀ expected β (rest : β), command.expected = some expected →
      ((if expected ≠ engine.generation then none else some rest) = none ↔
        ∃ expected, command.expected = some expected ∧ expected ≠ engine.generation) := by
    intro expected β rest hexpected
    rw [ite_eq_left_iff, hexpected]
    simp
  cases command with
  | lifecycle expected | input expected | response expected | reconcileInstances expected =>
    exact hexpected expected _ _ rfl
  | replaceable | sourcesChanged | devReload | devUnload | search | recordSearchTimeout
  | shutdown =>
    refine iff_of_false (fun h => by cases h) ?_
    rintro ⟨expected, he, -⟩
    cases he

end Shilpo.Engine
