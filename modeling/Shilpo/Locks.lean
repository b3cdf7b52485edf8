import Shilpo.Auth.Locks
import Shilpo.Polkit.Locks

/-!
# Lock order

The authentication domain and the PolicyKit agent have the same two mutexes, and the
same mistake: the poll for helper events takes them in the opposite order to nearly
everything else. `deadlock_iff_opposite` says which operations can deadlock with
which, and `poll_deadlocks_response` is the case to expect, a helper that speaks while
the user answers.
-/

namespace Shilpo

open Domain Theory

universe u v w

/-- A user of the authentication domain answers while the helper has something to say. -/
def Auth.answering : Auth.AuthDomainState (List Auth.AuthHelperEvent) Unit :=
  run (Auth.AuthDomainState.step Auth.scriptedHelper) (.new 8 []) [
    .call .beginStart, .call (.markReady 1),
    .call (.submitCommand (.beginAuthentication "login")), .processPendingCommands 2,
    .call (.submitCommand (.provideResponse "secret")),
    .call (.setWorld [.textInfo "Touch the key"])]

/-- A user of the PolicyKit agent answers while the helper has something to say. -/
def Polkit.answering : Polkit.PolkitDomainState (List Polkit.HelperEvent) Unit :=
  run (Polkit.PolkitDomainState.step Polkit.scriptedHelper)
    (.new Polkit.scriptedHelper 8 [] 120000) [
    .call .beginStart, .call (.markReady 1),
    .call (.beginAuthentication (.asking "first" ["alice"]) 2),
    .call (.enqueueCommand (.provideResponse "first" "secret")),
    .call (.setWorld [.textInfo "Touch the key"])]

/-- **Two operations of a domain can deadlock exactly when one takes `active_session` while it holds
`inner` and the other `inner` while it holds `active_session`**, whatever other operations run
beside them. -/
theorem deadlock_iff_opposite {ι : Type w} [DecidableEq ι] {i j : ι} (hij : i ≠ j) {W : Type u}
    {S : Type v} :
    (∀ (helper : Auth.AuthHelper W S) (s : ι → Auth.AuthDomainState W S)
      (o : ι → Auth.AuthDomainState.Op W)
      (p : ι → List (LockStep Mutex)), (∀ k, Auth.Takes helper (s k) (o k) (p k)) →
      (CanDeadlock p i j ↔
        Auth.NestsSession (s i) (o i) ∧ Auth.NestsInner helper (s j) (o j) ∨
          Auth.NestsInner helper (s i) (o i) ∧ Auth.NestsSession (s j) (o j))) ∧
    (∀ (helper : Polkit.PolkitHelper W S) (s : ι → Polkit.PolkitDomainState W S)
      (o : ι → Polkit.PolkitDomainState.Op W) (p : ι → List (LockStep Mutex)),
      (∀ k, Polkit.Takes helper (s k) (o k) (p k)) →
      (CanDeadlock p i j ↔
        Polkit.NestsSession (s i) (o i) ∧ Polkit.NestsInner helper (s j) (o j) ∨
          Polkit.NestsInner helper (s i) (o i) ∧ Polkit.NestsSession (s j) (o j))) :=
  ⟨fun _ _ _ _ h => canDeadlock_iff (fun k => (h k).shape) hij,
    fun _ _ _ _ h => canDeadlock_iff (fun k => (h k).shape) hij⟩

/-- A tick that finds nothing due, and a poll that finds an event. -/
theorem deadlock_iff_opposite_tick :
    let p (k : Bool) := cond k (underInner 1) (innerUnderSession ++ sessionSections 0)
    (CanDeadlock p true false ↔
      Auth.NestsSession Auth.answering (.call (.tick 3)) ∧
          Auth.NestsInner Auth.scriptedHelper Auth.answering (.call (.pollActiveHelperEvent 3)) ∨
        Auth.NestsInner Auth.scriptedHelper Auth.answering (.call (.tick 3)) ∧
          Auth.NestsSession Auth.answering (.call (.pollActiveHelperEvent 3))) ∧
    (CanDeadlock p true false ↔
      Polkit.NestsSession Polkit.answering (.call (.tick 3)) ∧
          Polkit.NestsInner Polkit.scriptedHelper Polkit.answering (.pollActiveHelperEvent 3) ∨
        Polkit.NestsInner Polkit.scriptedHelper Polkit.answering (.call (.tick 3)) ∧
          Polkit.NestsSession Polkit.answering (.pollActiveHelperEvent 3)) :=
  ⟨(deadlock_iff_opposite (by decide)).1 Auth.scriptedHelper (fun _ => Auth.answering)
      (fun k => cond k (.call (.tick 3)) (.call (.pollActiveHelperEvent 3))) _
      (fun k => match k with | true => .tick 3 | false => .pollActiveHelperEvent 3),
    (deadlock_iff_opposite (by decide)).2 Polkit.scriptedHelper (fun _ => Polkit.answering)
      (fun k => cond k (.call (.tick 3)) (.pollActiveHelperEvent 3)) _
      (fun k => match k with | true => .tick 3 | false => .pollActiveHelperEvent 3)⟩

/-- **A poll that finds an event and the answer of the user deadlock**, in both domains: the poll
holds `active_session` and waits for `inner`, the processing of the answer the other way round. -/
theorem poll_deadlocks_response :
    (∃ poll process, Auth.Takes Auth.scriptedHelper Auth.answering
      (.call (.pollActiveHelperEvent 3)) poll ∧
      Auth.Takes Auth.scriptedHelper Auth.answering (.processPendingCommands 3) process ∧
      CanDeadlock (fun k : Bool => cond k poll process) true false) ∧
    (∃ poll process, Polkit.Takes Polkit.scriptedHelper Polkit.answering
      (.pollActiveHelperEvent 3) poll ∧
      Polkit.Takes Polkit.scriptedHelper Polkit.answering (.processPendingCommands 3) process ∧
      CanDeadlock (fun k : Bool => cond k poll process) true false) := by
  refine ⟨⟨_, underInner 1, .pollActiveHelperEvent 3, ?_, ?_⟩,
    ⟨_, underInner 1, .pollActiveHelperEvent 3, ?_, ?_⟩⟩
  · exact .processPendingCommands 3 [1] (.cons ⟨Auth.answering, rfl, by decide⟩ .nil)
  · exact deadlock_of_opposite (by decide) (by decide) rfl rfl
  · exact .processPendingCommands 3 [1] (.cons ⟨Polkit.answering, rfl, by decide⟩ .nil)
  · exact deadlock_of_opposite (by decide) (by decide) rfl rfl

end Shilpo
