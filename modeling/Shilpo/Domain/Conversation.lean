import Mathlib

/-!
# Conversations with PAM

What the authentication domain and the PolicyKit agent have in common: both lead the
user through a conversation with PAM that a helper process holds, with the same four
kinds of message, the same prompt and the same two time limits.
-/

namespace Shilpo.Domain

/-! ### The prompt -/

/-- What the user is asked and told. -/
structure PromptState where
  /-- The user is to answer. -/
  responseRequired : Bool
  /-- The answer may be shown as it is typed. -/
  responseVisible : Bool
  /-- The prompt. -/
  inputPrompt : Option String
  /-- What else PAM has to say. -/
  supplementaryMessage : Option String
  /-- That was an error. -/
  supplementaryIsError : Bool
  deriving DecidableEq

namespace PromptState

/-- The prompt before PAM has said anything. -/
def default : PromptState := ⟨false, false, none, none, false⟩

/-- PAM asks. -/
def ask (p : PromptState) (visible : Bool) (prompt : String) : PromptState :=
  { p with responseRequired := true, responseVisible := visible, inputPrompt := some prompt }

/-- PAM has something to say. -/
def say (p : PromptState) (isError : Bool) (text : String) : PromptState :=
  { p with supplementaryMessage := some text, supplementaryIsError := isError }

/-- The conversation has ended. -/
def ended (p : PromptState) : PromptState :=
  { p with responseRequired := false, inputPrompt := none }

end PromptState

/-- What an event of the helper comes to. -/
inductive EventOutcome where
  | prompt
  | failed
  | succeeded
  deriving DecidableEq

/-! ### Time limits -/

/-- How long a conversation may go without interaction, unless the domain says otherwise. -/
def defaultInactivityTimeoutMs : ℕ := 120000

/-- How long a success is shown. -/
def successDismissDelayMs : ℕ := 900

/-- What time brings to a session. -/
inductive Due where
  | successDismiss
  | inactivity
  deriving DecidableEq

/-- What is due of a session completed at `completedAtMs`, or still running. -/
def due (inactivityTimeoutMs : ℕ) (completedAtMs : Option ℕ) (lastInteractionMs nowMs : ℕ) :
    Option Due :=
  match completedAtMs with
  | some completedAt =>
    if successDismissDelayMs ≤ nowMs - completedAt then some .successDismiss else none
  | none => if inactivityTimeoutMs ≤ nowMs - lastInteractionMs then some .inactivity else none

/-- What is due of a completed session, and only of one, is its dismissal. -/
theorem completed_of_due {inactivityTimeoutMs lastInteractionMs nowMs : ℕ}
    {completedAtMs : Option ℕ}
    (h : due inactivityTimeoutMs completedAtMs lastInteractionMs nowMs = some .successDismiss) :
    completedAtMs.isSome := by
  unfold due at h
  split at h
  · rfl
  · split_ifs at h
    simp at h

end Shilpo.Domain
