import Shilpo.Domain.Supervisor

/-!
# Command mailboxes

The idle, authentication and PolicyKit domains queue commands the same way. A
command is admitted by its policy: a `Lossless` one when the queue is below
capacity, a `ReplaceLatest` one always, in the place of the first pending command
with the same key. An admitted command carries the owner generation it was
submitted under and a ticket its submitter watches; the ticket is resolved once,
when the command is applied, cancelled or rejected.

`admission` is the part the three domains' `submit_command` share. A ticket is named
by the number of tickets handed out before it, which stands for the identity of
the cell that submitter and resolver share.
-/

namespace Shilpo.Domain

universe u

/-- How a mailbox treats a command. -/
inductive MailboxPolicy where
  | lossless
  | replaceLatest (key : String)
  deriving DecidableEq

/-- How a command ended. The reasons for a rejection are the domain's. -/
inductive CommandOutcome (R : Type u) where
  | applied (version : DomainVersion)
  | reconciledApplied (version : DomainVersion)
  | rejected (reason : R)
  | timedOut (lastObservedVersion : DomainVersion)
  | cancelled (reason : CancellationReason)
  deriving DecidableEq

/-- A pending command. -/
structure MailboxItem (C : Type u) where
  /-- The ticket its resolver resolves. -/
  ticket : ℕ
  /-- The command. -/
  command : C
  /-- The owner generation it was submitted under. -/
  generation : ℕ

variable {C : Type u}

/-- The item is a `ReplaceLatest` command with this key. -/
def MailboxItem.hasKey (policy : C → MailboxPolicy) (key : String) (item : MailboxItem C) : Bool :=
  policy item.command = .replaceLatest key

/-- What becomes of a submitted command. -/
inductive Admission (C : Type u) where
  /-- The queue is full. -/
  | overloaded
  /-- The command is queued, an older one perhaps giving way. -/
  | queued (superseded : Option (MailboxItem C)) (queue : List (MailboxItem C))

/-- What becomes of `item`, by its command's policy. -/
def admission (policy : C → MailboxPolicy) (capacity : ℕ) (queue : List (MailboxItem C))
    (item : MailboxItem C) : Admission C :=
  match policy item.command with
  | .lossless => if capacity ≤ queue.length then .overloaded else .queued none (queue ++ [item])
  | .replaceLatest key =>
    .queued (queue.find? (·.hasKey policy key)) (queue.eraseP (·.hasKey policy key) ++ [item])

end Shilpo.Domain
