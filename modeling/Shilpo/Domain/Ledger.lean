import Shilpo.Domain.Mailbox

/-!
# The account of a mailbox

A `Ledger` is what a domain's mailbox amounts to: the pending commands, and the
outcomes of those that have ended. A command is submitted, or everything pending
ends at once with an outcome each, because it is processed or because a new owner
starts. `Good` says that each ticket handed out is accounted for once, that no two
pending commands replace the same thing, and that what is pending was submitted
under the current owner; `Step.good` that nothing that happens to a mailbox breaks it.
-/

namespace Shilpo.Domain

universe u v

/-- What a command replaces. -/
def MailboxPolicy.key : MailboxPolicy → Option String
  | .lossless => none
  | .replaceLatest key => some key

/-- What a pending command replaces. -/
def MailboxItem.key {C : Type u} (policy : C → MailboxPolicy) (item : MailboxItem C) :
    Option String :=
  (policy item.command).key

/-- The account of a mailbox. -/
structure Ledger (C : Type u) (R : Type v) where
  /-- How many commands the queue is meant to hold. -/
  capacity : ℕ
  /-- The current owner's generation. -/
  generation : ℕ
  /-- The pending commands, oldest first. -/
  queue : List (MailboxItem C)
  /-- The tickets resolved, with their outcomes. -/
  resolved : List (ℕ × CommandOutcome R)
  /-- How many tickets have been handed out. -/
  tickets : ℕ

namespace Ledger

variable {C : Type u} {R : Type v} {policy : C → MailboxPolicy} {l l' : Ledger C R}

/-- A command is submitted. -/
def submit (policy : C → MailboxPolicy) (l : Ledger C R) (command : C) : Ledger C R :=
  match admission policy l.capacity l.queue ⟨l.tickets, command, l.generation⟩ with
  | .overloaded => l
  | .queued superseded queue =>
    { l with
      queue := queue
      resolved := l.resolved ++ superseded.toList.map fun old =>
        (old.ticket, .cancelled .superseded)
      tickets := l.tickets + 1 }

/-- All that is pending ends. -/
def settle (l : Ledger C R) (outcomes : List (ℕ × CommandOutcome R)) (generation : ℕ) :
    Ledger C R :=
  { l with queue := [], resolved := l.resolved ++ outcomes, generation := generation }

/-- The outcomes are one for each pending command. -/
def Settles (l : Ledger C R) (outcomes : List (ℕ × CommandOutcome R)) : Prop :=
  outcomes.map Prod.fst = l.queue.map (·.ticket)

/-- What can happen to a mailbox. -/
inductive Step (policy : C → MailboxPolicy) (l : Ledger C R) : Ledger C R → Prop where
  | same : Step policy l l
  | submit (command : C) : Step policy l (l.submit policy command)
  | settle {outcomes : List (ℕ × CommandOutcome R)} {generation : ℕ} (h : l.Settles outcomes)
    (hle : l.generation ≤ generation) : Step policy l (l.settle outcomes generation)

/-- Each ticket is accounted for once, and what is pending is in order. -/
structure Good (policy : C → MailboxPolicy) (l : Ledger C R) : Prop where
  /-- Each ticket handed out is pending once or resolved once. -/
  accounted : (l.queue.map (·.ticket) ++ l.resolved.map Prod.fst).Perm (List.range l.tickets)
  /-- No two pending commands replace the same thing. -/
  keys : (l.queue.filterMap (MailboxItem.key policy)).Nodup
  /-- What is pending was submitted under the current owner. -/
  current : ∀ item ∈ l.queue, item.generation = l.generation

/-- A full queue takes no more `Lossless` commands. -/
theorem submit_lossless {command : C} (h : policy command = .lossless) :
    l.submit policy command =
      if l.capacity ≤ l.queue.length then l
      else
        { l with
          queue := l.queue ++ [⟨l.tickets, command, l.generation⟩]
          tickets := l.tickets + 1 } := by
  simp only [submit, admission, h]
  split_ifs <;> simp

/-- A `ReplaceLatest` command takes the place of a pending one with its key, or joins the queue. -/
theorem submit_replaceLatest {command : C} {key : String}
    (h : policy command = .replaceLatest key) :
    (∃ before old after, l.queue = before ++ old :: after ∧ old.hasKey policy key ∧
      l.submit policy command =
        { l with
          queue := before ++ after ++ [⟨l.tickets, command, l.generation⟩]
          resolved := l.resolved ++ [(old.ticket, .cancelled .superseded)]
          tickets := l.tickets + 1 }) ∨
    (∀ item ∈ l.queue, item.hasKey policy key = false) ∧
      l.submit policy command =
        { l with
          queue := l.queue ++ [⟨l.tickets, command, l.generation⟩]
          tickets := l.tickets + 1 } := by
  simp only [submit, admission, h]
  cases hf : l.queue.find? (·.hasKey policy key) with
  | none =>
    have hno : ∀ item ∈ l.queue, item.hasKey policy key = false := by simpa using hf
    refine .inr ⟨hno, ?_⟩
    rw [List.eraseP_of_forall_not (by simpa using hno)]
    simp
  | some old =>
    obtain ⟨hold, before, after, hq, hbefore⟩ := List.find?_eq_some_iff_append.mp hf
    refine .inl ⟨before, old, after, hq, hold, ?_⟩
    rw [hq, List.eraseP_append_right _ (by simpa using hbefore), List.eraseP_cons_of_pos hold]
    simp

theorem hasKey_iff {item : MailboxItem C} {key : String} :
    item.hasKey policy key ↔ item.key policy = some key := by
  simp only [MailboxItem.hasKey, MailboxItem.key, decide_eq_true_eq]
  cases policy item.command <;> simp [MailboxPolicy.key]

/-- A new command joins the queue, where none pending has its key. -/
theorem Good.push (h : l.Good policy) (command : C)
    (hk : ∀ key, policy command = .replaceLatest key →
      ∀ item ∈ l.queue, item.hasKey policy key = false) :
    ({ l with queue := l.queue ++ [⟨l.tickets, command, l.generation⟩], tickets := l.tickets + 1 } :
      Ledger C R).Good policy where
  accounted := by
    rw [List.range_succ, List.map_append, List.append_assoc]
    refine (List.Perm.append_left _ List.perm_append_comm).trans ?_
    rw [← List.append_assoc]
    exact h.accounted.append_right _
  keys := by
    rw [List.filterMap_append]
    refine List.nodup_append.mpr ⟨h.keys, ?_, fun a ha b hb hab => ?_⟩
    · cases hp : policy command <;> simp [hp, MailboxItem.key, MailboxPolicy.key]
    · cases hp : policy command with
      | lossless => simp [hp, MailboxItem.key, MailboxPolicy.key] at hb
      | replaceLatest key =>
        obtain ⟨item, hitem, hkey⟩ := List.mem_filterMap.mp ha
        obtain rfl : b = key := by simpa [hp, MailboxItem.key, MailboxPolicy.key, eq_comm] using hb
        have := hk b hp item hitem
        simp [hasKey_iff.mpr (hab ▸ hkey)] at this
  current := by simpa [or_imp, forall_and] using h.current

/-- A pending command ends. -/
theorem Good.remove (h : l.Good policy) {before after : List (MailboxItem C)} {old : MailboxItem C}
    (hq : l.queue = before ++ old :: after) (outcome : CommandOutcome R) :
    ({ l with queue := before ++ after, resolved := l.resolved ++ [(old.ticket, outcome)] } :
      Ledger C R).Good policy where
  accounted := by
    refine List.Perm.trans ?_ h.accounted
    simp only [hq, List.map_append, List.map_cons, List.map_nil, List.append_assoc,
      List.cons_append]
    refine List.Perm.append_left _ ?_
    rw [← List.append_assoc]
    exact List.perm_append_singleton _ _
  keys := by
    refine h.keys.sublist (List.Sublist.filterMap _ ?_)
    rw [hq]
    exact List.Sublist.append_left (List.sublist_cons_self _ _) _
  current item hitem := h.current item (by
    rw [hq]
    rcases List.mem_append.mp hitem with hi | hi <;> simp [hi])

theorem Good.submit (h : l.Good policy) (command : C) : (l.submit policy command).Good policy := by
  cases hp : policy command with
  | lossless =>
    rw [submit_lossless hp]
    split_ifs
    · exact h
    · exact h.push command (by simp [hp])
  | replaceLatest key =>
    rcases submit_replaceLatest (l := l) hp with ⟨before, old, after, hq, hold, hs⟩ | ⟨hno, hs⟩
    · rw [hs]
      refine (h.remove hq (.cancelled .superseded)).push command ?_
      intro key' hp' item hitem
      -- the pending command with this key is the one that was removed
      obtain rfl : key = key' := by simpa [hp] using hp'
      have hkeys := h.keys
      rw [hq, (List.perm_middle.filterMap _).nodup_iff,
        List.filterMap_cons_some (hasKey_iff.mp hold), List.nodup_cons] at hkeys
      by_contra hkey
      exact hkeys.1 (List.mem_filterMap.mpr ⟨item, hitem, hasKey_iff.mp (by simpa using hkey)⟩)
    · rw [hs]
      refine h.push command ?_
      intro key' hp'
      obtain rfl : key = key' := by simpa [hp] using hp'
      exact hno

theorem Good.settle (h : l.Good policy) {outcomes : List (ℕ × CommandOutcome R)}
    (ho : l.Settles outcomes) (generation : ℕ) : (l.settle outcomes generation).Good policy where
  accounted := by
    refine List.Perm.trans ?_ h.accounted
    rw [Ledger.settle, List.map_nil, List.nil_append, List.map_append,
      show outcomes.map Prod.fst = _ from ho]
    exact List.perm_append_comm
  keys := by simp [Ledger.settle]
  current := by simp [Ledger.settle]

/-- **Whatever happens to a mailbox, each ticket stays accounted for once.** -/
theorem Step.good (hs : Step policy l l') (h : l.Good policy) : l'.Good policy := by
  cases hs with
  | same => exact h
  | submit command => exact h.submit command
  | settle ho _ => exact h.settle ho _

/-- An outcome is never taken back. -/
theorem Step.resolved_extends (hs : Step policy l l') : l.resolved <+: l'.resolved := by
  cases hs with
  | same => exact List.prefix_rfl
  | submit command => simp only [Ledger.submit]; split <;> simp
  | settle => exact List.prefix_append _ _

theorem Step.capacity_eq (hs : Step policy l l') : l'.capacity = l.capacity := by
  cases hs with
  | submit command => simp only [Ledger.submit]; split <;> rfl
  | same | settle => rfl

theorem Step.generation_le (hs : Step policy l l') : l.generation ≤ l'.generation := by
  cases hs with
  | same => exact le_refl _
  | submit command => simp only [Ledger.submit]; split <;> exact le_refl _
  | settle _ hle => exact hle

/-- A ticket has one outcome. -/
theorem Good.outcome_unique (h : l.Good policy) {ticket : ℕ} {o o' : CommandOutcome R}
    (ho : (ticket, o) ∈ l.resolved) (ho' : (ticket, o') ∈ l.resolved) : o = o' := by
  have hnodup : (l.resolved.map Prod.fst).Nodup :=
    (List.nodup_append.mp (h.accounted.nodup_iff.mpr List.nodup_range)).2.1
  exact congrArg Prod.snd (List.inj_on_of_nodup_map hnodup ho ho' rfl)

/-- The queue stays within its capacity unless a `ReplaceLatest` command with nothing to replace
comes to a full one. -/
theorem length_submit_le_iff (h : l.queue.length ≤ l.capacity) (command : C) :
    (l.submit policy command).queue.length ≤ l.capacity ↔
      ∀ key, policy command = .replaceLatest key →
        l.queue.length < l.capacity ∨ ∃ item ∈ l.queue, item.hasKey policy key := by
  cases hp : policy command with
  | lossless =>
    rw [submit_lossless hp]
    split_ifs with hfull
    · simpa using h
    · simp; omega
  | replaceLatest key =>
    rcases submit_replaceLatest (l := l) hp with ⟨before, old, after, hq, hold, hs⟩ | ⟨hno, hs⟩
    · rw [hs]
      have : ∃ item ∈ l.queue, item.hasKey policy key := ⟨old, by simp [hq], hold⟩
      simp only [hq, List.length_append, List.length_cons] at h
      simp [this]; omega
    · rw [hs]
      simp +contextual [hno]

end Ledger

end Shilpo.Domain
