import Shilpo.Theory.Runs

/-!
# Numbered windows

A window gathers members from its opening to its end. It is opened by the first
member to join while none is open, and gets the next number. It ends with its
members firing, when it is completed under its own number or when it expires, or is
cancelled. `Gathers` says that a machine, seen through `win`, works a window: each
step does at most one act. Of such a machine:

* `Gathers.fired_sorted` — each number fires at most once, in increasing order;
* `Gathers.opened` — the members of an open window are those that joined since it
  was opened, each once, and nothing since then ended it.
-/

namespace Shilpo.Theory

universe u v w

/-- The windows opened so far, and the members of the open one. -/
structure Window (α : Type u) where
  /-- How many windows have been opened: the number of the last. -/
  generation : ℕ
  /-- The members of the open window, in the order they joined. -/
  members : Option (List α)

namespace Window

variable {α : Type u}

/-- What can be done to a window. -/
inductive Act (α : Type u) where
  /-- A member joins. -/
  | join (a : α)
  /-- The open window ends without firing. -/
  | cancel
  /-- The window with this number fires, if it is open. -/
  | complete (generation : ℕ)
  /-- The open window fires. -/
  | expire

/-- The act ends the window with this number. -/
def Act.ends (generation : ℕ) : Act α → Prop
  | .join _ => False
  | .cancel | .expire => True
  | .complete g => g = generation

/-- The member that joins. -/
def Act.joining : Act α → List α
  | .join a => [a]
  | _ => []

/-- What an act leaves. -/
def next [DecidableEq α] (w : Window α) : Act α → Window α
  | .join a =>
    match w.members with
    | some ms => if a ∈ ms then w else { w with members := some (ms ++ [a]) }
    | none => ⟨w.generation + 1, some [a]⟩
  | .cancel | .expire => { w with members := none }
  | .complete g => if g = w.generation then { w with members := none } else w

/-- What an act fires: the number and the members of the window it ends. -/
def fires (w : Window α) : Act α → Option (ℕ × List α)
  | .join _ | .cancel => none
  | .complete g => if g = w.generation then w.members.map (w.generation, ·) else none
  | .expire => w.members.map (w.generation, ·)

/-- Firing takes an open window, which it closes. -/
theorem of_fires {w : Window α} {a : Act α} {g : ℕ} {ms : List α} (h : w.fires a = some (g, ms)) :
    g = w.generation ∧ w.members = some ms ∧ a.ends w.generation := by
  cases a with
  | join _ | cancel => cases h
  | complete g' =>
    simp only [fires] at h
    split_ifs at h with hg
    obtain ⟨ms', hms, he⟩ := Option.map_eq_some_iff.mp h
    obtain ⟨rfl, rfl⟩ := Prod.mk.inj he
    exact ⟨rfl, hms, hg⟩
  | expire =>
    obtain ⟨ms', hms, he⟩ := Option.map_eq_some_iff.mp h
    obtain ⟨rfl, rfl⟩ := Prod.mk.inj he
    exact ⟨rfl, hms, trivial⟩

variable [DecidableEq α]

/-- Expiry leaves what cancelling leaves. -/
@[simp] theorem next_expire (w : Window α) : w.next .expire = w.next .cancel := rfl

theorem next_ends {w : Window α} {a : Act α} (h : a.ends w.generation) :
    w.next a = { w with members := none } := by
  cases a with
  | join _ => exact h.elim
  | cancel | expire => rfl
  | complete g => exact if_pos h

/-- What at most one act leaves. -/
def after (w : Window α) : Option (Act α) → Window α
  | some a => w.next a
  | none => w

/-- A number below that of an open window, and none above the last, stays so. -/
theorem after_bound {w : Window α} {g : ℕ}
    (h : g ≤ w.generation ∧ (w.members.isSome → g < w.generation)) (a : Option (Act α)) :
    g ≤ (w.after a).generation ∧ ((w.after a).members.isSome → g < (w.after a).generation) := by
  match a with
  | none => exact h
  | some (.join a) =>
    simp only [after, next]
    split
    · split_ifs
      · exact h
      · exact ⟨h.1, fun _ => h.2 (by simp_all)⟩
    · exact ⟨Nat.le_succ_of_le h.1, fun _ => Nat.lt_succ_of_le h.1⟩
  | some .cancel | some .expire => exact ⟨h.1, by simp [after, next]⟩
  | some (.complete g') =>
    simp only [after, next]
    split_ifs
    · exact ⟨h.1, by simp⟩
    · exact h

/-- A window open after an act was opened by it, or was open and gained what joined. -/
theorem of_after {w : Window α} {a : Option (Act α)} {ms : List α}
    (h : (w.after a).members = some ms) :
    (w.members = none ∧ (w.after a).generation = w.generation + 1 ∧
      ∃ x, a = some (.join x) ∧ ms = [x]) ∨
    ∃ ms₀, w.members = some ms₀ ∧ (w.after a).generation = w.generation ∧
      (∀ b ∈ a, ¬ b.ends w.generation) ∧
      (∀ x, x ∈ ms ↔ x ∈ ms₀ ∨ x ∈ a.toList.flatMap Act.joining) ∧ (ms₀.Nodup → ms.Nodup) := by
  match a with
  | none => exact .inr ⟨ms, h, rfl, by simp, by simp, id⟩
  | some (.join x) =>
    simp only [after, next] at h ⊢
    cases hm : w.members with
    | none => exact .inl ⟨rfl, rfl, x, rfl, by simpa [hm, eq_comm] using h⟩
    | some ms₀ =>
      simp only [hm] at h
      by_cases hx : x ∈ ms₀
      · obtain rfl : ms₀ = ms := by simpa [hx, hm] using h
        refine .inr ⟨ms₀, rfl, by simp [hx], by simp [Act.ends], ?_, id⟩
        intro y
        simpa [Act.joining] using fun hy : y = x => hy ▸ hx
      · obtain rfl : ms₀ ++ [x] = ms := by simpa [hx] using h
        have hfresh : ∀ a ∈ ms₀, a ≠ x := fun a ha hax => hx (hax ▸ ha)
        refine .inr ⟨ms₀, rfl, by simp [hx], by simp [Act.ends], by simp [Act.joining], ?_⟩
        intro hn
        exact List.nodup_append.mpr ⟨hn, by simp, by simpa using hfresh⟩
  | some .cancel | some .expire => simp [after, next] at h
  | some (.complete g) =>
    simp only [after, next] at h ⊢
    by_cases hg : g = w.generation
    · simp [hg] at h
    · simp only [hg, if_false] at h ⊢
      exact .inr ⟨ms, h, trivial, by simpa [Act.ends] using hg, by simp [Act.joining], id⟩

/-! ### Machines that work a window -/

section Machine

variable {σ : Type v} {β : Type w}

/-- Seen through `win`, each step of a machine that keeps `I` does the act it says, if any. -/
structure Gathers (step : σ → β → σ) (I : σ → Prop) (win : σ → Window α)
    (act : σ → β → Option (Act α)) :
    Prop where
  /-- The invariant is kept. -/
  inv : Preserved step I
  /-- The window after a step. -/
  next : ∀ s b, I s → win (step s b) = (win s).after (act s b)

/-- The members that join along a run. -/
def joined (step : σ → β → σ) (act : σ → β → Option (Act α)) : σ → List β → List α :=
  expand step fun s b => (act s b).toList.flatMap Act.joining

/-- The numbers of the windows that fire along a run. -/
def fired (step : σ → β → σ) (win : σ → Window α) (act : σ → β → Option (Act α)) :
    σ → List β → List ℕ :=
  expand step fun s b => ((act s b).bind (win s).fires).toList.map Prod.fst

variable {step : σ → β → σ} {I : σ → Prop} {win : σ → Window α} {act : σ → β → Option (Act α)}

/-- What is known of the numbers fired so far. -/
theorem Gathers.fired_bound (h : Gathers step I win act) {s : σ} (hs : I s) (bs : List β) :
    (fired step win act s bs).Pairwise (· < ·) ∧
      ∀ g ∈ fired step win act s bs, g ≤ (win (run step s bs)).generation ∧
        ((win (run step s bs)).members.isSome → g < (win (run step s bs)).generation) := by
  induction bs using List.reverseRecOn with
  | nil => simp [fired, expand]
  | append_singleton bs b ih =>
    obtain ⟨hsorted, hbound⟩ := ih
    have hnext := h.next (run step s bs) b (h.inv.holds hs bs)
    simp only [fired, expand_append, expand, List.append_nil, run_append, run_cons, run_nil, hnext]
      at hsorted hbound ⊢
    set w := win (run step s bs)
    cases hf : (act (run step s bs) b).bind w.fires with
    | none => simpa using ⟨hsorted, fun g hg => after_bound (hbound g hg) _⟩
    | some f =>
      obtain ⟨g, ms⟩ := f
      obtain ⟨a, ha, hfires⟩ := Option.bind_eq_some_iff.mp hf
      obtain ⟨rfl, hms, hends⟩ := of_fires hfires
      have hafter : w.after (some a) = { w with members := none } := next_ends hends
      simp only [ha, hafter, Option.toList_some, List.map_cons, List.map_nil, List.pairwise_append,
        List.mem_append, List.mem_singleton]
      refine ⟨⟨hsorted, by simp, fun g hg g' hg' => ?_⟩, fun g hg => ⟨?_, by simp⟩⟩
      · exact hg' ▸ (hbound g hg).2 (by simp [hms])
      · exact hg.elim (fun hg => (hbound g hg).1) Nat.le_of_eq

/-- **Each number fires at most once**, and in increasing order. -/
theorem Gathers.fired_sorted (h : Gathers step I win act) {s : σ} (hs : I s) (bs : List β) :
    (fired step win act s bs).Pairwise (· < ·) := (h.fired_bound hs bs).1

/-- The run `bs` opened the window that is open after it in the step after `earlier`, and nothing
ended it since. -/
structure Opened (step : σ → β → σ) (win : σ → Window α) (act : σ → β → Option (Act α)) (s : σ)
    (earlier since : List β) (generation : ℕ) (ms : List α) : Prop where
  /-- No window is open before. -/
  closed : (win (run step s earlier)).members = none
  /-- The window gets the next number. -/
  number : (win (run step s earlier)).generation + 1 = generation
  /-- Nothing ends it. -/
  quiet : Along step (fun s b => ∀ a ∈ act s b, ¬ a.ends generation) (run step s earlier) since
  /-- Its members are those that joined. -/
  mem_iff : ∀ a, a ∈ ms ↔ a ∈ joined step act (run step s earlier) since
  /-- Each is a member once. -/
  nodup : ms.Nodup

omit [DecidableEq α] in
/-- One more step of an open window that does not end it. -/
theorem Opened.snoc {s : σ} {earlier since : List β} {g : ℕ} {ms ms' : List α} {b : β}
    (h : Opened step win act s earlier since g ms)
    (hquiet : ∀ a ∈ act (run step s (earlier ++ since)) b, ¬ a.ends g)
    (hmem : ∀ a, a ∈ ms' ↔ a ∈ ms ∨
      a ∈ (act (run step s (earlier ++ since)) b).toList.flatMap Act.joining)
    (hnodup : ms'.Nodup) : Opened step win act s earlier (since ++ [b]) g ms' where
  closed := h.closed
  number := h.number
  quiet := by simpa [along_append, Along] using ⟨by simpa using h.quiet, by simpa using hquiet⟩
  mem_iff a := by rw [hmem, h.mem_iff]; simp [joined, expand_append, expand]
  nodup := hnodup

/-- **The members of an open window are those that joined since it was opened.** -/
theorem Gathers.opened (h : Gathers step I win act) {s : σ} (hs : I s)
    (hclosed : (win s).members = none)
    (bs : List β) {ms : List α} (hms : (win (run step s bs)).members = some ms) :
    ∃ earlier opening since, bs = earlier ++ opening :: since ∧
      Opened step win act s earlier (opening :: since) (win (run step s bs)).generation ms := by
  induction bs using List.reverseRecOn generalizing ms with
  | nil => simp [hclosed] at hms
  | append_singleton bs b ih =>
    have hnext := h.next (run step s bs) b (h.inv.holds hs bs)
    simp only [run_append, run_cons, run_nil] at hms ⊢
    rw [hnext] at hms ⊢
    rcases of_after hms with ⟨hnone, hgen, x, hact, rfl⟩ | ⟨ms₀, hms₀, hgen, hquiet, hmem, hnodup⟩
    · -- `b` opens the window
      refine ⟨bs, b, [], rfl, hnone, hgen.symm, ?_, fun a => ?_, by simp⟩
      · simp [Along, hact, Act.ends]
      · simp [joined, expand, hact, Act.joining]
    · obtain ⟨earlier, opening, since, rfl, ho⟩ := ih hms₀
      rw [hgen]
      exact ⟨earlier, opening, since ++ [b], by simp, ho.snoc hquiet hmem (hnodup ho.nodup)⟩

end Machine

end Window

end Shilpo.Theory
