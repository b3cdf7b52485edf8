import Mathlib

/-!
# Runs of a machine

A machine is a function `step` from a state and an input to the next state; a run
takes a list of inputs. Two things are said of a run: a property of its states
(`Always`), and a condition on each input in the state it is taken in (`Along`).
The rules here turn facts about one step into facts about a run:

* `Preserved.holds` — an invariant kept by each step holds after every run;
* `always_of_preserved` — and in every state on the way;
* `always_iff_along` — where, in a state that has `P`, a step keeps `P` exactly when
  its input meets `C`, a run keeps `P` exactly when all its inputs meet `C`;
* `run_iff_along` — the same for a property of what a run has accumulated, which
  once lost is never regained;
* `always_iff_of_sim`, `along_iff_of_sim` — what is said of a run may be said of the run
  of another machine that goes along with it.

`expand` lists what the steps of a run give out; `keeping` is the machine that keeps it, for
invariants that speak of it. Where an operation is itself a loop over smaller steps and gives
these out, a run of operations is the run of their small steps (`run_expand`), so that the
rules above apply to the states inside the loops too; what holds in all of these holds after
every operation (`always_of_expand`).
-/

namespace Shilpo.Theory

universe u v w

variable {σ : Type u} {α : Type v} {μ : Type w}

/-! ### Runs -/

/-- The state after the inputs `as`, from `s`. -/
def run (step : σ → α → σ) (s : σ) (as : List α) : σ := as.foldl step s

@[simp] theorem run_nil (step : σ → α → σ) (s : σ) : run step s [] = s := rfl

@[simp] theorem run_cons (step : σ → α → σ) (s : σ) (a : α) (as : List α) :
    run step s (a :: as) = run step (step s a) as := rfl

@[simp] theorem run_append (step : σ → α → σ) (s : σ) (as bs : List α) :
    run step s (as ++ bs) = run step (run step s as) bs := List.foldl_append

/-- Every input of the run meets `C` in the state it is taken in. -/
def Along (step : σ → α → σ) (C : σ → α → Prop) : σ → List α → Prop
  | _, [] => True
  | s, a :: as => C s a ∧ Along step C (step s a) as

/-- `P` holds in every state of the run, the first and the last among them. -/
def Always (step : σ → α → σ) (P : σ → Prop) : σ → List α → Prop
  | s, [] => P s
  | s, a :: as => P s ∧ Always step P (step s a) as

instance decidableAlong (step : σ → α → σ) (C : σ → α → Prop) [∀ s a, Decidable (C s a)] :
    ∀ s as, Decidable (Along step C s as)
  | _, [] => .isTrue trivial
  | s, a :: as =>
    have := decidableAlong step C (step s a) as
    inferInstanceAs (Decidable (C s a ∧ Along step C (step s a) as))

instance decidableAlways (step : σ → α → σ) (P : σ → Prop) [∀ s, Decidable (P s)] :
    ∀ s as, Decidable (Always step P s as)
  | s, [] => inferInstanceAs (Decidable (P s))
  | s, a :: as =>
    have := decidableAlways step P (step s a) as
    inferInstanceAs (Decidable (P s ∧ Always step P (step s a) as))

/-- Where a list with a last element is cut: at that element, or before it. -/
theorem snoc_eq_append_cons {as l r : List α} {a b : α} (h : as ++ [a] = l ++ b :: r) :
    r = [] ∧ l = as ∧ b = a ∨ ∃ r', r = r' ++ [a] ∧ as = l ++ b :: r' := by
  rcases r.eq_nil_or_concat with rfl | ⟨r, c, rfl⟩
  · obtain ⟨rfl, he⟩ := List.append_inj' h rfl
    obtain rfl := List.singleton_inj.mp he
    exact .inl ⟨rfl, rfl, rfl⟩
  · have h' : as ++ [a] = (l ++ b :: r) ++ [c] := by simpa using h
    obtain ⟨rfl, he⟩ := List.append_inj' h' rfl
    obtain rfl := List.singleton_inj.mp he
    exact .inr ⟨r, List.concat_eq_append, rfl⟩

variable {step : σ → α → σ}

theorem along_append {C : σ → α → Prop} (s : σ) (as bs : List α) :
    Along step C s (as ++ bs) ↔ Along step C s as ∧ Along step C (run step s as) bs := by
  induction as generalizing s with
  | nil => simp [Along]
  | cons a as ih => simp [Along, ih, and_assoc]

theorem along_iff {C : σ → α → Prop} (s : σ) (as : List α) :
    Along step C s as ↔ ∀ pre a post, as = pre ++ a :: post → C (run step s pre) a := by
  constructor
  · rintro h pre a post rfl
    exact ((along_append s pre (a :: post)).mp h).2.1
  · intro h
    induction as generalizing s with
    | nil => trivial
    | cons a as ih =>
      refine ⟨h [] a as rfl, ih (step s a) ?_⟩
      intro pre b post hb
      have := h (a :: pre) b post (by rw [hb]; rfl)
      simpa using this

theorem always_iff {P : σ → Prop} (s : σ) (as : List α) :
    Always step P s as ↔ ∀ pre post, as = pre ++ post → P (run step s pre) := by
  induction as generalizing s with
  | nil =>
    constructor
    · rintro h pre post hp
      obtain ⟨rfl, -⟩ := List.append_eq_nil_iff.mp hp.symm
      exact h
    · exact fun h => h [] [] rfl
  | cons a as ih =>
    rw [Always, ih]
    constructor
    · rintro ⟨h, hrest⟩ pre post hp
      cases pre with
      | nil => exact h
      | cons b pre =>
        simp only [List.cons_append, List.cons.injEq] at hp
        obtain ⟨rfl, hp⟩ := hp
        exact hrest pre post hp
    · intro h
      refine ⟨h [] (a :: as) rfl, ?_⟩
      intro pre post hp
      exact h (a :: pre) post (by rw [hp]; rfl)

/-! ### Invariants -/

/-- Each step keeps `I`. -/
def Preserved (step : σ → α → σ) (I : σ → Prop) : Prop := ∀ s a, I s → I (step s a)

theorem Preserved.holds {I : σ → Prop} (h : Preserved step I) {s : σ} (hs : I s) (as : List α) :
    I (run step s as) := by
  induction as generalizing s with
  | nil => exact hs
  | cons a as ih => exact ih (h s a hs)

theorem always_of_preserved {I : σ → Prop} (h : Preserved step I) {s : σ} (hs : I s)
    (as : List α) : Always step I s as :=
  (always_iff s as).mpr fun pre _ _ => h.holds hs pre

/-- What each step keeps whose input meets `C`, a run keeps whose inputs all meet `C`. -/
theorem Along.holds {C : σ → α → Prop} {I : σ → Prop} (h : ∀ s a, I s → C s a → I (step s a))
    {s : σ} (hs : I s) {as : List α} (hC : Along step C s as) : I (run step s as) := by
  induction as generalizing s with
  | nil => exact hs
  | cons a as ih => exact ih (h s a hs hC.1) hC.2

/-- A condition on the inputs that keeps an invariant, and with it makes each step do `D`. -/
theorem Along.imp {C D : σ → α → Prop} {I : σ → Prop} (hI : ∀ s a, I s → C s a → I (step s a))
    (h : ∀ s a, I s → C s a → D s a) {s : σ} (hs : I s) {as : List α} (hC : Along step C s as) :
    Along step D s as := by
  induction as generalizing s with
  | nil => trivial
  | cons a as ih => exact ⟨h s a hs hC.1, ih (hI s a hs hC.1) hC.2⟩

theorem Along.mono {C D : σ → α → Prop} {I : σ → Prop} (hI : Preserved step I)
    (h : ∀ s a, I s → C s a → D s a) {s : σ} (hs : I s) {as : List α}
    (hC : Along step C s as) : Along step D s as := by
  induction as generalizing s with
  | nil => trivial
  | cons a as ih => exact ⟨h s a hs hC.1, ih (hI s a hs) hC.2⟩

theorem along_congr {C D : σ → α → Prop} {I : σ → Prop} (hI : Preserved step I)
    (h : ∀ s a, I s → (C s a ↔ D s a)) {s : σ} (hs : I s) (as : List α) :
    Along step C s as ↔ Along step D s as :=
  ⟨Along.mono hI (fun s a hs => (h s a hs).mp) hs, Along.mono hI (fun s a hs => (h s a hs).mpr) hs⟩

/-- **A property kept exactly when a condition is met.** -/
theorem always_iff_along {I P : σ → Prop} {C : σ → α → Prop} (hI : Preserved step I)
    (h : ∀ s a, I s → P s → (P (step s a) ↔ C s a)) {s : σ} (hs : I s) (hP : P s)
    (as : List α) : Always step P s as ↔ Along step C s as := by
  induction as generalizing s with
  | nil => exact ⟨fun _ => trivial, fun _ => hP⟩
  | cons a as ih =>
    constructor
    · rintro ⟨-, hrest⟩
      have hPa : P (step s a) := by cases as <;> simp only [Always] at hrest <;> tauto
      exact ⟨(h s a hs hP).mp hPa, (ih (hI s a hs) hPa).mp hrest⟩
    · rintro ⟨hC, hrest⟩
      exact ⟨hP, (ih (hI s a hs) ((h s a hs hP).mpr hC)).mpr hrest⟩

/-- **A property kept, and one of steps from states that have it**, both exactly when a
condition is met. -/
theorem always_and_along_iff {I P : σ → Prop} {C D : σ → α → Prop} (hI : Preserved step I)
    (h : ∀ s a, I s → P s → (P (step s a) ∧ D s a ↔ C s a)) {s : σ} (hs : I s) (hP : P s)
    (as : List α) : Always step P s as ∧ Along step D s as ↔ Along step C s as := by
  induction as generalizing s with
  | nil => exact ⟨fun _ => trivial, fun _ => ⟨hP, trivial⟩⟩
  | cons a as ih =>
    constructor
    · rintro ⟨⟨-, hrest⟩, hD, hDs⟩
      have hPa : P (step s a) := by cases as <;> simp only [Always] at hrest <;> tauto
      exact ⟨(h s a hs hP).mp ⟨hPa, hD⟩, (ih (hI s a hs) hPa).mp ⟨hrest, hDs⟩⟩
    · rintro ⟨hC, hrest⟩
      obtain ⟨hPa, hD⟩ := (h s a hs hP).mpr hC
      obtain ⟨hAlways, hAlong⟩ := (ih (hI s a hs) hPa).mpr hrest
      exact ⟨⟨hP, hAlways⟩, hD, hAlong⟩

/-- **A property of what a run has accumulated.** -/
theorem run_iff_along {I P : σ → Prop} {C : σ → α → Prop} (hI : Preserved step I)
    (h : ∀ s a, I s → (P (step s a) ↔ P s ∧ C s a)) {s : σ} (hs : I s) (as : List α) :
    P (run step s as) ↔ P s ∧ Along step C s as := by
  induction as generalizing s with
  | nil => simp [Along]
  | cons a as ih => rw [run_cons, ih (hI s a hs), h s a hs, Along, and_assoc]

/-! ### Two machines -/

section

variable {τ : Type*} {step' : τ → α → τ} {R : σ → τ → Prop}

/-- A property of states that go together. -/
theorem always_iff_of_sim {P : σ → Prop} {Q : τ → Prop}
    (hR : ∀ s t a, R s t → R (step s a) (step' t a)) (h : ∀ s t, R s t → (P s ↔ Q t)) {s : σ}
    {t : τ} (hst : R s t) (as : List α) : Always step P s as ↔ Always step' Q t as := by
  induction as generalizing s t with
  | nil => exact h s t hst
  | cons a as ih => exact and_congr (h s t hst) (ih (hR s t a hst))

/-- A condition on inputs in states that go together. -/
theorem along_iff_of_sim {C : σ → α → Prop} {D : τ → α → Prop}
    (hR : ∀ s t a, R s t → R (step s a) (step' t a)) (h : ∀ s t a, R s t → (C s a ↔ D t a))
    {s : σ} {t : τ} (hst : R s t) (as : List α) : Along step C s as ↔ Along step' D t as := by
  induction as generalizing s t with
  | nil => exact Iff.rfl
  | cons a as ih => exact and_congr (h s t a hst) (ih (hR s t a hst))

end

/-! ### What a run gives out -/

/-- What the steps of a run give out, in order. -/
def expand (step : σ → α → σ) (out : σ → α → List μ) : σ → List α → List μ
  | _, [] => []
  | s, a :: as => out s a ++ expand step out (step s a) as

theorem expand_append (out : σ → α → List μ) (s : σ) (as bs : List α) :
    expand step out s (as ++ bs) = expand step out s as ++ expand step out (run step s as) bs := by
  induction as generalizing s with
  | nil => rfl
  | cons a as ih => simp [expand, ih]

theorem expand_congr {out out' : σ → α → List μ} {I : σ → Prop} (hI : Preserved step I)
    (h : ∀ s a, I s → out s a = out' s a) {s : σ} (hs : I s) (as : List α) :
    expand step out s as = expand step out' s as := by
  induction as generalizing s with
  | nil => rfl
  | cons a as ih => rw [expand, expand, h s a hs, ih (hI s a hs)]

/-- The machine that keeps what its steps have given out. -/
def keeping (step : σ → α → σ) (out : σ → α → List μ) (s : σ × List μ) (a : α) : σ × List μ :=
  (step s.1 a, s.2 ++ out s.1 a)

theorem run_keeping (out : σ → α → List μ) (s : σ) (kept : List μ) (as : List α) :
    run (keeping step out) (s, kept) as = (run step s as, kept ++ expand step out s as) := by
  induction as generalizing s kept with
  | nil => simp [expand]
  | cons a as ih => rw [run_cons, keeping, ih, run_cons, expand, List.append_assoc]

theorem along_keeping {out : σ → α → List μ} {C : σ → α → Prop} (s : σ) (kept : List μ)
    (as : List α) :
    Along (keeping step out) (fun s a => C s.1 a) (s, kept) as ↔ Along step C s as := by
  induction as generalizing s kept with
  | nil => exact Iff.rfl
  | cons a as ih => exact and_congr_right fun _ => ih _ _

/-! ### Operations made of smaller steps -/

section Unfold

variable {micro : σ → μ → σ} {unfold : σ → α → List μ}

/-- A run of operations is the run of their small steps. -/
theorem run_expand (h : ∀ s a, step s a = run micro s (unfold s a)) (s : σ) (as : List α) :
    run micro s (expand step unfold s as) = run step s as := by
  induction as generalizing s with
  | nil => rfl
  | cons a as ih => rw [expand, run_append, ← h, ih, run_cons]

/-- What holds in every state of a run of small steps holds after every operation. -/
theorem always_of_expand (h : ∀ s a, step s a = run micro s (unfold s a)) {P : σ → Prop} {s : σ}
    {as : List α} (hP : Always micro P s (expand step unfold s as)) : Always step P s as := by
  rw [always_iff] at hP ⊢
  intro pre post hsplit
  rw [← run_expand h]
  exact hP _ _ (by rw [hsplit, expand_append])

/-- What every small step keeps, every operation keeps. -/
theorem Preserved.of_micro (h : ∀ s a, step s a = run micro s (unfold s a)) {I : σ → Prop}
    (hI : Preserved micro I) : Preserved step I := by
  intro s a hs
  rw [h]; exact hI.holds hs _

/-- A loop over `xs` that takes the small step `f x` at each `x`. -/
theorem run_map (f : α → μ) (s : σ) (xs : List α) :
    run micro s (xs.map f) = xs.foldl (fun s x => micro s (f x)) s := by
  rw [run, List.foldl_map]

end Unfold

end Shilpo.Theory
