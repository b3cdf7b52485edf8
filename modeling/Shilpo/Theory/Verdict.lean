import Shilpo.Theory.Runs

/-!
# The first verdict on a sequence

The elements of a sequence are judged in turn, each in the light of those before it,
until one decides the case. `firstVerdict` is the verdict of the first that does;
`firstVerdict_append` says that it makes no difference where the sequence is cut into
a part judged at once and a part judged as it comes.
-/

namespace Shilpo.Theory

universe u v

variable {α : Type u} {β : Type v}

/-- The first verdict on `as`, after `before` decided nothing. -/
def firstVerdict (verdict : List α → α → Option β) : List α → List α → Option β
  | _, [] => none
  | before, a :: as => (verdict before a).or (firstVerdict verdict (before ++ [a]) as)

variable {verdict : List α → α → Option β}

theorem firstVerdict_append (before as bs : List α) :
    firstVerdict verdict before (as ++ bs) =
      (firstVerdict verdict before as).or (firstVerdict verdict (before ++ as) bs) := by
  induction as generalizing before with
  | nil => simp [firstVerdict]
  | cons a as ih =>
    rw [List.cons_append, firstVerdict, firstVerdict, ih, Option.or_assoc, List.append_assoc]
    rfl

/-- No element of `as` decides. -/
def Undecided (verdict : List α → α → Option β) (as : List α) : Prop :=
  ∀ l a r, as = l ++ a :: r → verdict l a = none

/-- `a` is the first element of `as` to decide; `before` are those before it. -/
def FirstDeciding (verdict : List α → α → Option β) (as before : List α) (a : α) : Prop :=
  (∃ later, as = before ++ a :: later) ∧ Undecided verdict before ∧ verdict before a ≠ none

theorem undecided_append {as : List α} {a : α} :
    Undecided verdict (as ++ [a]) ↔ Undecided verdict as ∧ verdict as a = none := by
  constructor
  · intro h
    refine ⟨?_, h as a [] rfl⟩
    rintro l b r rfl
    exact h l b (r ++ [a]) (by simp)
  · rintro ⟨has, ha⟩ l b r hsplit
    rcases snoc_eq_append_cons hsplit with ⟨-, rfl, rfl⟩ | ⟨r, -, rfl⟩
    · exact ha
    · exact has l b r rfl

theorem firstVerdict_snoc (as : List α) (a : α) :
    firstVerdict verdict [] (as ++ [a]) = (firstVerdict verdict [] as).or (verdict as a) := by
  rw [firstVerdict_append, firstVerdict, firstVerdict, Option.or_none, List.nil_append]

theorem firstVerdict_eq_none_iff {as : List α} :
    firstVerdict verdict [] as = none ↔ Undecided verdict as := by
  induction as using List.reverseRecOn with
  | nil =>
    refine ⟨?_, fun _ => rfl⟩
    rintro - l a r h
    cases l <;> cases h
  | append_singleton as a ih =>
    rw [firstVerdict_snoc, Option.or_eq_none_iff, ih, undecided_append]

/-- **The first verdict is that of the first element to decide.** -/
theorem firstVerdict_eq_some_iff {as : List α} {x : β} :
    firstVerdict verdict [] as = some x ↔
      ∃ before a, FirstDeciding verdict as before a ∧ verdict before a = some x := by
  induction as using List.reverseRecOn with
  | nil =>
    constructor
    · intro h
      cases h
    · rintro ⟨before, a, ⟨⟨later, h⟩, -⟩, -⟩
      cases before <;> cases h
  | append_singleton as a ih =>
    rw [firstVerdict_snoc, Option.or_eq_some_iff, ih, firstVerdict_eq_none_iff]
    constructor
    · rintro (⟨before, b, ⟨⟨later, rfl⟩, hu, hb⟩, hx⟩ | ⟨hu, hx⟩)
      · exact ⟨before, b, ⟨⟨later ++ [a], by simp⟩, hu, hb⟩, hx⟩
      · exact ⟨as, a, ⟨⟨[], rfl⟩, hu, by simp [hx]⟩, hx⟩
    · rintro ⟨before, b, ⟨⟨later, hsplit⟩, hu, hb⟩, hx⟩
      rcases snoc_eq_append_cons hsplit with ⟨-, rfl, rfl⟩ | ⟨later, -, rfl⟩
      · exact .inr ⟨hu, hx⟩
      · exact .inl ⟨before, b, ⟨⟨later, rfl⟩, hu, hb⟩, hx⟩

end Shilpo.Theory
