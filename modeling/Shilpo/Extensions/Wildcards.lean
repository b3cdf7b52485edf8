import Shilpo.Extensions.Manifest
import Shilpo.Theory.Wildcards

/-!
# Wildcards

What the loop of `wildcard_matches` accepts. It compares a byte of the pattern with the next
byte of the value before it asks whether it is a star, so that a star that meets a star of the
value stands for that byte and nothing else.
-/

namespace Shilpo.Extensions

/-- The loop returns this when it goes on from here. -/
inductive WildcardLoop : Bytes → Bytes → Option (Bytes × Bytes) → Bool → Prop where
  | finished (pattern : Bytes) (star : Option (Bytes × Bytes)) :
      WildcardLoop pattern [] star (pattern.all (· = 42))
  | literal {c : UInt8} {pattern value : Bytes} {star : Option (Bytes × Bytes)} {b : Bool} :
      WildcardLoop pattern value star b → WildcardLoop (c :: pattern) (c :: value) star b
  | star {pattern value : Bytes} {c : UInt8} {star : Option (Bytes × Bytes)} {b : Bool} :
      c ≠ 42 → WildcardLoop pattern (c :: value) (some (pattern, c :: value)) b →
      WildcardLoop (42 :: pattern) (c :: value) star b
  | retry {pattern value afterStar retry : Bytes} {c d : UInt8} {b : Bool} :
      pattern.head? ≠ some c → pattern.head? ≠ some 42 →
      WildcardLoop afterStar retry (some (afterStar, retry)) b →
      WildcardLoop pattern (c :: value) (some (afterStar, d :: retry)) b
  | failed {pattern value : Bytes} {c : UInt8} :
      pattern.head? ≠ some c → pattern.head? ≠ some 42 →
      WildcardLoop pattern (c :: value) none false

/-- What the loop knows of the last star: what has been compared since then was equal. -/
def SinceStar (pattern value : Bytes) (star : Option (Bytes × Bytes)) : Prop :=
  ∀ afterStar retry, star = some (afterStar, retry) →
    ∃ u, afterStar = u ++ pattern ∧ retry = u ++ value

theorem sinceStar_none (pattern value : Bytes) : SinceStar pattern value none := by
  intro afterStar retry h
  cases h

theorem sinceStar_self (pattern value : Bytes) :
    SinceStar pattern value (some (pattern, value)) := by
  intro afterStar retry h
  cases h
  exact ⟨[], rfl, rfl⟩

variable {pattern value : Bytes} {star : Option (Bytes × Bytes)}

theorem SinceStar.literal {c : UInt8} (h : SinceStar (c :: pattern) (c :: value) star) :
    SinceStar pattern value star := by
  intro afterStar retry hstar
  obtain ⟨u, rfl, rfl⟩ := h _ _ hstar
  exact ⟨u ++ [c], by simp, by simp⟩

/-! ### The loop ends -/

/-- The part of the value that the last star has not been tried on, or all of it. -/
def untried (value : Bytes) : Option (Bytes × Bytes) → Bytes
  | some (_, retry) => retry
  | none => value

/-- With fuel for one more time through the pattern, and for one for each byte that the last star
has not been tried on, the loop comes to its end. -/
theorem wildcardLoop_returns {length fuel : ℕ} (hsince : SinceStar pattern value star)
    (hstar : ∀ s ∈ star, s.1.length ≤ length) (hpattern : pattern.length ≤ length)
    (hfuel : pattern.length + (length + 1) * (untried value star).length < fuel) :
    WildcardLoop pattern value star (wildcardLoop fuel pattern value star) := by
  induction fuel generalizing pattern value star with
  | zero => omega
  | succ fuel ih =>
    cases value with
    | nil => exact .finished pattern star
    | cons c value =>
      rw [wildcardLoop.eq_def]
      dsimp only
      by_cases hliteral : pattern.head? = some c
      · rw [if_pos hliteral]
        obtain ⟨pattern, rfl⟩ := List.head?_eq_some_iff.mp hliteral
        rw [List.length_cons] at hpattern hfuel
        refine .literal (ih hsince.literal hstar (by omega) ?_)
        have huntried : (untried value star).length ≤ (untried (c :: value) star).length := by
          cases star with
          | none => exact Nat.le_succ _
          | some => exact le_rfl
        have := Nat.mul_le_mul_left (length + 1) huntried
        omega
      · rw [if_neg hliteral]
        by_cases hmeets : pattern.head? = some 42
        · rw [if_pos hmeets]
          obtain ⟨pattern, rfl⟩ := List.head?_eq_some_iff.mp hmeets
          rw [List.length_cons] at hpattern hfuel
          refine .star (fun heq => hliteral (by rw [heq, List.head?_cons]))
            (ih (sinceStar_self _ _) ?_ (by omega) ?_)
          · rintro s ⟨⟩
            exact (Nat.le_succ _).trans hpattern
          · have huntried : (c :: value).length ≤ (untried (c :: value) star).length := by
              cases star with
              | none => exact le_rfl
              | some s =>
                obtain ⟨u, -, hretry⟩ := hsince s.1 s.2 rfl
                simp only [untried, hretry, List.length_append]
                omega
            have := Nat.mul_le_mul_left (length + 1) huntried
            change pattern.length + (length + 1) * (c :: value).length < fuel
            omega
        · rw [if_neg hmeets]
          cases star with
          | none => exact .failed hliteral hmeets
          | some s =>
            obtain ⟨afterStar, retry⟩ := s
            obtain ⟨u, -, hretry⟩ := hsince afterStar retry rfl
            obtain ⟨d, retry, rfl⟩ : ∃ d rest, retry = d :: rest :=
              List.exists_cons_of_ne_nil (by simp [hretry])
            have hafter : afterStar.length ≤ length := hstar _ rfl
            refine .retry hliteral hmeets (ih (sinceStar_self _ _) ?_ hafter ?_)
            · rintro s ⟨⟩
              exact hafter
            · simp only [untried, List.length_cons, Nat.mul_succ] at hfuel ⊢
              omega

/-- The comparison of a value with a pattern comes to its end. -/
theorem wildcardMatches_returns (pattern value : String) :
    WildcardLoop (utf8 pattern) (utf8 value) none (wildcardMatches pattern value) :=
  wildcardLoop_returns (sinceStar_none _ _) (fun s h => absurd h (Option.not_mem_none s)) le_rfl
    (by simp only [untried]; omega)

/-- And so does that of any bytes. -/
theorem exists_wildcardLoop (pattern value : Bytes) : ∃ b, WildcardLoop pattern value none b :=
  ⟨_, wildcardLoop_returns (sinceStar_none _ _) (fun s h => absurd h (Option.not_mem_none s))
    le_rfl (Nat.lt_succ_self _)⟩

/-! ### What it accepts -/

/-- What can still be read: the rest as it is, or from a later place of the value what comes
behind the last star. -/
def CanRead (pattern value : Bytes) (star : Option (Bytes × Bytes)) : Prop :=
  Reads 42 pattern value ∨
    ∃ afterStar d retry, star = some (afterStar, d :: retry) ∧
      ∃ r, r <:+ retry ∧ Reads 42 afterStar r

/-- Where the pattern is at a star that does not meet one, or the value is at its end, what comes
behind the last star need not be tried any more. -/
theorem canRead_iff_of_reached (hsince : SinceStar (42 :: pattern) value star)
    (hhead : value.head? ≠ some 42) :
    CanRead (42 :: pattern) value star ↔ Reads 42 (42 :: pattern) value := by
  constructor
  · rintro (h | ⟨afterStar, d, retry, rfl, r, hr, h⟩)
    · exact h
    · obtain ⟨u, rfl, hretry⟩ := hsince _ _ rfl
      exact h.drop_earlier (hretry ▸ hr.trans (List.suffix_cons _ _)) hhead
  · exact .inl

/-- What the loop returns is whether the rest can be read. -/
theorem WildcardLoop.eq_true_iff {b : Bool} (h : WildcardLoop pattern value star b)
    (hsince : SinceStar pattern value star) :
    b = true ↔ CanRead pattern value star := by
  induction h with
  | finished pattern star =>
    have hall : pattern.all (· = 42) = true ↔ Reads 42 pattern [] := by
      rw [reads_nil_right_iff, List.all_eq_true]
      simp only [decide_eq_true_eq]
    rw [hall]
    refine ⟨.inl, ?_⟩
    rintro (h | ⟨afterStar, d, retry, rfl, r, hr, h⟩)
    · exact h
    · obtain ⟨u, rfl, hretry⟩ := hsince _ _ rfl
      obtain ⟨r', hr', h⟩ := h.later (hretry ▸ hr.trans (List.suffix_cons _ _))
      rwa [List.suffix_nil.mp hr'] at h
  | @literal c pattern value star b _ ih =>
    rw [ih hsince.literal, CanRead, CanRead, reads_same_iff]
  | @star pattern value c star b hne _ ih =>
    have hhead : (c :: value).head? ≠ some 42 := by simpa using hne
    rw [ih (sinceStar_self _ _), canRead_iff_of_reached hsince hhead, reads_star_iff hhead]
    constructor
    · rintro (h | ⟨afterStar, d, retry, heq, r, hr, h⟩)
      · exact ⟨_, List.suffix_refl _, h⟩
      · cases heq
        exact ⟨r, hr.trans (List.suffix_cons _ _), h⟩
    · rintro ⟨r, hr, h⟩
      rcases List.suffix_cons_iff.mp hr with rfl | hr
      · exact .inl h
      · exact .inr ⟨_, _, _, rfl, r, hr, h⟩
  | @retry pattern value afterStar retry c d b hliteral hmeets _ ih =>
    rw [ih (sinceStar_self _ _)]
    constructor
    · rintro (h | ⟨afterStar', d', retry', heq, r, hr, h⟩)
      · exact .inr ⟨_, _, _, rfl, retry, List.suffix_refl _, h⟩
      · cases heq
        exact .inr ⟨_, _, _, rfl, r, hr.trans (List.suffix_cons _ _), h⟩
    · rintro (h | ⟨afterStar', d', retry', heq, r, hr, h⟩)
      · exact absurd h (not_reads hliteral hmeets)
      · cases heq
        cases retry with
        | nil =>
          rw [List.suffix_nil.mp hr] at h
          exact .inl h
        | cons d' retry =>
          rcases List.suffix_cons_iff.mp hr with rfl | hr
          · exact .inl h
          · exact .inr ⟨_, _, _, rfl, r, hr, h⟩
  | @failed pattern value c hliteral hmeets =>
    refine iff_of_false Bool.false_ne_true ?_
    rintro (h | ⟨_, _, _, heq, _⟩)
    · exact absurd h (not_reads hliteral hmeets)
    · cases heq

/-- The comparison tells whether the value can be split as the pattern has it, exactly where one
of the splits, if there are any, lets each star that meets a star stand for just that one. -/
theorem wildcardMatches_exact_iff (pattern value : Bytes) :
    (∀ pattern value,
      WildcardLoop (utf8 pattern) (utf8 value) none (wildcardMatches pattern value)) ∧
    (((∃ b, WildcardLoop pattern value none b) ∧
        ∀ b, WildcardLoop pattern value none b → (b = true ↔ Globs 42 pattern value)) ↔
      (Globs 42 pattern value → Reads 42 pattern value)) := by
  refine ⟨wildcardMatches_returns, ?_⟩
  have hread : ∀ b, WildcardLoop pattern value none b → (b = true ↔ Reads 42 pattern value) := by
    intro b h
    rw [h.eq_true_iff (sinceStar_none _ _), CanRead]
    simp
  obtain ⟨b, hb⟩ := exists_wildcardLoop pattern value
  constructor
  · rintro ⟨-, h⟩ hglobs
    exact (hread b hb).mp ((h b hb).mpr hglobs)
  · intro h
    exact ⟨⟨b, hb⟩, fun b hb => (hread b hb).trans ⟨Reads.globs, h⟩⟩

/-- A star does not match a path that begins with one. -/
theorem not_exact_star :
    wildcardMatches "/*" "/*a" = false ∧ Globs 42 (utf8 "/*") (utf8 "/*a") := by
  refine ⟨by decide, ?_⟩
  have hpattern : utf8 "/*" = [47, 42] := by decide
  have hvalue : utf8 "/*a" = [47, 42, 97] := by decide
  rw [hpattern, hvalue]
  exact .element (by decide) (.star [42, 97] .nil)

end Shilpo.Extensions
