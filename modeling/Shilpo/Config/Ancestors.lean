import Shilpo.Config.KeyPaths
import Shilpo.Config.Recovery

/-!
# What a path is part of

`ConfigProvenance::get` cuts a path at its last dot, and only if it has none at its last bracket.
So of what a place is part of it passes over an element of an array and the array itself, where
there is a dot before them: after `a.b[0]` it looks for `a`, and not for `a.b`. What it finds is
there for the nearest ancestor exactly if that is not one of those, or has no other location than
what is found in its place (`get_eq_nearest_iff`).
-/

namespace Shilpo.Config

open Theory

/-! ### Ancestors -/

/-- A key that a path is cut before or behind, and not within. -/
def CutKey (k : String) : Prop := k ≠ "" ∧ '.' ∉ k.toList ∧ '[' ∉ k.toList

namespace ConfigPath

/-- All keys are so. -/
def Cut (p : ConfigPath) : Prop := ∀ k, .key k ∈ p.full → CutKey k

/-- The place itself and what it is part of, from within. -/
def ancestors (p : ConfigPath) : List ConfigPath :=
  p.steps.inits.reverse.map fun steps => ⟨p.key, steps⟩

/-- An array behind a second key, or an element of it, when the place is within an element. -/
def PassesOver (p a : ConfigPath) : Prop :=
  (∃ idx, a.steps ++ [PathStep.index idx] <+: p.steps) ∧ ∃ k, .key k ∈ a.steps

end ConfigPath

/-- The location of the nearest of some places that has one. -/
def ConfigProvenance.first (map : ConfigProvenance) (places : List ConfigPath) :
    Option SourceLocation :=
  places.findSome? fun a => map.lookup a.encode

/-! ### Cuts -/

theorem cutsAt_snoc (c d : Char) (text : List Char) :
    cutsAt c (text ++ [d]) = (if d = c then [text] else []) ++ cutsAt c text := by
  have hfilter : ((List.range text.length).reverse.filter fun i => (text ++ [d])[i]? = some c) =
      (List.range text.length).reverse.filter fun i => text[i]? = some c := by
    refine List.filter_congr fun i hi => ?_
    have hlt : i < text.length := by simpa using hi
    rw [List.getElem?_append_left hlt]
  have htake : ∀ i ∈ (List.range text.length).reverse.filter fun i => text[i]? = some c,
      (text ++ [d]).take i = text.take i := by
    intro i hi
    have hlt : i < text.length := by simpa using (List.mem_filter.mp hi).1
    exact List.take_append_of_le_length hlt.le
  rw [cutsAt, List.length_append, List.length_singleton, List.range_succ, List.reverse_append,
    List.reverse_singleton, List.singleton_append, List.filter_cons, hfilter]
  have hlast : (text ++ [d])[text.length]? = some d := by simp
  rw [hlast]
  by_cases hd : d = c
  · rw [if_pos (by simp [hd]), if_pos hd, List.map_cons, List.map_congr_left htake,
      List.take_left, cutsAt]
    rfl
  · rw [if_neg (by simp [hd]), if_neg hd, List.map_congr_left htake, cutsAt, List.nil_append]

variable {c : Char}

theorem cutsAt_append_of_notMem (text : List Char) {more : List Char} (h : c ∉ more) :
    cutsAt c (text ++ more) = cutsAt c text := by
  induction more using List.reverseRecOn with
  | nil => rw [List.append_nil]
  | append_singleton more d ih =>
    rw [List.mem_append, not_or, List.mem_singleton] at h
    rw [← List.append_assoc, cutsAt_snoc, if_neg (Ne.symm h.2), List.nil_append, ih h.1]

theorem cutsAt_append_cons (text : List Char) {more : List Char} (h : c ∉ more) :
    cutsAt c (text ++ c :: more) = text :: cutsAt c text := by
  rw [← List.singleton_append, ← List.append_assoc, cutsAt_append_of_notMem _ h, cutsAt_snoc,
    if_pos rfl, List.singleton_append]

variable {text : List Char}

theorem cutsAt_eq_nil (h : c ∉ text) : cutsAt c text = [] := by
  have := cutsAt_append_of_notMem [] h
  rwa [List.nil_append] at this

/-! ### The paths that are looked for -/

/-- A key. -/
def PathStep.isKey : PathStep → Bool
  | .key _ => true
  | .index _ => false

/-- What a place is part of and is found when its path is cut, from within; with the last step
first. -/
def cutAncestors : List PathStep → List (List PathStep)
  | [] => []
  | step :: steps =>
    if step.isKey || steps.all (!·.isKey) then steps :: cutAncestors steps
    else cutAncestors steps

/-- The text of a key and of steps after it, the last first. -/
def reversedText (k : String) (steps : List PathStep) : List Char :=
  keyText k ++ steps.reverse.flatMap stepText

theorem reversedText_cons (k : String) (step : PathStep) (steps : List PathStep) :
    reversedText k (step :: steps) = reversedText k steps ++ stepText step := by
  simp [reversedText]

theorem notMem_keyText {k : String} (hc : c ≠ '"') (h : c ∉ k.toList) :
    c ∉ keyText k := by
  rw [keyText]
  split_ifs
  · simpa [hc] using h
  · exact h

theorem CutKey.dot_notMem {k : String} (h : CutKey k) : '.' ∉ keyText k :=
  notMem_keyText (by decide) h.2.1

theorem CutKey.bracket_notMem {k : String} (h : CutKey k) : '[' ∉ keyText k :=
  notMem_keyText (by decide) h.2.2

theorem notMem_digits (hc : c.isDigit = false) (idx : ℕ) :
    c ∉ (toString idx).toList := by
  intro hmem
  rw [Nat.toString_eq_ofList_toDigits, String.toList_ofList] at hmem
  have hdigit := Nat.isDigit_of_mem_toDigits (by decide) (by decide) hmem
  rw [hc] at hdigit
  cases hdigit

theorem dot_notMem_indexText (idx : ℕ) : '.' ∉ stepText (.index idx) := by
  simpa [stepText] using notMem_digits rfl idx

variable {k : String} {steps : List PathStep}

theorem dot_notMem_reversedText (hk : CutKey k) (h : steps.all (!·.isKey) = true) :
    '.' ∉ reversedText k steps := by
  induction steps with
  | nil => simpa [reversedText] using hk.dot_notMem
  | cons step steps ih =>
    rw [List.all_cons, Bool.and_eq_true] at h
    rw [reversedText_cons, List.mem_append, not_or]
    refine ⟨ih h.2, ?_⟩
    cases step with
    | key k' => cases h.1
    | index idx => exact dot_notMem_indexText idx

theorem dot_mem_reversedText (h : steps.all (!·.isKey) = false) : '.' ∈ reversedText k steps := by
  induction steps with
  | nil => cases h
  | cons step steps ih =>
    rw [reversedText_cons, List.mem_append]
    cases step with
    | key k' => exact .inr List.mem_cons_self
    | index idx => exact .inl (ih h)

theorem takeWhile_append_of_mem (h : c ∈ text) (more : List Char) :
    (text ++ more).takeWhile (· ≠ c) = text.takeWhile (· ≠ c) := by
  induction text with
  | nil => cases h
  | cons d text ih =>
    rw [List.cons_append, List.takeWhile_cons, List.takeWhile_cons]
    by_cases hd : d = c
    · rw [if_neg (by simp [hd]), if_neg (by simp [hd])]
    · rw [if_pos (by simp [hd]), if_pos (by simp [hd]),
        ih ((List.mem_cons.mp h).resolve_left (Ne.symm hd))]

theorem takeWhile_append_cons (c : Char) (text more : List Char) :
    (text ++ c :: more).takeWhile (· ≠ c) = text.takeWhile (· ≠ c) := by
  induction text with
  | nil => simp
  | cons d text ih => rw [List.cons_append, List.takeWhile_cons, List.takeWhile_cons, ih]

theorem takeWhile_eq_self (h : c ∉ text) :
    text.takeWhile (· ≠ c) = text := by
  rw [List.takeWhile_eq_self_iff]
  intro d hd
  simpa using fun hc : d = c => h (hc ▸ hd)

/-- What a path is cut to, by what it stands for. -/
theorem cuts_reversedText (hk : CutKey k) (h : ∀ k', .key k' ∈ steps → CutKey k') :
    cutsAt '.' (reversedText k steps) ++
        cutsAt '[' ((reversedText k steps).takeWhile (· ≠ '.')) =
      (cutAncestors steps).map (reversedText k) := by
  induction steps with
  | nil =>
    have htext : reversedText k [] = keyText k := by simp [reversedText]
    rw [htext, takeWhile_eq_self hk.dot_notMem, cutsAt_eq_nil hk.dot_notMem,
      cutsAt_eq_nil hk.bracket_notMem]
    rfl
  | cons step steps ih =>
    have ih := ih fun k' hk' => h k' (List.mem_cons_of_mem _ hk')
    rw [reversedText_cons, cutAncestors]
    cases step with
    | key k' =>
      rw [if_pos (by rfl), stepText, cutsAt_append_cons _ (h k' List.mem_cons_self).dot_notMem,
        takeWhile_append_cons, List.cons_append, ih]
      rfl
    | index idx =>
      rw [cutsAt_append_of_notMem _ (dot_notMem_indexText idx)]
      cases hall : steps.all (!·.isKey) with
      | true =>
        -- nothing to cut at before the index, but the brackets
        have hdot := dot_notMem_reversedText hk hall
        have hmore : '.' ∉ reversedText k steps ++ stepText (.index idx) := by
          rw [List.mem_append, not_or]
          exact ⟨hdot, dot_notMem_indexText idx⟩
        have hdigits : '[' ∉ (toString idx).toList ++ [']'] := by
          simpa using notMem_digits rfl idx
        rw [takeWhile_eq_self hdot, cutsAt_eq_nil hdot, List.nil_append] at ih
        rw [if_pos (by simp), takeWhile_eq_self hmore, cutsAt_eq_nil hdot, List.nil_append,
          stepText, List.cons_append, cutsAt_append_cons _ hdigits, ih]
        rfl
      | false =>
        rw [if_neg (by simp [PathStep.isKey]), takeWhile_append_of_mem (dot_mem_reversedText hall),
          ih]

/-! ### What is found -/

variable {p : ConfigPath}

theorem toList_encode_eq (h : p.Cut) :
    p.encode.toList = reversedText p.key p.steps.reverse := by
  rw [ConfigPath.toList_encode (h p.key List.mem_cons_self).1, reversedText, List.reverse_reverse]

/-- The step before a part of the steps. -/
theorem eq_of_cons_suffix {step step' : PathStep} {part steps : List PathStep}
    (h : step :: part <:+ steps) (h' : step' :: part <:+ steps) : step = step' := by
  have hsuffix := List.suffix_of_suffix_length_le h h' le_rfl
  exact (List.cons.inj (hsuffix.eq_of_length rfl)).1

/-- What a place is part of and is found are its ancestors but for those that are passed over. -/
theorem cutAncestors_eq_filter [DecidablePred p.PassesOver] {part : List PathStep}
    (h : part <:+ p.steps.reverse) :
    cutAncestors part =
      part.tails.tail.filter fun steps => ¬p.PassesOver ⟨p.key, steps.reverse⟩ := by
  induction part with
  | nil => rfl
  | cons step part ih =>
    have hpart := ih ((List.suffix_cons step part).trans h)
    have hpasses : p.PassesOver ⟨p.key, part.reverse⟩ ↔
        ¬(step.isKey || part.all (!·.isKey)) = true := by
      have hkeys : (∃ k, .key k ∈ part.reverse) ↔ ¬part.all (!·.isKey) = true := by
        simp only [List.mem_reverse, List.all_eq_true, not_forall]
        constructor
        · rintro ⟨k, hk⟩
          exact ⟨.key k, hk, by simp [PathStep.isKey]⟩
        · rintro ⟨step, hmem, hkey⟩
          cases step with
          | key k => exact ⟨k, hmem⟩
          | index idx => exact absurd rfl hkey
      have hindex : (∃ idx, part.reverse ++ [PathStep.index idx] <+: p.steps) ↔
          ¬step.isKey = true := by
        have hreverse : ∀ idx, part.reverse ++ [PathStep.index idx] <+: p.steps ↔
            PathStep.index idx :: part <:+ p.steps.reverse := by
          intro idx
          rw [← List.reverse_prefix, List.reverse_reverse, List.reverse_cons]
        simp only [hreverse]
        constructor
        · rintro ⟨idx, hidx⟩
          rw [eq_of_cons_suffix h hidx]
          exact Bool.false_ne_true
        · intro hstep
          cases step with
          | key k => exact absurd rfl hstep
          | index idx => exact ⟨idx, h⟩
      rw [ConfigPath.PassesOver, hkeys, hindex, Bool.or_eq_true, not_or]
    have htails : part.tails = part :: part.tails.tail := by cases part <;> simp
    rw [cutAncestors, List.tails_cons, List.tail_cons, htails, List.filter_cons, hpart]
    by_cases hstep : (step.isKey || part.all (!·.isKey)) = true
    · rw [if_pos hstep, if_pos (by simpa [hpasses] using hstep)]
    · rw [if_neg hstep, if_neg (by simpa [hpasses] using hstep)]

namespace ConfigPath

variable (p : ConfigPath)

theorem ancestors_eq :
    p.ancestors = p.steps.reverse.tails.map fun steps => ⟨p.key, steps.reverse⟩ := by
  rw [ancestors, List.tails_reverse, ← List.map_reverse, List.map_map]
  simp

theorem not_passesOver_self : ¬p.PassesOver p := by
  rintro ⟨⟨idx, h⟩, -⟩
  have hlength := h.length_le
  rw [List.length_append, List.length_singleton] at hlength
  omega

theorem filter_ancestors [DecidablePred p.PassesOver] :
    (p.ancestors.filter fun a => ¬p.PassesOver a) =
      p :: (cutAncestors p.steps.reverse).map fun steps => ⟨p.key, steps.reverse⟩ := by
  have htails : p.steps.reverse.tails = p.steps.reverse :: p.steps.reverse.tails.tail := by
    cases p.steps.reverse <;> simp
  have hself : (⟨p.key, p.steps.reverse.reverse⟩ : ConfigPath) = p := by
    rw [List.reverse_reverse]
  rw [ancestors_eq, htails, List.map_cons, List.filter_cons, hself,
    if_pos (by simpa using p.not_passesOver_self), cutAncestors_eq_filter List.suffix_rfl,
    List.filter_map]
  rfl

theorem Cut.of_mem_cutAncestors {p : ConfigPath} (h : p.Cut) {steps : List PathStep}
    (hmem : steps ∈ cutAncestors p.steps.reverse) : Cut ⟨p.key, steps.reverse⟩ := by
  classical
  rw [cutAncestors_eq_filter List.suffix_rfl] at hmem
  have hsuffix := (List.mem_tails _ _).mp (List.mem_of_mem_tail (List.mem_of_mem_filter hmem))
  intro k hk
  rcases List.mem_cons.mp hk with heq | hk
  · rw [PathStep.key.inj heq]
    exact h _ List.mem_cons_self
  · refine h k (List.mem_cons_of_mem _ ?_)
    exact List.mem_reverse.mp (hsuffix.subset (List.mem_reverse.mp hk))

end ConfigPath

/-- What is found is the nearest of what is not passed over. -/
theorem get_eq_first [DecidablePred p.PassesOver] (h : p.Cut) (map : ConfigProvenance) :
    map.get p.encode = map.first (p.ancestors.filter fun a => ¬p.PassesOver a) := by
  have hparents : parentPaths p.encode =
      (cutAncestors p.steps.reverse).map fun steps =>
        (⟨p.key, steps.reverse⟩ : ConfigPath).encode := by
    have hkeys : ∀ k', .key k' ∈ p.steps.reverse → CutKey k' :=
      fun k' hk' => h k' (List.mem_cons_of_mem _ (List.mem_reverse.mp hk'))
    rw [parentPaths, toList_encode_eq h, cuts_reversedText (h p.key List.mem_cons_self) hkeys,
      List.map_map]
    refine List.map_congr_left fun steps hsteps => ?_
    have htext := toList_encode_eq (h.of_mem_cutAncestors hsteps)
    rw [List.reverse_reverse] at htext
    rw [Function.comp_apply, ← htext, String.ofList_toList]
  rw [ConfigProvenance.get, hparents, ConfigProvenance.first, p.filter_ancestors,
    List.findSome?_cons, List.findSome?_cons, List.findSome?_map, List.findSome?_map]
  rfl

/-! ### The nearest ancestor -/

section Filter

variable {α β : Type} {f : α → Option β} {q : α → Prop} [DecidablePred q]

theorem findSome?_filter_eq_some_iff {l : List α} {y : β} :
    (l.filter (q ·)).findSome? f = some y ↔
      ∃ between b rest, l = between ++ b :: rest ∧ q b ∧ f b = some y ∧
        ∀ c ∈ between, q c → f c = none := by
  have hguard : (l.filter (q ·)).findSome? f = l.findSome? fun x => if q x then f x else none := by
    induction l with
    | nil => rfl
    | cons x l ih =>
      rw [List.filter_cons, List.findSome?_cons]
      by_cases hx : q x
      · rw [if_pos (by simpa using hx), if_pos hx, List.findSome?_cons, ih]
      · rw [if_neg (by simpa using hx), if_neg hx, ih]
  rw [hguard, List.findSome?_eq_some_iff]
  constructor
  · rintro ⟨between, b, rest, rfl, hb, hbetween⟩
    split_ifs at hb with hq
    refine ⟨between, b, rest, rfl, hq, hb, fun c hc hqc => ?_⟩
    have hnone := hbetween c hc
    rwa [if_pos hqc] at hnone
  · rintro ⟨between, b, rest, rfl, hq, hb, hbetween⟩
    refine ⟨between, b, rest, rfl, by rwa [if_pos hq], fun c hc => ?_⟩
    split_ifs with hqc
    · exact hbetween c hc hqc
    · rfl

/-- What is left out makes no difference unless it comes first, and has not what comes next. -/
theorem findSome?_filter_eq_iff {l : List α} :
    (l.filter (q ·)).findSome? f = l.findSome? f ↔
      ∀ before a after y, l = before ++ a :: after → (∀ b ∈ before, f b = none) →
        f a = some y → ¬q a → (after.filter (q ·)).findSome? f = some y := by
  have hbefore : ∀ before a after, (∀ b ∈ before, f b = none) → ¬q a →
      ((before ++ a :: after).filter (q ·)).findSome? f = (after.filter (q ·)).findSome? f := by
    intro before a after hnone hq
    rw [List.filter_append, List.filter_cons, if_neg (by simpa using hq), List.findSome?_append,
      List.findSome?_eq_none_iff.mpr fun b hb => hnone b (List.mem_of_mem_filter hb),
      Option.none_or]
  constructor
  · rintro h before a after y rfl hnone ha hq
    rw [← hbefore before a after hnone hq, h]
    exact List.findSome?_eq_some_iff.mpr ⟨before, a, after, rfl, ha, hnone⟩
  · intro h
    cases hfirst : l.findSome? f with
    | none =>
      rw [List.findSome?_eq_none_iff] at hfirst ⊢
      exact fun b hb => hfirst b (List.mem_of_mem_filter hb)
    | some y =>
      obtain ⟨before, a, after, rfl, ha, hnone⟩ := List.findSome?_eq_some_iff.mp hfirst
      by_cases hq : q a
      · exact findSome?_filter_eq_some_iff.mpr
          ⟨before, a, after, rfl, hq, ha, fun c hc _ => hnone c hc⟩
      · rw [hbefore before a after hnone hq]
        exact h before a after y rfl hnone ha hq

end Filter

/-- An ancestor that is passed over is not the nearest with a location, or the nearest of those
behind it that are not passed over has the same. -/
def NothingPassedOver (map : ConfigProvenance) (p : ConfigPath) : Prop :=
  ∀ before a after loc, p.ancestors = before ++ a :: after →
    (∀ b ∈ before, map.lookup b.encode = none) → map.lookup a.encode = some loc →
    p.PassesOver a →
    ∃ between b rest, after = between ++ b :: rest ∧ ¬p.PassesOver b ∧
      map.lookup b.encode = some loc ∧
      ∀ c ∈ between, ¬p.PassesOver c → map.lookup c.encode = none

/-- **What is found is the nearest exactly if nothing is passed over.** -/
theorem get_eq_nearest_iff (map : ConfigProvenance) (p : ConfigPath) (h : p.Cut) :
    map.get p.encode = map.first p.ancestors ↔ NothingPassedOver map p := by
  classical
  rw [get_eq_first h, ConfigProvenance.first, ConfigProvenance.first, NothingPassedOver]
  refine findSome?_filter_eq_iff.trans ?_
  simp only [findSome?_filter_eq_some_iff, not_not]

/-- The first element of an array in a section. -/
def firstElement : ConfigPath := ⟨"a", [.key "b", .index 0]⟩

theorem cut_firstElement : firstElement.Cut := by
  intro k hk
  obtain rfl | rfl : k = "a" ∨ k = "b" := by simpa [ConfigPath.full, firstElement] using hk
  · exact ⟨by decide, by decide, by decide⟩
  · exact ⟨by decide, by decide, by decide⟩

/-- The section is from the defaults, and the array of the file of the user. -/
def arrayOfUser : ConfigProvenance :=
  (ConfigProvenance.new.set "a" ⟨.defaults, none, none⟩).set "a.b"
    ⟨.primary "config.toml", none, none⟩

theorem get_eq_nearest_iff_firstElement :
    arrayOfUser.get firstElement.encode = arrayOfUser.first firstElement.ancestors ↔
      NothingPassedOver arrayOfUser firstElement :=
  get_eq_nearest_iff arrayOfUser firstElement cut_firstElement

/-- An element of the array is said to be from where the section is. -/
theorem get_ne_nearest_firstElement :
    arrayOfUser.get firstElement.encode ≠ arrayOfUser.first firstElement.ancestors := by
  intro h
  have hsource := congrArg (Option.map (·.source)) h
  revert hsource
  decide +kernel

end Shilpo.Config
