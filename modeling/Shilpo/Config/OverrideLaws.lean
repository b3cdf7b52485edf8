import Shilpo.Config.OverrideEdits

/-!
# The laws of edits

Setting and removing leaves of the overrides is as with a lens: what has been set is read, what
has been removed is not there, nothing else is changed, and edits apart from one another can be
made in either order. All of it is about the effects of edits on readings.
-/

namespace Shilpo.Config

/-! ### Effects -/

namespace OverrideEdit

variable {edit a b : OverrideEdit} {q : List String} {readings : List String → Option Reading}

/-- Nothing is changed at a path that is neither above the target nor below it. -/
theorem effect_of_apart (hbelow : ¬ edit.path <+: q) (habove : ¬ q <+: edit.path)
    (r : Option Reading) : edit.effect q r = r := by
  cases edit with
  | set target value =>
    rw [path_set] at hbelow habove
    rw [effect, if_neg hbelow, if_neg habove]
  | remove target =>
    rw [path_remove] at hbelow
    rw [effect, if_neg hbelow]

/-- Above the target of an edit that is allowed there may be tables, before and after it. -/
theorem Allowed.passable_effect_iff (h : edit.Allowed readings) (hbelow : ¬ edit.path <+: q) :
    Reading.Passable (edit.effect q (readings q)) ↔ Reading.Passable (readings q) := by
  by_cases habove : q <+: edit.path
  · have hne : q ≠ edit.path := fun heq => hbelow (heq ▸ List.prefix_refl _)
    refine iff_of_true ?_ (h.above q habove hne)
    cases edit with
    | set target value =>
      rw [path_set] at hbelow habove
      rw [effect, if_neg hbelow, if_pos habove]
      exact .inr rfl
    | remove target =>
      rw [path_remove] at hbelow
      rw [effect, if_neg hbelow]
      exact h.above q habove hne
  · rw [effect_of_apart hbelow habove]

/-- An edit whose target is apart from that of another is allowed after it if it was before. -/
theorem Allowed.after_iff (h : a.Allowed readings) (hab : ¬ a.path <+: b.path)
    (hba : ¬ b.path <+: a.path) :
    b.Allowed (fun q => a.effect q (readings q)) ↔ b.Allowed readings := by
  have habove : ∀ q, q <+: b.path → (Reading.Passable (a.effect q (readings q)) ↔
      Reading.Passable (readings q)) := fun q hq =>
    h.passable_effect_iff fun hbelow => hab (hbelow.trans hq)
  have htarget : a.effect b.path (readings b.path) = readings b.path :=
    effect_of_apart hab hba _
  constructor
  · intro hb
    refine ⟨hb.path, fun q hq hne => (habove q hq).mp (hb.above q hq hne), ?_⟩
    rintro path value rfl
    exact htarget ▸ hb.target path value rfl
  · intro hb
    refine ⟨hb.path, fun q hq hne => (habove q hq).mpr (hb.above q hq hne), ?_⟩
    rintro path value rfl
    exact htarget.symm ▸ hb.target path value rfl

/-- Above both targets there are tables, and elsewhere one of the edits does nothing. -/
theorem effect_comm (hab : ¬ a.path <+: b.path) (hba : ¬ b.path <+: a.path) (q : List String)
    (r : Option Reading) : b.effect q (a.effect q r) = a.effect q (b.effect q r) := by
  have key : ∀ {a b : OverrideEdit}, ¬ a.path <+: b.path → ¬ b.path <+: a.path →
      a.path <+: q → b.effect q (a.effect q r) = a.effect q (b.effect q r) := by
    intro a b hab hba haq
    have hbq : ¬ b.path <+: q := fun hbq =>
      (List.prefix_or_prefix_of_prefix haq hbq).elim hab hba
    have hqb : ¬ q <+: b.path := fun hqb => hab (haq.trans hqb)
    rw [effect_of_apart hbq hqb, effect_of_apart hbq hqb]
  by_cases haq : a.path <+: q
  · exact key hab hba haq
  · by_cases hbq : b.path <+: q
    · exact (key hba hab hbq).symm
    · cases a with
      | set target value =>
        rw [path_set] at haq
        cases b with
        | set target' value' =>
          rw [path_set] at hbq
          simp only [effect, if_neg haq, if_neg hbq]
          split_ifs <;> rfl
        | remove target' =>
          rw [path_remove] at hbq
          simp only [effect, if_neg hbq]
      | remove target =>
        rw [path_remove] at haq
        simp only [effect, if_neg haq]

end OverrideEdit

/-! ### The laws -/

/-- What holds of the edits of a document. -/
structure LensLaws (doc : Document) : Prop where
  read_set : ∀ path value doc', doc.applyEdit (.set path value) = (doc', .ok ()) →
    doc'.read path = some (.leaf value.item)
  read_remove : ∀ path doc', doc.applyEdit (.remove path) = (doc', .ok ()) →
    doc'.read path = none
  read_apart : ∀ edit doc', doc.applyEdit edit = (doc', .ok ()) →
    ∀ q, ¬ edit.path <+: q → ¬ q <+: edit.path → doc'.read q = doc.read q
  read_failed : ∀ edit doc' e, doc.applyEdit edit = (doc', .error e) →
    ∀ q, doc'.read q = doc.read q
  remove_set : ∀ path value doc', doc.leafAt path = none →
    doc.applyEdit (.set path value) = (doc', .ok ()) →
    ∃ doc'', doc'.applyEdit (.remove path) = (doc'', .ok ()) ∧ ∀ q, doc''.leafAt q = doc.leafAt q
  either_order : ∀ a b, ¬ a.path <+: b.path → ¬ b.path <+: a.path →
    ∀ doc₁ doc₂, doc.applyEdit a = (doc₁, .ok ()) → doc₁.applyEdit b = (doc₂, .ok ()) →
    ∃ doc₁' doc₂', doc.applyEdit b = (doc₁', .ok ()) ∧ doc₁'.applyEdit a = (doc₂', .ok ()) ∧
      ∀ q, doc₂.read q = doc₂'.read q

namespace Document

variable {doc doc' : Document}

/-- A value that may be set is shown as it is. -/
theorem read_newValue (value : NewValue) : value.item.read [] = some (.leaf value.item) := by
  obtain ⟨item, hvalue, -⟩ := value
  cases item with
  | table => cases hvalue
  | arrayOfTables => cases hvalue
  | scalar | array | inlineTable => rfl

theorem read_set {path : List String} {value : NewValue}
    (h : doc.applyEdit (.set path value) = (doc', .ok ())) :
    doc'.read path = some (.leaf value.item) := by
  rw [read_of_applyEdit h, OverrideEdit.effect, if_pos (List.prefix_refl _), List.drop_length,
    read_newValue]

theorem allowed_of_applyEdit {edit : OverrideEdit} (h : doc.applyEdit edit = (doc', .ok ())) :
    edit.Allowed doc.read :=
  applyEdit_ok_iff.mp ⟨doc', h⟩

/-- What an item says below a path is nothing where there is nothing. -/
theorem read_append_of_none {p : List String} (h : doc.read p = none) (q : List String) :
    doc.read (p ++ q) = none := by
  have hitem : ∀ (p : List String) (item : Item), item.read p = none → item.read (p ++ q) = none := by
    intro p
    induction p with
    | nil => intro item h; cases h
    | cons segment p ih =>
      intro item h
      rw [List.cons_append, Item.read]
      rw [Item.read] at h
      cases hchild : item.child segment with
      | none => rfl
      | some below =>
        rw [hchild, Option.bind_some] at h
        rw [Option.bind_some]
        exact ih below h
  exact hitem p _ h

/-- Only tables are left of a leaf that has been set and removed. -/
theorem leafAt_remove_set {path : List String} {value : NewValue} (hleaf : doc.leafAt path = none)
    (h : doc.applyEdit (.set path value) = (doc', .ok ())) :
    ∃ doc'', doc'.applyEdit (.remove path) = (doc'', .ok ()) ∧
      ∀ q, doc''.leafAt q = doc.leafAt q := by
  have hset := allowed_of_applyEdit h
  have hread : doc'.read = fun q => (OverrideEdit.set path value).effect q (doc.read q) :=
    funext fun q => read_of_applyEdit h q
  have hremove : (OverrideEdit.remove path).Allowed doc'.read := by
    refine ⟨hset.path, fun q hq hne => ?_, fun _ _ heq => by cases heq⟩
    rw [hread]
    refine (hset.passable_effect_iff fun hbelow => hne ?_).mpr (hset.above q hq hne)
    exact hq.eq_of_length_le hbelow.length_le
  -- there was nothing at the target, as neither a leaf nor a table was
  have hnone : doc.read path = none := by
    have htarget := (hset.target path value rfl).1
    rw [leafAt] at hleaf
    cases hr : doc.read path with
    | none => rfl
    | some r =>
      rw [hr] at hleaf htarget
      cases r with
      | table => exact absurd rfl htarget
      | leaf => cases hleaf
  obtain ⟨doc'', hdoc''⟩ := applyEdit_ok_iff.mpr hremove
  refine ⟨doc'', hdoc'', fun q => ?_⟩
  rw [leafAt, leafAt, read_of_applyEdit hdoc'', read_of_applyEdit h, OverrideEdit.effect,
    OverrideEdit.effect]
  by_cases hbelow : path <+: q
  · obtain ⟨rest, rfl⟩ := hbelow
    rw [if_pos (List.prefix_append _ _), read_append_of_none hnone]
  · rw [if_neg hbelow, if_neg hbelow]
    by_cases habove : q <+: path
    · have hne : q ≠ path := fun heq => hbelow (heq ▸ List.prefix_refl _)
      rw [if_pos habove]
      rcases hset.above q habove hne with hq | hq
      · rw [hq]
      · rw [hq]
    · rw [if_neg habove]

end Document

/-- The edits of every document obey the laws. -/
theorem lensLaws (doc : Document) : LensLaws doc where
  read_set _ _ _ h := Document.read_set h
  read_remove path doc' h := by
    rw [Document.read_of_applyEdit h, OverrideEdit.effect, if_pos (List.prefix_refl _)]
  read_apart edit doc' h q hbelow habove := by
    rw [Document.read_of_applyEdit h, OverrideEdit.effect_of_apart hbelow habove]
  read_failed edit doc' e h q := by rw [Document.eq_of_applyEdit_error h]
  remove_set _ _ _ hleaf h := Document.leafAt_remove_set hleaf h
  either_order a b hab hba doc₁ doc₂ ha hb := by
    have hread : doc₁.read = fun q => a.effect q (doc.read q) :=
      funext fun q => Document.read_of_applyEdit ha q
    have hallowed := Document.allowed_of_applyEdit ha
    have hb' : b.Allowed doc.read := by
      have hb' := Document.allowed_of_applyEdit hb
      rw [hread] at hb'
      exact (hallowed.after_iff hab hba).mp hb'
    obtain ⟨doc₁', hdoc₁'⟩ := Document.applyEdit_ok_iff.mpr hb'
    have hread' : doc₁'.read = fun q => b.effect q (doc.read q) :=
      funext fun q => Document.read_of_applyEdit hdoc₁' q
    have ha' : a.Allowed doc₁'.read := by
      rw [hread']
      exact (hb'.after_iff hba hab).mpr hallowed
    obtain ⟨doc₂', hdoc₂'⟩ := Document.applyEdit_ok_iff.mpr ha'
    refine ⟨doc₁', doc₂', hdoc₁', hdoc₂', fun q => ?_⟩
    rw [Document.read_of_applyEdit hb, Document.read_of_applyEdit ha,
      Document.read_of_applyEdit hdoc₂', Document.read_of_applyEdit hdoc₁',
      OverrideEdit.effect_comm hab hba]

end Shilpo.Config
