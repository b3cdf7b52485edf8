import Shilpo.Config.UnknownKeys
import Shilpo.Config.KeyPaths

/-!
# What sanitizing takes out

An unknown key is an entry of a table whose shape has fields, not this one, and no others. All of
them are taken out of a document and nothing else is, each with one warning that has its path, and
in what is left there are none (`sanitizeDocument_prunes`). This is for the walk of any document
with any shape, so also where the two differ in kind.
-/

namespace Shilpo.Config

open Theory

/-! ### Unknown keys -/

namespace SchemaShape

/-- What a key or an index may hold. -/
def descend : PathStep → SchemaShape → Option SchemaShape
  | .key k, .object fields additional => (fields.lookup k).or additional
  | .index _, .array item => some item
  | _, _ => none

/-- What a place may hold. -/
def reach : List PathStep → SchemaShape → Option SchemaShape
  | [], shape => some shape
  | step :: steps, shape => (shape.descend step).bind (reach steps)

/-- The shape is one of tables without additional properties and without this field. -/
def lacks : PathStep → SchemaShape → Bool
  | .key k, .object fields none => (fields.lookup k).isNone
  | _, _ => false

end SchemaShape

/-- The place is that of a key that its table may not have. -/
def IsUnknown (item : Item) (shape : SchemaShape) (place : List PathStep) : Prop :=
  ∃ parent step table, place = parent ++ [step] ∧ (item.reach place).isSome ∧
    shape.reach parent = some table ∧ table.lacks step

/-- What is at a place without what is below it. -/
inductive ItemHead where
  | scalar (value : Scalar)
  | array (length : ℕ)
  | inlineTable (keys : List String)
  | table (keys : List String)
  | arrayOfTables (length : ℕ)

def Item.head : Item → ItemHead
  | .scalar value => .scalar value
  | .array elems => .array elems.length
  | .inlineTable entries => .inlineTable (entries.map Prod.fst)
  | .table entries => .table (entries.map Prod.fst)
  | .arrayOfTables tables => .arrayOfTables tables.length

/-- A table without the keys that its shape lacks. -/
def ItemHead.without (shape : SchemaShape) : ItemHead → ItemHead
  | .inlineTable keys => .inlineTable (keys.filter fun k => !shape.lacks (.key k))
  | .table keys => .table (keys.filter fun k => !shape.lacks (.key k))
  | head => head

/-- The unknown keys of an item are gone and nothing else is, and there is one warning for
each. -/
structure PrunesUnknown (path : String) (shape : SchemaShape) (item : Item)
    (result : Item × List UnknownConfigKey) : Prop where
  kept : ∀ place, (∀ unknown, unknown <+: place → ¬IsUnknown item shape unknown) →
    (result.1.reach place).map Item.head =
      (item.reach place).map fun it =>
        match shape.reach place with
        | some s => it.head.without s
        | none => it.head
  removed : ∀ place unknown, unknown <+: place → IsUnknown item shape unknown →
    result.1.reach place = none
  warned : ∃ places : List (List PathStep), places.Nodup ∧
    (∀ place, place ∈ places ↔ IsUnknown item shape place) ∧
    result.2.map UnknownConfigKey.path = places.map (encodeFrom path)
  apart : ∀ place unknown, unknown <+: place → IsUnknown item shape unknown →
    IsUnknown item shape place → place = unknown

variable {shape : SchemaShape} {item : Item}

/-! ### One step -/

theorem SchemaShape.descend_of_lacks {step : PathStep} (h : shape.lacks step = true) :
    shape.descend step = none := by
  cases step with
  | index idx => cases shape <;> cases h
  | key k =>
    cases shape with
    | object fields additional =>
      cases additional with
      | some s => cases h
      | none => simpa [descend] using Option.isNone_iff_eq_none.mp h
    | array | «open» | leaf => cases h

theorem SchemaShape.lacks_object (fields : List (String × SchemaShape))
    (additional : Option SchemaShape) (k : String) :
    (object fields additional).lacks (.key k) = ((fields.lookup k).or additional).isNone := by
  cases additional with
  | some s => cases fields.lookup k <;> rfl
  | none => rw [lacks, Option.or_none]

/-- Unknown is a key that its table lacks, and what is unknown below a step. -/
theorem isUnknown_cons_iff {step : PathStep} {steps : List PathStep} :
    IsUnknown item shape (step :: steps) ↔
      ∃ child, item.descend step = some child ∧
        (steps = [] ∧ shape.lacks step = true ∨
          ∃ s, shape.descend step = some s ∧ IsUnknown child s steps) := by
  constructor
  · rintro ⟨parent, last, table, hplace, hreach, hparent, hlacks⟩
    obtain ⟨it, hreach⟩ := Option.isSome_iff_exists.mp hreach
    obtain ⟨child, hchild, hbelow⟩ := Option.bind_eq_some_iff.mp hreach
    refine ⟨child, hchild, ?_⟩
    cases parent with
    | nil =>
      obtain ⟨rfl, rfl⟩ := List.cons.inj hplace
      obtain rfl := Option.some.inj hparent
      exact .inl ⟨rfl, hlacks⟩
    | cons first parent =>
      obtain ⟨rfl, rfl⟩ := List.cons.inj hplace
      obtain ⟨s, hs, hparent⟩ := Option.bind_eq_some_iff.mp hparent
      exact .inr ⟨s, hs, parent, last, table, rfl, hbelow ▸ rfl, hparent, hlacks⟩
  · rintro ⟨child, hchild, ⟨rfl, hlacks⟩ | ⟨s, hs, parent, last, table, rfl, hreach, hparent,
      hlacks⟩⟩
    · refine ⟨[], step, shape, rfl, ?_, rfl, hlacks⟩
      rw [Item.reach, hchild]
      rfl
    · refine ⟨step :: parent, last, table, rfl, ?_, ?_, hlacks⟩
      · rwa [Item.reach, hchild]
      · rwa [SchemaShape.reach, hs]

theorem not_isUnknown_nil : ¬IsUnknown item shape [] := by
  rintro ⟨parent, step, table, hplace, -⟩
  simp at hplace

section

variable (source : ConfigSource) (text : String)

theorem lookup_walkTable (fields : List (String × SchemaShape)) (additional : Option SchemaShape)
    (entries : List (String × Item)) (path k : String) :
    (walkTable source text fields additional entries path).1.lookup k =
      ((fields.lookup k).or additional).bind fun s =>
        (entries.lookup k).map fun it => (walkItem source text it (formatKey path k) s).1 := by
  induction entries with
  | nil => cases (fields.lookup k).or additional <;> rfl
  | cons e entries ih =>
    obtain ⟨key, it⟩ := e
    rw [walkTable]
    by_cases hk : k = key
    · subst hk
      cases h : (fields.lookup k).or additional with
      | some s => simp
      | none =>
        rw [h] at ih
        exact ih
    · have hne : (k == key) = false := beq_eq_false_iff_ne.mpr hk
      cases (fields.lookup key).or additional with
      | some s =>
        simp only [List.lookup_cons, hne]
        exact ih
      | none =>
        simp only [List.lookup_cons, hne]
        exact ih

variable (s : SchemaShape)

theorem getElem?_walkArray (elems : List Item) (path : String) (start idx : ℕ) :
    (walkArray source text s elems path start).1[idx]? =
      elems[idx]?.map fun it => (walkItem source text it (formatIndex path (start + idx)) s).1 := by
  induction elems generalizing start idx with
  | nil => rfl
  | cons elem elems ih =>
    cases idx with
    | zero => rfl
    | succ idx =>
      rw [walkArray, List.getElem?_cons_succ, List.getElem?_cons_succ, ih, Nat.add_right_comm,
        Nat.add_assoc]

theorem getElem?_walkArrayOfTables (tables : List (List (String × Item))) (path : String)
    (start idx : ℕ) :
    (walkArrayOfTables source text s tables path start).1[idx]?.map Item.table =
      tables[idx]?.map fun entries =>
        (walkItem source text (.table entries) (formatIndex path (start + idx)) s).1 := by
  induction tables generalizing start idx with
  | nil => rfl
  | cons entries tables ih =>
    cases idx with
    | zero => cases s <;> rfl
    | succ idx =>
      have hrest := ih (start + 1) idx
      rw [Nat.add_right_comm, Nat.add_assoc] at hrest
      cases s <;> exact hrest

/-- What is below a step is walked with the shape of it, and a key that is lacked is gone. -/
theorem descend_walkItem (item : Item) (path : String) (shape : SchemaShape) (step : PathStep) :
    (walkItem source text item path shape).1.descend step =
      if shape.lacks step then none
      else (item.descend step).map fun it =>
        match shape.descend step with
        | some s => (walkItem source text it (stepPath path step) s).1
        | none => it := by
  have hentries : ∀ (fields : List (String × SchemaShape)) (additional : Option SchemaShape)
      (entries : List (String × Item)) (k : String),
      (walkTable source text fields additional entries path).1.lookup k =
        if (SchemaShape.object fields additional).lacks (.key k) then none
        else (entries.lookup k).map fun it =>
          match (SchemaShape.object fields additional).descend (.key k) with
          | some s => (walkItem source text it (formatKey path k) s).1
          | none => it := by
    intro fields additional entries k
    rw [lookup_walkTable, SchemaShape.lacks_object, SchemaShape.descend]
    cases (fields.lookup k).or additional <;> rfl
  cases item with
  | scalar value => cases shape <;> cases step <;> simp [walkItem, Item.descend]
  | table entries =>
    cases shape with
    | object fields additional =>
      cases step with
      | key k => exact hentries fields additional entries k
      | index idx => rfl
    | array | «open» | leaf =>
      cases step <;> simp [walkItem, SchemaShape.lacks, SchemaShape.descend, Item.descend]
  | inlineTable entries =>
    cases shape with
    | object fields additional =>
      cases step with
      | key k => exact hentries fields additional entries k
      | index idx => rfl
    | array | «open» | leaf =>
      cases step <;> simp [walkItem, SchemaShape.lacks, SchemaShape.descend, Item.descend]
  | array elems =>
    cases shape with
    | array s =>
      cases step with
      | key k => rfl
      | index idx =>
        have helems := getElem?_walkArray source text s elems path 0 idx
        rwa [Nat.zero_add] at helems
    | object | «open» | leaf =>
      cases step with
      | key k => simp [walkItem, Item.descend]
      | index idx => simp [walkItem, SchemaShape.descend, SchemaShape.lacks]
  | arrayOfTables tables =>
    cases shape with
    | array s =>
      cases step with
      | key k => rfl
      | index idx =>
        have htables := getElem?_walkArrayOfTables source text s tables path 0 idx
        rw [Nat.zero_add] at htables
        refine htables.trans ?_
        have hlacks : (SchemaShape.array s).lacks (.index idx) = false := rfl
        rw [hlacks, if_neg Bool.false_ne_true, Item.descend, Option.map_map]
        rfl
    | object | «open» | leaf =>
      cases step with
      | key k => simp [walkItem, Item.descend]
      | index idx => simp [walkItem, SchemaShape.descend, SchemaShape.lacks]

theorem keys_walkTable_eq (fields : List (String × SchemaShape)) (additional : Option SchemaShape)
    (entries : List (String × Item)) (path : String) :
    (walkTable source text fields additional entries path).1.map Prod.fst =
      (entries.map Prod.fst).filter
        fun k => !(SchemaShape.object fields additional).lacks (.key k) := by
  induction entries with
  | nil => rfl
  | cons e entries ih =>
    rw [walkTable, List.map_cons, List.filter_cons, SchemaShape.lacks_object]
    cases (fields.lookup e.1).or additional with
    | some s => exact congrArg (e.1 :: ·) ih
    | none => exact ih

theorem length_walkArray (elems : List Item) (path : String) (start : ℕ) :
    (walkArray source text s elems path start).1.length = elems.length := by
  induction elems generalizing start with
  | nil => rfl
  | cons elem elems ih =>
    rw [walkArray]
    exact congrArg (· + 1) (ih (start + 1))

theorem length_walkArrayOfTables (tables : List (List (String × Item))) (path : String) (start : ℕ) :
    (walkArrayOfTables source text s tables path start).1.length = tables.length := by
  induction tables generalizing start with
  | nil => rfl
  | cons entries tables ih => cases s <;> exact congrArg (· + 1) (ih (start + 1))

/-- At the place itself only keys that the shape lacks are gone. -/
theorem head_walkItem (item : Item) (path : String) (shape : SchemaShape) :
    (walkItem source text item path shape).1.head = item.head.without shape := by
  cases item with
  | scalar value => cases shape <;> rfl
  | table entries =>
    cases shape with
    | object fields additional =>
      exact congrArg ItemHead.table (keys_walkTable_eq source text fields additional entries path)
    | array | «open» | leaf => simp [walkItem, Item.head, ItemHead.without, SchemaShape.lacks]
  | inlineTable entries =>
    cases shape with
    | object fields additional =>
      exact congrArg ItemHead.inlineTable
        (keys_walkTable_eq source text fields additional entries path)
    | array | «open» | leaf => simp [walkItem, Item.head, ItemHead.without, SchemaShape.lacks]
  | array elems =>
    cases shape with
    | array s => exact congrArg ItemHead.array (length_walkArray source text s elems path 0)
    | object | «open» | leaf => rfl
  | arrayOfTables tables =>
    cases shape with
    | array s =>
      exact congrArg ItemHead.arrayOfTables (length_walkArrayOfTables source text s tables path 0)
    | object | «open» | leaf => rfl

/-! ### What is left -/

variable (place : List PathStep)

/-- At every place that is not below an unknown key, what was there is there. -/
theorem reach_walkItem : ∀ (item : Item) (path : String)
    (shape : SchemaShape), (∀ unknown, unknown <+: place → ¬IsUnknown item shape unknown) →
    ((walkItem source text item path shape).1.reach place).map Item.head =
      (item.reach place).map fun it =>
        match shape.reach place with
        | some s => it.head.without s
        | none => it.head := by
  induction place with
  | nil =>
    intro item path shape _
    exact congrArg some (head_walkItem source text item path shape)
  | cons step steps ih =>
    intro item path shape hknown
    rw [Item.reach, Item.reach, descend_walkItem, SchemaShape.reach]
    cases hchild : item.descend step with
    | none => cases shape.lacks step <;> rfl
    | some child =>
      have hlacks : shape.lacks step = false := by
        by_contra h
        exact hknown [step] (List.prefix_cons_inj step |>.mpr List.nil_prefix)
          (isUnknown_cons_iff.mpr ⟨child, hchild, .inl ⟨rfl, Bool.eq_true_of_not_eq_false h⟩⟩)
      rw [hlacks, if_neg Bool.false_ne_true]
      cases hs : shape.descend step with
      | none => rfl
      | some s =>
        refine ih child (stepPath path step) s fun unknown hprefix hunknown => ?_
        exact hknown (step :: unknown) (List.prefix_cons_inj step |>.mpr hprefix)
          (isUnknown_cons_iff.mpr ⟨child, hchild, .inr ⟨s, hs, hunknown⟩⟩)

/-- An unknown key and what is below it is gone. -/
theorem reach_walkItem_of_isUnknown : ∀ (item : Item) (path : String)
    (shape : SchemaShape) (unknown : List PathStep), unknown <+: place →
    IsUnknown item shape unknown → (walkItem source text item path shape).1.reach place = none := by
  induction place with
  | nil =>
    intro item path shape unknown hprefix hunknown
    exact absurd (List.prefix_nil.mp hprefix ▸ hunknown) not_isUnknown_nil
  | cons step steps ih =>
    intro item path shape unknown hprefix hunknown
    cases unknown with
    | nil => exact absurd hunknown not_isUnknown_nil
    | cons first unknown =>
      obtain ⟨rfl, hmore⟩ := List.cons_prefix_cons.mp hprefix
      obtain ⟨child, hchild, hunknown⟩ := isUnknown_cons_iff.mp hunknown
      rw [Item.reach, descend_walkItem, hchild]
      rcases hunknown with ⟨-, hlacks⟩ | ⟨s, hs, hunknown⟩
      · rw [if_pos hlacks]
        rfl
      · have hlacks : shape.lacks first = false := by
          by_contra h
          rw [SchemaShape.descend_of_lacks (Bool.eq_true_of_not_eq_false h)] at hs
          cases hs
        rw [hlacks, if_neg Bool.false_ne_true, hs]
        exact ih child (stepPath path first) s unknown hmore hunknown

/-- No unknown key is below another. -/
theorem eq_of_isUnknown : ∀ (item : Item) (shape : SchemaShape)
    (unknown : List PathStep), unknown <+: place → IsUnknown item shape unknown →
    IsUnknown item shape place → place = unknown := by
  induction place with
  | nil => exact fun _ _ _ hprefix _ _ => (List.prefix_nil.mp hprefix).symm
  | cons step steps ih =>
    intro item shape unknown hprefix hunknown hplace
    cases unknown with
    | nil => exact absurd hunknown not_isUnknown_nil
    | cons first unknown =>
      obtain ⟨rfl, hmore⟩ := List.cons_prefix_cons.mp hprefix
      obtain ⟨child, hchild, hunknown⟩ := isUnknown_cons_iff.mp hunknown
      obtain ⟨child', hchild', hplace⟩ := isUnknown_cons_iff.mp hplace
      obtain rfl := Option.some.inj (hchild.symm.trans hchild')
      rcases hplace with ⟨rfl, -⟩ | ⟨s, hs, hplace⟩
      · rw [List.prefix_nil.mp hmore]
      · rcases hunknown with ⟨-, hlacks⟩ | ⟨s', hs', hunknown⟩
        · rw [SchemaShape.descend_of_lacks hlacks] at hs
          cases hs
        · obtain rfl := Option.some.inj (hs.symm.trans hs')
          rw [ih child s unknown hmore hunknown hplace]

end

/-! ### Warnings -/

/-- There is one warning for each of these places. -/
def WarnsOf (unknown : List PathStep → Prop) (path : String) (warnings : List UnknownConfigKey) :
    Prop :=
  ∃ places : List (List PathStep), places.Nodup ∧ (∀ place, place ∈ places ↔ unknown place) ∧
    warnings.map UnknownConfigKey.path = places.map (encodeFrom path)

namespace WarnsOf

variable {P Q : List PathStep → Prop} {path : String} {w w' : List UnknownConfigKey}

theorem nil (h : ∀ place, ¬P place) : WarnsOf P path [] :=
  ⟨[], List.nodup_nil, fun place => by simpa using h place, rfl⟩

theorem congr (h : WarnsOf P path w) (hPQ : ∀ place, P place ↔ Q place) : WarnsOf Q path w := by
  obtain ⟨places, hnodup, hmem, hmap⟩ := h
  exact ⟨places, hnodup, fun place => (hmem place).trans (hPQ place), hmap⟩

theorem append (h : WarnsOf P path w) (h' : WarnsOf Q path w')
    (hdisjoint : ∀ place, P place → ¬Q place) :
    WarnsOf (fun place => P place ∨ Q place) path (w ++ w') := by
  obtain ⟨places, hnodup, hmem, hmap⟩ := h
  obtain ⟨places', hnodup', hmem', hmap'⟩ := h'
  refine ⟨places ++ places', ?_, fun place => ?_, ?_⟩
  · refine List.nodup_append'.mpr ⟨hnodup, hnodup', fun place hp hq => ?_⟩
    exact hdisjoint place ((hmem place).mp hp) ((hmem' place).mp hq)
  · rw [List.mem_append, hmem, hmem']
  · rw [List.map_append, List.map_append, hmap, hmap']

theorem below {step : PathStep} (h : WarnsOf P (stepPath path step) w) :
    WarnsOf (fun place => ∃ steps, place = step :: steps ∧ P steps) path w := by
  obtain ⟨places, hnodup, hmem, hmap⟩ := h
  refine ⟨places.map (step :: ·), hnodup.map (List.cons_injective), fun place => ?_, ?_⟩
  · rw [List.mem_map]
    constructor
    · rintro ⟨steps, hsteps, rfl⟩
      exact ⟨steps, rfl, (hmem steps).mp hsteps⟩
    · rintro ⟨steps, rfl, hsteps⟩
      exact ⟨steps, (hmem steps).mpr hsteps, rfl⟩
  · rw [hmap, List.map_map]
    rfl

theorem singleton {step : PathStep} {warning : UnknownConfigKey}
    (h : warning.path = stepPath path step) : WarnsOf (· = [step]) path [warning] :=
  ⟨[[step]], List.nodup_singleton _, fun place => List.mem_singleton, by
    rw [List.map_singleton, List.map_singleton, h]
    rfl⟩

end WarnsOf

variable {place : List PathStep}

theorem isUnknown_inlineTable_iff {entries : List (String × Item)} :
    IsUnknown (.inlineTable entries) shape place ↔ IsUnknown (.table entries) shape place := by
  cases place with
  | nil => exact iff_of_false not_isUnknown_nil not_isUnknown_nil
  | cons step steps =>
    rw [isUnknown_cons_iff, isUnknown_cons_iff]
    cases step <;> rfl

/-- What is unknown in a table is so in its first entry or in another. -/
theorem isUnknown_table_cons_iff {key : String} {it : Item} {entries : List (String × Item)}
    (h : key ∉ entries.map Prod.fst) :
    IsUnknown (.table ((key, it) :: entries)) shape place ↔
      (∃ steps, place = .key key :: steps ∧ (steps = [] ∧ shape.lacks (.key key) = true ∨
        ∃ s, shape.descend (.key key) = some s ∧ IsUnknown it s steps)) ∨
      IsUnknown (.table entries) shape place := by
  have hnone : entries.lookup key = none := by
    refine List.lookup_eq_none_iff.mpr fun e he => ?_
    rw [bne_iff_ne]
    rintro rfl
    exact h (List.mem_map_of_mem he)
  cases place with
  | nil => simp [not_isUnknown_nil]
  | cons step steps =>
    rw [isUnknown_cons_iff, isUnknown_cons_iff]
    cases step with
    | index idx => simp [Item.descend]
    | key k =>
      by_cases hk : k = key
      · subst hk
        simp [Item.descend, hnone]
      · have hne : (k == key) = false := beq_eq_false_iff_ne.mpr hk
        simp [Item.descend, List.lookup_cons, hne, hk]

/-- What is unknown in elements, of which the first has this index. -/
def UnknownFrom (elems : List Item) (s : SchemaShape) (start : ℕ) (place : List PathStep) : Prop :=
  ∃ idx it steps, place = .index (start + idx) :: steps ∧ elems[idx]? = some it ∧
    IsUnknown it s steps

variable {elems : List Item} {s : SchemaShape}

theorem unknownFrom_cons_iff {elem : Item} {start : ℕ} :
    UnknownFrom (elem :: elems) s start place ↔
      (∃ steps, place = .index start :: steps ∧ IsUnknown elem s steps) ∨
      UnknownFrom elems s (start + 1) place := by
  constructor
  · rintro ⟨idx, it, steps, rfl, hit, hunknown⟩
    cases idx with
    | zero => exact .inl ⟨steps, rfl, Option.some.inj hit ▸ hunknown⟩
    | succ idx =>
      exact .inr ⟨idx, it, steps, by rw [Nat.add_right_comm, Nat.add_assoc], hit, hunknown⟩
  · rintro (⟨steps, rfl, hunknown⟩ | ⟨idx, it, steps, rfl, hit, hunknown⟩)
    · exact ⟨0, elem, steps, rfl, rfl, hunknown⟩
    · exact ⟨idx + 1, it, steps, by rw [Nat.add_right_comm, Nat.add_assoc], hit, hunknown⟩

theorem unknownFrom_disjoint {elem : Item} {start : ℕ}
    (h : ∃ steps, place = .index start :: steps ∧ IsUnknown elem s steps) :
    ¬UnknownFrom elems s (start + 1) place := by
  obtain ⟨steps, rfl, -⟩ := h
  rintro ⟨idx, it, steps', hplace, -⟩
  have hidx := PathStep.index.inj (List.cons.inj hplace).1
  omega

theorem isUnknown_array_iff :
    IsUnknown (.array elems) (.array s) place ↔ UnknownFrom elems s 0 place := by
  cases place with
  | nil => simp [not_isUnknown_nil, UnknownFrom]
  | cons step steps =>
    rw [isUnknown_cons_iff]
    cases step with
    | key k => simp [Item.descend, UnknownFrom]
    | index idx => simp [Item.descend, UnknownFrom, SchemaShape.lacks, SchemaShape.descend]

theorem isUnknown_arrayOfTables_iff {tables : List (List (String × Item))} :
    IsUnknown (.arrayOfTables tables) (.array s) place ↔
      UnknownFrom (tables.map .table) s 0 place := by
  rw [← isUnknown_array_iff]
  cases place with
  | nil => exact iff_of_false not_isUnknown_nil not_isUnknown_nil
  | cons step steps =>
    rw [isUnknown_cons_iff, isUnknown_cons_iff]
    cases step with
    | key k => rfl
    | index idx => rw [Item.descend, Item.descend, List.getElem?_map]

/-- Where the shape is not that of the item nothing is unknown. -/
theorem not_isUnknown (h : ∀ step, item.descend step = none ∨
    shape.lacks step = false ∧ shape.descend step = none) (place : List PathStep) :
    ¬IsUnknown item shape place := by
  cases place with
  | nil => exact not_isUnknown_nil
  | cons step steps =>
    rw [isUnknown_cons_iff]
    rintro ⟨child, hchild, hunknown⟩
    rcases h step with hnone | ⟨hlacks, hdescend⟩
    · rw [hnone] at hchild
      cases hchild
    · rcases hunknown with ⟨-, h⟩ | ⟨s, hs, -⟩
      · rw [hlacks] at h
        cases h
      · rw [hdescend] at hs
        cases hs

theorem not_isUnknown_of_entries (hitem : ∀ idx, item.descend (.index idx) = none)
    (h : ∀ k, shape.lacks (.key k) = false ∧ shape.descend (.key k) = none)
    (place : List PathStep) : ¬IsUnknown item shape place := by
  refine not_isUnknown (fun step => ?_) place
  cases step with
  | key k => exact .inr (h k)
  | index idx => exact .inl (hitem idx)

theorem not_isUnknown_of_elems (hitem : ∀ k, item.descend (.key k) = none)
    (h : ∀ idx, shape.lacks (.index idx) = false ∧ shape.descend (.index idx) = none)
    (place : List PathStep) : ¬IsUnknown item shape place := by
  refine not_isUnknown (fun step => ?_) place
  cases step with
  | key k => exact .inl (hitem k)
  | index idx => exact .inr (h idx)

section

variable (source : ConfigSource) (text : String)

mutual

/-- There is one warning for each unknown key of an item. -/
theorem warnsOf_walkItem : ∀ (item : Item) (path : String) (shape : SchemaShape), item.WellFormed →
    WarnsOf (IsUnknown item shape) path (walkItem source text item path shape).2
  | .scalar value, path, shape, _ => by
    have hnone : ∀ place, ¬IsUnknown (.scalar value) shape place :=
      not_isUnknown fun step => .inl (by cases step <;> rfl)
    cases shape <;> exact .nil hnone
  | .table entries, path, shape, h => by
    cases shape with
    | object fields additional => exact warnsOf_walkTable fields additional entries path h.1 h.2
    | array | «open» | leaf =>
      exact .nil (not_isUnknown_of_entries (fun _ => rfl) fun _ => ⟨rfl, rfl⟩)
  | .inlineTable entries, path, shape, h => by
    cases shape with
    | object fields additional =>
      exact (warnsOf_walkTable fields additional entries path h.1 h.2.1).congr
        fun place => isUnknown_inlineTable_iff.symm
    | array | «open» | leaf =>
      exact .nil (not_isUnknown_of_entries (fun _ => rfl) fun _ => ⟨rfl, rfl⟩)
  | .array elems, path, shape, h => by
    cases shape with
    | array s =>
      exact (warnsOf_walkArray s elems path 0 h).congr fun place => isUnknown_array_iff.symm
    | object | «open» | leaf =>
      exact .nil (not_isUnknown_of_elems (fun _ => rfl) fun _ => ⟨rfl, rfl⟩)
  | .arrayOfTables tables, path, shape, h => by
    cases shape with
    | array s =>
      exact (warnsOf_walkArrayOfTables s tables path 0 h).congr
        fun place => isUnknown_arrayOfTables_iff.symm
    | object | «open» | leaf =>
      exact .nil (not_isUnknown_of_elems (fun _ => rfl) fun _ => ⟨rfl, rfl⟩)

theorem warnsOf_walkTable (fields : List (String × SchemaShape))
    (additional : Option SchemaShape) : ∀ (entries : List (String × Item)) (path : String),
    (entries.map Prod.fst).Nodup → EntriesWellFormed entries →
      WarnsOf (IsUnknown (.table entries) (.object fields additional)) path
        (walkTable source text fields additional entries path).2
  | [], path, _, _ => .nil (not_isUnknown fun step => .inl (by cases step <;> rfl))
  | (key, it) :: entries, path, hnodup, h => by
    obtain ⟨hkey, hnodup⟩ := List.nodup_cons.mp hnodup
    have hrest := warnsOf_walkTable fields additional entries path hnodup h.2
    have hdisjoint : ∀ {P : List PathStep → Prop} (place : List PathStep),
        (∃ steps, place = .key key :: steps ∧ P steps) →
          ¬IsUnknown (.table entries) (.object fields additional) place := by
      rintro P - ⟨steps, rfl, -⟩ hunknown
      obtain ⟨child, hchild, -⟩ := isUnknown_cons_iff.mp hunknown
      have hlookup : entries.lookup key = some child := hchild
      exact hkey (List.mem_map.mpr ⟨(key, child), mem_of_lookup hlookup, rfl⟩)
    rw [walkTable]
    cases hs : (fields.lookup key).or additional with
    | some s =>
      have hitem : WarnsOf (IsUnknown it s) (stepPath path (.key key))
          (walkItem source text it (formatKey path key) s).2 :=
        warnsOf_walkItem it (formatKey path key) s h.1
      refine (hitem.below.append hrest hdisjoint).congr fun place => ?_
      rw [isUnknown_table_cons_iff hkey, SchemaShape.lacks_object, SchemaShape.descend, hs]
      simp
    | none =>
      have hwarning : (unknownKey source text fields path key).path = stepPath path (.key key) :=
        rfl
      refine ((WarnsOf.singleton hwarning).append hrest fun place hplace => ?_).congr
        fun place => ?_
      · exact hdisjoint (P := fun _ => True) place ⟨[], hplace, trivial⟩
      · rw [isUnknown_table_cons_iff hkey, SchemaShape.lacks_object, SchemaShape.descend, hs]
        simp

theorem warnsOf_walkArray (s : SchemaShape) : ∀ (elems : List Item) (path : String) (start : ℕ),
    ValuesWellFormed elems →
      WarnsOf (UnknownFrom elems s start) path (walkArray source text s elems path start).2
  | [], path, start, _ => .nil (by rintro place ⟨idx, it, steps, -, hit, -⟩; cases hit)
  | elem :: elems, path, start, h => by
    have helem : WarnsOf (IsUnknown elem s) (stepPath path (.index start))
        (walkItem source text elem (formatIndex path start) s).2 :=
      warnsOf_walkItem elem (formatIndex path start) s h.1.2
    have hrest := warnsOf_walkArray s elems path (start + 1) h.2
    exact (helem.below.append hrest fun place => unknownFrom_disjoint).congr
      fun place => unknownFrom_cons_iff.symm

theorem warnsOf_walkArrayOfTables (s : SchemaShape) : ∀ (tables : List (List (String × Item)))
    (path : String) (start : ℕ), TablesWellFormed tables →
      WarnsOf (UnknownFrom (tables.map .table) s start) path
        (walkArrayOfTables source text s tables path start).2
  | [], path, start, _ => .nil (by rintro place ⟨idx, it, steps, -, hit, -⟩; cases hit)
  | entries :: tables, path, start, h => by
    have hrest := warnsOf_walkArrayOfTables s tables path (start + 1) h.2
    have htable : WarnsOf (IsUnknown (.table entries) s) (stepPath path (.index start))
        (walkItem source text (.table entries) (formatIndex path start) s).2 := by
      cases s with
      | object fields additional =>
        exact warnsOf_walkTable fields additional entries (formatIndex path start) h.1.1 h.1.2
      | array | «open» | leaf =>
        exact .nil (not_isUnknown_of_entries (fun _ => rfl) fun _ => ⟨rfl, rfl⟩)
    have hwarnings : (walkArrayOfTables source text s (entries :: tables) path start).2 =
        (walkItem source text (.table entries) (formatIndex path start) s).2 ++
          (walkArrayOfTables source text s tables path (start + 1)).2 := by
      cases s <;> rfl
    rw [hwarnings]
    exact (htable.below.append hrest fun place => unknownFrom_disjoint).congr
      fun place => unknownFrom_cons_iff.symm

end

end

/-! ### A second run -/

section

variable (source source' : ConfigSource) (text text' : String)

mutual

/-- In what a walk leaves nothing is unknown. -/
theorem walkItem_walkItem : ∀ (item : Item) (path path' : String) (shape : SchemaShape),
    walkItem source' text' (walkItem source text item path shape).1 path' shape =
      ((walkItem source text item path shape).1, [])
  | .scalar value, path, path', shape => by cases shape <;> rfl
  | .table entries, path, path', shape => by
    cases shape with
    | object fields additional =>
      simp only [walkItem]
      rw [walkTable_walkTable fields additional entries path path']
    | array | «open» | leaf => rfl
  | .inlineTable entries, path, path', shape => by
    cases shape with
    | object fields additional =>
      simp only [walkItem]
      rw [walkTable_walkTable fields additional entries path path']
    | array | «open» | leaf => rfl
  | .array elems, path, path', shape => by
    cases shape with
    | array s =>
      simp only [walkItem]
      rw [walkArray_walkArray s elems path path' 0]
    | object | «open» | leaf => rfl
  | .arrayOfTables tables, path, path', shape => by
    cases shape with
    | array s =>
      simp only [walkItem]
      rw [walkArrayOfTables_walkArrayOfTables s tables path path' 0]
    | object | «open» | leaf => rfl

theorem walkTable_walkTable (fields : List (String × SchemaShape))
    (additional : Option SchemaShape) : ∀ (entries : List (String × Item)) (path path' : String),
    walkTable source' text' fields additional
        (walkTable source text fields additional entries path).1 path' =
      ((walkTable source text fields additional entries path).1, [])
  | [], _, _ => rfl
  | (key, it) :: entries, path, path' => by
    have hrest := walkTable_walkTable fields additional entries path path'
    rw [walkTable]
    cases hs : (fields.lookup key).or additional with
    | some s =>
      have hitem := walkItem_walkItem it (formatKey path key) (formatKey path' key) s
      simp only [walkTable, hs, hrest, hitem, List.append_nil]
    | none => exact hrest

theorem walkArray_walkArray (s : SchemaShape) : ∀ (elems : List Item) (path path' : String)
    (start : ℕ),
    walkArray source' text' s (walkArray source text s elems path start).1 path' start =
      ((walkArray source text s elems path start).1, [])
  | [], _, _, _ => rfl
  | elem :: elems, path, path', start => by
    have helem := walkItem_walkItem elem (formatIndex path start) (formatIndex path' start) s
    have hrest := walkArray_walkArray s elems path path' (start + 1)
    simp only [walkArray, helem, hrest, List.append_nil]

theorem walkArrayOfTables_walkArrayOfTables (s : SchemaShape) :
    ∀ (tables : List (List (String × Item))) (path path' : String) (start : ℕ),
    walkArrayOfTables source' text' s (walkArrayOfTables source text s tables path start).1 path'
        start =
      ((walkArrayOfTables source text s tables path start).1, [])
  | [], _, _, _ => rfl
  | entries :: tables, path, path', start => by
    have hrest := walkArrayOfTables_walkArrayOfTables s tables path path' (start + 1)
    cases s with
    | object fields additional =>
      have htable := walkTable_walkTable fields additional entries (formatIndex path start)
        (formatIndex path' start)
      simp only [walkArrayOfTables, htable, hrest, List.append_nil]
    | array | «open» | leaf => simp only [walkArrayOfTables, hrest]

end

end

/-! ### Main results -/

/-- Walking an item takes its unknown keys out. -/
theorem prunesUnknown_walkItem (source : ConfigSource) (text : String) {item : Item}
    (h : item.WellFormed) (path : String) (shape : SchemaShape) :
    PrunesUnknown path shape item (walkItem source text item path shape) where
  kept place hknown := reach_walkItem source text place item path shape hknown
  removed place unknown hprefix hunknown :=
    reach_walkItem_of_isUnknown source text place item path shape unknown hprefix hunknown
  warned := warnsOf_walkItem source text item path shape h
  apart place unknown hprefix hunknown hplace :=
    eq_of_isUnknown place item shape unknown hprefix hunknown hplace

/-- **Sanitizing takes out the unknown keys, and once.** Then again, with whatever text, it takes
out none and warns of none. -/
theorem sanitizeDocument_prunes (shape : SchemaShape) (doc : Document) (source : ConfigSource)
    (text : String) :
    PrunesUnknown "" shape (.table doc.entries)
        (.table (sanitizeDocument shape doc source text).1.entries,
          (sanitizeDocument shape doc source text).2) ∧
      ∀ source' text',
        sanitizeDocument shape (sanitizeDocument shape doc source text).1 source' text' =
          ((sanitizeDocument shape doc source text).1, []) := by
  constructor
  · rw [sanitizeDocument_eq]
    exact prunesUnknown_walkItem source text doc.wellFormed "" shape
  · intro source' text'
    cases shape with
    | object fields additional =>
      have htwice := walkTable_walkTable source source' text text' fields additional doc.entries ""
        ""
      simp only [sanitizeDocument, htwice]
    | array | «open» | leaf => rfl

end Shilpo.Config
