import Mathlib

/-!
# Layering trees

A tree of tables, lists and atoms, laid over another. A table is a function from keys,
`absent` where there is nothing, so that equal trees are equal as functions and the order
of the keys is not in them; a list is a function from indices. Each table has a label.

`layer deep join` lays one tree over another: two tables are joined key by key, and
anything else takes the place of what is below. What it does where both tables have a
key depends on their labels: where `deep` holds it goes on, elsewhere the upper one takes
the place of the lower. `merge` goes on everywhere and is for trees without labels.

The two agree but where a table that is not gone into hides something
(`forget_layer_eq_iff`).
-/

namespace Shilpo.Theory

universe u v w

/-- A tree with keys `κ`, atoms `α` and tables labelled by `ι`. -/
inductive Tree (κ : Type u) (ι : Type v) (α : Type w) where
  | absent
  | atom (a : α)
  | list (ts : ℕ → Tree κ ι α)
  | node (i : ι) (f : κ → Tree κ ι α)

namespace Tree

variable {κ : Type u} {ι : Type v} {α : Type w}

/-- The second tree, or the first where there is none. -/
def replacedBy (x : Tree κ ι α) : Tree κ ι α → Tree κ ι α
  | absent => x
  | y => y

/-- One tree laid over another. -/
def layer (deep : ι → ι → Bool) (join : ι → ι → ι) : Tree κ ι α → Tree κ ι α → Tree κ ι α
  | x, absent => x
  | node i f, node j g =>
    node (join i j) fun k => if deep i j then layer deep join (f k) (g k) else (f k).replacedBy (g k)
  | _, y => y

/-- One unlabelled tree laid over another. -/
def merge : Tree κ Unit α → Tree κ Unit α → Tree κ Unit α :=
  layer (fun _ _ => true) fun _ _ => ()

/-- The tree without its labels. -/
def forget : Tree κ ι α → Tree κ Unit α
  | absent => absent
  | atom a => atom a
  | list ts => list fun n => (ts n).forget
  | node _ f => node () fun k => (f k).forget

/-! ### Small facts -/

@[simp] theorem replacedBy_absent (x : Tree κ ι α) : x.replacedBy absent = x := rfl

@[simp] theorem absent_replacedBy (y : Tree κ ι α) : absent.replacedBy y = y := by cases y <;> rfl

theorem replacedBy_of_ne {x y : Tree κ ι α} (h : y ≠ absent) : x.replacedBy y = y := by
  cases y with
  | absent => exact absurd rfl h
  | atom | list | node => rfl

theorem replacedBy_assoc (x y z : Tree κ ι α) :
    (x.replacedBy y).replacedBy z = x.replacedBy (y.replacedBy z) := by
  cases z <;> rfl

section

variable {deep : ι → ι → Bool} {join : ι → ι → ι}

@[simp] theorem layer_absent (x : Tree κ ι α) : layer deep join x absent = x := by
  cases x <;> rfl

@[simp] theorem absent_layer (y : Tree κ ι α) : layer deep join absent y = y := by
  cases y <;> rfl

@[simp] theorem layer_atom (x : Tree κ ι α) (a : α) : layer deep join x (atom a) = atom a := by
  cases x <;> rfl

@[simp] theorem layer_list (x : Tree κ ι α) (ts : ℕ → Tree κ ι α) :
    layer deep join x (list ts) = list ts := by
  cases x <;> rfl

@[simp] theorem atom_layer_node (a : α) (j : ι) (g : κ → Tree κ ι α) :
    layer deep join (atom a) (node j g) = node j g :=
  rfl

@[simp] theorem list_layer_node (ts : ℕ → Tree κ ι α) (j : ι) (g : κ → Tree κ ι α) :
    layer deep join (list ts) (node j g) = node j g :=
  rfl

@[simp] theorem node_layer_node (i j : ι) (f g : κ → Tree κ ι α) :
    layer deep join (node i f) (node j g) =
      node (join i j) fun k =>
        if deep i j then layer deep join (f k) (g k) else (f k).replacedBy (g k) :=
  rfl

theorem layer_eq_absent {x y : Tree κ ι α} :
    layer deep join x y = absent ↔ x = absent ∧ y = absent := by
  cases x <;> cases y <;> simp

end

@[simp] theorem forget_absent : (absent : Tree κ ι α).forget = absent := rfl

@[simp] theorem forget_atom (a : α) : (atom a : Tree κ ι α).forget = atom a := rfl

@[simp] theorem forget_list (ts : ℕ → Tree κ ι α) :
    (list ts).forget = list fun n => (ts n).forget :=
  rfl

@[simp] theorem forget_node (i : ι) (f : κ → Tree κ ι α) :
    (node i f).forget = node () fun k => (f k).forget :=
  rfl

@[simp] theorem forget_eq_absent {x : Tree κ ι α} : x.forget = absent ↔ x = absent := by
  cases x <;> simp

theorem node_eq_iff {i : ι} {f g : κ → Tree κ ι α} : node i f = node i g ↔ ∀ k, f k = g k := by
  simp [funext_iff]

/-! ### Where a layer hides what is below -/

/-- Whatever the first tree has, the second has as well: laid over the first, it is all there
is. -/
def Covered : Tree κ ι α → Tree κ ι α → Prop
  | x, absent => x = absent
  | node _ f, node _ g => ∀ k, Covered (f k) (g k)
  | _, _ => True

theorem merge_eq_right_iff {x y : Tree κ ι α} :
    merge x.forget y.forget = y.forget ↔ Covered x y := by
  induction y generalizing x with
  | absent => simp [merge, Covered]
  | atom a => cases x <;> simp [merge, Covered]
  | list ts => cases x <;> simp [merge, Covered]
  | node j g ih =>
    cases x with
    | node i f =>
      simp only [forget_node, merge, node_layer_node, if_true, node_eq_iff, Covered]
      exact forall_congr' fun k => ih k
    | absent | atom | list => simp [merge, Covered]

/-- Tables that are not gone into hide nothing. -/
def Agrees (deep : ι → ι → Bool) : Tree κ ι α → Tree κ ι α → Prop
  | node i f, node j g =>
    if deep i j then ∀ k, Agrees deep (f k) (g k) else ∀ k, g k = absent ∨ Covered (f k) (g k)
  | _, _ => True

/-- **Going in everywhere or not.** A layer is what it is without labels exactly where the tables
that are not gone into hide nothing. -/
theorem forget_layer_eq_iff {deep : ι → ι → Bool} {join : ι → ι → ι} {x y : Tree κ ι α} :
    (layer deep join x y).forget = merge x.forget y.forget ↔ Agrees deep x y := by
  induction y generalizing x with
  | absent => simp [merge, Agrees]
  | atom a => cases x <;> simp [merge, Agrees]
  | list ts => cases x <;> simp [merge, Agrees]
  | node j g ih =>
    cases x with
    | absent | atom | list => simp [merge, Agrees]
    | node i f =>
      simp only [node_layer_node, forget_node, merge, if_true, node_eq_iff, Agrees]
      split_ifs with hdeep
      · exact forall_congr' fun k => ih k
      · refine forall_congr' fun k => ?_
        rcases eq_or_ne (g k) absent with hk | hk
        · simp [hk]
        · rw [replacedBy_of_ne hk, eq_comm]
          simp only [hk, false_or]
          exact merge_eq_right_iff

/-! ### Where a layer is all there is, or nothing -/

section

variable (deep : ι → ι → Bool) (join : ι → ι → ι)

/-- The second tree hides all of the first. -/
def Hides : Tree κ ι α → Tree κ ι α → Prop
  | x, absent => x = absent
  | node i f, node j g =>
    if deep i j then ∀ k, Hides (f k) (g k) else ∀ k, g k = absent → f k = absent
  | _, _ => True

/-- The second and the third together hide all of the first. -/
def BothHide : Tree κ ι α → Tree κ ι α → Tree κ ι α → Prop
  | x, y, absent => Hides deep x y
  | node i f, node j g, node l h =>
    if deep i (join j l) then
      if deep j l then ∀ k, BothHide (f k) (g k) (h k)
      else ∀ k, h k = absent ∧ Hides deep (f k) (g k) ∨ h k ≠ absent ∧ Hides deep (f k) (h k)
    else ∀ k, g k = absent → h k = absent → f k = absent
  | x, _, z => Hides deep x z

/-- The second tree brings nothing that the first has not. -/
def Repeats : Tree κ ι α → Tree κ ι α → Prop
  | _, absent => True
  | node i f, node j g =>
    if deep i j then ∀ k, Repeats (f k) (g k)
    else ∀ k, g k = absent ∨ (g k).forget = (f k).forget
  | x, y => y.forget = x.forget

variable {deep join}

theorem forget_layer_eq_right_iff {x y : Tree κ ι α} :
    (layer deep join x y).forget = y.forget ↔ Hides deep x y := by
  induction y generalizing x with
  | absent => simp [Hides]
  | atom | list => cases x <;> simp [Hides]
  | node j g ih =>
    cases x with
    | absent | atom | list => simp [Hides]
    | node i f =>
      simp only [node_layer_node, forget_node, node_eq_iff, Hides]
      split_ifs with hdeep
      · exact forall_congr' fun k => ih k
      · refine forall_congr' fun k => ?_
        rcases eq_or_ne (g k) absent with hk | hk
        · simp [hk]
        · simp [replacedBy_of_ne hk, hk]

theorem forget_layer_layer_eq_right_iff {x y z : Tree κ ι α} :
    (layer deep join x (layer deep join y z)).forget = (layer deep join y z).forget ↔
      BothHide deep join x y z := by
  induction z generalizing x y with
  | absent =>
    rw [layer_absent, BothHide]
    exact forget_layer_eq_right_iff
  | atom | list => cases x <;> cases y <;> simp [BothHide, Hides]
  | node l h ih =>
    cases y with
    | absent | atom | list =>
      simp only [absent_layer, atom_layer_node, list_layer_node, forget_layer_eq_right_iff]
      cases x <;> rfl
    | node j g =>
      cases x with
      | absent | atom | list => simp [BothHide, Hides]
      | node i f =>
        simp only [node_layer_node, forget_node, node_eq_iff, BothHide]
        split_ifs with hdeep hdeep'
        · exact forall_congr' fun k => ih k
        · refine forall_congr' fun k => ?_
          rw [forget_layer_eq_right_iff]
          rcases eq_or_ne (h k) absent with hk | hk
          · simp [hk]
          · simp [replacedBy_of_ne hk, hk]
        · refine forall_congr' fun k => ?_
          rcases eq_or_ne (layer deep join (g k) (h k)) absent with hk | hk
          · rw [hk]
            rw [layer_eq_absent] at hk
            simp [hk]
          · rw [replacedBy_of_ne hk]
            rw [Ne, layer_eq_absent] at hk
            simp only [true_iff]
            tauto
        · refine forall_congr' fun k => ?_
          rcases eq_or_ne (h k) absent with hk | hk
          · rw [hk, replacedBy_absent]
            rcases eq_or_ne (g k) absent with hk' | hk'
            · simp [hk']
            · simp [replacedBy_of_ne hk', hk']
          · simp [replacedBy_of_ne hk, hk]

theorem forget_layer_eq_left_iff {x y : Tree κ ι α} :
    (layer deep join x y).forget = x.forget ↔ Repeats deep x y := by
  induction y generalizing x with
  | absent => simp [Repeats]
  | atom | list => cases x <;> simp [Repeats]
  | node j g ih =>
    cases x with
    | absent | atom | list => simp [Repeats]
    | node i f =>
      simp only [node_layer_node, forget_node, node_eq_iff, Repeats]
      split_ifs with hdeep
      · exact forall_congr' fun k => ih k
      · refine forall_congr' fun k => ?_
        rcases eq_or_ne (g k) absent with hk | hk
        · simp [hk]
        · simp [replacedBy_of_ne hk, hk]

end

end Tree

end Shilpo.Theory
