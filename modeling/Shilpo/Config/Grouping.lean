import Shilpo.Config.Provenance

/-!
# Three documents

Of three documents, the second can be laid over the first and then the third over both, or
the third over the second and then both over the first. **`merge_assoc_iff`** says for
which documents that is the same (`Groups`). It is not where

* something that is no table comes between two tables, and the upper one leaves something
  of the lower one to be seen;
* two inline tables come with a standard one over or under them. The inline ones are not
  gone into when they are merged first, and are when one of them has been merged with the
  standard one: it shows wherever the second document's entry does not hide, or is not
  hidden.
-/

namespace Shilpo.Config

open Theory Theory.Tree

/-- One tree over another, as merging lays them. -/
abbrev laid (x y : SpelledTree) : SpelledTree := x.layer Spelling.deep Spelling.join y

/-! ### Inline tables have inline tables in them -/

/-- All tables are inline. -/
def InlineOnly : SpelledTree → Prop
  | .node i f => i = .inlined ∧ ∀ k, InlineOnly (f k)
  | _ => True

/-- All tables in inline ones are inline. -/
def WellSpelled : SpelledTree → Prop
  | .node .inlined f => ∀ k, InlineOnly (f k)
  | .node .standard f => ∀ k, WellSpelled (f k)
  | _ => True

theorem InlineOnly.wellSpelled {t : SpelledTree} (h : InlineOnly t) : WellSpelled t := by
  cases t with
  | absent | atom | list => trivial
  | node i f =>
    obtain ⟨rfl, h⟩ := h
    exact h

theorem WellSpelled.child {i : Spelling} {f : String → SpelledTree} (h : WellSpelled (.node i f))
    (k : String) : WellSpelled (f k) := by
  cases i with
  | inlined => exact (h k).wellSpelled
  | standard => exact h k

mutual

theorem inlineOnly_tree : ∀ item : Item, item.WellFormed → item.isValue = true →
    InlineOnly item.tree
  | .inlineTable entries, h, _ => ⟨rfl, inlineOnly_entryTrees entries h.2.1 h.2.2⟩
  | .scalar _, _, _ | .array _, _, _ => trivial
  | .table _, _, hvalue | .arrayOfTables _, _, hvalue => nomatch hvalue

theorem inlineOnly_entryTrees : ∀ entries : List (String × Item), EntriesWellFormed entries →
    (∀ e ∈ entries, e.2.isValue = true) → ∀ k, InlineOnly (entryTrees entries k)
  | [], _, _, _ => by rw [entryTrees]; trivial
  | (key, v) :: entries, h, hvalues, k => by
    rw [List.forall_mem_cons] at hvalues
    rw [entryTrees]
    split_ifs
    · exact inlineOnly_tree v h.1 hvalues.1
    · exact inlineOnly_entryTrees entries h.2 hvalues.2 k

end

mutual

theorem wellSpelled_tree : ∀ item : Item, item.WellFormed → WellSpelled item.tree
  | .inlineTable entries, h => inlineOnly_entryTrees entries h.2.1 h.2.2
  | .table entries, h => wellSpelled_entryTrees entries h.2
  | .scalar _, _ | .array _, _ | .arrayOfTables _, _ => trivial

theorem wellSpelled_entryTrees : ∀ entries : List (String × Item), EntriesWellFormed entries →
    ∀ k, WellSpelled (entryTrees entries k)
  | [], _, _ => by rw [entryTrees]; trivial
  | (key, v) :: entries, h, k => by
    rw [entryTrees]
    split_ifs
    · exact wellSpelled_tree v h.1
    · exact wellSpelled_entryTrees entries h.2 k

end

/-! ### When the grouping does not show -/

/-- With the third tree over it, what the second brings to the first does not show. -/
def Skipped : SpelledTree → SpelledTree → SpelledTree → Prop
  | x, y, .absent => Repeats Spelling.deep x y
  | _, .absent, .node _ _ => True
  | .node .standard f, .node _ g, .node _ h => ∀ k, Skipped (f k) (g k) (h k)
  | .node .inlined f, .node _ g, .node _ h =>
    ∀ k, h k ≠ .absent ∨ g k = .absent ∨ (g k).forget = (f k).forget
  | _, .node j g, .node l h => Hides Spelling.deep (.node j g) (.node l h)
  | x, _, .node l h => Hides Spelling.deep x (.node l h)
  | _, _, _ => True

theorem skipped_iff {x y z : SpelledTree} (hy : InlineOnly y) (hz : InlineOnly z) :
    (laid (laid x y) z).forget = (laid x z).forget ↔ Skipped x y z := by
  induction z generalizing x y with
  | absent =>
    simp only [laid, layer_absent]
    rw [forget_layer_eq_left_iff]
    cases x <;> cases y <;> rfl
  | atom a | list ts => cases x <;> cases y <;> simp [Skipped]
  | node l h ih =>
    obtain ⟨rfl, hz⟩ := hz
    cases y with
    | absent => simp [Skipped]
    | atom a | list ts =>
      simp only [laid, layer_atom, layer_list, atom_layer_node, list_layer_node, Skipped]
      rw [eq_comm, forget_layer_eq_right_iff]
    | node j g =>
      obtain ⟨rfl, hy⟩ := hy
      cases x with
      | absent | atom a | list ts =>
        simp only [laid, absent_layer, atom_layer_node, list_layer_node, Skipped]
        rw [forget_layer_eq_right_iff]
      | node i f =>
        cases i with
        | standard =>
          simp only [laid, node_layer_node, Spelling.deep, Spelling.join, if_true, forget_node,
            node_eq_iff, Skipped]
          exact forall_congr' fun k => ih k (hy k) (hz k)
        | inlined =>
          simp only [laid, node_layer_node, Spelling.deep, Spelling.join, Bool.false_eq_true,
            if_false, forget_node, node_eq_iff, Skipped]
          refine forall_congr' fun k => ?_
          rcases eq_or_ne (h k) .absent with hk | hk
          · rcases eq_or_ne (g k) .absent with hk' | hk'
            · simp [hk, hk']
            · simp [hk, hk', replacedBy_of_ne hk']
          · simp [replacedBy_of_ne hk, hk]

/-- Laying the third tree over the second first comes to the same. -/
def Groups : SpelledTree → SpelledTree → SpelledTree → Prop
  | .node .inlined _, .node .inlined _, .node .inlined _ => True
  | .node .inlined f, .node .inlined g, .node .standard h =>
    ∀ k, g k = .absent ∨ BothHide Spelling.deep Spelling.join (f k) (g k) (h k)
  | .node .standard f, .node .inlined g, .node .inlined h =>
    ∀ k, g k = .absent ∨ h k = .absent ∨ Skipped (f k) (g k) (h k)
  | .node _ f, .node _ g, .node _ h => ∀ k, Groups (f k) (g k) (h k)
  | _, .absent, _ => True
  | .node i f, _, .node l h => Hides Spelling.deep (.node i f) (.node l h)
  | _, _, _ => True

theorem groups_iff {x y z : SpelledTree} (hx : WellSpelled x) (hy : WellSpelled y)
    (hz : WellSpelled z) :
    (laid (laid x y) z).forget = (laid x (laid y z)).forget ↔ Groups x y z := by
  induction z generalizing x y with
  | absent => cases x <;> cases y <;> simp [Groups]
  | atom a | list ts => cases x <;> cases y <;> simp [Groups]
  | node l h ih =>
    cases y with
    | absent => cases x <;> simp [Groups]
    | atom a | list ts =>
      simp only [laid, layer_atom, layer_list, atom_layer_node, list_layer_node]
      rw [eq_comm, forget_layer_eq_right_iff]
      cases x <;> simp [Groups, Hides]
    | node j g =>
      cases x with
      | absent | atom a | list ts => simp [Groups]
      | node i f =>
        cases i <;> cases j <;> cases l
        case inlined.inlined.inlined =>
          simp [laid, Spelling.deep, Spelling.join, Groups, replacedBy_assoc]
        case inlined.inlined.standard =>
          simp only [laid, node_layer_node, Spelling.deep, Spelling.join, Bool.false_eq_true,
            if_false, if_true, forget_node, node_eq_iff, Groups]
          refine forall_congr' fun k => ?_
          rcases eq_or_ne (g k) .absent with hk | hk
          · simp [hk]
          · rw [replacedBy_of_ne hk, eq_comm, forget_layer_layer_eq_right_iff]
            simp [hk]
        case standard.inlined.inlined =>
          simp only [laid, node_layer_node, Spelling.deep, Spelling.join, Bool.false_eq_true,
            if_false, if_true, forget_node, node_eq_iff, Groups]
          refine forall_congr' fun k => ?_
          rcases eq_or_ne (g k) .absent with hk | hk
          · simp [hk]
          · rcases eq_or_ne (h k) .absent with hk' | hk'
            · simp [hk']
            · rw [replacedBy_of_ne hk', skipped_iff (hy k) (hz k)]
              simp [hk, hk']
        all_goals
          simp only [laid, node_layer_node, Spelling.deep, Spelling.join, if_true, forget_node,
            node_eq_iff, Groups]
          exact forall_congr' fun k => ih k (hx.child k) (hy.child k) (hz.child k)

/-! ### Main results -/

/-- **Grouping three documents.** Laying the second over the first and then the third over both
gives the same value as laying the third over the second and then both over the first, exactly if
`Groups` holds of the three. -/
theorem merge_assoc_iff (a b c : Document) (sourceB sourceC sourceBC : ConfigSource)
    (textB textC textBC : String) (p q r s : ConfigProvenance) :
    (mergeDocument sourceC textC (mergeDocument sourceB textB a b p).1 c q).1.value =
        (mergeDocument sourceBC textBC a (mergeDocument sourceC textC b c r).1 s).1.value ↔
      Groups a.tree b.tree c.tree := by
  simp only [Document.value, tree_mergeDocument]
  exact groups_iff (wellSpelled_tree _ a.wellFormed) (wellSpelled_tree _ b.wellFormed)
    (wellSpelled_tree _ c.wellFormed)

/-- The document `[v]`. -/
def emptyTable : Document := ⟨[("v", .table [])], by simp [Item.WellFormed, EntriesWellFormed]⟩

/-- With `v = { a = { x = 1 } }`, `v = { a = { y = 2 } }` and `[v]`, `v.a.x` is there in the end
only if the last two are merged first. -/
theorem grouping_shows :
    (mergeDocument (.overrides "c.toml") ""
        (mergeDocument (.fragment "b.toml") "" (nestedInline "x" 1) (nestedInline "y" 2) .new).1
        emptyTable .new).1.value ≠
      (mergeDocument (.overrides "c.toml") "" (nestedInline "x" 1)
        (mergeDocument (.overrides "c.toml") "" (nestedInline "y" 2) emptyTable .new).1
        .new).1.value := by
  rw [Ne, merge_assoc_iff]
  intro hgroups
  obtain ha | ha := hgroups "v" "a"
  · cases ha
  · cases ha "x" rfl

end Shilpo.Config
