import Shilpo.Config.Document
import Shilpo.Theory.BTreeMap
import Shilpo.Theory.Layering

/-!
# What a merged document says

A document says a tree, its tables labelled by how they are spelled (`Item.tree`), and
without the labels a value. Merging lays the trees over each other, going into every pair
of tables but two inline ones (`tree_mergeItems`).
-/

namespace Shilpo.Config

open Theory

/-- How a table is spelled. -/
inductive Spelling where
  | standard
  | inlined
  deriving DecidableEq

namespace Spelling

/-- Two inline tables are not gone into. -/
def deep : Spelling → Spelling → Bool
  | inlined, inlined => false
  | _, _ => true

/-- Only two inline tables make an inline one. -/
def join : Spelling → Spelling → Spelling
  | inlined, inlined => inlined
  | _, _ => standard

end Spelling

/-- A tree whose tables are spelled one way or the other. -/
abbrev SpelledTree := Tree String Spelling Scalar

/-- A value: how its tables are spelled is not in it. -/
abbrev Value := Tree String Unit Scalar

/-! ### The tree of an item -/

mutual

/-- What an item says. -/
def Item.tree : Item → SpelledTree
  | .scalar value => .atom value
  | .array elems => .list (elemTrees elems)
  | .inlineTable entries => .node .inlined (entryTrees entries)
  | .table entries => .node .standard (entryTrees entries)
  | .arrayOfTables tables => .list (tableTrees tables)

/-- What each key stands for. -/
def entryTrees : List (String × Item) → String → SpelledTree
  | [], _ => .absent
  | (k, v) :: entries, key => if key = k then v.tree else entryTrees entries key

/-- What is at each index. -/
def elemTrees : List Item → ℕ → SpelledTree
  | [], _ => .absent
  | elem :: _, 0 => elem.tree
  | _ :: elems, idx + 1 => elemTrees elems idx

/-- The table at each index. -/
def tableTrees : List (List (String × Item)) → ℕ → SpelledTree
  | [], _ => .absent
  | entries :: _, 0 => .node .standard (entryTrees entries)
  | _ :: tables, idx + 1 => tableTrees tables idx

end

namespace Document

/-- What a document says. -/
def tree (doc : Document) : SpelledTree := (Item.table doc.entries).tree

/-- The value it denotes. -/
def value (doc : Document) : Value := doc.tree.forget

end Document

/-- The recursive merge: tables key by key at every depth however they are spelled, and everything
else replaced by the upper one. -/
def referenceMerge (base overlay : Value) : Value := base.merge overlay

theorem Item.tree_ne_absent (item : Item) : item.tree ≠ .absent := by
  cases item <;> simp [tree]

/-! ### Entries -/

theorem entryTrees_eq (entries : List (String × Item)) (key : String) :
    entryTrees entries key = (entries.lookup key).elim .absent Item.tree := by
  induction entries with
  | nil => simp [entryTrees]
  | cons e entries ih =>
    obtain ⟨k, v⟩ := e
    rw [entryTrees, List.lookup_cons]
    by_cases h : key = k
    · simp [h]
    · simp [h, ih, beq_eq_false_iff_ne.mpr h]

variable {entries : List (String × Item)} {key : String}

theorem entryTrees_of_notMem (h : key ∉ entries.map Prod.fst) :
    entryTrees entries key = .absent := by
  induction entries with
  | nil => simp [entryTrees]
  | cons e entries ih =>
    obtain ⟨k, v⟩ := e
    rw [List.map_cons, List.mem_cons, not_or] at h
    rw [entryTrees, if_neg h.1, ih h.2]

theorem entryTrees_insertEntry (entries : List (String × Item)) (key : String) (item : Item) :
    entryTrees (insertEntry entries key item) =
      Function.update (entryTrees entries) key item.tree := by
  funext key'
  induction entries with
  | nil => by_cases h : key' = key <;> simp [insertEntry, entryTrees, Function.update_apply, h]
  | cons e entries ih =>
    obtain ⟨k, v⟩ := e
    rw [insertEntry]
    split_ifs with hk
    · subst hk
      by_cases h : key' = k <;> simp [entryTrees, Function.update_apply, h]
    · by_cases h : key' = k
      · subst h
        simp [entryTrees, Function.update_of_ne hk]
      · rw [entryTrees, if_neg h, ih]
        by_cases h' : key' = key <;> simp [Function.update_apply, entryTrees, h, h']

theorem lookup_insertEntry (entries : List (String × Item)) (key key' : String) (item : Item) :
    (insertEntry entries key item).lookup key' =
      if key' = key then some item else entries.lookup key' := by
  induction entries with
  | nil =>
    by_cases h : key' = key
    · simp [insertEntry, h]
    · simp [insertEntry, List.lookup_cons, h, beq_eq_false_iff_ne.mpr h]
  | cons e entries ih =>
    obtain ⟨k, v⟩ := e
    rw [insertEntry]
    by_cases hk : k = key
    · subst hk
      by_cases h : key' = k
      · simp [h]
      · simp [List.lookup_cons, h, beq_eq_false_iff_ne.mpr h]
    · rw [if_neg hk, List.lookup_cons, List.lookup_cons, ih]
      by_cases h : key' = key
      · simp [h, beq_eq_false_iff_ne.mpr (Ne.symm hk)]
      · simp [h]

theorem keys_insertEntry (entries : List (String × Item)) (key : String) (item : Item) :
    (insertEntry entries key item).map Prod.fst =
      if key ∈ entries.map Prod.fst then entries.map Prod.fst
      else entries.map Prod.fst ++ [key] := by
  induction entries with
  | nil => rfl
  | cons e entries ih =>
    obtain ⟨k, v⟩ := e
    rw [insertEntry]
    split_ifs with hk hmem hmem
    · simp [hk]
    · simp [hk] at hmem
    · rw [List.map_cons, ih, if_pos]
      · rfl
      · simpa [Ne.symm hk] using hmem
    · rw [List.map_cons, ih, if_neg]
      · rfl
      · simp_all

theorem nodup_insertEntry (h : (entries.map Prod.fst).Nodup) (key : String) (item : Item) :
    ((insertEntry entries key item).map Prod.fst).Nodup := by
  rw [keys_insertEntry]
  split_ifs with hmem
  · exact h
  · refine List.Nodup.append h (List.nodup_singleton key) ?_
    rw [List.disjoint_singleton]
    exact hmem

theorem mem_insertEntry {item : Item} {e : String × Item} (h : e ∈ insertEntry entries key item) :
    e ∈ entries ∨ e = (key, item) := by
  induction entries with
  | nil => simpa [insertEntry] using h
  | cons e' entries ih =>
    obtain ⟨k, v⟩ := e'
    rw [insertEntry] at h
    rw [List.mem_cons]
    split_ifs at h with hk
    · subst hk
      rw [List.mem_cons] at h
      tauto
    · rw [List.mem_cons] at h
      tauto

theorem entriesWellFormed_iff :
    EntriesWellFormed entries ↔ ∀ e ∈ entries, e.2.WellFormed := by
  induction entries with
  | nil => simp [EntriesWellFormed]
  | cons e entries ih => simp [EntriesWellFormed, ih]

/-! ### Merging is layering -/

section

variable {source : ConfigSource} {text : String}

/-- What replaces whatever is not a table, or is replaced by it. -/
theorem layer_of_not_isTableLike {acc new : Item}
    (h : ¬ (acc.isTableLike = true ∧ new.isTableLike = true)) :
    acc.tree.layer Spelling.deep Spelling.join new.tree = new.tree := by
  cases acc <;> cases new <;> simp [Item.isTableLike, Item.tree] at h ⊢

theorem entryTrees_mergeInlineTables {path : String} :
    ∀ (newTable accTable : List (String × Item)) (p : ConfigProvenance),
      (newTable.map Prod.fst).Nodup →
      entryTrees (mergeInlineTables source text path accTable newTable p).1 =
        fun key => (entryTrees accTable key).replacedBy (entryTrees newTable key)
  | [], _, _, _ => by simp [mergeInlineTables, entryTrees]
  | (key, newVal) :: newTable, accTable, p, h => by
    rw [List.map_cons, List.nodup_cons] at h
    rw [mergeInlineTables, entryTrees_mergeInlineTables newTable _ _ h.2, entryTrees_insertEntry]
    funext key'
    rw [entryTrees]
    by_cases hkey : key' = key
    · subst hkey
      rw [if_pos rfl, Function.update_self, entryTrees_of_notMem h.1,
        Tree.replacedBy_of_ne newVal.tree_ne_absent]
      rfl
    · rw [if_neg hkey, Function.update_of_ne hkey]

mutual

/-- **Merging lays one tree over another.** -/
theorem tree_mergeItems : ∀ (new acc : Item) (path : String) (p : ConfigProvenance),
    new.WellFormed →
    (mergeItems source text acc new path p).1.tree =
      acc.tree.layer Spelling.deep Spelling.join new.tree
  | .table newTable, acc, path, p, h => by
    cases acc with
    | table accTable | inlineTable accTable =>
      simp only [mergeItems, Item.tree, entryTrees_mergeTables newTable accTable path p h.1 h.2,
        Tree.node_layer_node, Spelling.deep, Spelling.join, if_true]
    | scalar | array | arrayOfTables => rfl
  | .inlineTable newTable, acc, path, p, h => by
    cases acc with
    | table accTable =>
      simp only [mergeItems, Item.tree, entryTrees_mergeTables newTable accTable path p h.1 h.2.1,
        Tree.node_layer_node, Spelling.deep, Spelling.join, if_true]
    | inlineTable accTable =>
      simp only [mergeItems, Item.tree, entryTrees_mergeInlineTables newTable accTable p h.1,
        Tree.node_layer_node, Spelling.deep, Spelling.join, Bool.false_eq_true, if_false]
    | scalar | array | arrayOfTables => rfl
  | .scalar value, acc, _, _, _ => by cases acc <;> rfl
  | .array elems, acc, _, _, _ => by cases acc <;> rfl
  | .arrayOfTables tables, acc, _, _, _ => by cases acc <;> rfl

theorem entryTrees_mergeTables : ∀ (newTable accTable : List (String × Item)) (path : String)
    (p : ConfigProvenance), (newTable.map Prod.fst).Nodup → EntriesWellFormed newTable →
    entryTrees (mergeTables source text accTable newTable path p).1 =
      fun key => (entryTrees accTable key).layer Spelling.deep Spelling.join
        (entryTrees newTable key)
  | [], _, _, _, _, _ => by simp [mergeTables, entryTrees]
  | (key, newVal) :: newTable, accTable, path, p, h, hwf => by
    rw [List.map_cons, List.nodup_cons] at h
    obtain ⟨hnew, hrest⟩ := hwf
    -- what is inserted for the first key, in each branch
    have hinsert : ∀ item p', item.tree =
        (entryTrees accTable key).layer Spelling.deep Spelling.join newVal.tree →
        entryTrees (mergeTables source text (insertEntry accTable key item) newTable path p').1 =
          fun key' => (entryTrees accTable key').layer Spelling.deep Spelling.join
            (entryTrees ((key, newVal) :: newTable) key') := by
      intro item p' hitem
      rw [entryTrees_mergeTables newTable _ path p' h.2 hrest, entryTrees_insertEntry]
      funext key'
      rw [entryTrees]
      by_cases hkey : key' = key
      · subst hkey
        rw [if_pos rfl, Function.update_self, entryTrees_of_notMem h.1, Tree.layer_absent, hitem]
      · rw [if_neg hkey, Function.update_of_ne hkey]
    rw [mergeTables]
    cases hacc : accTable.lookup key with
    | none =>
      refine hinsert _ _ ?_
      rw [entryTrees_eq, hacc]
      simp
    | some accVal =>
      have haccTree : entryTrees accTable key = accVal.tree := by rw [entryTrees_eq, hacc]; rfl
      dsimp only
      split_ifs with hboth
      · refine hinsert _ _ ?_
        rw [tree_mergeItems newVal accVal _ p hnew, haccTree]
      · refine hinsert _ _ ?_
        rw [haccTree, layer_of_not_isTableLike (by simpa using hboth)]

end

end

/-! ### Merged documents are well formed -/

theorem wellFormed_insertEntry {item : Item} (h : (Item.table entries).WellFormed)
    (hitem : item.WellFormed) :
    (Item.table (insertEntry entries key item)).WellFormed := by
  refine ⟨nodup_insertEntry h.1 key item, ?_⟩
  have hentries := entriesWellFormed_iff.mp h.2
  rw [entriesWellFormed_iff]
  intro e he
  obtain he | rfl := mem_insertEntry he
  · exact hentries e he
  · exact hitem

theorem wellFormed_mergeInlineTables {source : ConfigSource} {text path : String} :
    ∀ (newTable accTable : List (String × Item)) (p : ConfigProvenance),
      (Item.inlineTable accTable).WellFormed → EntriesWellFormed newTable →
      (∀ e ∈ newTable, e.2.isValue) →
      (Item.inlineTable (mergeInlineTables source text path accTable newTable p).1).WellFormed
  | [], _, _, hacc, _, _ => hacc
  | (key, newVal) :: newTable, accTable, p, hacc, hnew, hvalues => by
    rw [List.forall_mem_cons] at hvalues
    refine wellFormed_mergeInlineTables newTable _ _ ?_ hnew.2 hvalues.2
    obtain ⟨hnodup, hentries⟩ :=
      @wellFormed_insertEntry accTable key newVal ⟨hacc.1, hacc.2.1⟩ hnew.1
    refine ⟨hnodup, hentries, ?_⟩
    intro e he
    obtain he | rfl := mem_insertEntry he
    · exact hacc.2.2 e he
    · exact hvalues.1

mutual

theorem wellFormed_mergeItems {source : ConfigSource} {text : String} :
    ∀ (new acc : Item) (path : String) (p : ConfigProvenance), acc.WellFormed → new.WellFormed →
      (mergeItems source text acc new path p).1.WellFormed
  | .table newTable, acc, path, p, hacc, hnew => by
    cases acc with
    | table accTable => exact wellFormed_mergeTables newTable accTable path p hacc hnew.2
    | inlineTable accTable =>
      exact wellFormed_mergeTables newTable accTable path p ⟨hacc.1, hacc.2.1⟩ hnew.2
    | scalar | array | arrayOfTables => exact hnew
  | .inlineTable newTable, acc, path, p, hacc, hnew => by
    cases acc with
    | table accTable => exact wellFormed_mergeTables newTable accTable path p hacc hnew.2.1
    | inlineTable accTable =>
      exact wellFormed_mergeInlineTables newTable accTable p hacc hnew.2.1 hnew.2.2
    | scalar | array | arrayOfTables => exact hnew
  | .scalar value, acc, _, _, _, hnew => by cases acc <;> exact hnew
  | .array elems, acc, _, _, _, hnew => by cases acc <;> exact hnew
  | .arrayOfTables tables, acc, _, _, _, hnew => by cases acc <;> exact hnew

theorem wellFormed_mergeTables {source : ConfigSource} {text : String} :
    ∀ (newTable accTable : List (String × Item)) (path : String) (p : ConfigProvenance),
      (Item.table accTable).WellFormed → EntriesWellFormed newTable →
      (Item.table (mergeTables source text accTable newTable path p).1).WellFormed
  | [], _, _, _, hacc, _ => hacc
  | (key, newVal) :: newTable, accTable, path, p, hacc, hnew => by
    rw [mergeTables]
    cases hlookup : accTable.lookup key with
    | none =>
      exact wellFormed_mergeTables newTable _ path _ (wellFormed_insertEntry hacc hnew.1) hnew.2
    | some accVal =>
      have haccVal : accVal.WellFormed :=
        entriesWellFormed_iff.mp hacc.2 _ (mem_of_lookup hlookup)
      dsimp only
      split_ifs
      · exact wellFormed_mergeTables newTable _ path _
          (wellFormed_insertEntry hacc (wellFormed_mergeItems newVal accVal _ p haccVal hnew.1))
          hnew.2
      · exact wellFormed_mergeTables newTable _ path _ (wellFormed_insertEntry hacc hnew.1) hnew.2

end

/-- A document over another, with the provenance of the lower one brought up to date. -/
def mergeDocument (source : ConfigSource) (text : String) (acc doc : Document)
    (p : ConfigProvenance) : Document × ConfigProvenance :=
  (⟨(mergeTables source text acc.entries doc.entries "" p).1,
      wellFormed_mergeTables _ _ _ _ acc.wellFormed doc.wellFormed.2⟩,
    (mergeTables source text acc.entries doc.entries "" p).2)

theorem tree_mergeDocument (source : ConfigSource) (text : String) (acc doc : Document)
    (p : ConfigProvenance) :
    (mergeDocument source text acc doc p).1.tree =
      acc.tree.layer Spelling.deep Spelling.join doc.tree :=
  tree_mergeItems (.table doc.entries) (.table acc.entries) "" p doc.wellFormed

end Shilpo.Config
