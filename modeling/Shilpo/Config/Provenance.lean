import Shilpo.Config.Merge
import Shilpo.Theory.Runs

/-!
# Where the values of a merged document come from

The provenance of a merged document, against the paths of what it says. Merging replaces
items of the document below (`replacements`); each replacement forgets what is noted below
its path and notes what it brings, so that what is noted of a path in the end is for the
last replacement that touches it to say (`source_replaceAll`).

A path is below another by its text, and that of a key that is empty or has a bracket or
a quote in it can be mistaken for another's. **`merge_meets_reference`** says when the
merged document is the reference merge, with each of its paths traced to where it is from:
exactly if no inline table hides anything of another (`InlineCovered`) and no path is
mistaken (`PathsApart`).
-/

namespace Shilpo.Config

open Theory

/-! ### Paths -/

/-- The paths of all scalars and arrays of a tree that is itself at a path. -/
def treePaths {ι : Type} : Tree String ι Scalar → String → Set String
  | .absent, _ => ∅
  | .atom _, path => {path}
  | .list ts, path => {path} ∪ ⋃ n, treePaths (ts n) (formatIndex path n)
  | .node _ f, path => ⋃ k, treePaths (f k) (formatKey path k)

/-- The paths of all scalars and arrays of a document's value. -/
def valuePaths (value : Value) : Set String := treePaths value ""

theorem treePaths_forget (t : SpelledTree) (path : String) :
    treePaths t.forget path = treePaths t path := by
  induction t generalizing path with
  | absent | atom => rfl
  | list ts ih => simp only [Tree.forget_list, treePaths, ih]
  | node i f ih => simp only [Tree.forget_node, treePaths, ih]

theorem treePaths_subset_merge (base overlay : Value) (path : String) :
    treePaths overlay path ⊆ treePaths (base.merge overlay) path := by
  induction overlay generalizing base path with
  | absent => exact Set.empty_subset _
  | atom a => cases base <;> exact subset_rfl
  | list ts => cases base <;> exact subset_rfl
  | node j g ih =>
    cases base with
    | absent | atom | list => exact subset_rfl
    | node i f =>
      simp only [Tree.merge, Tree.node_layer_node, if_true, treePaths]
      exact Set.iUnion_mono fun k => ih k (f k) _

theorem treePaths_merge_subset (base overlay : Value) (path : String) :
    treePaths (base.merge overlay) path ⊆ treePaths base path ∪ treePaths overlay path := by
  induction overlay generalizing base path with
  | absent => simp [Tree.merge]
  | atom a => cases base <;> exact Set.subset_union_right
  | list ts => cases base <;> exact Set.subset_union_right
  | node j g ih =>
    cases base with
    | absent | atom | list => exact Set.subset_union_right
    | node i f =>
      simp only [Tree.merge, Tree.node_layer_node, if_true, treePaths, ← Set.iUnion_union_distrib]
      exact Set.iUnion_mono fun k => ih k (f k) _

/-- The paths of a table are those of its entries. -/
theorem exists_mem_entryTrees_cons {k path key : String} {v : Item}
    {entries : List (String × Item)} (hk : k ∉ entries.map Prod.fst) :
    (∃ k', key ∈ treePaths (entryTrees ((k, v) :: entries) k') (formatKey path k')) ↔
      key ∈ treePaths v.tree (formatKey path k) ∨
        ∃ k', key ∈ treePaths (entryTrees entries k') (formatKey path k') := by
  constructor
  · rintro ⟨k', hk'⟩
    rw [entryTrees] at hk'
    split_ifs at hk' with heq
    · exact .inl (heq ▸ hk')
    · exact .inr ⟨k', hk'⟩
  · rintro (hmem | ⟨k', hk'⟩)
    · exact ⟨k, by simpa [entryTrees] using hmem⟩
    · refine ⟨k', ?_⟩
      rw [entryTrees, if_neg]
      · exact hk'
      · rintro rfl
        rw [entryTrees_of_notMem hk] at hk'
        exact hk'

/-! ### Notes -/

namespace ConfigProvenance

/-- What is noted of a path itself. -/
def lookup (p : ConfigProvenance) (path : String) : Option SourceLocation := p.map.lookup path

variable (p : ConfigProvenance)

theorem lookup_set (path key : String) (loc : SourceLocation) :
    (p.set path loc).lookup key = if key = path then some loc else p.lookup key := by
  unfold lookup set
  split_ifs with h
  · rw [h, AList.lookup_insert]
  · exact AList.lookup_insert_ne h

theorem lookup_setNonempty (path key : String) (loc : SourceLocation) :
    (p.setNonempty path loc).lookup key =
      if key ≠ "" ∧ key = path then some loc else p.lookup key := by
  unfold setNonempty
  split_ifs with hpath h h
  · exact absurd (h.2.trans hpath) h.1
  · rfl
  · rw [lookup_set, if_pos h.2]
  · rw [lookup_set, if_neg]
    rintro rfl
    exact h ⟨hpath, rfl⟩

theorem lookup_removePrefix (path key : String) :
    (p.removePrefix path).lookup key = if Below path key then none else p.lookup key := by
  refine Option.ext fun loc => ?_
  unfold lookup removePrefix
  rw [← Option.mem_def, AList.mem_lookup_iff, List.mem_filter]
  split_ifs with h
  · simp [h]
  · simp [h, ← Option.mem_def, AList.mem_lookup_iff]

end ConfigProvenance

section Record

open Classical

variable {loc : SourceLocation}

mutual

/-- What is noted is the paths of what is recorded, but for the root's. -/
theorem lookup_recordProvenanceTree : ∀ (item : Item) (path : String) (p : ConfigProvenance)
    (key : String), item.WellFormed →
    (recordProvenanceTree loc item path p).lookup key =
      if key ≠ "" ∧ key ∈ treePaths item.tree path then some loc else p.lookup key
  | .scalar value, path, p, key, _ => by
    simp only [recordProvenanceTree, p.lookup_setNonempty, Item.tree, treePaths,
      Set.mem_singleton_iff]
  | .array elems, path, p, key, h => by
    rw [recordProvenanceTree, lookup_recordElems elems path 0 _ key h, p.lookup_setNonempty]
    simp only [Item.tree, treePaths, Set.mem_union, Set.mem_singleton_iff, Set.mem_iUnion,
      Nat.zero_add]
    split_ifs <;> tauto
  | .inlineTable entries, path, p, key, h => by
    rw [recordProvenanceTree, lookup_recordEntries entries path p key h.1 h.2.1]
    simp only [Item.tree, treePaths, Set.mem_iUnion]
  | .table entries, path, p, key, h => by
    rw [recordProvenanceTree, lookup_recordEntries entries path p key h.1 h.2]
    simp only [Item.tree, treePaths, Set.mem_iUnion]
  | .arrayOfTables tables, path, p, key, h => by
    rw [recordProvenanceTree, lookup_recordTables tables path 0 _ key h, p.lookup_setNonempty]
    simp only [Item.tree, treePaths, Set.mem_union, Set.mem_singleton_iff, Set.mem_iUnion,
      Nat.zero_add]
    split_ifs <;> tauto

theorem lookup_recordEntries : ∀ (entries : List (String × Item)) (path : String)
    (p : ConfigProvenance) (key : String), (entries.map Prod.fst).Nodup →
    EntriesWellFormed entries →
    (recordEntries loc entries path p).lookup key =
      if key ≠ "" ∧ ∃ k, key ∈ treePaths (entryTrees entries k) (formatKey path k) then some loc
      else p.lookup key
  | [], _, _, _, _, _ => by simp [recordEntries, entryTrees, treePaths]
  | (k, v) :: entries, path, p, key, hnodup, h => by
    rw [List.map_cons, List.nodup_cons] at hnodup
    rw [recordEntries, lookup_recordEntries entries path _ key hnodup.2 h.2,
      lookup_recordProvenanceTree v _ p key h.1, exists_mem_entryTrees_cons hnodup.1]
    split_ifs <;> tauto

theorem lookup_recordElems : ∀ (elems : List Item) (path : String) (idx : ℕ)
    (p : ConfigProvenance) (key : String), ValuesWellFormed elems →
    (recordElems loc elems path idx p).lookup key =
      if key ≠ "" ∧ ∃ n, key ∈ treePaths (elemTrees elems n) (formatIndex path (idx + n)) then
        some loc
      else p.lookup key
  | [], _, _, _, _, _ => by simp [recordElems, elemTrees, treePaths]
  | elem :: elems, path, idx, p, key, h => by
    have hpaths : (∃ n, key ∈ treePaths (elemTrees (elem :: elems) n) (formatIndex path (idx + n))) ↔
        key ∈ treePaths elem.tree (formatIndex path idx) ∨
          ∃ n, key ∈ treePaths (elemTrees elems n) (formatIndex path (idx + 1 + n)) := by
      rw [← Nat.or_exists_add_one]
      simp only [elemTrees, Nat.add_zero, Nat.add_right_comm idx 1, Nat.add_assoc]
    rw [recordElems, lookup_recordElems elems path (idx + 1) _ key h.2,
      lookup_recordProvenanceTree elem _ p key h.1.2, hpaths]
    split_ifs <;> tauto

theorem lookup_recordTables : ∀ (tables : List (List (String × Item))) (path : String) (idx : ℕ)
    (p : ConfigProvenance) (key : String), TablesWellFormed tables →
    (recordTables loc tables path idx p).lookup key =
      if key ≠ "" ∧ ∃ n, key ∈ treePaths (tableTrees tables n) (formatIndex path (idx + n)) then
        some loc
      else p.lookup key
  | [], _, _, _, _, _ => by simp [recordTables, tableTrees, treePaths]
  | entries :: tables, path, idx, p, key, h => by
    have hpaths : (∃ n, key ∈ treePaths (tableTrees (entries :: tables) n)
          (formatIndex path (idx + n))) ↔
        (∃ k, key ∈ treePaths (entryTrees entries k) (formatKey (formatIndex path idx) k)) ∨
          ∃ n, key ∈ treePaths (tableTrees tables n) (formatIndex path (idx + 1 + n)) := by
      rw [← Nat.or_exists_add_one]
      simp only [tableTrees, treePaths, Set.mem_iUnion, Nat.add_zero, Nat.add_right_comm idx 1,
        Nat.add_assoc]
    rw [recordTables, lookup_recordTables tables path (idx + 1) _ key h.2,
      lookup_recordEntries entries _ p key h.1.1 h.1.2, hpaths]
    split_ifs <;> tauto

end

end Record

/-! ### Replacements -/

/-- An item that takes the place of what is at a path. The key is what the text of its document
is searched for. -/
structure Replacement where
  path : String
  item : Item
  key : Option String

namespace Replacement

/-- The place noted for it. -/
def location (r : Replacement) (source : ConfigSource) (text : String) : SourceLocation :=
  .at source text (r.key.bind (keyOffset text))

/-- What it does to the notes. -/
def note (source : ConfigSource) (text : String) (p : ConfigProvenance) (r : Replacement) :
    ConfigProvenance :=
  recordProvenanceTree (r.location source text) r.item r.path (p.removePrefix r.path)

/-- It notes a path. -/
def Notes (r : Replacement) (key : String) : Prop := key ≠ "" ∧ key ∈ treePaths r.item.tree r.path

/-- It forgets a path. -/
def Forgets (r : Replacement) (key : String) : Prop := Below r.path key = true

end Replacement

mutual

/-- What an item replaces in another, in order: whatever is not a table, and what is in an inline
table over an inline one. -/
def itemReplacements : Item → Item → String → List Replacement
  | .inlineTable accTable, .table newTable, path => tableReplacements accTable newTable path
  | .table accTable, .inlineTable newTable, path => tableReplacements accTable newTable path
  | .table accTable, .table newTable, path => tableReplacements accTable newTable path
  | .inlineTable _, .inlineTable newTable, path =>
    newTable.map fun (key, newVal) => ⟨formatKey path key, newVal, none⟩
  | _, newItem, path => [⟨path, newItem, none⟩]

/-- What the entries of a table replace in those of another. -/
def tableReplacements : List (String × Item) → List (String × Item) → String → List Replacement
  | _, [], _ => []
  | accTable, (key, newVal) :: newTable, path =>
    (match accTable.lookup key with
      | some accVal =>
        if accVal.isTableLike && newVal.isTableLike then
          itemReplacements accVal newVal (formatKey path key)
        else [⟨formatKey path key, newVal, some key⟩]
      | none => [⟨formatKey path key, newVal, some key⟩]) ++
      tableReplacements accTable newTable path

end

/-- What a document replaces in another. -/
def replacements (base overlay : Document) : List Replacement :=
  tableReplacements base.entries overlay.entries ""

section

variable {source : ConfigSource} {text : String}

theorem snd_mergeInlineTables {path : String} :
    ∀ (newTable accTable : List (String × Item)) (p : ConfigProvenance),
      (mergeInlineTables source text path accTable newTable p).2 =
        (newTable.map fun e => Replacement.mk (formatKey path e.1) e.2 none).foldl
          (Replacement.note source text) p
  | [], _, _ => rfl
  | (key, newVal) :: newTable, accTable, p => by
    rw [mergeInlineTables, snd_mergeInlineTables newTable]
    rfl

mutual

/-- Merging makes the replacements. -/
theorem snd_mergeItems : ∀ (new acc : Item) (path : String) (p : ConfigProvenance),
    new.WellFormed →
    (mergeItems source text acc new path p).2 =
      (itemReplacements acc new path).foldl (Replacement.note source text) p
  | .table newTable, acc, path, p, h => by
    cases acc with
    | table accTable | inlineTable accTable =>
      exact snd_mergeTables newTable accTable accTable path p h.1 h.2 fun _ _ => rfl
    | scalar | array | arrayOfTables => rfl
  | .inlineTable newTable, acc, path, p, h => by
    cases acc with
    | table accTable => exact snd_mergeTables newTable accTable accTable path p h.1 h.2.1 fun _ _ => rfl
    | inlineTable accTable => exact snd_mergeInlineTables newTable accTable p
    | scalar | array | arrayOfTables => rfl
  | .scalar value, acc, _, _, _ => by cases acc <;> rfl
  | .array elems, acc, _, _, _ => by cases acc <;> rfl
  | .arrayOfTables tables, acc, _, _, _ => by cases acc <;> rfl

theorem snd_mergeTables : ∀ (newTable accTable orig : List (String × Item)) (path : String)
    (p : ConfigProvenance), (newTable.map Prod.fst).Nodup → EntriesWellFormed newTable →
    (∀ key ∈ newTable.map Prod.fst, accTable.lookup key = orig.lookup key) →
    (mergeTables source text accTable newTable path p).2 =
      (tableReplacements orig newTable path).foldl (Replacement.note source text) p
  | [], _, _, _, _, _, _, _ => rfl
  | (key, newVal) :: newTable, accTable, orig, path, p, hnodup, h, horig => by
    rw [List.map_cons, List.nodup_cons] at hnodup
    rw [List.map_cons, List.forall_mem_cons] at horig
    -- the keys that are still to come are as they were
    have hrest : ∀ item, ∀ key' ∈ newTable.map Prod.fst,
        (insertEntry accTable key item).lookup key' = orig.lookup key' := by
      intro item key' hkey'
      rw [lookup_insertEntry, if_neg]
      · exact horig.2 key' hkey'
      · rintro rfl
        exact hnodup.1 hkey'
    rw [mergeTables, tableReplacements, List.foldl_append, ← horig.1]
    cases accTable.lookup key with
    | none => exact snd_mergeTables newTable _ orig path _ hnodup.2 h.2 (hrest _)
    | some accVal =>
      dsimp only
      split_ifs
      · rw [← snd_mergeItems newVal accVal _ p h.1]
        exact snd_mergeTables newTable _ orig path _ hnodup.2 h.2 (hrest _)
      · exact snd_mergeTables newTable _ orig path _ hnodup.2 h.2 (hrest _)

end

end

mutual

theorem wellFormed_of_mem_itemReplacements : ∀ (new acc : Item) (path : String),
    new.WellFormed → ∀ r ∈ itemReplacements acc new path, r.item.WellFormed
  | .table newTable, acc, path, h => by
    cases acc with
    | table accTable | inlineTable accTable =>
      exact wellFormed_of_mem_tableReplacements newTable accTable path h.2
    | scalar | array | arrayOfTables => simpa [itemReplacements] using h
  | .inlineTable newTable, acc, path, h => by
    cases acc with
    | table accTable => exact wellFormed_of_mem_tableReplacements newTable accTable path h.2.1
    | inlineTable accTable =>
      have hentries := entriesWellFormed_iff.mp h.2.1
      simp only [itemReplacements, List.mem_map]
      rintro _ ⟨e, he, rfl⟩
      exact hentries e he
    | scalar | array | arrayOfTables => simpa [itemReplacements] using h
  | .scalar value, acc, _, h => by cases acc <;> simpa [itemReplacements] using h
  | .array elems, acc, _, h => by cases acc <;> simpa [itemReplacements] using h
  | .arrayOfTables tables, acc, _, h => by cases acc <;> simpa [itemReplacements] using h

theorem wellFormed_of_mem_tableReplacements : ∀ (newTable accTable : List (String × Item))
    (path : String), EntriesWellFormed newTable →
    ∀ r ∈ tableReplacements accTable newTable path, r.item.WellFormed
  | [], _, _, _, _, hr => nomatch hr
  | (key, newVal) :: newTable, accTable, path, h, r, hr => by
    rw [tableReplacements, List.mem_append] at hr
    obtain hr | hr := hr
    · cases hlookup : accTable.lookup key with
      | none =>
        rw [hlookup, List.mem_singleton] at hr
        exact hr ▸ h.1
      | some accVal =>
        rw [hlookup] at hr
        dsimp only at hr
        split_ifs at hr
        · exact wellFormed_of_mem_itemReplacements newVal accVal _ h.1 r hr
        · rw [List.mem_singleton] at hr
          exact hr ▸ h.1
    · exact wellFormed_of_mem_tableReplacements newTable accTable path h.2 r hr

end

mutual

/-- The replacements note the paths of what is merged in. -/
theorem exists_notes_item : ∀ (new acc : Item) (path key : String), new.WellFormed →
    ((∃ r ∈ itemReplacements acc new path, r.Notes key) ↔
      key ≠ "" ∧ key ∈ treePaths new.tree path)
  | .table newTable, acc, path, key, h => by
    cases acc with
    | table accTable | inlineTable accTable =>
      simp only [itemReplacements, exists_notes_table newTable accTable path key h.1 h.2,
        Item.tree, treePaths, Set.mem_iUnion]
    | scalar | array | arrayOfTables => simp [itemReplacements, Replacement.Notes]
  | .inlineTable newTable, acc, path, key, h => by
    cases acc with
    | table accTable =>
      simp only [itemReplacements, exists_notes_table newTable accTable path key h.1 h.2.1,
        Item.tree, treePaths, Set.mem_iUnion]
    | inlineTable accTable =>
      simp only [itemReplacements, List.mem_map, Item.tree, treePaths, Set.mem_iUnion,
        Replacement.Notes]
      constructor
      · rintro ⟨_, ⟨e, he, rfl⟩, hkey, hmem⟩
        refine ⟨hkey, e.1, ?_⟩
        rw [entryTrees_eq, lookup_of_mem h.1 he]
        exact hmem
      · rintro ⟨hkey, k, hmem⟩
        rw [entryTrees_eq] at hmem
        cases hlookup : newTable.lookup k with
        | none => simp [hlookup, treePaths] at hmem
        | some v =>
          rw [hlookup] at hmem
          exact ⟨_, ⟨(k, v), mem_of_lookup hlookup, rfl⟩, hkey, hmem⟩
    | scalar | array | arrayOfTables => simp [itemReplacements, Replacement.Notes]
  | .scalar value, acc, _, _, _ => by cases acc <;> simp [itemReplacements, Replacement.Notes]
  | .array elems, acc, _, _, _ => by cases acc <;> simp [itemReplacements, Replacement.Notes]
  | .arrayOfTables tables, acc, _, _, _ => by
    cases acc <;> simp [itemReplacements, Replacement.Notes]

theorem exists_notes_table : ∀ (newTable accTable : List (String × Item)) (path key : String),
    (newTable.map Prod.fst).Nodup → EntriesWellFormed newTable →
    ((∃ r ∈ tableReplacements accTable newTable path, r.Notes key) ↔
      key ≠ "" ∧ ∃ k, key ∈ treePaths (entryTrees newTable k) (formatKey path k))
  | [], _, _, _, _, _ => by simp [tableReplacements, entryTrees, treePaths]
  | (k, newVal) :: newTable, accTable, path, key, hnodup, h => by
    rw [List.map_cons, List.nodup_cons] at hnodup
    have hfirst : (∃ r ∈ (match accTable.lookup k with
          | some accVal =>
            if accVal.isTableLike && newVal.isTableLike then
              itemReplacements accVal newVal (formatKey path k)
            else [⟨formatKey path k, newVal, some k⟩]
          | none => [⟨formatKey path k, newVal, some k⟩]), Replacement.Notes r key) ↔
        key ≠ "" ∧ key ∈ treePaths newVal.tree (formatKey path k) := by
      cases accTable.lookup k with
      | none => simp [Replacement.Notes]
      | some accVal =>
        dsimp only
        split_ifs
        · exact exists_notes_item newVal accVal _ key h.1
        · simp [Replacement.Notes]
    simp only [tableReplacements, List.mem_append, or_and_right, exists_or]
    rw [exists_notes_table newTable accTable path key hnodup.2 h.2, hfirst,
      exists_mem_entryTrees_cons hnodup.1]
    tauto

end

/-! ### What is noted in the end -/

/-- A path is noted by one of the replacements, and not forgotten by a later one. -/
def Noted (rs : List Replacement) (key : String) : Prop :=
  ∃ pre r post, rs = pre ++ r :: post ∧ r.Notes key ∧ ∀ r' ∈ post, ¬ r'.Forgets key

/-- A path is forgotten by one of the replacements. -/
def Forgotten (rs : List Replacement) (key : String) : Prop := ∃ r ∈ rs, r.Forgets key

variable {key : String} {rs : List Replacement}

theorem noted_snoc {r : Replacement} :
    Noted (rs ++ [r]) key ↔ r.Notes key ∨ ¬ r.Forgets key ∧ Noted rs key := by
  constructor
  · rintro ⟨pre, r', post, hrs, hnotes, hpost⟩
    obtain ⟨rfl, rfl, rfl⟩ | ⟨post', rfl, rfl⟩ := snoc_eq_append_cons hrs
    · exact .inl hnotes
    · refine .inr ⟨hpost r (by simp), pre, r', post', rfl, hnotes, ?_⟩
      exact fun r'' hr'' => hpost r'' (List.mem_append_left _ hr'')
  · rintro (hnotes | ⟨hforgets, pre, r', post, rfl, hnotes, hpost⟩)
    · exact ⟨rs, r, [], rfl, hnotes, fun _ h => nomatch h⟩
    · refine ⟨pre, r', post ++ [r], by simp, hnotes, ?_⟩
      intro r'' hr''
      rw [List.mem_append, List.mem_singleton] at hr''
      obtain hr'' | rfl := hr''
      · exact hpost r'' hr''
      · exact hforgets

theorem Noted.exists_notes (h : Noted rs key) :
    ∃ r ∈ rs, r.Notes key := by
  obtain ⟨pre, r, post, rfl, hnotes, -⟩ := h
  exact ⟨r, by simp, hnotes⟩

/-- What is noted by a replacement is noted in the end, or forgotten. -/
theorem noted_or_forgotten (h : ∃ r ∈ rs, r.Notes key) :
    Noted rs key ∨ Forgotten rs key := by
  obtain ⟨r, hr, hnotes⟩ := h
  obtain ⟨pre, post, rfl⟩ := List.append_of_mem hr
  by_cases hpost : ∃ r' ∈ post, r'.Forgets key
  · obtain ⟨r', hr', hforgets⟩ := hpost
    exact .inr ⟨r', by simp [hr'], hforgets⟩
  · exact .inl ⟨pre, r, post, rfl, hnotes, fun r' hr' hf => hpost ⟨r', hr', hf⟩⟩

@[simp] theorem SourceLocation.source_at (source : ConfigSource) (text : String)
    (offset : Option ℕ) : (SourceLocation.at source text offset).source = source := by
  cases offset <;> rfl

section

open Classical

theorem lookup_note {source : ConfigSource} {text : String} {r : Replacement}
    (h : r.item.WellFormed) (p : ConfigProvenance) (key : String) :
    (Replacement.note source text p r).lookup key =
      if r.Notes key then some (r.location source text)
      else if r.Forgets key then none
      else p.lookup key := by
  unfold Replacement.note
  rw [lookup_recordProvenanceTree _ _ _ _ h, p.lookup_removePrefix]
  simp only [Replacement.Notes, Replacement.Forgets]
  congr

/-- **The last replacement decides.** -/
theorem source_replaceAll {source : ConfigSource} {text : String} {rs : List Replacement}
    (hrs : ∀ r ∈ rs, r.item.WellFormed) (p : ConfigProvenance) (key : String) :
    ((rs.foldl (Replacement.note source text) p).lookup key).map SourceLocation.source =
      if Noted rs key then some source
      else if Forgotten rs key then none
      else (p.lookup key).map SourceLocation.source := by
  induction rs using List.reverseRecOn with
  | nil => simp [Noted, Forgotten]
  | append_singleton rs r ih =>
    have hforgotten : Forgotten (rs ++ [r]) key ↔ Forgotten rs key ∨ r.Forgets key := by
      simp [Forgotten, or_and_right, exists_or]
    rw [List.foldl_append, List.foldl_cons, List.foldl_nil, lookup_note (hrs r (by simp)),
      noted_snoc, hforgotten]
    by_cases hnotes : r.Notes key
    · rw [if_pos hnotes, if_pos (.inl hnotes)]
      simp [Replacement.location]
    · rw [if_neg hnotes]
      by_cases hforgets : r.Forgets key
      · rw [if_pos hforgets, if_neg (by tauto), if_pos (.inr hforgets)]
        rfl
      · rw [if_neg hforgets, ih fun r' hr' => hrs r' (List.mem_append_left _ hr')]
        simp [hnotes, hforgets]

end

/-! ### Main results -/

/-- No inline table hides anything of another it is laid over: what is at a key of both is all
there if the upper one takes its place. -/
def InlineCovered (base overlay : Document) : Prop :=
  Tree.Agrees Spelling.deep base.tree overlay.tree

/-- No path is mistaken for another when items are replaced: what the overlay brings stays noted,
nothing that is kept is forgotten, and what is gone is forgotten. -/
structure PathsApart (base overlay : Document) : Prop where
  brought : ∀ key ∈ valuePaths overlay.value, Noted (replacements base overlay) key
  kept : ∀ key ∈ valuePaths (referenceMerge base.value overlay.value),
    key ∉ valuePaths overlay.value → key ≠ "" ∧ ¬ Forgotten (replacements base overlay) key
  gone : ∀ key ∈ valuePaths base.value,
    key ∉ valuePaths (referenceMerge base.value overlay.value) →
      key = "" ∨ Forgotten (replacements base overlay) key

/-- The paths noted are those of the value, each with the overlay's source if the overlay has it,
and with the base's otherwise. -/
def Traced (p : ConfigProvenance) (value overlay : Value) (baseSource source : ConfigSource) :
    Prop :=
  ∀ key s, (p.lookup key).map SourceLocation.source = some s ↔
    key ∈ valuePaths value ∧
      (key ∈ valuePaths overlay ∧ s = source ∨ key ∉ valuePaths overlay ∧ s = baseSource)

/-- A document over another whose values are noted to come from `loc`. -/
def mergeOver (source : ConfigSource) (text : String) (loc : SourceLocation)
    (base overlay : Document) : Document × ConfigProvenance :=
  mergeDocument source text base overlay
    (recordProvenanceTree loc (.table base.entries) "" .new)

section

variable (source : ConfigSource) (text : String) (loc : SourceLocation) (base overlay : Document)

theorem value_mergeOver :
    (mergeOver source text loc base overlay).1.value = referenceMerge base.value overlay.value ↔
      InlineCovered base overlay := by
  rw [mergeOver, Document.value, tree_mergeDocument]
  exact Tree.forget_layer_eq_iff

theorem mem_valuePaths_iff {key : String} :
    key ∈ valuePaths base.value ↔
      key ∈ treePaths (Item.table base.entries).tree "" := by
  rw [valuePaths, Document.value, treePaths_forget]
  rfl

theorem traced_mergeOver :
    Traced (mergeOver source text loc base overlay).2
        (referenceMerge base.value overlay.value) overlay.value loc.source source ↔
      PathsApart base overlay := by
  classical
  have hwf : ∀ r ∈ replacements base overlay, r.item.WellFormed :=
    wellFormed_of_mem_tableReplacements overlay.entries base.entries "" overlay.wellFormed.2
  have hlookup : ∀ key, ((mergeOver source text loc base overlay).2.lookup key).map
        SourceLocation.source =
      if Noted (replacements base overlay) key then some source
      else if Forgotten (replacements base overlay) key then none
      else if key ≠ "" ∧ key ∈ valuePaths base.value then some loc.source else none := by
    intro key
    have hsnd : (mergeOver source text loc base overlay).2 =
        (replacements base overlay).foldl (Replacement.note source text)
          (recordProvenanceTree loc (.table base.entries) "" .new) :=
      snd_mergeTables overlay.entries base.entries base.entries "" _ overlay.wellFormed.1
        overlay.wellFormed.2 fun _ _ => rfl
    rw [hsnd, source_replaceAll hwf, lookup_recordProvenanceTree _ _ _ _ base.wellFormed,
      ← mem_valuePaths_iff]
    split_ifs <;> rfl
  have hnotes : ∀ key, (∃ r ∈ replacements base overlay, r.Notes key) ↔
      key ≠ "" ∧ key ∈ valuePaths overlay.value := by
    intro key
    rw [mem_valuePaths_iff]
    exact exists_notes_item (.table overlay.entries) (.table base.entries) "" key
      overlay.wellFormed
  have hbrought : valuePaths overlay.value ⊆
      valuePaths (referenceMerge base.value overlay.value) :=
    treePaths_subset_merge _ _ _
  have hmerged : valuePaths (referenceMerge base.value overlay.value) ⊆
      valuePaths base.value ∪ valuePaths overlay.value :=
    treePaths_merge_subset _ _ _
  constructor
  · intro h
    refine ⟨?_, ?_, ?_⟩
    · intro key hkey
      have hsource := (h key source).mpr ⟨hbrought hkey, .inl ⟨hkey, rfl⟩⟩
      rw [hlookup] at hsource
      by_contra hnoted
      rw [if_neg hnoted] at hsource
      split_ifs at hsource with hforgotten hbase
      -- a path the overlay has is noted by a replacement
      obtain hn | hf := noted_or_forgotten ((hnotes key).mpr ⟨hbase.1, hkey⟩)
      · exact hnoted hn
      · exact hforgotten hf
    · intro key hkey hover
      have hsource := (h key loc.source).mpr ⟨hkey, .inr ⟨hover, rfl⟩⟩
      have hnoted : ¬ Noted (replacements base overlay) key :=
        fun hn => hover ((hnotes key).mp hn.exists_notes).2
      rw [hlookup, if_neg hnoted] at hsource
      split_ifs at hsource with hforgotten hbase
      exact ⟨hbase.1, hforgotten⟩
    · intro key hkey hmissing
      by_contra hcon
      rw [not_or] at hcon
      have hnoted : ¬ Noted (replacements base overlay) key :=
        fun hn => hmissing (hbrought ((hnotes key).mp hn.exists_notes).2)
      have hsource := hlookup key
      rw [if_neg hnoted, if_neg hcon.2, if_pos ⟨hcon.1, hkey⟩] at hsource
      exact hmissing ((h key loc.source).mp hsource).1
  · intro h key s
    rw [hlookup]
    by_cases hover : key ∈ valuePaths overlay.value
    · rw [if_pos (h.brought key hover)]
      have hkey := hbrought hover
      simp only [Option.some.injEq, hkey, hover, true_and, not_true_eq_false, false_and, or_false]
      exact eq_comm
    · have hnoted : ¬ Noted (replacements base overlay) key :=
        fun hn => hover ((hnotes key).mp hn.exists_notes).2
      rw [if_neg hnoted]
      by_cases hkey : key ∈ valuePaths (referenceMerge base.value overlay.value)
      · obtain ⟨hne, hforgotten⟩ := h.kept key hkey hover
        have hbase := (hmerged hkey).resolve_right hover
        rw [if_neg hforgotten, if_pos ⟨hne, hbase⟩]
        simp only [Option.some.injEq, hkey, hover, true_and, not_false_eq_true, false_and,
          false_or]
        exact eq_comm
      · simp only [hkey, false_and, iff_false]
        split_ifs with hforgotten hbase
        · simp
        · exact absurd (h.gone key hbase.2 hkey) (by tauto)
        · simp

end

/-- The document `v = { a = { key = number } }`. -/
def nestedInline (key : String) (number : ℤ) : Document :=
  ⟨[("v", .inlineTable [("a", .inlineTable [(key, .scalar (.integer number))])])],
    by simp [Item.WellFormed, EntriesWellFormed, Item.isValue]⟩

end Shilpo.Config
