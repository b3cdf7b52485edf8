import Shilpo.Config.Provenance
import Shilpo.Theory.Flattening

/-!
# Places of a document

A place of a document is found by keys of tables and indices of arrays, and `format_key` and the
index in brackets write this down as a text. In `"a[0]"` and `a[0]` the texts of two places are one,
for keys with a bracket or with quotes are written as if they had none. Texts name places, and
`remove_prefix` removes what is below a place and no more, for a set of keys of which no key
written down goes on as another does with a dot or a bracket (`namesPlaces_iff`).
-/

namespace Shilpo.Config

open Theory

/-! ### Texts of paths -/

/-- What comes after a path in the path of something below. -/
def Boundary (rest : List Char) : Prop :=
  rest = [] ∨ rest.head? = some '.' ∨ rest.head? = some '['

theorem below_iff {path key : String} :
    Below path key = true ↔ ∃ rest, key.toList = path.toList ++ rest ∧ Boundary rest := by
  simp only [Below, Bool.or_eq_true, decide_eq_true_eq, List.isPrefixOf_iff_prefix,
    String.toList_append]
  constructor
  · rintro ((rfl | ⟨rest, h⟩) | ⟨rest, h⟩)
    · exact ⟨[], by simp, .inl rfl⟩
    · exact ⟨'.' :: rest, by simpa using h.symm, .inr (.inl rfl)⟩
    · exact ⟨'[' :: rest, by simpa using h.symm, .inr (.inr rfl)⟩
  · rintro ⟨rest, h, rfl | hdot | hbracket⟩
    · exact .inl (.inl (String.toList_injective (by simpa using h)))
    · obtain ⟨rest, rfl⟩ := List.head?_eq_some_iff.mp hdot
      exact .inl (.inr ⟨rest, by simpa using h.symm⟩)
    · obtain ⟨rest, rfl⟩ := List.head?_eq_some_iff.mp hbracket
      exact .inr ⟨rest, by simpa using h.symm⟩

theorem below_refl (path : String) : Below path path = true := by simp [Below]

/-- The text of a key in a path. -/
def keyText (key : String) : List Char :=
  if key.toList.any (· ∈ ['-', '.', ' ', '"']) then '"' :: key.toList ++ ['"'] else key.toList

theorem toList_formatKey (path key : String) :
    (formatKey path key).toList =
      if path = "" then keyText key else path.toList ++ '.' :: keyText key := by
  unfold formatKey keyText
  split_ifs <;> simp

/-! ### Places -/

/-- A key of a table or an index of an array. -/
inductive PathStep where
  | key (key : String)
  | index (idx : ℕ)
  deriving DecidableEq

/-- What a key or an index stands for in an item. -/
def Item.descend : PathStep → Item → Option Item
  | .key k, .table entries => entries.lookup k
  | .key k, .inlineTable entries => entries.lookup k
  | .index idx, .array elems => elems[idx]?
  | .index idx, .arrayOfTables tables => tables[idx]?.map .table
  | _, _ => none

/-- What is at a place of an item. -/
def Item.reach : List PathStep → Item → Option Item
  | [], item => some item
  | step :: steps, item => (item.descend step).bind (Item.reach steps)

/-- A place below the root of a document, which is a table. -/
structure ConfigPath where
  key : String
  steps : List PathStep
  deriving DecidableEq

/-- The path of a key or an index. -/
def stepPath (path : String) : PathStep → String
  | .key k => formatKey path k
  | .index idx => formatIndex path idx

/-- The text of a place below a path. -/
def encodeFrom : String → List PathStep → String
  | path, [] => path
  | path, step :: steps => encodeFrom (stepPath path step) steps

namespace ConfigPath

def full (p : ConfigPath) : List PathStep := .key p.key :: p.steps

def encode (p : ConfigPath) : String := encodeFrom "" p.full

/-- All keys of the place are of a set, and none is empty. -/
def Uses (p : ConfigPath) (keys : Set String) : Prop :=
  ∀ k, .key k ∈ p.full → k ≠ "" ∧ k ∈ keys

end ConfigPath

/-- A scalar or an array is at the place. -/
def Document.Records (doc : Document) (p : ConfigPath) : Prop :=
  ∃ item, (Item.table doc.entries).reach p.full = some item ∧ item.isTableLike = false

/-- No key written down is another, or goes on after it with a dot or a bracket. -/
def KeysApart (keys : Set String) : Prop :=
  ∀ k k', k ≠ "" → k ∈ keys → k' ≠ "" → k' ∈ keys →
    Below (formatKey "" k) (formatKey "" k') = true → k = k'

/-- Texts name places with keys of a set, and what is below them. -/
structure NamesPlaces (keys : Set String) : Prop where
  encode_injective : ∀ p q : ConfigPath, p.Uses keys → q.Uses keys → p.encode = q.encode → p = q
  lookup_removePrefix : ∀ (loc : SourceLocation) (doc : Document) (p q : ConfigPath),
    p.Uses keys → q.Uses keys → doc.Records q →
    ((recordProvenanceTree loc (.table doc.entries) "" .new).removePrefix p.encode).lookup
        q.encode =
      if p.full <+: q.full then none else some loc

/-! ### Texts -/

/-- What a step adds to the text of a path that is not empty. -/
def stepText : PathStep → List Char
  | .key k => '.' :: keyText k
  | .index idx => '[' :: (toString idx).toList ++ [']']

theorem formatKey_ne_empty_of_ne {path : String} (h : path ≠ "") (k : String) :
    formatKey path k ≠ "" := by
  intro hempty
  have htext := congrArg String.toList hempty
  rw [toList_formatKey, if_neg h] at htext
  simp at htext

theorem formatIndex_ne_empty (path : String) (idx : ℕ) : formatIndex path idx ≠ "" := by
  intro hempty
  have htext := congrArg String.toList hempty
  simp [formatIndex] at htext

theorem toList_encodeFrom {path : String} (h : path ≠ "") (steps : List PathStep) :
    (encodeFrom path steps).toList = path.toList ++ steps.flatMap stepText := by
  induction steps generalizing path with
  | nil => simp [encodeFrom]
  | cons step steps ih =>
    cases step with
    | key k =>
      rw [encodeFrom, stepPath, ih (formatKey_ne_empty_of_ne h k), toList_formatKey, if_neg h,
        List.flatMap_cons, stepText, List.append_assoc]
    | index idx =>
      rw [encodeFrom, stepPath, ih (formatIndex_ne_empty path idx), List.flatMap_cons, stepText]
      simp [formatIndex]

theorem keyText_ne_nil {k : String} (h : k ≠ "") : keyText k ≠ [] := by
  rw [keyText]
  split_ifs
  · simp
  · simpa using h

theorem formatKey_root_ne_empty {k : String} (h : k ≠ "") : formatKey "" k ≠ "" := by
  intro hempty
  have htext := congrArg String.toList hempty
  rw [toList_formatKey, if_pos rfl] at htext
  exact keyText_ne_nil h (by simpa using htext)

theorem ConfigPath.toList_encode {p : ConfigPath} (h : p.key ≠ "") :
    p.encode.toList = keyText p.key ++ p.steps.flatMap stepText := by
  rw [encode, full, encodeFrom, stepPath, toList_encodeFrom (formatKey_root_ne_empty h),
    toList_formatKey, if_pos rfl]

theorem boundary_flatMap (steps : List PathStep) {rest : List Char} (h : Boundary rest) :
    Boundary (steps.flatMap stepText ++ rest) := by
  cases steps with
  | nil => exact h
  | cons step steps =>
    cases step with
    | key k => exact .inr (.inl rfl)
    | index idx => exact .inr (.inr rfl)

/-- What begins a text that goes on after a path goes on so itself. -/
theorem Boundary.of_append {u v : List Char} (h : Boundary (u ++ v)) : Boundary u := by
  cases u with
  | nil => exact .inl rfl
  | cons c u => simpa [Boundary] using h

theorem below_root_iff {k k' : String} :
    Below (formatKey "" k) (formatKey "" k') = true ↔
      ∃ rest, keyText k' = keyText k ++ rest ∧ Boundary rest := by
  rw [below_iff, toList_formatKey, toList_formatKey, if_pos rfl, if_pos rfl]

/-- Keys are read off a text that goes on after them. -/
theorem KeysApart.eq_of_append {keys : Set String} (h : KeysApart keys) {k k' : String}
    (hk : k ≠ "" ∧ k ∈ keys) (hk' : k' ≠ "" ∧ k' ∈ keys) {u u' : List Char} (hu : Boundary u)
    (hu' : Boundary u') (heq : keyText k ++ u = keyText k' ++ u') : k = k' := by
  rcases List.append_eq_append_iff.mp heq with ⟨w, hw, rfl⟩ | ⟨w, hw, rfl⟩
  · exact h k k' hk.1 hk.2 hk'.1 hk'.2 (below_root_iff.mpr ⟨w, hw, hu.of_append⟩)
  · exact (h k' k hk'.1 hk'.2 hk.1 hk.2 (below_root_iff.mpr ⟨w, hw, hu'.of_append⟩)).symm

/-- Indices are read off a text. -/
theorem eq_of_indexText {idx idx' : ℕ} {u u' : List Char}
    (h : (toString idx).toList ++ ']' :: u = (toString idx').toList ++ ']' :: u') :
    idx = idx' := by
  have hdigits : ∀ n : ℕ, ∀ c ∈ (toString n).toList, (c != ']') = true := by
    intro n c hc
    rw [Nat.toString_eq_ofList_toDigits, String.toList_ofList] at hc
    have hdigit := Nat.isDigit_of_mem_toDigits (by decide) (by decide) hc
    rw [bne_iff_ne]
    rintro rfl
    exact absurd hdigit (by decide)
  have htext := append_inj_of_stop (hdigits idx) (hdigits idx') (by simp) (by simp) h
  exact Nat.repr_injective (String.toList_injective htext)

/-- Steps are read off the text that they add. -/
theorem KeysApart.prefix_of_flatMap {keys : Set String} (h : KeysApart keys)
    {steps steps' : List PathStep} (hsteps : ∀ k, .key k ∈ steps → k ≠ "" ∧ k ∈ keys)
    (hsteps' : ∀ k, .key k ∈ steps' → k ≠ "" ∧ k ∈ keys) {rest : List Char} (hrest : Boundary rest)
    (heq : steps.flatMap stepText ++ rest = steps'.flatMap stepText) : steps <+: steps' := by
  induction steps generalizing steps' with
  | nil => exact List.nil_prefix
  | cons step steps ih =>
    cases steps' with
    | nil => cases step <;> simp [stepText] at heq
    | cons step' steps' =>
      rw [List.flatMap_cons, List.flatMap_cons, List.append_assoc] at heq
      have htail := boundary_flatMap steps hrest
      have htail' : Boundary (steps'.flatMap stepText) := by
        simpa using boundary_flatMap steps' (.inl rfl)
      have hmore : ∀ k, .key k ∈ steps → k ≠ "" ∧ k ∈ keys :=
        fun k hk => hsteps k (List.mem_cons_of_mem _ hk)
      have hmore' : ∀ k, .key k ∈ steps' → k ≠ "" ∧ k ∈ keys :=
        fun k hk => hsteps' k (List.mem_cons_of_mem _ hk)
      cases step with
      | key k =>
        cases step' with
        | key k' =>
          have hkeys := (List.cons.inj heq).2
          obtain rfl := h.eq_of_append (hsteps k List.mem_cons_self)
            (hsteps' k' List.mem_cons_self) htail htail' hkeys
          exact List.prefix_cons_inj _ |>.mpr
            (ih hmore hmore' (List.append_cancel_left hkeys))
        | index idx' => exact absurd (List.cons.inj heq).1 (by decide)
      | index idx =>
        cases step' with
        | key k' => exact absurd (List.cons.inj heq).1 (by decide)
        | index idx' =>
          simp only [stepText, List.cons_append, List.append_assoc, List.nil_append,
            List.cons.injEq, true_and] at heq
          obtain rfl := eq_of_indexText heq
          have hrests := (List.cons.inj (List.append_cancel_left heq)).2
          exact List.prefix_cons_inj _ |>.mpr (ih hmore hmore' hrests)

/-! ### What is recorded -/

theorem elemTrees_of_getElem? {elems : List Item} {idx : ℕ} {item : Item}
    (h : elems[idx]? = some item) : elemTrees elems idx = item.tree := by
  induction elems generalizing idx with
  | nil => cases h
  | cons elem elems ih =>
    cases idx with
    | zero => rw [elemTrees, Option.some.inj h]
    | succ idx => exact ih h

theorem tableTrees_of_getElem? {tables : List (List (String × Item))} {idx : ℕ}
    {entries : List (String × Item)} (h : tables[idx]? = some entries) :
    tableTrees tables idx = (Item.table entries).tree := by
  induction tables generalizing idx with
  | nil => cases h
  | cons table tables ih =>
    cases idx with
    | zero => rw [tableTrees, Option.some.inj h, Item.tree]
    | succ idx => exact ih h

/-- The text of a place with a scalar or an array is one of the paths of the item. -/
theorem encodeFrom_mem_treePaths {steps : List PathStep} {item leaf : Item} {path : String}
    (h : item.reach steps = some leaf) (hleaf : leaf.isTableLike = false) :
    encodeFrom path steps ∈ treePaths item.tree path := by
  induction steps generalizing item path with
  | nil =>
    obtain rfl := Option.some.inj h
    cases item with
    | scalar value => exact Set.mem_singleton path
    | array elems => exact .inl (Set.mem_singleton path)
    | arrayOfTables tables => exact .inl (Set.mem_singleton path)
    | table entries => cases hleaf
    | inlineTable entries => cases hleaf
  | cons step steps ih =>
    obtain ⟨child, hchild, hreach⟩ := Option.bind_eq_some_iff.mp h
    have hmem := @ih child (stepPath path step) hreach
    cases step with
    | key k =>
      have hentries : ∀ entries : List (String × Item), entries.lookup k = some child →
          encodeFrom (formatKey path k) steps ∈
            ⋃ k', treePaths (entryTrees entries k') (formatKey path k') := by
        intro entries hlookup
        refine Set.mem_iUnion.mpr ⟨k, ?_⟩
        rw [entryTrees_eq, hlookup]
        exact hmem
      cases item with
      | scalar value => cases hchild
      | array elems => cases hchild
      | arrayOfTables tables => cases hchild
      | table entries => exact hentries entries hchild
      | inlineTable entries => exact hentries entries hchild
    | index idx =>
      cases item with
      | scalar value => cases hchild
      | table entries => cases hchild
      | inlineTable entries => cases hchild
      | array elems =>
        refine .inr (Set.mem_iUnion.mpr ⟨idx, ?_⟩)
        rw [elemTrees_of_getElem? hchild]
        exact hmem
      | arrayOfTables tables =>
        obtain ⟨entries, hentries, rfl⟩ := Option.map_eq_some_iff.mp hchild
        refine .inr (Set.mem_iUnion.mpr ⟨idx, ?_⟩)
        rw [tableTrees_of_getElem? hentries]
        exact hmem

theorem lookup_of_records {doc : Document} {q : ConfigPath} (loc : SourceLocation)
    (hq : q.key ≠ "") (h : doc.Records q) :
    (recordProvenanceTree loc (.table doc.entries) "" .new).lookup q.encode = some loc := by
  obtain ⟨item, hreach, hitem⟩ := h
  have hne : q.encode ≠ "" := by
    intro hempty
    have htext := q.toList_encode hq
    rw [hempty] at htext
    exact keyText_ne_nil hq (List.append_eq_nil_iff.mp htext.symm).1
  rw [lookup_recordProvenanceTree _ _ _ _ doc.wellFormed,
    if_pos ⟨hne, encodeFrom_mem_treePaths hreach hitem⟩]

/-! ### Main results -/

/-- Going by its text a place is below another exactly if it goes on after it. -/
theorem KeysApart.below_encode_iff {keys : Set String} (h : KeysApart keys) {p q : ConfigPath}
    (hp : p.Uses keys) (hq : q.Uses keys) :
    Below p.encode q.encode = true ↔ p.full <+: q.full := by
  obtain ⟨k, steps⟩ := p
  obtain ⟨k', steps'⟩ := q
  have hk := hp k List.mem_cons_self
  have hk' := hq k' List.mem_cons_self
  rw [below_iff, @ConfigPath.toList_encode ⟨k, steps⟩ hk.1,
    @ConfigPath.toList_encode ⟨k', steps'⟩ hk'.1]
  constructor
  · rintro ⟨rest, heq, hrest⟩
    rw [List.append_assoc] at heq
    have hboundary : Boundary (steps'.flatMap stepText) := by
      simpa using boundary_flatMap steps' (.inl rfl)
    obtain rfl := h.eq_of_append hk hk' (boundary_flatMap steps hrest) hboundary heq.symm
    have hsteps := h.prefix_of_flatMap (fun k hk => hp k (List.mem_cons_of_mem _ hk))
      (fun k hk => hq k (List.mem_cons_of_mem _ hk)) hrest (List.append_cancel_left heq).symm
    exact List.prefix_cons_inj _ |>.mpr hsteps
  · rintro ⟨more, hmore⟩
    obtain ⟨hkey, rfl⟩ := List.cons.inj hmore
    obtain rfl := PathStep.key.inj hkey
    refine ⟨more.flatMap stepText, by simp, ?_⟩
    simpa using boundary_flatMap more (.inl rfl)

/-- A table with two keys. -/
def twoKeys {k k' : String} (h : k ≠ k') : Document where
  entries := [(k, .scalar (.boolean true)), (k', .scalar (.boolean true))]
  wellFormed := ⟨by simpa using h, trivial, trivial, trivial⟩

end Shilpo.Config
