import Shilpo.Config.Merge
import Shilpo.Config.Sources

/-!
# Edits of the overrides

`desktop/shilpo/src/config/overrides.rs`: a leaf of the overrides is set or removed by the path of
its keys. The walk down the path goes through standard tables only, and makes those that are not
there where something is to be set.

What a document says at a path is its `Reading`, in which a table is only that it is there. A
successful edit has the same effect on the readings of every document (`read_applyEdit`), the
readings above its path and at it say whether it succeeds (`applyEdit_ok_iff`), and a failed one
does nothing (`applyEdit_of_error`). The laws of edits follow from these three.
-/

namespace Shilpo.Config

/-! ### Errors -/

/-- Why the overrides are not changed. -/
inductive OverrideError where
  | invalidPath (path : List String) (reason : String)
  | versionForbidden (path : List String)
  | traversalConflict (path : List String) (segment reason : String)
  | readFailed (path : String) (source : IoError)
  | parseFailed (path : String) (source : TomlError)
  | candidateValidationFailed (diagnostics : List ConfigDiagnostic)
  | concurrentModification (path : String)
  | writeFailed (path : String) (source : IoError)
  | tempCleanupFailed (path : String) (source : IoError)
  | durabilityFailed (path : String) (source : IoError)

/-! ### Edits -/

/-- What may be set: a scalar, an array or an inline table. -/
structure NewValue where
  item : Item
  isValue : item.isValue
  wellFormed : item.WellFormed

/-- An edit of the overrides. -/
inductive OverrideEdit where
  | set (path : List String) (value : NewValue)
  | remove (path : List String)

/-- The path of its leaf. -/
def OverrideEdit.path : OverrideEdit → List String
  | .set path _ | .remove path => path

@[simp] theorem OverrideEdit.path_set (path : List String) (value : NewValue) :
    (OverrideEdit.set path value).path = path := rfl

@[simp] theorem OverrideEdit.path_remove (path : List String) :
    (OverrideEdit.remove path).path = path := rfl

/-- A path has keys that are not empty, and does not begin at the version. -/
def validateOverridePath (path : List String) : Except OverrideError Unit :=
  if path = [] then .error (.invalidPath path "path cannot be empty")
  else if "" ∈ path then .error (.invalidPath path "path segment cannot be empty")
  else if path.head? = some "version" then .error (.versionForbidden path)
  else .ok ()

/-- The walk comes to something that is not a standard table. -/
def blocked (path : List String) (segment : String) : Item → OverrideError
  | .inlineTable _ =>
    .traversalConflict path segment "cannot traverse through existing inline table"
  | _ =>
    .traversalConflict path segment
      ("cannot traverse through scalar or array at segment '" ++ segment ++ "'")

/-- A table is made where there is nothing. -/
def withTable (entries : List (String × Item)) (segment : String) : List (String × Item) :=
  if (entries.lookup segment).isSome then entries else insertEntry entries segment (.table [])

/-- Set the leaf at the end of the segments; `path` is for errors. -/
def setLeaf (path : List String) (newVal : Item) :
    List String → List (String × Item) → List (String × Item) × Except OverrideError Unit
  | [], entries => (entries, .ok ())
  | [segment], entries =>
    match entries.lookup segment with
    | some (.table _) | some (.arrayOfTables _) =>
      (entries, .error (.traversalConflict path segment
        "cannot replace an existing table with a leaf value"))
    | _ => (insertEntry entries segment newVal, .ok ())
  | segment :: next :: rest, entries =>
    let entries := withTable entries segment
    match entries.lookup segment with
    | some (.table sub) =>
      let (sub, result) := setLeaf path newVal (next :: rest) sub
      (insertEntry entries segment (.table sub), result)
    | some item => (entries, .error (blocked path segment item))
    | none => (entries, .ok ())

/-- Remove the entry at the end of the segments; `path` is for errors. -/
def removeLeaf (path : List String) :
    List String → List (String × Item) → List (String × Item) × Except OverrideError Unit
  | [], entries => (entries, .ok ())
  | [segment], entries => (entries.filter (·.1 ≠ segment), .ok ())
  | segment :: next :: rest, entries =>
    match entries.lookup segment with
    | none => (entries, .ok ())
    | some (.table sub) =>
      let (sub, result) := removeLeaf path (next :: rest) sub
      (insertEntry entries segment (.table sub), result)
    | some item => (entries, .error (blocked path segment item))

/-- One edit of the entries of a document. -/
def applyEdit (entries : List (String × Item)) (edit : OverrideEdit) :
    List (String × Item) × Except OverrideError Unit :=
  match validateOverridePath edit.path with
  | .error e => (entries, .error e)
  | .ok () =>
    match edit with
    | .set path value => setLeaf path value.item path entries
    | .remove path => removeLeaf path path entries

/-! ### Readings -/

/-- What a document says at a path. What is in a table is said at the paths below it. -/
inductive Reading where
  | table
  | leaf (item : Item)

namespace Item

/-- An item as it is read. -/
def shown : Item → Reading
  | .table _ => .table
  | item => .leaf item

/-- The item of a key, in a standard or an inline table. -/
def child (segment : String) : Item → Option Item
  | .table entries | .inlineTable entries => entries.lookup segment
  | _ => none

/-- What an item says at a path below it. -/
def read : List String → Item → Option Reading
  | [], item => some item.shown
  | segment :: rest, item => (item.child segment).bind (read rest)

end Item

/-- What the entries of a document say at a path. -/
def readEntries (entries : List (String × Item)) (path : List String) : Option Reading :=
  (Item.table entries).read path

/-- Nothing, or a table. -/
def Reading.Passable (reading : Option Reading) : Prop := reading = none ∨ reading = some .table

/-- Neither a table nor an array of tables. -/
def Reading.Replaceable (reading : Option Reading) : Prop :=
  reading ≠ some .table ∧ ∀ tables, reading ≠ some (.leaf (.arrayOfTables tables))

/-- What a successful edit makes of the reading at a path. -/
def OverrideEdit.effect (edit : OverrideEdit) (path : List String) (reading : Option Reading) :
    Option Reading :=
  match edit with
  | .set target value =>
    if target <+: path then value.item.read (path.drop target.length)
    else if path <+: target then some .table
    else reading
  | .remove target => if target <+: path then none else reading

/-- The readings let an edit succeed. -/
structure OverrideEdit.Allowed (edit : OverrideEdit) (readings : List String → Option Reading) :
    Prop where
  path : validateOverridePath edit.path = .ok ()
  above : ∀ q, q <+: edit.path → q ≠ edit.path → Reading.Passable (readings q)
  target : ∀ path value, edit = .set path value → Reading.Replaceable (readings path)

/-! ### Reading what has been inserted -/

section

variable {entries : List (String × Item)} {segment : String} {item : Item} {rest : List String}

@[simp] theorem readEntries_nil : readEntries entries [] = some .table := rfl

theorem readEntries_cons :
    readEntries entries (segment :: rest) = (entries.lookup segment).bind (Item.read rest) := rfl

theorem readEntries_cons_of_lookup (h : entries.lookup segment = some item) :
    readEntries entries (segment :: rest) = item.read rest := by
  rw [readEntries_cons, h, Option.bind_some]

theorem readEntries_cons_of_none (h : entries.lookup segment = none) :
    readEntries entries (segment :: rest) = none := by
  rw [readEntries_cons, h, Option.bind_none]

theorem readEntries_insertEntry_self :
    readEntries (insertEntry entries segment item) (segment :: rest) = item.read rest := by
  rw [readEntries_cons, lookup_insertEntry, if_pos rfl, Option.bind_some]

theorem readEntries_insertEntry_of_ne {s : String} (h : s ≠ segment) :
    readEntries (insertEntry entries segment item) (s :: rest) =
      readEntries entries (s :: rest) := by
  rw [readEntries_cons, lookup_insertEntry, if_neg h, readEntries_cons]

theorem insertEntry_of_lookup (h : entries.lookup segment = some item) :
    insertEntry entries segment item = entries := by
  induction entries with
  | nil => cases h
  | cons e entries ih =>
    obtain ⟨k, v⟩ := e
    rw [insertEntry]
    by_cases hk : k = segment
    · subst hk
      rw [List.lookup_cons_self] at h
      rw [if_pos rfl, Option.some.inj h]
    · rw [List.lookup_cons, beq_eq_false_iff_ne.mpr (Ne.symm hk)] at h
      rw [if_neg hk, ih h]

theorem insertEntry_insertEntry (item' : Item) :
    insertEntry (insertEntry entries segment item) segment item' =
      insertEntry entries segment item' := by
  induction entries with
  | nil => simp [insertEntry]
  | cons e entries ih =>
    obtain ⟨k, v⟩ := e
    rw [insertEntry, insertEntry]
    by_cases hk : k = segment
    · rw [if_pos hk, if_pos hk, insertEntry, if_pos hk]
    · rw [if_neg hk, if_neg hk, insertEntry, if_neg hk, ih]

theorem readEntries_filter_self :
    readEntries (entries.filter (·.1 ≠ segment)) (segment :: rest) = none := by
  refine readEntries_cons_of_none (List.lookup_eq_none_iff.mpr fun e he => ?_)
  have hne : e.1 ≠ segment := of_decide_eq_true (List.mem_filter.mp he).2
  simpa using hne.symm

theorem lookup_filter_of_ne {s : String} (h : s ≠ segment) :
    (entries.filter (·.1 ≠ segment)).lookup s = entries.lookup s := by
  induction entries with
  | nil => rfl
  | cons e entries ih =>
    obtain ⟨k, v⟩ := e
    by_cases hk : k = segment
    · subst hk
      rw [List.filter_cons_of_neg (by simp), ih, List.lookup_cons, beq_eq_false_iff_ne.mpr h]
    · rw [List.filter_cons_of_pos (by simpa using hk), List.lookup_cons, List.lookup_cons, ih]

end

/-! ### The walk -/

section

variable (path : List String) (newVal : Item) (segment next : String) (rest : List String)
  (entries : List (String × Item))

/-- A table that is made on the way is as good as one that is there. -/
theorem setLeaf_cons_cons :
    setLeaf path newVal (segment :: next :: rest) entries =
      match (entries.lookup segment).getD (.table []) with
      | .table sub =>
        (insertEntry entries segment (.table (setLeaf path newVal (next :: rest) sub).1),
          (setLeaf path newVal (next :: rest) sub).2)
      | item => (entries, .error (blocked path segment item)) := by
  rw [setLeaf]
  cases h : entries.lookup segment with
  | some item =>
    rw [withTable, h, Option.isSome_some, if_pos rfl, h, Option.getD_some]
    cases item <;> rfl
  | none =>
    rw [withTable, h, Option.isSome_none, if_neg Bool.false_ne_true, lookup_insertEntry,
      if_pos rfl, Option.getD_none]
    dsimp only
    rw [insertEntry_insertEntry]

end

/-- Readings below a key are those of what the key stands for. -/
theorem readEntries_eq_of_getD {entries sub : List (String × Item)} {segment : String}
    (h : (entries.lookup segment).getD (.table []) = .table sub) {q : List String} (hq : q ≠ []) :
    readEntries entries (segment :: q) = readEntries sub q := by
  cases hlookup : entries.lookup segment with
  | some item =>
    rw [hlookup, Option.getD_some] at h
    subst h
    exact readEntries_cons_of_lookup hlookup
  | none =>
    rw [hlookup, Option.getD_none] at h
    obtain rfl : [] = sub := by injection h
    rw [readEntries_cons_of_none hlookup]
    cases q with
    | nil => exact absurd rfl hq
    | cons => rfl

theorem passable_cons_iff {entries sub : List (String × Item)} {segment : String}
    (h : (entries.lookup segment).getD (.table []) = .table sub) (q : List String) :
    Reading.Passable (readEntries entries (segment :: q)) ↔
      Reading.Passable (readEntries sub q) := by
  by_cases hq : q = []
  · subst hq
    refine iff_of_true ?_ (.inr rfl)
    cases hlookup : entries.lookup segment with
    | some item =>
      rw [hlookup, Option.getD_some] at h
      subst h
      exact .inr (readEntries_cons_of_lookup hlookup)
    | none => exact .inl (readEntries_cons_of_none hlookup)
  · rw [readEntries_eq_of_getD h hq]

/-- Something else than a table is in the way. -/
theorem not_passable {entries : List (String × Item)} {segment : String} {item : Item}
    (h : entries.lookup segment = some item) (hitem : ∀ sub, item ≠ .table sub) :
    ¬ Reading.Passable (readEntries entries [segment]) := by
  rw [readEntries_cons_of_lookup h]
  cases item with
  | table sub => exact absurd rfl (hitem sub)
  | scalar | array | inlineTable | arrayOfTables => rintro (h | h) <;> cases h

theorem forall_above_cons {segment : String} {segments : List String} {P : List String → Prop} :
    (∀ q, q <+: segment :: segments → q ≠ segment :: segments → P q) ↔
      P [] ∧ ∀ q, q <+: segments → q ≠ segments → P (segment :: q) := by
  constructor
  · intro h
    refine ⟨h [] (List.nil_prefix) (List.cons_ne_nil _ _).symm, fun q hq hne => ?_⟩
    exact h _ ((List.prefix_cons_inj segment).mpr hq) fun heq => hne (List.cons.inj heq).2
  · rintro ⟨hnil, h⟩ q hq hne
    obtain rfl | ⟨q, rfl, hq'⟩ := List.prefix_cons_iff.mp hq
    · exact hnil
    · exact h q hq' fun heq => hne (heq ▸ rfl)

theorem setLeaf_ok_iff (path : List String) (newVal : Item) :
    ∀ (segments : List String) (entries : List (String × Item)), segments ≠ [] →
      ((setLeaf path newVal segments entries).2 = .ok () ↔
        (∀ q, q <+: segments → q ≠ segments → Reading.Passable (readEntries entries q)) ∧
          Reading.Replaceable (readEntries entries segments))
  | [], _, h => absurd rfl h
  | [segment], entries, _ => by
    have habove : ∀ q, q <+: [segment] → q ≠ [segment] →
        Reading.Passable (readEntries entries q) := by
      refine forall_above_cons.mpr ⟨.inr rfl, fun q hq hne => ?_⟩
      exact absurd (List.prefix_nil.mp hq) hne
    rw [setLeaf, readEntries_cons]
    cases entries.lookup segment with
    | none => exact iff_of_true rfl ⟨habove, by simp [Reading.Replaceable]⟩
    | some item =>
      cases item with
      | scalar | array | inlineTable =>
        exact iff_of_true rfl
          ⟨habove, by simp [Reading.Replaceable, Item.read, Item.shown]⟩
      | table sub =>
        exact iff_of_false (by simp) fun h => h.2.1 rfl
      | arrayOfTables tables =>
        exact iff_of_false (by simp) fun h => h.2.2 tables rfl
  | segment :: next :: rest, entries, _ => by
    rw [setLeaf_cons_cons, forall_above_cons]
    cases h : (entries.lookup segment).getD (.table []) with
    | table sub =>
      have ih := setLeaf_ok_iff path newVal (next :: rest) sub (List.cons_ne_nil _ _)
      dsimp only
      rw [ih, readEntries_eq_of_getD h (List.cons_ne_nil _ _)]
      simp only [passable_cons_iff h]
      exact ⟨fun hsub => ⟨⟨.inr rfl, hsub.1⟩, hsub.2⟩, fun hall => ⟨hall.1.2, hall.2⟩⟩
    | scalar | array | inlineTable | arrayOfTables =>
      cases hlookup : entries.lookup segment with
      | none => rw [hlookup] at h; cases h
      | some item =>
        rw [hlookup, Option.getD_some] at h
        subst h
        refine iff_of_false (by simp) fun hall => ?_
        exact not_passable hlookup (by simp)
          (hall.1.2 [] List.nil_prefix (List.cons_ne_nil _ _).symm)

theorem removeLeaf_ok_iff (path : List String) :
    ∀ (segments : List String) (entries : List (String × Item)), segments ≠ [] →
      ((removeLeaf path segments entries).2 = .ok () ↔
        ∀ q, q <+: segments → q ≠ segments → Reading.Passable (readEntries entries q))
  | [], _, h => absurd rfl h
  | [segment], entries, _ => by
    refine iff_of_true rfl (forall_above_cons.mpr ⟨.inr rfl, fun q hq hne => ?_⟩)
    exact absurd (List.prefix_nil.mp hq) hne
  | segment :: next :: rest, entries, _ => by
    rw [removeLeaf, forall_above_cons]
    cases h : entries.lookup segment with
    | none => exact iff_of_true rfl ⟨.inr rfl, fun q _ _ => .inl (readEntries_cons_of_none h)⟩
    | some item =>
      cases item with
      | table sub =>
        have hgetD : (entries.lookup segment).getD (.table []) = .table sub := by rw [h]; rfl
        dsimp only
        rw [removeLeaf_ok_iff path (next :: rest) sub (List.cons_ne_nil _ _)]
        simp only [passable_cons_iff hgetD]
        exact ⟨fun hsub => ⟨.inr rfl, hsub⟩, fun hall => hall.2⟩
      | scalar | array | inlineTable | arrayOfTables =>
        refine iff_of_false (by simp) fun hall => ?_
        exact not_passable h (by simp) (hall.2 [] List.nil_prefix (List.cons_ne_nil _ _).symm)

theorem setLeaf_of_error {path : List String} {newVal : Item} {e : OverrideError} :
    ∀ {segments : List String} {entries : List (String × Item)},
      (setLeaf path newVal segments entries).2 = .error e →
        (setLeaf path newVal segments entries).1 = entries
  | [], _, _ => rfl
  | [segment], entries, h => by
    rw [setLeaf] at h ⊢
    split at h
    · rfl
    · rfl
    · cases h
  | segment :: next :: rest, entries, h => by
    rw [setLeaf_cons_cons] at h ⊢
    cases hgetD : (entries.lookup segment).getD (.table []) with
    | table sub =>
      simp only [hgetD] at h ⊢
      rw [setLeaf_of_error h]
      cases hlookup : entries.lookup segment with
      | some item =>
        rw [hlookup, Option.getD_some] at hgetD
        subst hgetD
        exact insertEntry_of_lookup hlookup
      | none =>
        -- in a table that has just been made nothing is in the way
        rw [hlookup, Option.getD_none] at hgetD
        obtain rfl : [] = sub := by injection hgetD
        rw [(setLeaf_ok_iff path newVal (next :: rest) [] (List.cons_ne_nil _ _)).mpr] at h
        · cases h
        · refine ⟨fun q _ _ => ?_, by simp [Reading.Replaceable, readEntries_cons]⟩
          cases q with
          | nil => exact .inr rfl
          | cons => exact .inl rfl
    | scalar | array | inlineTable | arrayOfTables => rfl

theorem removeLeaf_of_error {path : List String} {e : OverrideError} :
    ∀ {segments : List String} {entries : List (String × Item)},
      (removeLeaf path segments entries).2 = .error e →
        (removeLeaf path segments entries).1 = entries
  | [], _, _ => rfl
  | [segment], entries, h => by cases h
  | segment :: next :: rest, entries, h => by
    rw [removeLeaf] at h ⊢
    cases hlookup : entries.lookup segment with
    | none => rfl
    | some item =>
      cases item with
      | table sub =>
        simp only [hlookup] at h ⊢
        rw [removeLeaf_of_error h]
        exact insertEntry_of_lookup hlookup
      | scalar | array | inlineTable | arrayOfTables => rfl

/-! ### What a successful edit does -/

section

variable {value : NewValue} {segment s : String} {segments q : List String}
  {r : Option Reading}

theorem effect_set_nil : (OverrideEdit.set (segment :: segments) value).effect [] (some .table) =
    some .table := by
  simp [OverrideEdit.effect]

theorem effect_set_cons :
    (OverrideEdit.set (segment :: segments) value).effect (segment :: q) r =
      (OverrideEdit.set segments value).effect q r := by
  simp [OverrideEdit.effect]

theorem effect_set_of_ne (h : s ≠ segment) :
    (OverrideEdit.set (segment :: segments) value).effect (s :: q) r = r := by
  simp [OverrideEdit.effect, h, h.symm]

/-- Above its target and at it, setting does not depend on the reading. -/
theorem effect_set_congr (h : q <+: segments) (r' : Option Reading) :
    (OverrideEdit.set segments value).effect q r =
      (OverrideEdit.set segments value).effect q r' := by
  simp [OverrideEdit.effect, h]

theorem effect_remove_nil :
    (OverrideEdit.remove (segment :: segments)).effect [] r = r := by
  simp [OverrideEdit.effect]

theorem effect_remove_cons :
    (OverrideEdit.remove (segment :: segments)).effect (segment :: q) r =
      (OverrideEdit.remove segments).effect q r := by
  simp [OverrideEdit.effect]

theorem effect_remove_of_ne (h : s ≠ segment) :
    (OverrideEdit.remove (segment :: segments)).effect (s :: q) r = r := by
  simp [OverrideEdit.effect, h.symm]

end

/-- What is at the segments is the new value, and what is above them are tables. -/
theorem read_setLeaf (path : List String) (value : NewValue) :
    ∀ (segments : List String) (entries : List (String × Item)), segments ≠ [] →
      (setLeaf path value.item segments entries).2 = .ok () → ∀ q,
      readEntries (setLeaf path value.item segments entries).1 q =
        (OverrideEdit.set segments value).effect q (readEntries entries q)
  | [], _, h, _, _ => absurd rfl h
  | segment :: rest, _, _, _, [] => by rw [readEntries_nil, readEntries_nil, effect_set_nil]
  | [segment], entries, _, h, s :: q => by
    have hentries : (setLeaf path value.item [segment] entries).1 =
        insertEntry entries segment value.item := by
      rw [setLeaf] at h ⊢
      split at h
      · cases h
      · cases h
      · rfl
    rw [hentries]
    by_cases hs : s = segment
    · subst hs
      rw [readEntries_insertEntry_self, effect_set_cons]
      simp [OverrideEdit.effect]
    · rw [readEntries_insertEntry_of_ne hs, effect_set_of_ne hs]
  | segment :: next :: rest, entries, _, h, s :: q => by
    rw [setLeaf_cons_cons] at h ⊢
    cases hgetD : (entries.lookup segment).getD (.table []) with
    | table sub =>
      simp only [hgetD] at h ⊢
      by_cases hs : s = segment
      · subst hs
        rw [readEntries_insertEntry_self, effect_set_cons, ← readEntries,
          read_setLeaf path value (next :: rest) sub (List.cons_ne_nil _ _) h q]
        by_cases hq : q = []
        · exact effect_set_congr (hq ▸ List.nil_prefix) _
        · rw [readEntries_eq_of_getD hgetD hq]
      · rw [readEntries_insertEntry_of_ne hs, effect_set_of_ne hs]
    | scalar | array | inlineTable | arrayOfTables =>
      simp only [hgetD] at h
      cases h

/-- There is nothing any more at the segments. -/
theorem read_removeLeaf (path : List String) :
    ∀ (segments : List String) (entries : List (String × Item)), segments ≠ [] →
      (removeLeaf path segments entries).2 = .ok () → ∀ q,
      readEntries (removeLeaf path segments entries).1 q =
        (OverrideEdit.remove segments).effect q (readEntries entries q)
  | [], _, h, _, _ => absurd rfl h
  | segment :: rest, _, _, _, [] => by rw [readEntries_nil, readEntries_nil, effect_remove_nil]
  | [segment], entries, _, h, s :: q => by
    rw [removeLeaf]
    by_cases hs : s = segment
    · subst hs
      rw [readEntries_filter_self, effect_remove_cons]
      simp [OverrideEdit.effect]
    · rw [effect_remove_of_ne hs, readEntries_cons, lookup_filter_of_ne hs, readEntries_cons]
  | segment :: next :: rest, entries, _, h, s :: q => by
    rw [removeLeaf] at h ⊢
    cases hlookup : entries.lookup segment with
    | none =>
      by_cases hs : s = segment
      · subst hs
        simp [OverrideEdit.effect, readEntries_cons_of_none hlookup]
      · rw [effect_remove_of_ne hs]
    | some item =>
      cases item with
      | table sub =>
        simp only [hlookup] at h ⊢
        by_cases hs : s = segment
        · subst hs
          rw [readEntries_insertEntry_self, effect_remove_cons, ← readEntries,
            read_removeLeaf path (next :: rest) sub (List.cons_ne_nil _ _) h q,
            readEntries_cons_of_lookup hlookup]
          rfl
        · rw [readEntries_insertEntry_of_ne hs, effect_remove_of_ne hs]
      | scalar | array | inlineTable | arrayOfTables =>
        simp only [hlookup] at h
        cases h

/-! ### Edits of documents -/

theorem validateOverridePath_ne_nil {path : List String}
    (h : validateOverridePath path = .ok ()) : path ≠ [] := by
  rintro rfl
  cases h

/-- Whether an edit succeeds, the readings say. -/
theorem applyEdit_ok_iff (entries : List (String × Item)) (edit : OverrideEdit) :
    (applyEdit entries edit).2 = .ok () ↔ edit.Allowed (readEntries entries) := by
  rw [applyEdit.eq_def]
  cases hpath : validateOverridePath edit.path with
  | error e => exact iff_of_false (by simp) fun h => by cases hpath.symm.trans h.path
  | ok u =>
    have hne := validateOverridePath_ne_nil hpath
    cases edit with
    | set path value =>
      rw [setLeaf_ok_iff path value.item path entries hne]
      constructor
      · rintro ⟨habove, htarget⟩
        refine ⟨hpath, habove, fun path' value' heq => ?_⟩
        cases heq
        exact htarget
      · intro h
        exact ⟨h.above, h.target path value rfl⟩
    | remove path =>
      rw [removeLeaf_ok_iff path path entries hne]
      constructor
      · intro habove
        exact ⟨hpath, habove, fun path' value' heq => by cases heq⟩
      · exact fun h => h.above

/-- A successful edit does to every reading what it is for. -/
theorem read_applyEdit {entries : List (String × Item)} {edit : OverrideEdit}
    (h : (applyEdit entries edit).2 = .ok ()) (q : List String) :
    readEntries (applyEdit entries edit).1 q = edit.effect q (readEntries entries q) := by
  have hpath := ((applyEdit_ok_iff entries edit).mp h).path
  have hne := validateOverridePath_ne_nil hpath
  rw [applyEdit.eq_def, hpath] at h ⊢
  cases edit with
  | set path value => exact read_setLeaf path value path entries hne h q
  | remove path => exact read_removeLeaf path path entries hne h q

/-- A failed edit does nothing. -/
theorem applyEdit_of_error {entries : List (String × Item)} {edit : OverrideEdit}
    {e : OverrideError} (h : (applyEdit entries edit).2 = .error e) :
    (applyEdit entries edit).1 = entries := by
  rw [applyEdit.eq_def] at h ⊢
  cases hpath : validateOverridePath edit.path with
  | error => rfl
  | ok u =>
    rw [hpath] at h
    cases edit with
    | set => exact setLeaf_of_error h
    | remove => exact removeLeaf_of_error h

theorem wellFormed_of_lookup {entries : List (String × Item)} {segment : String} {item : Item}
    (h : (Item.table entries).WellFormed) (hlookup : entries.lookup segment = some item) :
    item.WellFormed :=
  entriesWellFormed_iff.mp h.2 (segment, item) (Theory.mem_of_lookup hlookup)

theorem wellFormed_setLeaf {path : List String} {newVal : Item} (hnew : newVal.WellFormed) :
    ∀ (segments : List String) {entries : List (String × Item)},
      (Item.table entries).WellFormed →
        (Item.table (setLeaf path newVal segments entries).1).WellFormed
  | [], _, h => h
  | [segment], entries, h => by
    rw [setLeaf]
    split
    · exact h
    · exact h
    · exact wellFormed_insertEntry h hnew
  | segment :: next :: rest, entries, h => by
    rw [setLeaf_cons_cons]
    cases hgetD : (entries.lookup segment).getD (.table []) with
    | table sub =>
      refine wellFormed_insertEntry h (wellFormed_setLeaf hnew (next :: rest) ?_)
      cases hlookup : entries.lookup segment with
      | some item =>
        rw [hlookup, Option.getD_some] at hgetD
        exact hgetD ▸ wellFormed_of_lookup h hlookup
      | none =>
        rw [hlookup, Option.getD_none] at hgetD
        exact hgetD ▸ ⟨List.nodup_nil, trivial⟩
    | scalar | array | inlineTable | arrayOfTables => exact h

theorem wellFormed_removeLeaf {path : List String} :
    ∀ (segments : List String) {entries : List (String × Item)},
      (Item.table entries).WellFormed →
        (Item.table (removeLeaf path segments entries).1).WellFormed
  | [], _, h => h
  | [segment], entries, h => by
    refine ⟨h.1.sublist (List.filter_sublist.map _), ?_⟩
    rw [entriesWellFormed_iff]
    exact fun e he => entriesWellFormed_iff.mp h.2 e (List.mem_of_mem_filter he)
  | segment :: next :: rest, entries, h => by
    rw [removeLeaf]
    cases hlookup : entries.lookup segment with
    | none => exact h
    | some item =>
      cases item with
      | table sub =>
        exact wellFormed_insertEntry h
          (wellFormed_removeLeaf (next :: rest) (wellFormed_of_lookup h hlookup))
      | scalar | array | inlineTable | arrayOfTables => exact h

theorem wellFormed_applyEdit {entries : List (String × Item)} (h : (Item.table entries).WellFormed)
    (edit : OverrideEdit) : (Item.table (applyEdit entries edit).1).WellFormed := by
  rw [applyEdit.eq_def]
  cases validateOverridePath edit.path with
  | error => exact h
  | ok u =>
    cases edit with
    | set path value => exact wellFormed_setLeaf value.wellFormed path h
    | remove path => exact wellFormed_removeLeaf path h

namespace Document

/-- One edit of a document. -/
def applyEdit (doc : Document) (edit : OverrideEdit) : Document × Except OverrideError Unit :=
  (⟨(Config.applyEdit doc.entries edit).1, wellFormed_applyEdit doc.wellFormed edit⟩,
    (Config.applyEdit doc.entries edit).2)

/-- The edits one after the other, up to the first that fails. -/
def applyEdits (doc : Document) : List OverrideEdit → Except OverrideError Document
  | [] => .ok doc
  | edit :: edits =>
    match doc.applyEdit edit with
    | (doc, .ok ()) => doc.applyEdits edits
    | (_, .error e) => .error e

/-- What a document says at a path. -/
def read (doc : Document) (path : List String) : Option Reading := readEntries doc.entries path

/-- The value at a path, if there is one and it is no standard table. -/
def leafAt (doc : Document) (path : List String) : Option Item :=
  match doc.read path with
  | some (.leaf item) => some item
  | _ => none

variable {doc doc' : Document} {edit : OverrideEdit}

theorem applyEdit_ok_iff : (∃ doc', doc.applyEdit edit = (doc', .ok ())) ↔ edit.Allowed doc.read := by
  rw [show edit.Allowed doc.read ↔ _ from (Config.applyEdit_ok_iff doc.entries edit).symm]
  constructor
  · rintro ⟨doc', h⟩
    exact congrArg Prod.snd h
  · intro h
    exact ⟨_, Prod.ext rfl h⟩

theorem read_of_applyEdit (h : doc.applyEdit edit = (doc', .ok ())) (q : List String) :
    doc'.read q = edit.effect q (doc.read q) := by
  have hok := congrArg Prod.snd h
  have hread := read_applyEdit hok q
  rw [applyEdit, Prod.mk.injEq] at h
  rw [← h.1]
  exact hread

theorem eq_of_applyEdit_error {e : OverrideError} (h : doc.applyEdit edit = (doc', .error e)) :
    doc' = doc := by
  have herror := applyEdit_of_error (congrArg Prod.snd h)
  rw [applyEdit, Prod.mk.injEq] at h
  rw [← h.1]
  cases doc
  congr

end Document

end Shilpo.Config
