import Shilpo.Config.Merge

/-!
# Unknown keys

`desktop/shilpo/src/config/unknown_keys.rs`: keys that the configuration does not have are
taken out of a document before it is merged, each with a warning, and with the key that was
perhaps meant. What the configuration has is a `SchemaShape`, which the source makes from
the schema that is generated for `ShellConfig`.

Standard and inline tables are walked in the same way, by two functions in the source and
one here. Documents keep no positions, so that a key is located in the text.
-/

namespace Shilpo.Config

/-! ### Warnings -/

/-- A key that the configuration does not have. -/
structure UnknownConfigKey where
  path : String
  source : ConfigSource
  line : Option ℕ
  column : Option ℕ
  key : String
  suggestion : Option String

/-- What a place of the configuration may hold: a table of these fields, and others of one shape
if there is one; an array; anything; or a scalar. -/
inductive SchemaShape where
  | object (fields : List (String × SchemaShape)) (additional : Option SchemaShape)
  | array (item : SchemaShape)
  | «open»
  | leaf

/-! ### Suggestions -/

/-- The next row of distances, from the cell to the left of it and the row above. -/
def distanceRow (ca : Char) : ℕ → List ℕ → List Char → List ℕ
  | left, diagonal :: above :: previous, cb :: b =>
    let cell := if ca = cb then diagonal else 1 + min (min diagonal left) above
    cell :: distanceRow ca cell (above :: previous) b
  | _, _, _ => []

/-- How many characters are to be inserted, deleted or replaced. -/
def levenshteinDistance (a b : String) : ℕ :=
  let rows := a.toList.zipIdx.foldl
    (fun previous (ca, i) => (i + 1) :: distanceRow ca (i + 1) previous b.toList)
    (List.range (b.toList.length + 1))
  rows.getLastD 0

/-- The nearest candidate so far, how near it is, and whether there is another as near. -/
structure Nearest where
  distance : ℕ
  candidate : String
  tied : Bool

/-- One more candidate. -/
def Nearest.next (unknown : String) (best : Option Nearest) (candidate : String) :
    Option Nearest :=
  let distance := levenshteinDistance unknown candidate
  match best with
  | none => some ⟨distance, candidate, false⟩
  | some best =>
    if distance < best.distance then some ⟨distance, candidate, false⟩
    else if distance = best.distance then some { best with tied := true }
    else some best

/-- The candidate that is nearest, if it is near and no other is as near. -/
def bestSuggestion (unknown : String) (candidates : List String) : Option String :=
  match candidates.foldl (Nearest.next unknown) none with
  | some best => if best.distance ≤ 3 && !best.tied then some best.candidate else none
  | none => none

/-! ### The walk -/

section

variable (source : ConfigSource) (text : String)

/-- The warning for a key in a table with these fields. -/
def unknownKey (fields : List (String × SchemaShape)) (path key : String) : UnknownConfigKey :=
  let loc := SourceLocation.at source text (keyOffset text key)
  { path := formatKey path key
    source
    line := loc.line
    column := loc.column
    key
    suggestion := (bestSuggestion key (fields.map Prod.fst)).map (formatKey path) }

mutual

/-- An item without the keys that its shape does not have. -/
def walkItem : Item → String → SchemaShape → Item × List UnknownConfigKey
  | .table entries, path, .object fields additional =>
    let (entries, warnings) := walkTable fields additional entries path
    (.table entries, warnings)
  | .inlineTable entries, path, .object fields additional =>
    let (entries, warnings) := walkTable fields additional entries path
    (.inlineTable entries, warnings)
  | .array elems, path, .array item =>
    let (elems, warnings) := walkArray item elems path 0
    (.array elems, warnings)
  | .arrayOfTables tables, path, .array item =>
    let (tables, warnings) := walkArrayOfTables item tables path 0
    (.arrayOfTables tables, warnings)
  | item, _, _ => (item, [])

/-- The entries of a table with a shape. -/
def walkTable (fields : List (String × SchemaShape)) (additional : Option SchemaShape) :
    List (String × Item) → String → List (String × Item) × List UnknownConfigKey
  | [], _ => ([], [])
  | (key, item) :: entries, path =>
    let (rest, warnings) := walkTable fields additional entries path
    match (fields.lookup key).or additional with
    | some shape =>
      let (item, itemWarnings) := walkItem item (formatKey path key) shape
      ((key, item) :: rest, itemWarnings ++ warnings)
    | none => (rest, unknownKey source text fields path key :: warnings)

/-- The elements of an array, from `idx` on. -/
def walkArray (shape : SchemaShape) :
    List Item → String → ℕ → List Item × List UnknownConfigKey
  | [], _, _ => ([], [])
  | elem :: elems, path, idx =>
    let (elem, elemWarnings) := walkItem elem (formatIndex path idx) shape
    let (rest, warnings) := walkArray shape elems path (idx + 1)
    (elem :: rest, elemWarnings ++ warnings)

/-- The tables of an array of tables, from `idx` on. -/
def walkArrayOfTables (shape : SchemaShape) :
    List (List (String × Item)) → String → ℕ →
      List (List (String × Item)) × List UnknownConfigKey
  | [], _, _ => ([], [])
  | entries :: tables, path, idx =>
    let (rest, warnings) := walkArrayOfTables shape tables path (idx + 1)
    match shape with
    | .object fields additional =>
      let (entries, tableWarnings) :=
        walkTable fields additional entries (formatIndex path idx)
      (entries :: rest, tableWarnings ++ warnings)
    | _ => (entries :: rest, warnings)

end

/-! ### What is left is a document -/

theorem isValue_walkItem (item : Item) (path : String) (shape : SchemaShape) :
    (walkItem source text item path shape).1.isValue = item.isValue := by
  cases item <;> cases shape <;> rfl

/-- Keys are taken out, and none is added. -/
theorem keys_walkTable (fields : List (String × SchemaShape)) (additional : Option SchemaShape)
    (entries : List (String × Item)) (path : String) :
    ((walkTable source text fields additional entries path).1.map Prod.fst).Sublist
      (entries.map Prod.fst) := by
  induction entries with
  | nil => exact .slnil
  | cons e entries ih =>
    rw [walkTable]
    cases (fields.lookup e.1).or additional with
    | some shape => exact ih.cons_cons e.1
    | none => exact ih.cons e.1

/-- What is left are values if all were. -/
theorem isValue_walkTable (fields : List (String × SchemaShape))
    (additional : Option SchemaShape) (entries : List (String × Item)) (path : String)
    (h : ∀ e ∈ entries, e.2.isValue) :
    ∀ e ∈ (walkTable source text fields additional entries path).1, e.2.isValue := by
  induction entries with
  | nil => exact h
  | cons e entries ih =>
    rw [List.forall_mem_cons] at h
    rw [walkTable]
    cases (fields.lookup e.1).or additional with
    | some shape =>
      refine List.forall_mem_cons.mpr ⟨?_, ih h.2⟩
      rw [isValue_walkItem]
      exact h.1
    | none => exact ih h.2

mutual

theorem wellFormed_walkItem : ∀ (item : Item) (path : String) (shape : SchemaShape),
    item.WellFormed → (walkItem source text item path shape).1.WellFormed
  | .table entries, path, shape, h => by
    cases shape with
    | object fields additional =>
      exact ⟨h.1.sublist (keys_walkTable source text fields additional entries path),
        wellFormed_walkTable fields additional entries path h.2⟩
    | array | «open» | leaf => exact h
  | .inlineTable entries, path, shape, h => by
    cases shape with
    | object fields additional =>
      exact ⟨h.1.sublist (keys_walkTable source text fields additional entries path),
        wellFormed_walkTable fields additional entries path h.2.1,
        isValue_walkTable source text fields additional entries path h.2.2⟩
    | array | «open» | leaf => exact h
  | .array elems, path, shape, h => by
    cases shape with
    | array item => exact wellFormed_walkArray item elems path 0 h
    | object | «open» | leaf => exact h
  | .arrayOfTables tables, path, shape, h => by
    cases shape with
    | array item => exact wellFormed_walkArrayOfTables item tables path 0 h
    | object | «open» | leaf => exact h
  | .scalar value, path, shape, h => by cases shape <;> exact h

theorem wellFormed_walkTable (fields : List (String × SchemaShape))
    (additional : Option SchemaShape) : ∀ (entries : List (String × Item)) (path : String),
    EntriesWellFormed entries →
      EntriesWellFormed (walkTable source text fields additional entries path).1
  | [], _, h => h
  | (key, item) :: entries, path, h => by
    rw [walkTable]
    cases (fields.lookup key).or additional with
    | some shape =>
      exact ⟨wellFormed_walkItem item _ shape h.1,
        wellFormed_walkTable fields additional entries path h.2⟩
    | none => exact wellFormed_walkTable fields additional entries path h.2

theorem wellFormed_walkArray (shape : SchemaShape) : ∀ (elems : List Item) (path : String)
    (idx : ℕ), ValuesWellFormed elems →
      ValuesWellFormed (walkArray source text shape elems path idx).1
  | [], _, _, h => h
  | elem :: elems, path, idx, h => by
    rw [walkArray]
    refine ⟨⟨?_, wellFormed_walkItem elem _ shape h.1.2⟩,
      wellFormed_walkArray shape elems path (idx + 1) h.2⟩
    rw [isValue_walkItem]
    exact h.1.1

theorem wellFormed_walkArrayOfTables (shape : SchemaShape) :
    ∀ (tables : List (List (String × Item))) (path : String) (idx : ℕ),
      TablesWellFormed tables →
      TablesWellFormed (walkArrayOfTables source text shape tables path idx).1
  | [], _, _, h => h
  | entries :: tables, path, idx, h => by
    rw [walkArrayOfTables]
    have hrest := wellFormed_walkArrayOfTables shape tables path (idx + 1) h.2
    cases shape with
    | object fields additional =>
      exact ⟨⟨h.1.1.sublist (keys_walkTable source text fields additional entries _),
        wellFormed_walkTable fields additional entries _ h.1.2⟩, hrest⟩
    | array | «open» | leaf => exact ⟨h.1, hrest⟩

end

end

/-- A document without unknown keys, and the warnings for them. -/
def sanitizeDocument (shape : SchemaShape) (doc : Document) (source : ConfigSource)
    (text : String) : Document × List UnknownConfigKey :=
  match shape with
  | .object fields additional =>
    (⟨(walkTable source text fields additional doc.entries "").1,
        doc.wellFormed.1.sublist (keys_walkTable source text fields additional doc.entries ""),
        wellFormed_walkTable source text fields additional doc.entries "" doc.wellFormed.2⟩,
      (walkTable source text fields additional doc.entries "").2)
  | _ => (doc, [])

/-- It is the walk from the root. -/
theorem sanitizeDocument_eq (shape : SchemaShape) (doc : Document) (source : ConfigSource)
    (text : String) :
    (.table (sanitizeDocument shape doc source text).1.entries,
        (sanitizeDocument shape doc source text).2) =
      walkItem source text (.table doc.entries) "" shape := by
  cases shape <;> rfl

end Shilpo.Config
