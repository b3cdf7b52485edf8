import Mathlib

/-!
# Layered documents

`desktop/shilpo/src/config/merge.rs` and `provenance.rs`: the configuration is put
together from TOML documents, one laid over the other, and for each value it is noted
which document it came from.

A document is a tree of tables, each spelled as a standard or an inline one, arrays and
scalars. It is one that has been parsed to be changed, and keeps no positions: where the
source asks for one it goes on to what it does without.
-/

namespace Shilpo.Config

/-! ### Documents -/

/-- A scalar. A float is its bits, a datetime its text. -/
inductive Scalar where
  | string (text : String)
  | integer (value : ℤ)
  | float (bits : UInt64)
  | boolean (value : Bool)
  | datetime (text : String)
  deriving DecidableEq

/-- What a key stands for. -/
inductive Item where
  | scalar (value : Scalar)
  | array (elems : List Item)
  | inlineTable (entries : List (String × Item))
  | table (entries : List (String × Item))
  | arrayOfTables (tables : List (List (String × Item)))

namespace Item

/-- A table, however it is spelled. -/
def isTableLike : Item → Bool
  | table _ | inlineTable _ => true
  | _ => false

/-- What can stand in an inline table or an array. -/
def isValue : Item → Bool
  | table _ | arrayOfTables _ => false
  | _ => true

end Item

mutual

/-- Keys are distinct, and there are only values in inline tables and arrays. -/
def Item.WellFormed : Item → Prop
  | .scalar _ => True
  | .array elems => ValuesWellFormed elems
  | .inlineTable entries =>
    (entries.map Prod.fst).Nodup ∧ EntriesWellFormed entries ∧ ∀ e ∈ entries, e.2.isValue
  | .table entries => (entries.map Prod.fst).Nodup ∧ EntriesWellFormed entries
  | .arrayOfTables tables => TablesWellFormed tables

/-- All items are. -/
def EntriesWellFormed : List (String × Item) → Prop
  | [] => True
  | (_, item) :: entries => item.WellFormed ∧ EntriesWellFormed entries

/-- All are, and are values. -/
def ValuesWellFormed : List Item → Prop
  | [] => True
  | item :: elems => (item.isValue ∧ item.WellFormed) ∧ ValuesWellFormed elems

/-- All tables are. -/
def TablesWellFormed : List (List (String × Item)) → Prop
  | [] => True
  | entries :: tables =>
    ((entries.map Prod.fst).Nodup ∧ EntriesWellFormed entries) ∧ TablesWellFormed tables

end

/-- A document: the entries of its root table. -/
structure Document where
  entries : List (String × Item)
  wellFormed : (Item.table entries).WellFormed

/-- The entry of a key is replaced, or a new one comes last. -/
def insertEntry (entries : List (String × Item)) (key : String) (item : Item) :
    List (String × Item) :=
  match entries with
  | [] => [(key, item)]
  | (k, v) :: rest => if k = key then (k, item) :: rest else (k, v) :: insertEntry rest key item

/-! ### Where a value comes from -/

/-- The document. -/
inductive ConfigSource where
  | defaults
  | primary (path : String)
  | fragment (path : String)
  | overrides (path : String)
  deriving DecidableEq

/-- A place in a document. -/
structure SourceLocation where
  source : ConfigSource
  line : Option ℕ
  column : Option ℕ
  deriving DecidableEq

/-- Line and column of a byte, from 1. -/
def lineColFromOffset (text : String) (offset : ℕ) : ℕ × ℕ :=
  (text.toUTF8.toList.take offset).foldl
    (fun (line, col) (b : UInt8) => if b = 10 then (line + 1, 1) else (line, col + 1)) (1, 1)

/-- White space, as Unicode has it. -/
def isWhitespace (c : Char) : Bool :=
  c.toNat ∈ [0x20, 0x85, 0xA0, 0x1680, 0x2028, 0x2029, 0x202F, 0x205F, 0x3000] ||
    (9 ≤ c.toNat && c.toNat ≤ 13) || (0x2000 ≤ c.toNat && c.toNat ≤ 0x200A)

/-- The lines of a text, without their ends. -/
def lines (text : List Char) : List (List Char) :=
  let parts := text.splitOn '\n'
  (if parts.getLast? = some [] then parts.dropLast else parts).map fun line =>
    if line.getLast? = some '\r' then line.dropLast else line

/-- How many bytes the text has. -/
def byteLength (text : List Char) : ℕ := (text.map fun c => c.utf8Size).sum

/-- The rest of the text after `start`. -/
def stripPrefix (start text : List Char) : Option (List Char) :=
  if start.isPrefixOf text then some (text.drop start.length) else none

/-- The byte where a line assigns to the key, quoted or not. -/
def keyOffset (text key : String) : Option ℕ :=
  let quoted := '"' :: key.toList ++ ['"']
  (lines text.toList).zipIdx.findSome? fun (value, line) =>
    let trimmed := value.dropWhile isWhitespace
    match (stripPrefix key.toList trimmed).or (stripPrefix quoted trimmed) with
    | none => none
    | some candidate =>
      if (candidate.dropWhile isWhitespace).head? = some '=' then
        some ((((lines text.toList).take line).map fun l => byteLength l + 1).sum +
          (byteLength value - byteLength trimmed))
      else none

/-- The place in a source's text that is `offset` bytes in, if it is known. -/
def SourceLocation.at (source : ConfigSource) (text : String) : Option ℕ → SourceLocation
  | some offset =>
    ⟨source, some (lineColFromOffset text offset).1, some (lineColFromOffset text offset).2⟩
  | none => ⟨source, none, none⟩

/-- The path of a key below a path. Keys with certain characters are quoted. -/
def formatKey (path key : String) : String :=
  let formattedKey :=
    if key.toList.any (· ∈ ['-', '.', ' ', '"']) then "\"" ++ key ++ "\"" else key
  if path = "" then formattedKey else path ++ "." ++ formattedKey

/-- The path of an element of an array. -/
def formatIndex (path : String) (idx : ℕ) : String := path ++ "[" ++ toString idx ++ "]"

/-- A path is another or, going by its text, below it. -/
def Below (path key : String) : Bool :=
  key = path || (path ++ ".").toList.isPrefixOf key.toList ||
    (path ++ "[").toList.isPrefixOf key.toList

/-- For each path of the configuration, the place its value comes from. -/
structure ConfigProvenance where
  map : AList fun _ : String => SourceLocation

namespace ConfigProvenance

/-- Nothing is noted. -/
def new : ConfigProvenance := ⟨∅⟩

/-- Note where the value of a path comes from. -/
def set (p : ConfigProvenance) (path : String) (loc : SourceLocation) : ConfigProvenance :=
  ⟨p.map.insert path loc⟩

/-- Forget a path and all below it. -/
def removePrefix (p : ConfigProvenance) (path : String) : ConfigProvenance :=
  ⟨⟨p.map.entries.filter fun e => !Below path e.1,
    p.map.nodupKeys.sublist List.filter_sublist⟩⟩

/-- Note a path, unless it is the root's. -/
def setNonempty (p : ConfigProvenance) (path : String) (loc : SourceLocation) :
    ConfigProvenance :=
  if path = "" then p else p.set path loc

end ConfigProvenance

mutual

/-- Note a place for every scalar and every array in an item. -/
def recordProvenanceTree (loc : SourceLocation) : Item → String → ConfigProvenance →
    ConfigProvenance
  | .table entries, path, p => recordEntries loc entries path p
  | .inlineTable entries, path, p => recordEntries loc entries path p
  | .array elems, path, p => recordElems loc elems path 0 (p.setNonempty path loc)
  | .arrayOfTables tables, path, p => recordTables loc tables path 0 (p.setNonempty path loc)
  | .scalar _, path, p => p.setNonempty path loc

/-- The entries of a table. -/
def recordEntries (loc : SourceLocation) : List (String × Item) → String → ConfigProvenance →
    ConfigProvenance
  | [], _, p => p
  | (k, v) :: entries, path, p =>
    recordEntries loc entries path (recordProvenanceTree loc v (formatKey path k) p)

/-- The elements of an array, from `idx` on. -/
def recordElems (loc : SourceLocation) : List Item → String → ℕ → ConfigProvenance →
    ConfigProvenance
  | [], _, _, p => p
  | elem :: elems, path, idx, p =>
    recordElems loc elems path (idx + 1) (recordProvenanceTree loc elem (formatIndex path idx) p)

/-- The tables of an array of tables, from `idx` on. -/
def recordTables (loc : SourceLocation) : List (List (String × Item)) → String → ℕ →
    ConfigProvenance → ConfigProvenance
  | [], _, _, p => p
  | entries :: tables, path, idx, p =>
    recordTables loc tables path (idx + 1) (recordEntries loc entries (formatIndex path idx) p)

end

/-! ### Merging -/

/-- Keys of an inline table over those of another: each takes the place of what was there. -/
def mergeInlineTables (source : ConfigSource) (text path : String) :
    List (String × Item) → List (String × Item) → ConfigProvenance →
      List (String × Item) × ConfigProvenance
  | accTable, [], p => (accTable, p)
  | accTable, (key, newVal) :: newTable, p =>
    mergeInlineTables source text path (insertEntry accTable key newVal) newTable
      (recordProvenanceTree (.at source text none) newVal (formatKey path key)
        (p.removePrefix (formatKey path key)))

mutual

/-- An item over another. -/
def mergeItems (source : ConfigSource) (text : String) : Item → Item → String →
    ConfigProvenance → Item × ConfigProvenance
  -- an inline table under or over a standard one is made a standard one first
  | .inlineTable accTable, .table newTable, path, p =>
    let (entries, p) := mergeTables source text accTable newTable path p
    (.table entries, p)
  | .table accTable, .inlineTable newTable, path, p =>
    let (entries, p) := mergeTables source text accTable newTable path p
    (.table entries, p)
  | .table accTable, .table newTable, path, p =>
    let (entries, p) := mergeTables source text accTable newTable path p
    (.table entries, p)
  | .inlineTable accTable, .inlineTable newTable, path, p =>
    let (entries, p) := mergeInlineTables source text path accTable newTable p
    (.inlineTable entries, p)
  | _, newItem, path, p =>
    (newItem, recordProvenanceTree (.at source text none) newItem path (p.removePrefix path))

/-- A standard table over another. -/
def mergeTables (source : ConfigSource) (text : String) : List (String × Item) →
    List (String × Item) → String → ConfigProvenance → List (String × Item) × ConfigProvenance
  | accTable, [], _, p => (accTable, p)
  | accTable, (key, newVal) :: newTable, path, p =>
    let subpath := formatKey path key
    let loc := SourceLocation.at source text (keyOffset text key)
    match accTable.lookup key with
    | some accVal =>
      if accVal.isTableLike && newVal.isTableLike then
        let (item, p) := mergeItems source text accVal newVal subpath p
        mergeTables source text (insertEntry accTable key item) newTable path p
      else
        mergeTables source text (insertEntry accTable key newVal) newTable path
          (recordProvenanceTree loc newVal subpath (p.removePrefix subpath))
    | none =>
      mergeTables source text (insertEntry accTable key newVal) newTable path
        (recordProvenanceTree loc newVal subpath (p.removePrefix subpath))

end

end Shilpo.Config
