import Shilpo.Theory.Greatest

/-!
# Fuzzy matching

`fuzzy_match` in `desktop/shilpo/src/shell/overview_search/matcher.rs`: where the characters of a
query are in a text, so that the places have a good score. For each character of the query there is
a row of the best scores that end at each place of the text, made from the row before; the places
are found from the last row backwards.

A row is made again where it is looked at. The second table of the source is not read by anything,
and is left out. Scores are 64-bit integers there, too small to overflow for what fits a memory.
`CharTables` has what Unicode says of characters.
-/

namespace Shilpo.Search

open Theory

/-! ### Characters -/

/-- The lower case of a character, and whether it is of lower or upper case. -/
structure CharTables where
  toLowercase : Char → List Char
  isLowercase : Char → Bool
  isUppercase : Char → Bool

def isDelimiter (c : Char) : Bool :=
  c ∈ [' ', '-', '_', '/', '.', ':', '\\', '\t', '@', '#', '|', '(', '[']

def scoreExactMatch : ℤ := 1000
def scoreFullContiguous : ℤ := 150
def scorePrefix : ℤ := 40
def scoreWordBoundary : ℤ := 30
def scoreConsecutive : ℤ := 30
def scoreBaseMatch : ℤ := 10
def scoreCaseMatch : ℤ := 5
def scoreGapOpen : ℤ := 20
def scoreGapExtension : ℤ := 1
def scoreLeadingGapPenalty : ℤ := 2
def maxLeadingPenalty : ℤ := 25
def scoreTrailingGapPenalty : ℤ := 1
def negInfinity : ℤ := -1000000000

/-- A score, and where the characters of the query are. -/
structure MatchResult where
  score : ℤ
  positions : List ℕ
  deriving DecidableEq

section

variable (tables : CharTables)

def charsEqualIgnoreCase (a b : Char) : Bool :=
  a = b || tables.toLowercase a = tables.toLowercase b

/-- What of the query is left when the target has been gone through. -/
def remaining : List Char → List Char → List Char
  | qc :: query, tc :: target =>
    if charsEqualIgnoreCase tables qc tc then remaining query target
    else remaining (qc :: query) target
  | query, _ => query

/-! ### Scores -/

variable (target : List Char)

def charAt (j : ℕ) : Char := target.getD j ' '

/-- For the beginning of the target or of a word. -/
def bonus (j : ℕ) : ℤ :=
  if j = 0 then scorePrefix + scoreWordBoundary
  else if isDelimiter (charAt target (j - 1)) ||
      (tables.isLowercase (charAt target (j - 1)) && tables.isUppercase (charAt target j)) then
    scoreWordBoundary
  else 0

def caseBonus (qc : Char) (j : ℕ) : ℤ := if qc = charAt target j then scoreCaseMatch else 0

/-- The first character of the query. -/
def firstScore (qc : Char) (j : ℕ) : ℤ :=
  scoreBaseMatch + bonus tables target j - min (j * scoreLeadingGapPenalty) maxLeadingPenalty +
    caseBonus target qc j

/-- A character next to the one before. -/
def consecutiveScore (qc : Char) (j : ℕ) : ℤ :=
  scoreBaseMatch + scoreConsecutive + caseBonus target qc j

/-- A character at `j` after the one before at `k`, with a gap between them. -/
def gapScore (qc : Char) (k j : ℕ) : ℤ :=
  scoreBaseMatch + bonus tables target j -
    (scoreGapOpen + ((j - 1 - k : ℕ) : ℤ) * scoreGapExtension) + caseBonus target qc j

/-! ### The table -/

def firstRow (qc : Char) : List ℤ :=
  (List.range target.length).map fun j =>
    if charsEqualIgnoreCase tables qc (charAt target j) then firstScore tables target qc j
    else negInfinity

/-- A cell of a row; where there is none, nothing ends. -/
def cellAt (row : List ℤ) (j : ℕ) : ℤ := row.getD j negInfinity

/-- The best score that ends at `j` with a gap before it. -/
def bestGapScore (prev : List ℤ) (qc : Char) (j : ℕ) : ℤ :=
  ((List.range (j - 1)).foldl
    (keepGreater fun k =>
      if cellAt prev k ≠ negInfinity then some (cellAt prev k + gapScore tables target qc k j)
      else none)
    (negInfinity, 0)).1

def nextCell (prev : List ℤ) (qc : Char) (j : ℕ) : ℤ :=
  if j = 0 then negInfinity
  else if charsEqualIgnoreCase tables qc (charAt target j) then
    max
      (if cellAt prev (j - 1) ≠ negInfinity then
        cellAt prev (j - 1) + consecutiveScore target qc j
      else negInfinity)
      (bestGapScore tables target prev qc j)
  else negInfinity

/-- The row of a character of the query, from the row before. -/
def nextRow (prev : List ℤ) (qc : Char) : List ℤ :=
  (List.range target.length).map (nextCell tables target prev qc)

/-- The row of the last character of a query that is read backwards. -/
def lastRow : List Char → List ℤ
  | [] => []
  | [qc] => firstRow tables target qc
  | qc :: query => nextRow tables target (lastRow query) qc

/-- The best score with what is behind the end taken off, and the end. -/
def bestEnd (n : ℕ) (row : List ℤ) : ℤ × ℕ :=
  (List.range' (n - 1) (target.length - (n - 1))).foldl
    (keepGreater fun j =>
      if cellAt row j ≠ negInfinity then
        some (cellAt row j - ((target.length - 1 - j : ℕ) : ℤ) * scoreTrailingGapPenalty)
      else none)
    (negInfinity, 0)

/-- Where the character before the one at `j` is. -/
def predecessor (prev row : List ℤ) (qc : Char) (j : ℕ) : ℕ :=
  if cellAt prev (j - 1) ≠ negInfinity &&
      cellAt row j = cellAt prev (j - 1) + consecutiveScore target qc j then j - 1
  else
    ((List.range (j - 1)).reverse.find? fun k =>
      cellAt prev k ≠ negInfinity &&
        cellAt prev k + gapScore tables target qc k j = cellAt row j).getD 0

/-- The places of a query that ends at `j`, both backwards. -/
def backtrack : List Char → ℕ → List ℕ
  | qc :: next :: query, j =>
    j :: backtrack (next :: query)
      (predecessor tables target (lastRow tables target (next :: query))
        (lastRow tables target (qc :: next :: query)) qc j)
  | _, j => [j]

/-- The places are `n` next to one another. -/
def contiguous (n : ℕ) (positions : List ℕ) : Bool :=
  positions.length = n && positions.getLastD 0 - positions.headD 0 + 1 = n

/-- Where a query is in a target, and how good that is. -/
def fuzzyMatch (query target : String) : Option MatchResult :=
  let q := query.toList
  let t := target.toList
  if q = [] || t = [] then none
  else if t.length < q.length then none
  else if remaining tables q t ≠ [] then none
  else
    let (best, last) := bestEnd t q.length (lastRow tables t q.reverse)
    if best ≤ negInfinity / 2 then none
    else
      let positions := (backtrack tables t q.reverse last).reverse
      some
        { score := best + (if contiguous q.length positions then scoreFullContiguous else 0) +
            (if q.length = t.length then scoreExactMatch else 0)
          positions }

end

end Shilpo.Search
