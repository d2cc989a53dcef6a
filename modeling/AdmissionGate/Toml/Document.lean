-- TOML documents: lines of headers and pairs, gathered into sections, which
-- together make up one table.
import AdmissionGate.Text.Bytes
import AdmissionGate.Toml.Node

namespace AdmissionGate.Toml

/-! ## Lines -/

/-- A line with something on it: a header, a header in double brackets, or a pair. -/
inductive Line where
  | header (key : Key)
  | arrayHeader (key : Key)
  | pair (key : Key) (value : Node)

/-- Reads a line that is not blank, without its end. -/
def readLine? : Reader Line
  | '[' :: '[' :: s => do
    let (key, s) ← readKey? s
    match s with
    | ']' :: ']' :: rest => some (.arrayHeader key, rest)
    | _ => none
  | '[' :: s => do
    let (key, s) ← readKey? s
    match s with
    | ']' :: rest => some (.header key, rest)
    | _ => none
  | s => do
    let ((key, n), rest) ← readPair? readValue? s
    some (.pair key n, rest)

/-- Reads lines up to the end of the text, with at most `fuel` steps. -/
def linesUpTo? : Nat → List Char → Option (List Line)
  | 0, _ => none
  | fuel + 1, s =>
    match skipGap false s with
    | [] => some []
    | s => do
      let (line, s) ← readLine? s
      let s ← afterLine? s
      let lines ← linesUpTo? fuel s
      some (line :: lines)

/-- The lines of a text. Each step takes at least one character. -/
def lines? (s : List Char) : Option (List Line) := linesUpTo? (s.length + 1) s

/-! ## Sections -/

/-- What begins a section: nothing at the top of a document, or a header of either kind. -/
inductive Heading where
  | top
  | header (key : Key)
  | arrayHeader (key : Key)

structure Section where
  heading : Heading
  pairs : List (Key × Node)

/-- The sections of some lines, which stand below `heading`. -/
def sectionsBelow (heading : Heading) : List Line → List Section
  | [] => [⟨heading, []⟩]
  | .header key :: rest => ⟨heading, []⟩ :: sectionsBelow (.header key) rest
  | .arrayHeader key :: rest => ⟨heading, []⟩ :: sectionsBelow (.arrayHeader key) rest
  | .pair key n :: rest =>
    match sectionsBelow heading rest with
    | [] => []
    | s :: more => { s with pairs := (key, n) :: s.pairs } :: more

/-- What a header names after its section: a new table, or one that paths of longer headers
made, with the pairs of the section. -/
def openTable? (pairs : List (Key × Node)) : Option Node → Option Node
  | none => (addPairs? [] pairs).map (.table .header)
  | some (.table .path fields) => (addPairs? fields pairs).map (.table .header)
  | some _ => none

/-- What a header in double brackets names after its section: an array with one more table. -/
def addTable? (pairs : List (Key × Node)) : Option Node → Option Node
  | none => (addPairs? [] pairs).map fun fields => .tables [fields]
  | some (.tables items) => (addPairs? [] pairs).map fun fields => .tables (items ++ [fields])
  | some _ => none

/-- The document after one more section. -/
def addSection? (root : Fields) (s : Section) : Option Fields :=
  match s.heading with
  | .top => addPairs? root s.pairs
  | .header key => root.change? (openTable? s.pairs) key.last key.stem
  | .arrayHeader key => root.change? (addTable? s.pairs) key.last key.stem

/-! ## Documents -/

/-- The text without a byte order mark in front. -/
def skipMark (s : List Char) : List Char :=
  match s with
  | '\uFEFF' :: rest => rest
  | _ => s

/-- The table that a text is. -/
def ofText? (text : String) : Option Fields := do
  let lines ← lines? (skipMark text.toList)
  (sectionsBelow .top lines).foldlM addSection? []

end AdmissionGate.Toml
