-- The text of TOML: blanks, comments and line ends, strings of four kinds,
-- and keys.
import AdmissionGate.Text.Blank
import AdmissionGate.Text.Hex

namespace AdmissionGate.Toml

/-- A reader takes what it reads from the front of the characters, and gives the rest. -/
abbrev Reader (α : Type) := List Char → Option (α × List Char)

/-! ## Blanks and line ends -/

def isBlank (c : Char) : Bool := c == ' ' || c == '\t'

/-- A character that may stand in a string or a comment: no control character but the tab. -/
def isPlain (c : Char) : Bool := c == '\t' || (' ' ≤ c && c ≤ '~') || 0x80 ≤ c.toNat

def skipBlank (s : List Char) : List Char := s.dropWhile isBlank

def afterBreak? : List Char → Option (List Char)
  | '\n' :: rest => some rest
  | '\r' :: '\n' :: rest => some rest
  | _ => none

/-- What follows blanks, perhaps a comment, and the end of the line. -/
def afterLine? (s : List Char) : Option (List Char) :=
  let rest := match skipBlank s with
    | '#' :: comment => comment.dropWhile isPlain
    | rest => rest
  if rest.isEmpty then some [] else afterBreak? rest

/-- The characters after blanks, comments and line breaks; `inside` says whether a comment
has begun. -/
def skipGap (inside : Bool) : List Char → List Char
  | '\r' :: '\n' :: rest => skipGap false rest
  | c :: rest =>
    if c == '\n' then skipGap false rest
    else if inside && isPlain c then skipGap true rest
    else if inside then c :: rest
    else if isBlank c then skipGap false rest
    else if c == '#' then skipGap true rest
    else c :: rest
  | [] => []

/-! ## Strings -/

def andChars (cs : List Char) (r : Option (List Char × List Char)) :
    Option (List Char × List Char) :=
  r.map fun (more, rest) => (cs ++ more, rest)

def unescape? : Char → Option Char
  | 'b' => some '\x08'
  | 't' => some '\t'
  | 'n' => some '\n'
  | 'f' => some '\x0C'
  | 'r' => some '\r'
  | '"' => some '"'
  | '\\' => some '\\'
  | _ => none

/-- The character with a hexadecimal code. -/
def charOfHex? (digits : List Char) : Option Char := do
  let ds ← digits.mapM Hex.value?
  let code := ds.foldl (fun n d => n * 16 + d) 0
  if code.isValidChar then some (Char.ofNat code) else none

def readQuoted? : Reader (List Char)
  | [] => none
  | '"' :: rest => some ([], rest)
  | '\\' :: 'u' :: a :: b :: c :: d :: rest =>
    match charOfHex? [a, b, c, d] with
    | some x => andChars [x] (readQuoted? rest)
    | none => none
  | '\\' :: 'U' :: a :: b :: c :: d :: e :: f :: g :: h :: rest =>
    match charOfHex? [a, b, c, d, e, f, g, h] with
    | some x => andChars [x] (readQuoted? rest)
    | none => none
  | '\\' :: c :: rest =>
    match unescape? c with
    | some x => andChars [x] (readQuoted? rest)
    | none => none
  | c :: rest => if isPlain c && c != '\\' then andChars [c] (readQuoted? rest) else none

def readLiteral? : Reader (List Char)
  | [] => none
  | '\'' :: rest => some ([], rest)
  | c :: rest => if isPlain c then andChars [c] (readLiteral? rest) else none

/-- Whether a backslash before `s` ends its line. -/
def endsLine (s : List Char) : Bool := (afterBreak? (skipBlank s)).isSome

/-- Reads a quoted string of several lines up to its three closing quotes, before which one or
two more quotes belong to the string. `folding` says that blanks and line breaks are skipped,
as they are after a backslash at the end of a line. -/
def readQuotedLines? (folding : Bool) : Reader (List Char)
  | [] => none
  | '"' :: '"' :: '"' :: '"' :: '"' :: rest => some (['"', '"'], rest)
  | '"' :: '"' :: '"' :: '"' :: rest => some (['"'], rest)
  | '"' :: '"' :: '"' :: rest => some ([], rest)
  | '\r' :: '\n' :: rest =>
    andChars (if folding then [] else ['\n']) (readQuotedLines? folding rest)
  | '\\' :: 'u' :: a :: b :: c :: d :: rest =>
    match charOfHex? [a, b, c, d] with
    | some x => andChars [x] (readQuotedLines? false rest)
    | none => none
  | '\\' :: 'U' :: a :: b :: c :: d :: e :: f :: g :: h :: rest =>
    match charOfHex? [a, b, c, d, e, f, g, h] with
    | some x => andChars [x] (readQuotedLines? false rest)
    | none => none
  | '\\' :: c :: rest =>
    if endsLine (c :: rest) then readQuotedLines? true (c :: rest)
    else match unescape? c with
      | some x => andChars [x] (readQuotedLines? false rest)
      | none => none
  | c :: rest =>
    if folding && (isBlank c || c == '\n') then readQuotedLines? true rest
    else if (isPlain c || c == '\n') && c != '\\' then
      andChars [c] (readQuotedLines? false rest)
    else none

/-- Reads a literal string of several lines up to its three closing quotes. -/
def readLiteralLines? : Reader (List Char)
  | [] => none
  | '\'' :: '\'' :: '\'' :: '\'' :: '\'' :: rest => some (['\'', '\''], rest)
  | '\'' :: '\'' :: '\'' :: '\'' :: rest => some (['\''], rest)
  | '\'' :: '\'' :: '\'' :: rest => some ([], rest)
  | '\r' :: '\n' :: rest => andChars ['\n'] (readLiteralLines? rest)
  | c :: rest =>
    if isPlain c || c == '\n' then andChars [c] (readLiteralLines? rest) else none

/-- The characters after a line break, if there is one. -/
def skipBreak (s : List Char) : List Char := (afterBreak? s).getD s

/-- Reads a string of any kind, if the characters begin with a quote. A line break right
after three opening quotes does not belong to the string. -/
def readString? (s : List Char) : Option (String × List Char) :=
  let chars := match s with
    | '"' :: '"' :: '"' :: rest => readQuotedLines? false (skipBreak rest)
    | '"' :: rest => readQuoted? rest
    | '\'' :: '\'' :: '\'' :: rest => readLiteralLines? (skipBreak rest)
    | '\'' :: rest => readLiteral? rest
    | _ => none
  chars.map fun (cs, rest) => (String.ofList cs, rest)

/-! ## Keys -/

/-- A character of a bare name. -/
def isBare (c : Char) : Bool :=
  ('a' ≤ c && c ≤ 'z') || ('A' ≤ c && c ≤ 'Z') || ('0' ≤ c && c ≤ '9') || c == '-' || c == '_'

/-- Reads one name of a key. -/
def readName? (s : List Char) : Option (String × List Char) :=
  match s with
  | '"' :: rest => (readQuoted? rest).map fun (cs, rest) => (String.ofList cs, rest)
  | '\'' :: rest => (readLiteral? rest).map fun (cs, rest) => (String.ofList cs, rest)
  | _ =>
    let name := s.takeWhile isBare
    if name.isEmpty then none else some (String.ofList name, s.dropWhile isBare)

structure Key where
  stem : List String
  last : String

/-- Reads a key of at most `limit` names. -/
def readKeyUpTo? : Nat → Reader Key
  | 0, _ => none
  | limit + 1, s => do
    let (name, rest) ← readName? (skipBlank s)
    match skipBlank rest with
    | '.' :: rest =>
      let (key, rest) ← readKeyUpTo? limit rest
      some (⟨name :: key.stem, key.last⟩, rest)
    | rest => some (⟨[], name⟩, rest)

/-- The number of levels that a document may have: names in a key, or containers one in
another. -/
def maxLevels : Nat := 79

def readKey? : Reader Key := readKeyUpTo? maxLevels

end AdmissionGate.Toml
