-- Values and tables of TOML. A table remembers how it came to be, since that
-- decides whether more may be added to it.
import AdmissionGate.Number.Binary64
import AdmissionGate.Text.Hex
import AdmissionGate.Toml.DateTime
import AdmissionGate.Toml.Text

namespace AdmissionGate.Toml

/-- How a table came to be: written in braces, by a header of its own, as part of the path of
a longer header, or by a dotted key. -/
inductive Origin where
  | braces
  | header
  | path
  | dotted
  deriving DecidableEq, Repr

/-- A value, a table, or the tables that headers in double brackets add to an array. Numbers
with a point or an exponent are known to be numbers, and no more. -/
inductive Node where
  | text (value : String)
  | int (value : Int)
  | float
  | bool (value : Bool)
  | dateTime (value : DateTime)
  | list (items : List Node)
  | table (origin : Origin) (fields : List (String × Node))
  | tables (items : List (List (String × Node)))

abbrev Fields := List (String × Node)

namespace Fields

def find? (fields : Fields) (name : String) : Option Node := fields.lookup name

/-- Fields with the node of a name set: in its place, or at the end if the name is new. -/
def set (name : String) (n : Node) : Fields → Fields
  | [] => [(name, n)]
  | f :: rest => if f.1 = name then (name, n) :: rest else f :: set name n rest

/-- Fields with one more, unless its name is there already. -/
def add? (name : String) (n : Node) (fields : Fields) : Option Fields :=
  if (find? fields name).isSome then none else some (set name n fields)

/-- Changes the last of the tables of an array. -/
def changeLast? (f : Fields → Option Fields) (items : List Fields) : Option (List Fields) :=
  match items.reverse with
  | [] => none
  | last :: before => (f last).map fun last => (last :: before).reverse

/-- Adds a value under a dotted key. The key may pass through tables that other dotted keys
or the paths of headers made, and through the last table of an array, but may end only in a
table that dotted keys made. -/
def addDotted? (v : Node) (last : String) : List String → Fields → Option Fields
  | [], fields => add? last v fields
  | k :: rest, fields =>
    match find? fields k with
    | none => do
      let inner ← addDotted? v last rest []
      some (set k (.table .dotted inner) fields)
    | some (.table origin inner) =>
      if origin = .dotted || (origin = .path && !rest.isEmpty) then do
        let inner ← addDotted? v last rest inner
        some (set k (.table origin inner) fields)
      else none
    | some (.tables items) =>
      if rest.isEmpty then none
      else do
        let items ← changeLast? (addDotted? v last rest) items
        some (set k (.tables items) fields)
    | some _ => none

/-- Changes what a header names. The header may pass through tables that were not written in
braces, and through the last table of an array; tables that are missing are made. -/
def change? (f : Option Node → Option Node) (last : String) : List String → Fields → Option Fields
  | [], fields => (f (find? fields last)).map fun n => set last n fields
  | k :: rest, fields =>
    match find? fields k with
    | none => do
      let inner ← change? f last rest []
      some (set k (.table .path inner) fields)
    | some (.table origin inner) =>
      if origin = .braces then none
      else do
        let inner ← change? f last rest inner
        some (set k (.table origin inner) fields)
    | some (.tables items) => do
      let items ← changeLast? (change? f last rest) items
      some (set k (.tables items) fields)
    | some _ => none

end Fields

/-! ## Numbers -/

/-- Digits of a radix, perhaps with single underscores between them, as one number. -/
def readDigits? (radix : Nat) (s : List Char) : Option Nat :=
  let groups := Text.pieces (· == '_') s
  if groups.any (·.isEmpty) then none
  else (groups.flatten.mapM fun c => (Hex.value? c).filter (· < radix)).map fun ds =>
    ds.foldl (fun n d => n * radix + d) 0

/-- A decimal integer without sign: no leading zero. -/
def readPlain? (s : List Char) : Option Nat :=
  if 1 < s.length && s.head? == some '0' then none else readDigits? 10 s

/-- The text without a sign in front, and whether the sign is a minus. -/
def splitSign (s : List Char) : Bool × List Char :=
  match s with
  | '+' :: rest => (false, rest)
  | '-' :: rest => (true, rest)
  | _ => (false, s)

/-- The integer that a word is: decimal with or without a sign, or in one of three other
radixes. -/
def readInt? : List Char → Option Int
  | '0' :: 'x' :: digits => (readDigits? 16 digits).map fun n => (n : Int)
  | '0' :: 'o' :: digits => (readDigits? 8 digits).map fun n => (n : Int)
  | '0' :: 'b' :: digits => (readDigits? 2 digits).map fun n => (n : Int)
  | s =>
    let (negative, digits) := splitSign s
    (readPlain? digits).map fun n => if negative then - (n : Int) else n

/-- Whether text is a decimal point and digits, or nothing. -/
def isFraction : List Char → Bool
  | [] => true
  | '.' :: digits => (readDigits? 10 digits).isSome
  | _ => false

/-- Whether text is an exponent, a sign perhaps and digits, or nothing. -/
def isScale : List Char → Bool
  | [] => true
  | c :: rest => (c == 'e' || c == 'E') && (readDigits? 10 (splitSign rest).2).isSome

/-- Whether a word is a number with a fraction, an exponent or both, or one of the words for
what is no finite number. A positive number must not be too large for a binary64. -/
def isFloat (s : List Char) : Bool :=
  let (negative, body) := splitSign s
  let isMark (c : Char) : Bool := c == '.' || c == 'e' || c == 'E'
  let isExponentMark (c : Char) : Bool := c == 'e' || c == 'E'
  let whole := body.takeWhile (!isMark ·)
  let rest := body.dropWhile (!isMark ·)
  let fraction := rest.takeWhile (!isExponentMark ·)
  let scale := rest.dropWhile (!isExponentMark ·)
  let written := (readPlain? whole).isSome && !rest.isEmpty && isFraction fraction && isScale scale
  let size := (DecimalLiteral.read? (body.filter (· != '_'))).bind DecimalLiteral.toBinary64?
  body == ['i', 'n', 'f'] || body == ['n', 'a', 'n'] || (written && (negative || size.isSome))

/-! ## Words -/

/-- A character of a number, a date or a word. -/
def isWordChar (c : Char) : Bool := isBare c || c == '+' || c == '.' || c == ':'

/-- The value that a word is. -/
def ofWord? (s : List Char) : Option Node :=
  if s == ['t', 'r', 'u', 'e'] then some (.bool true)
  else if s == ['f', 'a', 'l', 's', 'e'] then some (.bool false)
  else match DateTime.ofChars? s with
    | some m => some (.dateTime m)
    | none => match readInt? s with
      | some n => if Decimal.minI64 ≤ n && n ≤ Decimal.maxI64 then some (.int n) else none
      | none => if isFloat s then some .float else none

/-- Reads a word; a date and a time of day are one, with a space between them. -/
def readWord? (s : List Char) : Option (Node × List Char) :=
  let word := s.takeWhile isWordChar
  let rest := s.dropWhile isWordChar
  let time := (rest.drop 1).takeWhile isWordChar
  match if rest.head? == some ' ' then DateTime.ofChars? (word ++ ' ' :: time) else none with
  | some m => some (.dateTime m, (rest.drop 1).dropWhile isWordChar)
  | none => (ofWord? word).map fun n => (n, rest)

/-! ## Values -/

/-- Reads the items of an array up to its closing bracket. A comma may follow the last item. -/
def readItems? (item : Reader Node) : Nat → Reader (List Node)
  | 0, _ => none
  | fuel + 1, s =>
    match skipGap false s with
    | ']' :: rest => some ([], rest)
    | s => do
      let (n, s) ← item s
      match skipGap false s with
      | ',' :: rest =>
        let (more, rest) ← readItems? item fuel rest
        some (n :: more, rest)
      | ']' :: rest => some ([n], rest)
      | _ => none

def readPair? (value : Reader Node) : Reader (Key × Node) := fun s => do
  let (key, s) ← readKey? s
  match s with
  | '=' :: s =>
    let (n, s) ← value (skipBlank s)
    some ((key, n), s)
  | _ => none

/-- Reads the pairs of a table in braces, the first of which comes next. -/
def readPairs? (value : Reader Node) : Nat → Reader (List (Key × Node))
  | 0, _ => none
  | fuel + 1, s => do
    let (pair, s) ← readPair? value s
    match skipBlank s with
    | ',' :: rest =>
      let (more, rest) ← readPairs? value fuel rest
      some (pair :: more, rest)
    | '}' :: rest => some ([pair], rest)
    | _ => none

def addPairs? (fields : Fields) (pairs : List (Key × Node)) : Option Fields :=
  pairs.foldlM (fun fields (key, n) => fields.addDotted? n key.last key.stem) fields

/-- Reads a table in braces, of which the opening one is read. -/
def readBraces? (value : Reader Node) : Reader Node := fun s =>
  match skipBlank s with
  | '}' :: rest => some (.table .braces [], rest)
  | s => do
    let (pairs, rest) ← readPairs? value (s.length + 1) s
    let fields ← addPairs? [] pairs
    some (.table .braces fields, rest)

/-- Reads a value in which containers nest at most `levels` deep. -/
def readValueUpTo? : Nat → Reader Node
  | 0, s => (readString? s).elim (readWord? s) fun (t, rest) => some (.text t, rest)
  | levels + 1, s =>
    match s with
    | '[' :: s => do
      let (items, rest) ← readItems? (readValueUpTo? levels) (s.length + 1) s
      some (.list items, rest)
    | '{' :: s => readBraces? (readValueUpTo? levels) s
    | _ => (readString? s).elim (readWord? s) fun (t, rest) => some (.text t, rest)

def readValue? : Reader Node := readValueUpTo? maxLevels

end AdmissionGate.Toml
