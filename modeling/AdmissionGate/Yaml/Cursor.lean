-- The characters of a YAML stream, and a place in it: what is still to come,
-- and the line and column that it comes at.
import AdmissionGate.Text.Bytes

namespace AdmissionGate.Yaml

/-! ## Characters -/

def isBlank (c : Char) : Bool := c == ' ' || c == '\t'

def isBreak (c : Char) : Bool :=
  c == '\n' || c == '\r' || c == '\u0085' || c == '\u2028' || c == '\u2029'

/-- A letter, a digit, a hyphen or an underscore of ASCII. -/
def isWord (c : Char) : Bool :=
  ('0' ≤ c && c ≤ '9') || ('A' ≤ c && c ≤ 'Z') || ('a' ≤ c && c ≤ 'z') || c == '-' || c == '_'

/-- A character that may stand in a stream. -/
def isAllowed (c : Char) : Bool :=
  let n := c.toNat
  n == 0x9 || n == 0xA || n == 0xD || (0x20 ≤ n && n ≤ 0x7E) || n == 0x85
    || (0xA0 ≤ n && n ≤ 0xD7FF) || (0xE000 ≤ n && n ≤ 0xFFFD && n != 0xFEFF) || 0x10000 ≤ n

/-- The character of two units of sixteen bits, or of one. -/
def unitsText? : List Nat → Option (List Char)
  | [] => some []
  | u :: v :: rest =>
    if 0xD800 ≤ u && u ≤ 0xDBFF then
      if 0xDC00 ≤ v && v ≤ 0xDFFF then
        (unitsText? rest).map (Char.ofNat (0x10000 + (u - 0xD800) * 0x400 + (v - 0xDC00)) :: ·)
      else none
    else if 0xDC00 ≤ u && u ≤ 0xDFFF then none
    else (unitsText? (v :: rest)).map (Char.ofNat u :: ·)
  | [u] => if 0xD800 ≤ u && u ≤ 0xDFFF then none else some [Char.ofNat u]

/-- Units of sixteen bits from pairs of bytes, of which `join` makes one number. -/
def units? (join : Nat → Nat → Nat) : Bytes → Option (List Nat)
  | [] => some []
  | a :: b :: rest => (units? join rest).map (join a.toNat b.toNat :: ·)
  | _ => none

/-- The characters of a stream in UTF-8, or in UTF-16 after a byte order mark. -/
def decode? : Bytes → Option (List Char)
  | 0xFF :: 0xFE :: rest => (units? (fun a b => b * 256 + a) rest).bind unitsText?
  | 0xFE :: 0xFF :: rest => (units? (fun a b => a * 256 + b) rest).bind unitsText?
  | 0xEF :: 0xBB :: 0xBF :: rest => (Bytes.parts rest).mapM id
  | bs => (Bytes.parts bs).mapM id

/-- The characters of a stream, if all of them may stand in one. -/
def characters? (bs : Bytes) : Option (List Char) := (decode? bs).filter (·.all isAllowed)

/-! ## Places -/

/-- A place in a stream: what is still to come, how many characters came before, and the line
and column. -/
structure Cursor where
  rest : List Char
  index : Nat
  line : Nat
  column : Nat

namespace Cursor

def start (cs : List Char) : Cursor := ⟨cs, 0, 0, 0⟩

/-- The character `n` places ahead. -/
def peek (c : Cursor) (n : Nat) : Option Char := c.rest[n]?

def isAt (c : Cursor) (ch : Char) : Bool := c.rest.head? == some ch

def holdsAt (c : Cursor) (n : Nat) (p : Char → Bool) : Bool := (c.peek n).any p

/-- Whether a line or the stream ends `n` places ahead. -/
def endsLineAt (c : Cursor) (n : Nat) : Bool := (c.peek n).all isBreak

/-- Whether a blank, or the end of a line or of the stream, is `n` places ahead. -/
def endsWordAt (c : Cursor) (n : Nat) : Bool := (c.peek n).all fun ch => isBlank ch || isBreak ch

/-- The place `n` characters on in the same line. -/
def skip (c : Cursor) (n : Nat) : Cursor :=
  ⟨c.rest.drop n, c.index + n, c.line, c.column + n⟩

/-- The place after the characters in front that satisfy `p`, none of which ends a line. -/
def skipWhile (c : Cursor) (p : Char → Bool) : Cursor := c.skip (c.rest.takeWhile p).length

/-- The place after the end of a line, and how the line's end is kept: as a line feed, unless
it is one of the two separators of Unicode. -/
def readBreak (c : Cursor) : List Char × Cursor :=
  match c.rest with
  | '\r' :: '\n' :: rest => (['\n'], ⟨rest, c.index + 2, c.line + 1, 0⟩)
  | ch :: rest =>
    if isBreak ch then
      (if ch == '\u2028' || ch == '\u2029' then [ch] else ['\n'],
        ⟨rest, c.index + 1, c.line + 1, 0⟩)
    else ([], c)
  | [] => ([], c)

/-- Whether a document's begin or end is marked here: `---` or `...` at the start of a line. -/
def isDocumentMark (c : Cursor) : Bool :=
  c.column == 0 && c.endsWordAt 3
    && (c.rest.take 3 == ['-', '-', '-'] || c.rest.take 3 == ['.', '.', '.'])

end Cursor

/-! ## Gaps -/

/-- Blanks and line ends between two parts of a scalar: the blanks before the first line end,
that line end, and the further ones. -/
structure Gap where
  broken : Bool
  blanks : List Char
  first : List Char
  more : List Char

namespace Gap

def empty : Gap := ⟨false, [], [], []⟩

/-- What a gap stands for: its blanks, or a single line end folded to a space, or the line
ends after the first. -/
def text (g : Gap) : List Char :=
  if !g.broken then g.blanks
  else if g.first == ['\n'] then if g.more.isEmpty then [' '] else g.more
  else g.first ++ g.more

def blank (g : Gap) (c : Char) : Gap := if g.broken then g else { g with blanks := g.blanks ++ [c] }

def lineEnd (g : Gap) (b : List Char) : Gap :=
  if g.broken then { g with more := g.more ++ b } else ⟨true, [], b, g.more⟩

/-- Reads a gap. A tab that stands for indentation, left of `indent`, is refused. -/
def read? (indent : Nat) : Nat → Gap → Cursor → Option (Gap × Cursor)
  | 0, g, c => some (g, c)
  | fuel + 1, g, c =>
    match c.rest with
    | [] => some (g, c)
    | ch :: _ =>
      if isBlank ch then
        if g.broken && c.column < indent && ch == '\t' then none
        else read? indent fuel (g.blank ch) (c.skip 1)
      else if isBreak ch then
        let (b, c) := c.readBreak
        read? indent fuel (g.lineEnd b) c
      else some (g, c)

end Gap

end AdmissionGate.Yaml
