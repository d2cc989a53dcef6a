-- The tokens of a JSON text. Bytes outside strings are ASCII; a string may
-- hold any bytes, and whether they are text is told with the token.
import AdmissionGate.Text.Hex
import AdmissionGate.Number.Binary64

namespace AdmissionGate.Json

/-- A number as written; `integral` if it has neither a point nor an exponent. -/
structure Number where
  literal : DecimalLiteral
  integral : Bool
  deriving DecidableEq, Repr

/-- A token. A string holds its text, or nothing if its escapes or bytes make up no text. -/
inductive Token where
  | openArray
  | closeArray
  | openObject
  | closeObject
  | comma
  | colon
  | null
  | bool (value : Bool)
  | number (value : Number)
  | text (value : Option String)
  deriving DecidableEq, Repr

/-! ## Strings -/

/-- A piece of a string: a byte that stands for itself, or a unit of sixteen bits that was
escaped. -/
inductive Piece where
  | byte (b : UInt8)
  | unit (u : Nat)
  deriving DecidableEq, Repr

/-- What a backslash and one letter stand for. -/
def unescape? (b : UInt8) : Option UInt8 :=
  if b == 0x22 || b == 0x5C || b == 0x2F then some b
  else if b == 0x62 then some 0x08
  else if b == 0x66 then some 0x0C
  else if b == 0x6E then some 0x0A
  else if b == 0x72 then some 0x0D
  else if b == 0x74 then some 0x09
  else none

def charOf (b : UInt8) : Char := Char.ofNat b.toNat

/-- The unit that four hexadecimal digits stand for. -/
def unit? (a b c d : UInt8) : Option Nat := do
  let a ← Hex.value? (charOf a)
  let b ← Hex.value? (charOf b)
  let c ← Hex.value? (charOf c)
  let d ← Hex.value? (charOf d)
  some (((a * 16 + b) * 16 + c) * 16 + d)

def andPiece (p : Piece) (r : Option (List Piece × Bytes)) : Option (List Piece × Bytes) :=
  r.map fun (ps, rest) => (p :: ps, rest)

/-- Reads a string up to its closing quote, the opening one being read already. -/
def readPieces : Bytes → Option (List Piece × Bytes)
  | [] => none
  | 0x22 :: rest => some ([], rest)
  | 0x5C :: 0x75 :: a :: b :: c :: d :: rest =>
    match unit? a b c d with
    | some u => andPiece (.unit u) (readPieces rest)
    | none => none
  | 0x5C :: e :: rest =>
    match unescape? e with
    | some b => andPiece (.byte b) (readPieces rest)
    | none => none
  | b :: rest => if b < 0x20 || b == 0x5C then none else andPiece (.byte b) (readPieces rest)

def isHighSurrogate (u : Nat) : Bool := 0xD800 ≤ u && u ≤ 0xDBFF

def isLowSurrogate (u : Nat) : Bool := 0xDC00 ≤ u && u ≤ 0xDFFF

def pairCode (high low : Nat) : Nat := 0x10000 + (high - 0xD800) * 0x400 + (low - 0xDC00)

/-- The bytes of a string's pieces, if its escaped units pair up. -/
def pieceBytes? : List Piece → Option Bytes
  | [] => some []
  | .byte b :: rest => (pieceBytes? rest).map (b :: ·)
  | .unit u :: .unit v :: rest =>
    if isHighSurrogate u then
      if isLowSurrogate v then
        (pieceBytes? rest).map (String.utf8EncodeChar (Char.ofNat (pairCode u v)) ++ ·)
      else none
    else if isLowSurrogate u then none
    else (pieceBytes? (.unit v :: rest)).map (String.utf8EncodeChar (Char.ofNat u) ++ ·)
  | .unit u :: rest =>
    if isHighSurrogate u || isLowSurrogate u then none
    else (pieceBytes? rest).map (String.utf8EncodeChar (Char.ofNat u) ++ ·)

def pieceText? (ps : List Piece) : Option String := (pieceBytes? ps).bind Bytes.toText?

/-! ## Numbers -/

def isNumberByte (b : UInt8) : Bool :=
  (0x30 ≤ b && b ≤ 0x39) || b == 0x2B || b == 0x2D || b == 0x2E || b == 0x45 || b == 0x65

/-- Whether a literal is written as JSON asks: digits on both sides of a point, and no
leading zero. -/
def isStrict (s : List Char) (x : DecimalLiteral) : Bool :=
  !(s.head? == some '+') && !x.whole.isEmpty
    && !(1 < x.whole.length && x.whole.head? == some '0')
    && (x.fraction.isEmpty → !s.contains '.')

/-- The number that a run of number bytes is. -/
def number? (bs : Bytes) : Option Number :=
  let s := bs.map charOf
  match DecimalLiteral.read? s with
  | some x =>
    if isStrict s x then
      some ⟨x, !(s.contains '.' || s.contains 'e' || s.contains 'E')⟩
    else none
  | none => none

/-! ## Tokens -/

def isSpace (b : UInt8) : Bool := b == 0x20 || b == 0x09 || b == 0x0A || b == 0x0D

def mark? (b : UInt8) : Option Token :=
  if b == 0x5B then some .openArray
  else if b == 0x5D then some .closeArray
  else if b == 0x7B then some .openObject
  else if b == 0x7D then some .closeObject
  else if b == 0x2C then some .comma
  else if b == 0x3A then some .colon
  else none

def words : List (Bytes × Token) :=
  [(Bytes.ofText "null", .null), (Bytes.ofText "true", .bool true),
    (Bytes.ofText "false", .bool false)]

/-- The first token of bytes that do not begin with a blank, and what follows it. -/
def first? (b : UInt8) (rest : Bytes) : Option (Token × Bytes) :=
  match mark? b with
  | some t => some (t, rest)
  | none =>
    if b == 0x22 then (readPieces rest).map fun (ps, rest) => (.text (pieceText? ps), rest)
    else if isNumberByte b then
      (number? (b :: rest.takeWhile isNumberByte)).map fun n =>
        (.number n, rest.dropWhile isNumberByte)
    else (words.find? fun w => w.1.isPrefixOf (b :: rest)).map fun w =>
      (w.2, (b :: rest).drop w.1.length)

/-- The tokens of some bytes, found one by one with at most `fuel` steps. -/
def tokensUpTo : Nat → Bytes → Option (List Token)
  | 0, _ => none
  | _ + 1, [] => some []
  | fuel + 1, b :: rest =>
    if isSpace b then tokensUpTo fuel rest
    else match first? b rest with
      | some (t, rest) => (tokensUpTo fuel rest).map (t :: ·)
      | none => none

/-- The tokens of a JSON text. Each step takes at least one byte. -/
def tokens? (bs : Bytes) : Option (List Token) := tokensUpTo (bs.length + 1) bs

end AdmissionGate.Json
