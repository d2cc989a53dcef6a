-- Base64 with the standard alphabet and padding.
import AdmissionGate.Text.Bytes

namespace AdmissionGate.Base64

/-! ## The alphabet -/

def symbol (n : Nat) : UInt8 :=
  if n < 26 then UInt8.ofNat (0x41 + n)
  else if n < 52 then UInt8.ofNat (0x61 + (n - 26))
  else if n < 62 then UInt8.ofNat (0x30 + (n - 52))
  else if n = 62 then 0x2B
  else 0x2F

def value? (b : UInt8) : Option Nat :=
  if 0x41 ≤ b && b ≤ 0x5A then some (b.toNat - 0x41)
  else if 0x61 ≤ b && b ≤ 0x7A then some (b.toNat - 0x61 + 26)
  else if 0x30 ≤ b && b ≤ 0x39 then some (b.toNat - 0x30 + 52)
  else if b == 0x2B then some 62
  else if b == 0x2F then some 63
  else none

/-- The byte that fills up the last four symbols. -/
def padding : UInt8 := 0x3D

/-! ## Writing -/

/-- Four symbols for every three bytes, the last four filled up with padding. -/
def encode : Bytes → Bytes
  | [] => []
  | [a] => [symbol (a.toNat / 4), symbol (a.toNat % 4 * 16), padding, padding]
  | [a, b] =>
    [symbol (a.toNat / 4), symbol (a.toNat % 4 * 16 + b.toNat / 16),
      symbol (b.toNat % 16 * 4), padding]
  | a :: b :: c :: rest =>
    symbol (a.toNat / 4) :: symbol (a.toNat % 4 * 16 + b.toNat / 16)
      :: symbol (b.toNat % 16 * 4 + c.toNat / 64) :: symbol (c.toNat % 64) :: encode rest

/-! ## Reading -/

inductive Error where
  | invalidByte (offset : Nat) (byte : UInt8)
  | invalidLength (length : Nat)
  | invalidLastSymbol (offset : Nat) (byte : UInt8)
  | invalidPadding
  deriving DecidableEq, Repr

def Error.message : Error → String
  | .invalidByte offset byte => s!"Invalid symbol {byte.toNat}, offset {offset}."
  | .invalidLength length => s!"Invalid input length: {length}"
  | .invalidLastSymbol offset byte => s!"Invalid last symbol {byte.toNat}, offset {offset}."
  | .invalidPadding => "Invalid padding"

/-- The three bytes of four values. -/
def group (a b c d : Nat) : Bytes :=
  [UInt8.ofNat (a * 4 + b / 16), UInt8.ofNat (b % 16 * 16 + c / 4), UInt8.ofNat (c % 4 * 64 + d)]

/-- The first byte that is no symbol, with its offset. -/
def firstInvalid? (offset : Nat) : Bytes → Option (Nat × UInt8)
  | [] => none
  | b :: rest => if (value? b).isNone then some (offset, b) else firstInvalid? (offset + 1) rest

/-- The bytes of the symbols in a last group, `none` if bits are left over. -/
def lastBytes? : List Nat → Option Bytes
  | [a, b] => if b % 16 = 0 then some [UInt8.ofNat (a * 4 + b / 16)] else none
  | [a, b, c] =>
    if c % 4 = 0 then some [UInt8.ofNat (a * 4 + b / 16), UInt8.ofNat (b % 16 * 16 + c / 4)]
    else none
  | [a, b, c, d] => some (group a b c d)
  | _ => some []

/-- Reads the last group, of at most four bytes, which begins at `offset`. Symbols come first
and padding after them; of a single symbol nothing can be read, padding must fill the group,
and the bits that it leaves over must be zero. -/
def decodeLast (offset : Nat) (bs : Bytes) : Except Error Bytes :=
  let symbols := bs.takeWhile (· != padding)
  let fill := bs.dropWhile (· != padding)
  let last := offset + (symbols.length - 1)
  match firstInvalid? offset symbols with
  | some (i, b) => .error (.invalidByte i b)
  | none =>
    if bs.isEmpty then .ok []
    else if !fill.isEmpty && (symbols.length < 2 || fill.any (· != padding)) then
      .error (.invalidByte (offset + symbols.length) padding)
    else if symbols.length < 2 then .error (.invalidLength (offset + symbols.length))
    else if bs.length ≠ 4 then .error .invalidPadding
    else match lastBytes? (symbols.filterMap value?) with
      | some out => .ok out
      | none => .error (.invalidLastSymbol last (symbols.getLastD 0))

/-- Reads bytes that begin at `offset` of the whole. -/
def decodeFrom (offset : Nat) : Bytes → Except Error Bytes
  | a :: b :: c :: d :: e :: rest =>
    match firstInvalid? offset [a, b, c, d] with
    | some (i, byte) => .error (.invalidByte i byte)
    | none =>
      match [a, b, c, d].filterMap value? with
      | [a, b, c, d] => (decodeFrom (offset + 4) (e :: rest)).map (group a b c d ++ ·)
      | _ => .error .invalidPadding
  | bs => decodeLast offset bs

/-- The bytes that a Base64 form stands for. A single byte too many that is no symbol is
reported before anything else. -/
def decode (bs : Bytes) : Except Error Bytes :=
  let last := bs.getLastD padding
  if bs.length % 4 = 1 && last != padding && (value? last).isNone then
    .error (.invalidByte (bs.length - 1) last)
  else decodeFrom 0 bs

end AdmissionGate.Base64
