-- Queries in the encoding of forms: pairs of a name and a value, with `=`
-- between them and `&` between pairs, a plus sign for a space, and escapes.
import AdmissionGate.Text.Blank
import AdmissionGate.Text.Percent

namespace AdmissionGate.FormEncoding

/-! ## Writing -/

/-- Whether a byte stands for itself. -/
def isPlain (b : UInt8) : Bool :=
  (0x30 ≤ b && b ≤ 0x39) || (0x41 ≤ b && b ≤ 0x5A) || (0x61 ≤ b && b ≤ 0x7A)
    || b == 0x2A || b == 0x2D || b == 0x2E || b == 0x5F

def encodeByte (b : UInt8) : List Char :=
  if isPlain b then [Char.ofNat b.toNat] else if b == 0x20 then ['+'] else Percent.escape b

def encode (s : String) : String := String.ofList ((Bytes.ofText s).flatMap encodeByte)

/-- The query of some pairs. -/
def write (pairs : List (String × String)) : String :=
  "&".intercalate (pairs.map fun p => encode p.1 ++ "=" ++ encode p.2)

/-! ## Reading -/

/-- The text that a form stands for; what is no UTF-8 becomes U+FFFD. -/
def decode (bs : Bytes) : String :=
  Bytes.toTextLossy (Percent.decode (bs.map fun b => if b == 0x2B then 0x20 else b))

/-- The name and the value of a part of a query; without `=` the value is empty. -/
def readPair (part : Bytes) : String × String :=
  (decode (part.takeWhile (· != 0x3D)), decode ((part.dropWhile (· != 0x3D)).drop 1))

/-- The pairs of a query, in order; empty parts count for nothing. -/
def read (query : String) : List (String × String) :=
  ((Text.pieces (· == 0x26) (Bytes.ofText query)).filter (!·.isEmpty)).map readPair

end AdmissionGate.FormEncoding
