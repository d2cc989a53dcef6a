-- Percent encoding: a byte as a percent sign and two hexadecimal digits.
import AdmissionGate.Text.Hex

namespace AdmissionGate.Percent

/-- The escape of a byte. -/
def escape (b : UInt8) : List Char :=
  ['%', Hex.upperDigit (b.toNat / 16), Hex.upperDigit (b.toNat % 16)]

def byte? (high low : UInt8) : Option UInt8 := do
  let h ← Hex.value? (Char.ofNat high.toNat)
  let l ← Hex.value? (Char.ofNat low.toNat)
  some (UInt8.ofNat (16 * h + l))

/-- Bytes with their escapes replaced. A percent sign without two digits stands for itself. -/
def decode : Bytes → Bytes
  | 0x25 :: high :: low :: rest =>
    match byte? high low with
    | some b => b :: decode rest
    | none => 0x25 :: decode (high :: low :: rest)
  | b :: rest => b :: decode rest
  | [] => []

/-- The characters of some bytes: those that `escaped` holds of are escaped. -/
def encode (escaped : UInt8 → Bool) (bs : Bytes) : List Char :=
  bs.flatMap fun b => if escaped b then escape b else [Char.ofNat b.toNat]

end AdmissionGate.Percent
