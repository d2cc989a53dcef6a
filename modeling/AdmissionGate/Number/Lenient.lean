-- Lenient integers, as clients send them in query parameters: an integer, or
-- else a decimal number cut at its point, or else zero.
import AdmissionGate.Text.Blank
import AdmissionGate.Number.Binary64

namespace AdmissionGate

/-- Reads a parameter as an integer of 64 bits. An integer that fits is taken as it is; any
other decimal number is rounded to a binary64 number first, then cut at its point and moved
into range; text that is no number, or one too large for a binary64, counts as zero. -/
def lenientInt (raw : String) : Int :=
  let s := Text.strip Text.isBlank raw.toList
  match Decimal.readI64? s with
  | some n => n
  | none =>
    match (DecimalLiteral.read? s).bind DecimalLiteral.toBinary64? with
    | some x => Decimal.clampI64 x.truncate
    | none => 0

end AdmissionGate
