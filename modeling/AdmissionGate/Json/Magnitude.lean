-- The binary64 of a JSON number that is no integer of 64 bits. Its digits
-- are gathered as long as 64 bits hold them, and then scaled by a power of
-- ten, so that a long number may be rounded more than once.
import AdmissionGate.Json.Token

namespace AdmissionGate

namespace Binary64

/-- A number without its sign, as a numerator and a denominator. -/
def ratio (x : Binary64) : Nat × Nat :=
  if 0 ≤ x.exponent then (x.significand * Nat.pow 2 x.exponent.toNat, 1)
  else (x.significand, Nat.pow 2 (-x.exponent).toNat)

/-- The product of two numbers, rounded, or `none` when it is too large. -/
def times? (x y : Binary64) : Option Binary64 :=
  ofRatio (x.negative != y.negative) (x.ratio.1 * y.ratio.1) (x.ratio.2 * y.ratio.2)

/-- The quotient of two numbers, of which the second is not zero, rounded. -/
def over? (x y : Binary64) : Option Binary64 :=
  ofRatio (x.negative != y.negative) (x.ratio.1 * y.ratio.2) (x.ratio.2 * y.ratio.1)

/-- A power of ten, rounded. -/
def powerOfTen? (n : Nat) : Option Binary64 := ofRatio false (Nat.pow 10 n) 1

def maxPower : Nat := 308

/-- A number scaled by a power of ten, rounded after each of at most `fuel` steps, or `none`
when it is too large. -/
def scale? : Nat → Binary64 → Int → Option Binary64
  | 0, x, _ => some { x with significand := 0, exponent := 0 }
  | fuel + 1, x, power =>
    if power.natAbs ≤ maxPower then
      (powerOfTen? power.natAbs).bind fun p => if 0 ≤ power then x.times? p else x.over? p
    else if x.significand = 0 then some x
    else if 0 ≤ power then none
    else ((powerOfTen? maxPower).bind x.over?).bind fun y => scale? fuel y (power + maxPower)

end Binary64

namespace Json.Number

/-- Digits added to a number as long as 64 bits hold it: the number, and how many digits are
left. -/
def gather (n : Nat) : List Char → Nat × Nat
  | [] => (n, 0)
  | c :: rest =>
    let more := n * 10 + (c.toNat - '0'.toNat)
    if more ≤ Decimal.maxU64 then gather more rest else (n, rest.length + 1)

/-- The binary64 of a number, or `none` when it is too large. After three divisions by the
largest power of ten every number is zero, so that four steps of scaling are enough. -/
def toBinary64? (number : Number) : Option Binary64 :=
  let x := number.literal
  let (n, left) := gather 0 x.whole
  let (n, lost) := gather n x.fraction
  let power := x.scale + left - (x.fraction.length - lost : Nat)
  (Binary64.ofRatio x.negative n 1).bind fun f => Binary64.scale? 4 f power

end Json.Number

end AdmissionGate
