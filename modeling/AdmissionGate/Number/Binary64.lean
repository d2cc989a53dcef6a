-- Binary floating-point numbers of 64 bits, held exactly as a sign, a
-- significand and a power of two. A decimal is rounded to the nearest of
-- them, a tie to the even significand, as IEEE 754 asks.
import AdmissionGate.Text.Decimal

namespace AdmissionGate

/-- A finite binary64 number: `significand * 2 ^ exponent`, with its sign. -/
structure Binary64 where
  negative : Bool
  significand : Nat
  exponent : Int
  deriving DecidableEq, Repr

namespace Binary64

/-- The integer nearest to `n / d`; of two as near, the even one. -/
def roundHalfEven (n d : Nat) : Nat :=
  let q := n / d
  let r := n % d
  if d < 2 * r ∨ (2 * r = d ∧ q % 2 = 1) then q + 1 else q

/-- The exponent of the highest power of two that is at most `n / d`. -/
def floorLog (n d : Nat) : Int :=
  if d ≤ n then (Nat.log2 (n / d) : Int)
  else - ((Nat.log2 ((d + n - 1) / n - 1) : Int) + 1)

/-- The binary64 number nearest to the ratio `n / d`, or `none` when it is too large. -/
def ofRatio (negative : Bool) (n d : Nat) : Option Binary64 :=
  if n = 0 then some ⟨negative, 0, 0⟩
  else
    let exponent := max (-1074) (floorLog n d - 52)
    let significand :=
      if 0 ≤ exponent then roundHalfEven n (d * Nat.pow 2 exponent.toNat)
      else roundHalfEven (n * Nat.pow 2 (-exponent).toNat) d
    if 971 < exponent ∨ (exponent = 971 ∧ significand = Nat.pow 2 53) then none
    else some ⟨negative, significand, exponent⟩

/-- The part of a number before its binary point. -/
def truncate (x : Binary64) : Int :=
  let size := if 0 ≤ x.exponent then x.significand * Nat.pow 2 x.exponent.toNat
    else x.significand / Nat.pow 2 (-x.exponent).toNat
  if x.negative then - (size : Int) else size

end Binary64

/-! ## Decimal literals -/

/-- A decimal number as written: a sign, the digits before and after the point, and the
power of ten it is scaled by. -/
structure DecimalLiteral where
  negative : Bool
  whole : List Char
  fraction : List Char
  scale : Int
  deriving DecidableEq, Repr

namespace DecimalLiteral

open Decimal

/-- The power of ten of an exponent part, which is empty or `e`, a sign and digits. -/
def readScale? : List Char → Option Int
  | [] => some 0
  | c :: rest =>
    if c == 'e' || c == 'E' then
      match rest with
      | '-' :: digits => (readNat? digits).map fun n => - (n : Int)
      | '+' :: digits => (readNat? digits).map fun n => (n : Int)
      | _ => (readNat? rest).map fun n => (n : Int)
    else none

/-- Reads a literal such as `12`, `-1.5e3`, `.5` or `1.`: at least one digit around the
point, and nothing left over. -/
def read? (s : List Char) : Option DecimalLiteral :=
  let (negative, body) : Bool × List Char := match s with
    | '-' :: rest => (true, rest)
    | '+' :: rest => (false, rest)
    | _ => (false, s)
  let whole := body.takeWhile isDigit
  let rest := body.dropWhile isDigit
  let (fraction, rest) : List Char × List Char := match rest with
    | '.' :: more => (more.takeWhile isDigit, more.dropWhile isDigit)
    | _ => ([], rest)
  if whole.isEmpty && fraction.isEmpty then none
  else (readScale? rest).map fun scale => ⟨negative, whole, fraction, scale⟩

/-- The binary64 number nearest to a literal, or `none` when it is too large. A number of
more than 310 digits before the point is too large, and one with more than 325 zeros after
it is zero, so no power of ten beyond these is ever computed. -/
def toBinary64? (x : DecimalLiteral) : Option Binary64 :=
  let digits := (x.whole ++ x.fraction).dropWhile (· == '0')
  let scale := x.scale - x.fraction.length
  let size : Int := digits.length + scale
  if digits.isEmpty || size < -325 then some ⟨x.negative, 0, 0⟩
  else if 310 < size then none
  else if 0 ≤ scale then Binary64.ofRatio x.negative (ofDigits digits * Nat.pow 10 scale.toNat) 1
  else Binary64.ofRatio x.negative (ofDigits digits) (Nat.pow 10 (-scale).toNat)

end DecimalLiteral

end AdmissionGate
