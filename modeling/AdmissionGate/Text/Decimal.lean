-- Decimal integers: reading digit strings, with or without a sign, into the
-- range that a field allows.

namespace AdmissionGate.Decimal

def isDigit (c : Char) : Bool := '0' ≤ c && c ≤ '9'

def ofDigits (ds : List Char) : Nat := ds.foldl (fun n c => n * 10 + (c.toNat - '0'.toNat)) 0

/-- A number written in digits alone, at least one of them. -/
def readNat? (s : List Char) : Option Nat :=
  if s.isEmpty then none else if s.all isDigit then some (ofDigits s) else none

/-- A number written in digits, perhaps after a plus sign, if it is at most `max`. -/
def readUpTo? (max : Nat) (s : List Char) : Option Nat :=
  let digits := match s with
    | '+' :: rest => rest
    | _ => s
  (readNat? digits).filter (· ≤ max)

def maxU64 : Nat := 18446744073709551615

def maxU32 : Nat := 4294967295

def maxI64 : Int := 9223372036854775807

def minI64 : Int := -9223372036854775808

def clampI64 (n : Int) : Int := max minI64 (min maxI64 n)

/-- A signed 64-bit number written in digits, perhaps after a sign. -/
def readI64? (s : List Char) : Option Int :=
  let signed : Option Int := match s with
    | '-' :: rest => (readNat? rest).map fun n => - (n : Int)
    | '+' :: rest => (readNat? rest).map fun n => (n : Int)
    | _ => (readNat? s).map fun n => (n : Int)
  signed.filter fun n => minI64 ≤ n && n ≤ maxI64

end AdmissionGate.Decimal
