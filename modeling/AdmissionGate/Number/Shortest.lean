-- The decimal text of a binary64 number: the fewest digits that read back,
-- and of those the nearest to the number.
import AdmissionGate.Number.Binary64

namespace AdmissionGate

namespace Binary64

/-! ## Digits -/

structure Ratio where
  num : Nat
  den : Nat

def Ratio.scaled (n : Nat) (e : Int) : Ratio :=
  if 0 ≤ e then ⟨n * Nat.pow 2 e.toNat, 1⟩ else ⟨n, Nat.pow 2 (-e).toNat⟩

def Ratio.lt (a b : Ratio) : Bool := a.num * b.den < b.num * a.den

/-- The numbers that round to a binary64 number: its neighbours in the middle of the gaps to
the next ones, and whether these belong to it. The gap below a power of two is half as wide. -/
structure Gap where
  low : Ratio
  high : Ratio
  closed : Bool

def Gap.holds (g : Gap) (r : Ratio) : Bool :=
  if g.closed then !r.lt g.low && !g.high.lt r else g.low.lt r && r.lt g.high

def gap (m : Nat) (e : Int) : Gap where
  low :=
    if m = Nat.pow 2 52 && -1074 < e then .scaled (4 * m - 1) (e - 2)
    else .scaled (2 * m - 1) (e - 1)
  high := .scaled (2 * m + 1) (e - 1)
  closed := m % 2 == 0

def Ratio.decimal (n : Nat) (k : Int) : Ratio :=
  if 0 ≤ k then ⟨n * Nat.pow 10 k.toNat, 1⟩ else ⟨n, Nat.pow 10 (-k).toNat⟩

/-- How often a ratio has to be multiplied by ten to reach one, at most `fuel` times. -/
def tensBelowOne : Nat → Ratio → Nat
  | 0, _ => 0
  | fuel + 1, r => if r.num < r.den then tensBelowOne fuel ⟨r.num * 10, r.den⟩ + 1 else 0

/-- The exponent of the highest power of ten that is at most a ratio. -/
def floorLogTen (r : Ratio) : Int :=
  if r.num < r.den then - (tensBelowOne 330 r : Int)
  else ((toString (r.num / r.den)).length : Int) - 1

/-- The distance of two ratios, over the product of their denominators. -/
def Ratio.distance (a b : Ratio) : Nat :=
  (a.num * b.den - b.num * a.den) + (b.num * a.den - a.num * b.den)

/-- The nearest multiple of `10 ^ k` in the gap around a ratio, if there is one. -/
def onGrid? (g : Gap) (r : Ratio) (k : Int) : Option Nat :=
  let step := Ratio.decimal 1 k
  let below := (r.num * step.den) / (r.den * step.num)
  let above := below + 1
  let low := Ratio.decimal below k
  let high := Ratio.decimal above k
  match g.holds low, g.holds high with
  | true, true => some (if r.distance low ≤ r.distance high then below else above)
  | true, false => some below
  | false, true => some above
  | false, false => none

/-- The shortest digits: with grids from the given one down, the first multiple found. -/
def firstOnGrid (g : Gap) (r : Ratio) : Nat → Int → Nat × Int
  | 0, k => ((r.num * (Ratio.decimal 1 k).den) / (r.den * (Ratio.decimal 1 k).num), k)
  | fuel + 1, k => match onGrid? g r k with
    | some n => (n, k)
    | none => firstOnGrid g r fuel (k - 1)

/-- The shortest decimal `n * 10 ^ k` that reads back as a number other than zero. -/
def shortest (x : Binary64) : Nat × Int :=
  let (m, e) :=
    if x.significand = Nat.pow 2 53 then (Nat.pow 2 52, x.exponent + 1)
    else (x.significand, x.exponent)
  let r := Ratio.scaled m e
  firstOnGrid (gap m e) r 17 (floorLogTen r)

/-! ## Text -/

/-- The text of digits and a power of ten: with a point if the number lies from 1e-5 to 1e16,
and otherwise with an exponent. -/
def layOut (digits : List Char) (k : Int) : List Char :=
  let point := digits.length + k
  if 0 ≤ k && point ≤ 16 then digits ++ List.replicate k.toNat '0' ++ ['.', '0']
  else if 0 < point && point ≤ 16 then
    digits.take point.toNat ++ '.' :: digits.drop point.toNat
  else if -5 < point && point ≤ 0 then
    '0' :: '.' :: List.replicate (-point).toNat '0' ++ digits
  else
    let tail := if digits.length = 1 then [] else '.' :: digits.drop 1
    digits.take 1 ++ tail ++ 'e' :: (toString (point - 1)).toList

def toText (x : Binary64) : String :=
  let sign := if x.negative then "-" else ""
  if x.significand = 0 then sign ++ "0.0"
  else
    let (n, k) := x.shortest
    let written := (toString n).toList
    let digits := (written.reverse.dropWhile (· == '0')).reverse
    sign ++ String.ofList (layOut digits (k + (written.length - digits.length)))

end Binary64

end AdmissionGate
