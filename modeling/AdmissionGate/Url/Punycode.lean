-- Punycode: the characters of a label that are not ASCII, written as numbers
-- in a radix of 36 whose digits end themselves.

namespace AdmissionGate.Punycode

/-! ## Digits -/

def digit (n : Nat) : Char := Char.ofNat (if n < 26 then 'a'.toNat + n else '0'.toNat + (n - 26))

/-- The value of a letter, in either case, or a digit. -/
def value? (c : Char) : Option Nat :=
  if 'a' ≤ c && c ≤ 'z' then some (c.toNat - 'a'.toNat)
  else if 'A' ≤ c && c ≤ 'Z' then some (c.toNat - 'A'.toNat)
  else if '0' ≤ c && c ≤ '9' then some (c.toNat - '0'.toNat + 26)
  else none

/-- The value from which on a digit is not the last one; `k` grows by 36 with each digit. -/
def threshold (bias k : Nat) : Nat := max 1 (min 26 (k - bias))

theorem threshold_pos (bias k : Nat) : 1 ≤ threshold bias k := by
  simp only [threshold]; omega

def digits (bias k n : Nat) : List Char :=
  let t := threshold bias k
  if n < t then [digit n]
  else digit (t + (n - t) % (36 - t)) :: digits bias (k + 36) ((n - t) / (36 - t))
termination_by n
decreasing_by
  have := threshold_pos bias k
  have := Nat.div_le_self (n - threshold bias k) (36 - threshold bias k)
  omega

/-! ## The bias -/

/-- Divides by 35 until the number is small, counting in steps of 36. -/
def shrink (k delta : Nat) : Nat :=
  if 455 < delta then shrink (k + 36) (delta / 35) else k + 36 * delta / (delta + 38)
termination_by delta

/-- The bias after a number was written as one of `count` so far. -/
def adapt (delta count : Nat) (first : Bool) : Nat :=
  let delta := if first then delta / 700 else delta / 2
  shrink 0 (delta + delta / count)

def startBias : Nat := 72

def startCode : Nat := 0x80

/-! ## Writing -/

/-- A point in writing a label: the steps since the last character that was written, the bias,
how many characters are written, and the digits so far. -/
structure Progress where
  delta : Nat
  bias : Nat
  count : Nat
  out : List Char

/-- Passes over one character of the label, while those with the code `code` are written. -/
def pass (plain code : Nat) (p : Progress) (c : Char) : Progress :=
  if c.toNat < code then { p with delta := p.delta + 1 }
  else if c.toNat = code then
    { delta := 0, bias := adapt p.delta (p.count + 1) (p.count == plain),
      count := p.count + 1, out := p.out ++ digits p.bias 36 p.delta }
  else p

/-- Writes the characters with each of the codes, which come in ascending order; `next` is
the lowest code that they may have. -/
def passAll (label : List Char) (plain : Nat) : Nat → Progress → List Nat → Progress
  | _, p, [] => p
  | next, p, code :: rest =>
    let p := { p with delta := p.delta + (code - next) * (p.count + 1) }
    let p := label.foldl (pass plain code) p
    passAll label plain (code + 1) { p with delta := p.delta + 1 } rest

/-- Puts a number at its place in an ascending list, unless it is there already. -/
def insertCode (n : Nat) : List Nat → List Nat
  | [] => [n]
  | m :: rest => if n < m then n :: m :: rest else if n = m then m :: rest else m :: insertCode n rest

/-- The label in letters, digits and hyphens of ASCII. -/
def encode (label : List Char) : List Char :=
  let plain := label.filter (·.toNat < 0x80)
  let codes := (label.filter (0x80 ≤ ·.toNat)).foldr (fun c => insertCode c.toNat) []
  let start : Progress := ⟨0, startBias, plain.length, []⟩
  plain ++ (if plain.isEmpty then [] else ['-'])
    ++ (passAll label plain.length startCode start codes).out

/-! ## Reading -/

/-- A number that is being read: its value so far, the weight of the next digit, and the `k`
of that digit. -/
structure Unfinished where
  value : Nat
  weight : Nat
  k : Nat

/-- A number of which no digit is read yet; it adds to `value`. -/
def Unfinished.start (value : Nat) : Unfinished := ⟨value, 1, 36⟩

/-- Reads digits and puts the characters that they stand for into their places. `before` is
the value with which the number at hand began. -/
def readDigits? (code bias before : Nat) (label : List Char) (p : Unfinished) :
    List Char → Option (List Char)
  | [] => if p.k = 36 then some label else none
  | c :: rest =>
    match value? c with
    | none => none
    | some d =>
      let t := threshold bias p.k
      let value := p.value + d * p.weight
      if d < t then
        let count := label.length + 1
        let code := code + value / count
        let place := value % count
        if code.isValidChar then
          readDigits? code (adapt (value - before) count (before == 0)) (place + 1)
            (label.insertIdx place (Char.ofNat code)) (.start (place + 1)) rest
        else none
      else readDigits? code bias before label ⟨value, p.weight * (36 - t), p.k + 36⟩ rest

/-- The label that some ASCII characters stand for: those up to the last hyphen as they are,
and those after it as digits. -/
def decode? (s : List Char) : Option (List Char) :=
  let tail := (s.reverse.takeWhile (· != '-')).reverse
  let plain := s.take (s.length - tail.length - 1)
  readDigits? startCode startBias 0 plain (.start 0) tail

end AdmissionGate.Punycode
