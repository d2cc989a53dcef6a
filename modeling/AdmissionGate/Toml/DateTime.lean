-- Dates and times of TOML: what is a date, a time of day or an offset from
-- UTC, and how a date and time is written.
import AdmissionGate.Text.Decimal

namespace AdmissionGate.Toml

structure Date where
  year : Nat
  month : Nat
  day : Nat
  deriving DecidableEq, Repr

/-- A time of day, to the nanosecond. -/
structure TimeOfDay where
  hour : Nat
  minute : Nat
  second : Nat
  nanosecond : Nat
  deriving DecidableEq, Repr

inductive Offset where
  | utc
  | minutes (behind : Bool) (size : Nat)
  deriving DecidableEq, Repr

/-- A date, a time of day, or both, and then perhaps an offset. -/
structure DateTime where
  date : Option Date
  time : Option TimeOfDay
  offset : Option Offset
  deriving DecidableEq, Repr

open Decimal

/-! ## Reading -/

/-- The number of exactly two digits, if it lies from `low` to `high`. -/
def twoDigits? (low high : Nat) (a b : Char) : Option Nat :=
  (readNat? [a, b]).filter fun n => low ≤ n && n ≤ high

def isLeapYear (year : Nat) : Bool := year % 4 == 0 && (year % 100 != 0 || year % 400 == 0)

def daysIn (year month : Nat) : Nat :=
  if month = 2 then (if isLeapYear year then 29 else 28)
  else if [4, 6, 9, 11].contains month then 30
  else 31

/-- Reads a date, `YYYY-MM-DD`. -/
def readDate? : List Char → Option (Date × List Char)
  | y1 :: y2 :: y3 :: y4 :: '-' :: m1 :: m2 :: '-' :: d1 :: d2 :: rest => do
    let year ← readNat? [y1, y2, y3, y4]
    let month ← twoDigits? 1 12 m1 m2
    let day ← twoDigits? 1 (daysIn year month) d1 d2
    some (⟨year, month, day⟩, rest)
  | _ => none

/-- The nanoseconds of digits after a decimal point; those after the ninth are dropped. -/
def nanoseconds (digits : List Char) : Nat :=
  let kept := digits.take 9
  ofDigits kept * Nat.pow 10 (9 - kept.length)

/-- Reads a time of day, `HH:MM:SS` and perhaps a fraction. -/
def readTime? : List Char → Option (TimeOfDay × List Char)
  | h1 :: h2 :: ':' :: m1 :: m2 :: ':' :: s1 :: s2 :: rest => do
    let hour ← twoDigits? 0 23 h1 h2
    let minute ← twoDigits? 0 59 m1 m2
    let second ← twoDigits? 0 60 s1 s2
    match rest with
    | '.' :: more =>
      let digits := more.takeWhile isDigit
      if digits.isEmpty then none
      else some (⟨hour, minute, second, nanoseconds digits⟩, more.dropWhile isDigit)
    | _ => some (⟨hour, minute, second, 0⟩, rest)
  | _ => none

/-- The offset that some text is, `Z` or a sign and `HH:MM`. -/
def offset? : List Char → Option Offset
  | ['Z'] => some .utc
  | ['z'] => some .utc
  | [sign, h1, h2, ':', m1, m2] => do
    let hours ← twoDigits? 0 23 h1 h2
    let minutes ← twoDigits? 0 59 m1 m2
    if sign == '+' then some (.minutes false (hours * 60 + minutes))
    else if sign == '-' then some (.minutes true (hours * 60 + minutes))
    else none
  | _ => none

/-- The time of day and the offset that follow a date, or stand alone without an offset. -/
def timeAndOffset? (s : List Char) : Option (TimeOfDay × Option Offset) :=
  match readTime? s with
  | some (time, []) => some (time, none)
  | some (time, rest) => (offset? rest).map fun offset => (time, some offset)
  | none => none

namespace DateTime

/-- The date, time or both that some text is. A `T` or a blank stands between the two. -/
def ofChars? (s : List Char) : Option DateTime :=
  match readDate? s with
  | some (date, []) => some ⟨some date, none, none⟩
  | some (date, c :: rest) =>
    if c == 'T' || c == 't' || c == ' ' then
      (timeAndOffset? rest).map fun (time, offset) => ⟨some date, some time, offset⟩
    else none
  | none =>
    match readTime? s with
    | some (time, []) => some ⟨none, some time, none⟩
    | _ => none

end DateTime

/-! ## Writing -/

/-- A number in at least `width` digits. -/
def padded (width n : Nat) : String :=
  let digits := toString n
  String.ofList (List.replicate (width - digits.length) '0') ++ digits

def Date.toText (d : Date) : String := s!"{padded 4 d.year}-{padded 2 d.month}-{padded 2 d.day}"

/-- The text of a time of day, without a fraction if it is zero, and without zeros at its
end. -/
def TimeOfDay.toText (t : TimeOfDay) : String :=
  let whole := s!"{padded 2 t.hour}:{padded 2 t.minute}:{padded 2 t.second}"
  if t.nanosecond = 0 then whole
  else
    let fraction := (padded 9 t.nanosecond).toList.reverse.dropWhile (· == '0')
    whole ++ "." ++ String.ofList fraction.reverse

def Offset.toText : Offset → String
  | .utc => "Z"
  | .minutes behind size =>
    let sign := if behind && size != 0 then "-" else "+"
    s!"{sign}{padded 2 (size / 60)}:{padded 2 (size % 60)}"

def DateTime.toText (m : DateTime) : String :=
  let date := (m.date.map Date.toText).getD ""
  let mark := if m.date.isSome && m.time.isSome then "T" else ""
  date ++ mark ++ (m.time.map TimeOfDay.toText).getD "" ++ (m.offset.map Offset.toText).getD ""

end AdmissionGate.Toml
