-- IP addresses and their text: dotted IPv4, and IPv6 in groups with at most
-- one `::`, where an IPv4 address may stand for the last two groups.
import AdmissionGate.Text.Hex
import AdmissionGate.Text.Decimal

namespace AdmissionGate

/-- An IPv4 address, highest byte first. -/
structure Ipv4 where
  a : UInt8
  b : UInt8
  c : UInt8
  d : UInt8
  deriving DecidableEq

/-- An IPv6 address: eight groups of sixteen bits, highest first. -/
structure Ipv6 where
  groups : Vector UInt16 8
  deriving DecidableEq

inductive Ip where
  | v4 (address : Ipv4)
  | v6 (address : Ipv6)
  deriving DecidableEq

namespace Ipv4

def toUInt32 (ip : Ipv4) : UInt32 :=
  ip.a.toUInt32 <<< 24 ||| ip.b.toUInt32 <<< 16 ||| ip.c.toUInt32 <<< 8 ||| ip.d.toUInt32

/-- The two groups that an IPv4 address fills in an IPv6 address. -/
def toGroups (ip : Ipv4) : List UInt16 :=
  [ip.a.toUInt16 <<< 8 ||| ip.b.toUInt16, ip.c.toUInt16 <<< 8 ||| ip.d.toUInt16]

end Ipv4

namespace Ipv6

/-- The address with these groups, zeros in place of missing ones. -/
def ofList (gs : List UInt16) : Ipv6 := ⟨Vector.ofFn fun i => gs.getD i 0⟩

/-- The IPv4 address that is mapped into `::ffff:0:0/96`. -/
def mapped (ip : Ipv4) : Ipv6 := ofList ([0, 0, 0, 0, 0, 0xffff] ++ ip.toGroups)

/-- The IPv4 address of a mapped address. -/
def toIpv4? (ip : Ipv6) : Option Ipv4 :=
  match ip.groups.toList with
  | [0, 0, 0, 0, 0, 0xffff, high, low] =>
    some ⟨(high >>> 8).toUInt8, high.toUInt8, (low >>> 8).toUInt8, low.toUInt8⟩
  | _ => none

end Ipv6

/-! ## Reading -/

namespace Ip

open Decimal

/-- Reads a byte: one to three digits, no leading zero, at most 255. -/
def readOctet? (s : List Char) : Option (UInt8 × List Char) :=
  let digits := s.takeWhile isDigit
  if digits.isEmpty || 3 < digits.length || 255 < ofDigits digits
      || (1 < digits.length && digits.head? == some '0') then none
  else some (UInt8.ofNat (ofDigits digits), s.dropWhile isDigit)

def readDotOctet? : List Char → Option (UInt8 × List Char)
  | '.' :: rest => readOctet? rest
  | _ => none

def readIpv4? (s : List Char) : Option (Ipv4 × List Char) := do
  let (a, s) ← readOctet? s
  let (b, s) ← readDotOctet? s
  let (c, s) ← readDotOctet? s
  let (d, s) ← readDotOctet? s
  some (⟨a, b, c, d⟩, s)

def isHexDigit (c : Char) : Bool := (Hex.value? c).isSome

def ofHexDigits (ds : List Char) : Nat := ds.foldl (fun n c => n * 16 + (Hex.value? c).getD 0) 0

/-- Reads a group of one to four hexadecimal digits. -/
def readGroup? (s : List Char) : Option (UInt16 × List Char) :=
  let digits := s.takeWhile isHexDigit
  if digits.isEmpty || 4 < digits.length then none
  else some (UInt16.ofNat (ofHexDigits digits), s.dropWhile isHexDigit)

/-- What follows the colon in front of a group; the first group has none. -/
def afterColon? (first : Bool) (s : List Char) : Option (List Char) :=
  if first then some s
  else match s with
    | ':' :: rest => some rest
    | _ => none

/-- Reads at most `n` groups with colons between them, and says whether the last two were
written as an IPv4 address. -/
def readGroups (first : Bool) : Nat → List Char → List UInt16 × Bool × List Char
  | 0, s => ([], false, s)
  | n + 1, s =>
    match afterColon? first s with
    | none => ([], false, s)
    | some body =>
      match if 0 < n then readIpv4? body else none with
      | some (ip, rest) => (ip.toGroups, true, rest)
      | none =>
        match readGroup? body with
        | none => ([], false, s)
        | some (g, rest) =>
          let (gs, dotted, rest) := readGroups false n rest
          (g :: gs, dotted, rest)

/-- Reads eight groups, or fewer with one `::` in place of at least one zero group. -/
def readIpv6? (s : List Char) : Option (Ipv6 × List Char) :=
  let (front, dotted, rest) := readGroups true 8 s
  if front.length = 8 then some (Ipv6.ofList front, rest)
  else if dotted then none
  else match rest with
    | ':' :: ':' :: rest =>
      let (back, _, rest) := readGroups true (7 - front.length) rest
      let zeros := List.replicate (8 - front.length - back.length) 0
      some (Ipv6.ofList (front ++ zeros ++ back), rest)
    | _ => none

def read? (s : List Char) : Option (Ip × List Char) :=
  match readIpv4? s with
  | some (ip, rest) => some (.v4 ip, rest)
  | none => (readIpv6? s).map fun (ip, rest) => (.v6 ip, rest)

/-- The address that a text is, with nothing around it. -/
def ofText? (text : String) : Option Ip :=
  match read? text.toList with
  | some (ip, []) => some ip
  | _ => none

end Ip

/-! ## Writing -/

/-- A run of zero groups: where it begins and how long it is. -/
structure ZeroRun where
  start : Nat
  length : Nat
  deriving DecidableEq

/-- The longest run of zeros, the first of several; `i` is the index of the next group and
`run` the run that ends just before it. -/
def ZeroRun.longest (best run : ZeroRun) (i : Nat) : List UInt16 → ZeroRun
  | [] => best
  | g :: gs =>
    if g = 0 then
      let run := if run.length = 0 then ⟨i, 1⟩ else ⟨run.start, run.length + 1⟩
      longest (if best.length < run.length then run else best) run (i + 1) gs
    else longest best ⟨0, 0⟩ (i + 1) gs

namespace Ipv4

def toText (ip : Ipv4) : String :=
  s!"{ip.a.toNat}.{ip.b.toNat}.{ip.c.toNat}.{ip.d.toNat}"

end Ipv4

namespace Ipv6

/-- Groups in lower-case hexadecimal with colons between them. -/
def groupsText (gs : List UInt16) : String :=
  ":".intercalate (gs.map fun g => String.ofList (Hex.ofNat g.toNat))

/-- The groups of an address, the longest run of two or more zero groups written `::`. -/
def groupedText (ip : Ipv6) : String :=
  let gs := ip.groups.toList
  let run := ZeroRun.longest ⟨0, 0⟩ ⟨0, 0⟩ 0 gs
  if 1 < run.length then
    groupsText (gs.take run.start) ++ "::" ++ groupsText (gs.drop (run.start + run.length))
  else groupsText gs

/-- The text of an address: a mapped address ends in dotted form, any other is in groups. -/
def toText (ip : Ipv6) : String :=
  match ip.toIpv4? with
  | some mapped => "::ffff:" ++ mapped.toText
  | none => ip.groupedText

end Ipv6

def Ip.toText : Ip → String
  | .v4 ip => ip.toText
  | .v6 ip => ip.toText

end AdmissionGate
