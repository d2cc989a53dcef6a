-- Hosts of URLs: domain names, which are brought into lower case and ASCII,
-- IPv4 addresses, of which numbers in several forms may be part, and IPv6
-- addresses in brackets.
import AdmissionGate.Address.Ip
import AdmissionGate.Text.Blank
import AdmissionGate.Text.Percent
import AdmissionGate.Url.Punycode

namespace AdmissionGate

inductive Host where
  | domain (name : String)
  | v4 (ip : Ipv4)
  | v6 (ip : Ipv6)
  deriving DecidableEq

namespace Host

def toText : Host → String
  | .domain name => name
  | .v4 ip => ip.toText
  | .v6 ip => "[" ++ ip.groupedText ++ "]"

/-! ## Numbers -/

/-- The number that a part of a dotted address is: hexadecimal after `0x`, octal after another
zero, and decimal otherwise. -/
def readPart? (s : List Char) : Option Nat :=
  let number (radix : Nat) (ds : List Char) : Option Nat :=
    (ds.mapM fun c => (Hex.value? c).filter (· < radix)).map fun ds =>
      ds.foldl (fun n d => n * radix + d) 0
  match s with
  | [] => none
  | '0' :: 'x' :: ds => number 16 ds
  | '0' :: 'X' :: ds => number 16 ds
  | ['0'] => some 0
  | '0' :: ds => number 8 ds
  | ds => number 10 ds

/-- The parts of a dotted name; one empty part at the end does not count. -/
def dottedParts (name : List Char) : List (List Char) :=
  let parts := Text.pieces (· == '.') name
  if 1 < parts.length && parts.getLast? == some [] then parts.dropLast else parts

/-- Whether the last part of a name is a number, so that the name must be an address. -/
def endsInNumber (name : List Char) : Bool :=
  match (dottedParts name).getLast? with
  | some last => (!last.isEmpty && last.all Decimal.isDigit) || (readPart? last).isSome
  | none => false

/-- The address of at most four numbers: each but the last is one byte, and the last fills
the bytes that are left. -/
def ipv4OfParts? (parts : List Nat) : Option Ipv4 :=
  let front := parts.dropLast
  let last := parts.getLastD 0
  let left := 4 - front.length
  if 4 < parts.length || front.any (255 < ·) || Nat.pow 256 left ≤ last then none
  else
    let byte (i : Nat) : UInt8 := UInt8.ofNat (last / Nat.pow 256 (3 - i))
    match front with
    | [] => some ⟨byte 0, byte 1, byte 2, byte 3⟩
    | [a] => some ⟨UInt8.ofNat a, byte 1, byte 2, byte 3⟩
    | [a, b] => some ⟨UInt8.ofNat a, UInt8.ofNat b, byte 2, byte 3⟩
    | [a, b, c] => some ⟨UInt8.ofNat a, UInt8.ofNat b, UInt8.ofNat c, byte 3⟩
    | _ => none

/-! ## Domain names -/

/-- The letters that stand in pairs, the upper-case one at an even code first. -/
def isEvenPair (n : Nat) : Bool :=
  (0x100 ≤ n && n ≤ 0x137) || (0x14A ≤ n && n ≤ 0x177) || (0x1DE ≤ n && n ≤ 0x1EF)
    || (0x1F8 ≤ n && n ≤ 0x21F) || (0x222 ≤ n && n ≤ 0x233) || (0x246 ≤ n && n ≤ 0x24F)
    || (0x3D8 ≤ n && n ≤ 0x3EF) || (0x460 ≤ n && n ≤ 0x481) || (0x48A ≤ n && n ≤ 0x4BF)
    || (0x4D0 ≤ n && n ≤ 0x52F) || (0x1E00 ≤ n && n ≤ 0x1E95) || (0x1EA0 ≤ n && n ≤ 0x1EFF)

/-- The letters that stand in pairs, the upper-case one at an odd code first. -/
def isOddPair (n : Nat) : Bool :=
  (0x139 ≤ n && n ≤ 0x148) || (0x179 ≤ n && n ≤ 0x17E) || (0x1CD ≤ n && n ≤ 0x1DC)
    || (0x4C1 ≤ n && n ≤ 0x4CE)

/-- The code of the lower-case letter of an upper-case one, of the Latin, Greek, Cyrillic and
Armenian letters that have their cases in regular places. -/
def lowerCode (n : Nat) : Nat :=
  if 0x41 ≤ n && n ≤ 0x5A then n + 32
  else if 0xC0 ≤ n && n ≤ 0xDE && n != 0xD7 then n + 32
  else if n = 0x178 then 0xFF
  else if isEvenPair n then n + (1 - n % 2)
  else if isOddPair n then n + n % 2
  else if 0x391 ≤ n && n ≤ 0x3AB && n != 0x3A2 then n + 32
  else if n = 0x386 then 0x3AC
  else if 0x388 ≤ n && n ≤ 0x38A then n + 37
  else if n = 0x38C then 0x3CC
  else if n = 0x38E || n = 0x38F then n + 63
  else if 0x410 ≤ n && n ≤ 0x42F then n + 32
  else if 0x400 ≤ n && n ≤ 0x40F then n + 80
  else if 0x531 ≤ n && n ≤ 0x556 then n + 48
  else n

/-- Characters that stand for others: raised digits and letters, long s, the signs that are
letters, digraphs and ligatures. -/
def standIns : List (Nat × String) :=
  [(0xAA, "a"), (0xB2, "2"), (0xB3, "3"), (0xB5, "\u03bc"), (0xB9, "1"), (0xBA, "o"),
    (0xBC, "1\u20444"), (0xBD, "1\u20442"), (0xBE, "3\u20444"), (0x130, "i\u0307"),
    (0x132, "ij"), (0x133, "ij"), (0x13F, "l\u00b7"), (0x140, "l\u00b7"), (0x149, "\u02bcn"),
    (0x17F, "s"), (0x1C4, "d\u017e"), (0x1C5, "d\u017e"), (0x1C6, "d\u017e"), (0x1C7, "lj"),
    (0x1C8, "lj"), (0x1C9, "lj"), (0x1CA, "nj"), (0x1CB, "nj"), (0x1CC, "nj"), (0x1F1, "dz"),
    (0x1F2, "dz"), (0x1F3, "dz"), (0x1E9E, "\u00df"), (0x2116, "no"), (0x2122, "tm"),
    (0x2126, "\u03c9"), (0x212A, "k"), (0x212B, "\u00e5"), (0xFB00, "ff"), (0xFB01, "fi"),
    (0xFB02, "fl"), (0xFB03, "ffi"), (0xFB04, "ffl"), (0xFB05, "st"), (0xFB06, "st")]

/-- What a character becomes in a domain name: dots of other scripts become dots, wide forms
of ASCII become ASCII, invisible characters vanish, and letters get lower case. -/
def foldChar (c : Char) : List Char :=
  let n := c.toNat
  if n = 0x3002 || n = 0xFF0E || n = 0xFF61 then ['.']
  else if n = 0xAD || n = 0x200B || n = 0x2060 || n = 0xFEFF then []
  else if 0xFF01 ≤ n && n ≤ 0xFF5E then [Char.ofNat (lowerCode (n - 0xFEE0))]
  else match standIns.lookup n with
    | some text => text.toList
    | none => [Char.ofNat (lowerCode n)]

/-- A character that no domain name may hold. -/
def isForbidden (c : Char) : Bool :=
  let n := c.toNat
  n ≤ 0x20 || (0x7F ≤ n && n ≤ 0xA0) || "%#/:<>?@[\\]^|".toList.contains c
    || n == 0xA8 || n == 0xAF || n == 0xB4 || n == 0xB8 || n == 0x200C || n == 0x200D
    || (0x2000 ≤ n && n ≤ 0x200A) || n == 0x2028 || n == 0x2029 || n == 0x202F || n == 0x205F
    || n == 0x3000 || (0xE000 ≤ n && n ≤ 0xF8FF) || (0xFFF0 ≤ n && n ≤ 0xFFFF)
    || 0xE0000 ≤ n

/-- What begins a label in Punycode. -/
def encodedStem : List Char := ['x', 'n', '-', '-']

/-- Whether a label that begins as Punycode is in Punycode, because it has to be, and as it
would be written. -/
def isCanonical (label : List Char) : Bool :=
  if encodedStem.isPrefixOf label then
    label.all (·.toNat < 0x80) && match Punycode.decode? (label.drop 4) with
    | some chars => chars.any (0x80 ≤ ·.toNat) && !chars.any isForbidden
        && chars.flatMap foldChar == chars && Punycode.encode chars == label.drop 4
    | none => false
  else true

def labelToAscii (label : List Char) : List Char :=
  if label.all (·.toNat < 0x80) then label else encodedStem ++ Punycode.encode label

/-- A mark that changes the character before it, so that no label may begin with one. -/
def isMark (c : Char) : Bool := 0x300 ≤ c.toNat && c.toNat ≤ 0x36F

/-- Whether a label can be part of a domain name. -/
def isLabel (label : List Char) : Bool := isCanonical label && !label.head?.any isMark

/-- The name of a domain in lower case and ASCII, if it can be one. -/
def domainToAscii? (text : String) : Option (List Char) :=
  let folded := text.toList.flatMap foldChar
  let labels := Text.pieces (· == '.') folded
  let name := ['.'].intercalate (labels.map labelToAscii)
  if folded.any isForbidden || !labels.all isLabel || name.isEmpty then none else some name

/-! ## Reading -/

/-- The address in brackets. -/
def bracketed? (s : List Char) : Option Host :=
  match s.reverse with
  | ']' :: inner => match Ip.readIpv6? inner.reverse with
    | some (ip, []) => some (.v6 ip)
    | _ => none
  | _ => none

/-- The host of a URL whose scheme is one of the web's. -/
def ofWeb? : List Char → Option Host
  | '[' :: s => bracketed? s
  | s => do
    let text ← Bytes.toText? (Percent.decode (Bytes.ofText (String.ofList s)))
    let name ← domainToAscii? text
    if endsInNumber name then
      let parts ← (dottedParts name).mapM readPart?
      (ipv4OfParts? parts).map .v4
    else some (.domain (String.ofList name))

/-- A control character or a byte above ASCII. -/
def isControl (b : UInt8) : Bool := b < 0x20 || 0x7E < b

/-- The host of a URL with any other scheme. It is kept as it is, but for escapes. -/
def ofOther? : List Char → Option Host
  | '[' :: s => bracketed? s
  | s =>
    if s.isEmpty || s.any fun c => c == '\x00' || " #/:<>?@[\\]^|".toList.contains c then none
    else some (.domain (String.ofList (Percent.encode isControl (Bytes.ofText (String.ofList s)))))

end Host

end AdmissionGate
