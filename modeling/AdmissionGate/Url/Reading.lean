-- Reading URLs. The schemes of the web have usual ports, take a backslash
-- for a slash, and put their hosts into a normal form.
import AdmissionGate.Url.Basic

namespace AdmissionGate

/-- What the scheme of a URL means for the rest of it. -/
inductive SchemeKind where
  | web
  | file
  | other
  deriving DecidableEq, Repr

namespace SchemeKind

/-- The schemes of the web, with their usual ports. -/
def webPorts : List (String × Nat) :=
  [("http", 80), ("https", 443), ("ws", 80), ("wss", 443), ("ftp", 21)]

def ofScheme (scheme : String) : SchemeKind :=
  if scheme == "file" then .file
  else if (webPorts.lookup scheme).isSome then .web
  else .other

/-- Whether a character separates the segments of a path. -/
def isSeparator (k : SchemeKind) (c : Char) : Bool := c == '/' || (c == '\\' && k != .other)

/-- Whether a character ends the part of a URL that names the host. -/
def endsAuthority (k : SchemeKind) (c : Char) : Bool :=
  k.isSeparator c || c == '?' || c == '#'

end SchemeKind

namespace Url

/-! ## Escapes -/

def escapedInFragment (b : UInt8) : Bool :=
  b ≤ 0x20 || 0x7F ≤ b || b == 0x22 || b == 0x3C || b == 0x3E || b == 0x60

def escapedInPath (b : UInt8) : Bool :=
  escapedInFragment b || b == 0x23 || b == 0x3F || b == 0x7B || b == 0x7D

def escapedInUserinfo (b : UInt8) : Bool :=
  escapedInPath b || b == 0x2F || b == 0x3A || b == 0x3B || b == 0x3D || b == 0x40
    || (0x5B ≤ b && b ≤ 0x5E) || b == 0x7C

def escapedInQuery (k : SchemeKind) (b : UInt8) : Bool :=
  b ≤ 0x20 || 0x7F ≤ b || b == 0x22 || b == 0x23 || b == 0x3C || b == 0x3E
    || (b == 0x27 && k != .other)

/-- Characters in the form in which they are written. -/
def escape (escaped : UInt8 → Bool) (s : List Char) : String :=
  String.ofList (Percent.encode escaped (Bytes.ofText (String.ofList s)))

/-! ## Paths -/

/-- The segments that mean the directory itself. -/
def isHere (segment : String) : Bool := [".", "%2e"].contains (Text.lowerAscii segment)

/-- The segments that mean the directory above. -/
def isAbove (segment : String) : Bool :=
  ["..", "%2e.", ".%2e", "%2e%2e"].contains (Text.lowerAscii segment)

/-- Adds segments to a path, of which the last segment comes first. After a last segment that
means a directory there is an empty one. -/
def addSegments (above : List String) : List String → List String
  | [] => above
  | [s] =>
    if isAbove s then "" :: above.drop 1 else if isHere s then "" :: above else s :: above
  | s :: rest =>
    addSegments (if isAbove s then above.drop 1 else if isHere s then above else s :: above) rest

/-- The path that segments lead to from a directory, given by its own segments. -/
def follow (directory : List String) (segments : List String) : List String :=
  (addSegments directory.reverse segments).reverse

/-- The written segments of some text. -/
def segmentsOf (k : SchemeKind) (s : List Char) : List String :=
  (Text.pieces k.isSeparator s).map (escape escapedInPath)

/-- The path of the text behind the host. Only a scheme that is not of the web's may be
without a path. -/
def readPath (k : SchemeKind) (s : List Char) : List String :=
  match s with
  | [] => if k = .other then [] else [""]
  | c :: rest => follow [] (segmentsOf k (if k.isSeparator c then rest else s))

/-! ## Parts -/

/-- Splits text before the first character that satisfies `p`. -/
def splitBefore (p : Char → Bool) (s : List Char) : List Char × List Char :=
  (s.takeWhile (!p ·), s.dropWhile (!p ·))

/-- The query and the fragment of the text behind the path. -/
def readTail (k : SchemeKind) (s : List Char) : Option String × Option String :=
  let (query, fragment) := splitBefore (· == '#') s
  (match query with
    | '?' :: q => some (escape (escapedInQuery k) q)
    | _ => none,
   match fragment with
    | '#' :: f => some (escape escapedInFragment f)
    | _ => none)

/-- The scheme in lower case and what follows its colon. -/
def readScheme? (s : List Char) : Option (String × List Char) :=
  let isLetter (c : Char) : Bool := ('a' ≤ c && c ≤ 'z') || ('A' ≤ c && c ≤ 'Z')
  let isInner (c : Char) : Bool :=
    isLetter c || ('0' ≤ c && c ≤ '9') || c == '+' || c == '-' || c == '.'
  let scheme := s.takeWhile isInner
  match s.dropWhile isInner with
  | ':' :: rest =>
    if scheme.head?.any isLetter then some (Text.lowerAscii (String.ofList scheme), rest) else none
  | _ => none

/-- Splits off the name and the password, which end at the last `@` before the path. -/
def readUserinfo (k : SchemeKind) (s : List Char) : String × String × List Char :=
  let authority := s.takeWhile (!k.endsAuthority ·)
  if authority.contains '@' then
    let host := (authority.reverse.takeWhile (· != '@')).reverse
    let info := authority.take (authority.length - host.length - 1)
    let (name, password) := splitBefore (· == ':') info
    (escape escapedInUserinfo name, escape escapedInUserinfo (password.drop 1),
      s.drop (info.length + 1))
  else ("", "", s)

/-- The length of a host: up to a colon outside of brackets, or to the end of the part that
names it. -/
def hostLength (k : SchemeKind) (inBrackets : Bool) : List Char → Nat
  | [] => 0
  | c :: rest =>
    if k.endsAuthority c || (c == ':' && !inBrackets) then 0
    else hostLength k (if c == '[' then true else if c == ']' then false else inBrackets) rest + 1

/-- Reads a port, if there is a colon, up to the path. No digits mean no port. -/
def readPort? (s : List Char) : Option (Option Nat × List Char) :=
  match s with
  | ':' :: rest =>
    let digits := rest.takeWhile Decimal.isDigit
    let after := rest.dropWhile Decimal.isDigit
    let isEnd := after.head?.all fun c => c == '/' || c == '\\' || c == '?' || c == '#'
    if !isEnd || 65535 < Decimal.ofDigits digits then none
    else some (if digits.isEmpty then none else some (Decimal.ofDigits digits), after)
  | _ => some (none, s)

/-! ## Whole URLs -/

/-- A letter and a colon or a bar, which in the path of a file means a drive, and no host. -/
def isDrive (segment : String) : Bool :=
  match segment.toList with
  | [c, d] => (('a' ≤ c && c ≤ 'z') || ('A' ≤ c && c ≤ 'Z')) && (d == ':' || d == '|')
  | _ => false

/-- The host of a URL of some kind. A file on `localhost` has no host. -/
def readHost? (k : SchemeKind) (s : List Char) : Option Host :=
  match k with
  | .web => Host.ofWeb? s
  | .file => (Host.ofWeb? s).filter (· != .domain "localhost")
  | .other => Host.ofOther? s

/-- Reads the rest of a URL after the two slashes behind its scheme. -/
def readRest? (k : SchemeKind) (scheme : String) (s : List Char) : Option Url := do
  let (username, password, s) := if k = .file then ("", "", s) else readUserinfo k s
  let hostText :=
    if k = .file then s.takeWhile (!k.endsAuthority ·) else s.take (hostLength k false s)
  let host ← readHost? k hostText
  let (port, s) ← readPort? (s.drop hostText.length)
  let (pathText, tail) := splitBefore (fun c => c == '?' || c == '#') s
  let path := readPath k pathText
  let (query, fragment) := readTail k tail
  if k = .file && path.any isDrive then none
  else
    let leading := path.dropWhile (· == "")
    some {
      scheme, username, password, host
      port := port.filter (some · != SchemeKind.webPorts.lookup scheme)
      path := if k = .file then (if leading.isEmpty then [""] else leading) else path
      query, fragment }

/-- Characters that are dropped from a URL wherever they are. -/
def isDropped (c : Char) : Bool := c == '\t' || c == '\n' || c == '\r'

/-- The characters of a URL: without control characters and spaces around it, and without
tabs and line breaks in it. -/
def clean (s : List Char) : List Char := (Text.strip (· ≤ ' ') s).filter (!isDropped ·)

/-- The URL that a text is, if it names a host. Behind a scheme of the web there may be any
number of slashes, behind others there must be two. -/
def ofText? (text : String) : Option Url := do
  let (scheme, s) ← readScheme? (clean text.toList)
  let k := SchemeKind.ofScheme scheme
  match k with
  | .web => readRest? k scheme (s.dropWhile k.isSeparator)
  | _ => match s with
    | a :: b :: rest => if k.isSeparator a && k.isSeparator b then readRest? k scheme rest else none
    | _ => none

/-- The URL that a relative reference leads to from a directory. The reference is a path,
which does not begin with a slash, and perhaps a query and a fragment. -/
def join (u : Url) (reference : String) : Url :=
  let k := SchemeKind.ofScheme u.scheme
  let (pathText, tail) := splitBefore (fun c => c == '?' || c == '#') (clean reference.toList)
  let (query, fragment) := readTail k tail
  { u with path := follow u.path.dropLast (segmentsOf k pathText), query, fragment }

end Url

end AdmissionGate
