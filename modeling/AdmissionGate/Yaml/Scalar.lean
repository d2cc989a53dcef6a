-- The texts of YAML scalars: plain, in single or double quotes, and in
-- blocks that keep or fold their lines.
import AdmissionGate.Text.Hex
import AdmissionGate.Text.Decimal
import AdmissionGate.Yaml.Cursor

namespace AdmissionGate.Yaml

/-! ## Plain scalars -/

/-- A bracket or comma that has a meaning inside flow collections. -/
def isFlowMark (c : Char) : Bool := c == ',' || c == '[' || c == ']' || c == '\x7b' || c == '\x7d'

def endsWord (c : Option Char) : Bool := c.all fun ch => isBlank ch || isBreak ch

/-- Reads a plain scalar up to a blank, a line end, or a mark that ends it. Inside a flow
collection a colon before one of its marks is refused. -/
def plainChunk? (inFlow : Bool) : List Char → Option (List Char)
  | [] => some []
  | c :: rest =>
    let next := rest.head?
    if isBlank c || isBreak c then some []
    else if inFlow && c == ':' && next.any (fun n => isFlowMark n || n == '?') then none
    else if (c == ':' && endsWord next) || (inFlow && isFlowMark c) then some []
    else (plainChunk? inFlow rest).map (c :: ·)

/-- Reads the rest of a plain scalar of which `text` has been read, with the gap `g` after it.
Gives the text, the place after it, and whether a line ended there. -/
def plainFrom? (inFlow : Bool) (indent : Nat) :
    Nat → List Char → Gap → Cursor → Option (List Char × Cursor × Bool)
  | 0, text, g, c => some (text, c, g.broken)
  | fuel + 1, text, g, c =>
    if c.isDocumentMark || c.isAt '#' then some (text, c, g.broken)
    else match plainChunk? inFlow c.rest with
      | none => none
      | some [] => some (text, c, g.broken)
      | some chunk =>
        let text := text ++ g.text ++ chunk
        let c := c.skip chunk.length
        if c.rest.head?.any (fun ch => isBlank ch || isBreak ch) then
          match Gap.read? indent (c.rest.length + 1) Gap.empty c with
          | none => none
          | some (g, c) =>
            if !inFlow && c.column < indent then some (text, c, g.broken)
            else plainFrom? inFlow indent fuel text g c
        else some (text, c, false)

def plain? (inFlow : Bool) (indent : Nat) (c : Cursor) : Option (List Char × Cursor × Bool) :=
  plainFrom? inFlow indent (c.rest.length + 1) [] Gap.empty c

/-! ## Quoted scalars -/

def unescape? (c : Char) : Option Char :=
  if c == '0' then some '\x00'
  else if c == 'a' then some '\x07'
  else if c == 'b' then some '\x08'
  else if c == 't' || c == '\t' then some '\t'
  else if c == 'n' then some '\n'
  else if c == 'v' then some '\x0b'
  else if c == 'f' then some '\x0c'
  else if c == 'r' then some '\r'
  else if c == 'e' then some '\x1b'
  else if c == ' ' || c == '\x22' || c == '/' || c == '\\' then some c
  else if c == 'N' then some '\u0085'
  else if c == '_' then some '\u00a0'
  else if c == 'L' then some '\u2028'
  else if c == 'P' then some '\u2029'
  else none

/-- How many hexadecimal digits follow a backslash and this character. -/
def codeLength (c : Char) : Nat :=
  if c == 'x' then 2 else if c == 'u' then 4 else if c == 'U' then 8 else 0

def codeChar? (digits : List Char) : Option Char := do
  let values ← digits.mapM Hex.value?
  let n := values.foldl (fun n d => n * 16 + d) 0
  if (0xD800 ≤ n && n ≤ 0xDFFF) || 0x10FFFF < n then none else some (Char.ofNat n)

/-- Reads a quoted scalar up to a blank, a line end or the closing quote. Tells whether an
escaped line end was read last, which joins two lines without a space. -/
def quotedChunk? (quote : Char) : Nat → List Char → Cursor → Option (List Char × Cursor × Bool)
  | 0, _, _ => none
  | fuel + 1, text, c =>
    match c.rest with
    | [] => some (text, c, false)
    | ch :: rest =>
      if isBlank ch || isBreak ch then some (text, c, false)
      else if quote == '\'' && ch == '\'' && rest.head? == some '\'' then
        quotedChunk? quote fuel (text ++ ['\'']) (c.skip 2)
      else if ch == quote then some (text, c, false)
      else if quote == '\x22' && ch == '\\' then
        match rest with
        | [] => none
        | e :: more =>
          if isBreak e then some (text, (c.skip 1).readBreak.2, true)
          else match unescape? e with
            | some u => quotedChunk? quote fuel (text ++ [u]) (c.skip 2)
            | none =>
              let n := codeLength e
              if n == 0 || more.length < n then none
              else match codeChar? (more.take n) with
                | some u => quotedChunk? quote fuel (text ++ [u]) (c.skip (2 + n))
                | none => none
      else quotedChunk? quote fuel (text ++ [ch]) (c.skip 1)

/-- Reads the rest of a quoted scalar of which `text` has been read. -/
def quotedFrom? (quote : Char) : Nat → List Char → Cursor → Option (List Char × Cursor)
  | 0, _, _ => none
  | fuel + 1, text, c =>
    if c.isDocumentMark || c.rest.isEmpty then none
    else match quotedChunk? quote (c.rest.length + 1) text c with
      | none => none
      | some (text, c, joined) =>
        if !joined && c.isAt quote then some (text, c.skip 1)
        else match Gap.read? 0 (c.rest.length + 1) ⟨joined, [], [], []⟩ c with
          | none => none
          | some (g, c) => quotedFrom? quote fuel (text ++ g.text) c

/-- Reads a quoted scalar, from its opening quote on. -/
def quoted? (quote : Char) (c : Cursor) : Option (List Char × Cursor) :=
  quotedFrom? quote (c.rest.length + 1) [] (c.skip 1)

/-! ## Block scalars -/

/-- What is done with the line ends after the last line of a block scalar. -/
inductive Chomping where
  | strip
  | clip
  | keep
  deriving DecidableEq

/-- The head of a block scalar: what is done with its last line ends, and by how much its
lines are indented, if it says so. -/
structure BlockHead where
  chomping : Chomping
  increment : Option Nat

def chomping? (c : Char) : Option Chomping :=
  if c == '+' then some .keep else if c == '-' then some .strip else none

/-- Reads the head of a block scalar after its mark: a chomping and a digit in either order,
either of them missing. The digit zero is refused. -/
def blockHead? (c : Cursor) : Option (BlockHead × Cursor) :=
  let digit? (c : Cursor) : Option (Option Nat × Cursor) :=
    match c.rest.head? with
    | some d =>
      if d == '0' then none
      else if Decimal.isDigit d then some (some (d.toNat - '0'.toNat), c.skip 1)
      else some (none, c)
    | none => some (none, c)
  match c.rest.head?.bind chomping? with
  | some chomping => (digit? (c.skip 1)).map fun (n, c) => (⟨chomping, n⟩, c)
  | none => match digit? c with
    | some (some n, c) => match c.rest.head?.bind chomping? with
      | some chomping => some (⟨chomping, some n⟩, c.skip 1)
      | none => some (⟨.clip, some n⟩, c)
    | some (none, c) => some (⟨.clip, none⟩, c)
    | none => none

/-- Reads line ends and indentation up to the next line with content. Without a known
indentation, the widest one met is remembered. A tab in place of indentation is refused. -/
def blockBreaks? (indent : Option Nat) :
    Nat → Nat → List Char → Cursor → Option (Nat × List Char × Cursor)
  | 0, widest, breaks, c => some (widest, breaks, c)
  | fuel + 1, widest, breaks, c =>
    let spaces := (c.rest.takeWhile (· == ' ')).length
    let c := c.skip (match indent with
      | some n => min spaces (n - c.column)
      | none => spaces)
    let widest := max widest c.column
    if (indent.all (c.column < ·)) && c.isAt '\t' then none
    else if c.holdsAt 0 isBreak then
      let (b, c) := c.readBreak
      blockBreaks? indent fuel widest (breaks ++ b) c
    else some (widest, breaks, c)

/-- Reads the lines of a block scalar. `lead` is the end of the line before, `leadBlank` tells
whether that line began with a blank, and `breaks` are the empty lines since. -/
def blockLines? (literal : Bool) (indent : Nat) :
    Nat → List Char → List Char → Bool → List Char → Cursor →
      Option (List Char × List Char × List Char × Cursor)
  | 0, text, lead, _, breaks, c => some (text, lead, breaks, c)
  | fuel + 1, text, lead, leadBlank, breaks, c =>
    if c.column == indent && !c.rest.isEmpty then
      let blank := c.holdsAt 0 isBlank
      let joint :=
        if !literal && lead == ['\n'] && !leadBlank && !blank then
          if breaks.isEmpty then [' '] else []
        else lead
      let line := c.rest.takeWhile fun ch => !isBreak ch
      let (lead, c) := (c.skip line.length).readBreak
      match blockBreaks? (some indent) (c.rest.length + 1) 0 [] c with
      | none => none
      | some (_, more, c) =>
        blockLines? literal indent fuel (text ++ joint ++ breaks ++ line) lead blank more c
    else some (text, lead, breaks, c)

/-- Reads a block scalar, from its mark on, in a block indented by `outer` (minus one at the
top of a document). -/
def block? (literal : Bool) (outer : Int) (c : Cursor) : Option (List Char × Cursor) := do
  let (head, c) ← blockHead? (c.skip 1)
  let c := c.skipWhile isBlank
  let c := if c.isAt '#' then c.skipWhile fun ch => !isBreak ch else c
  if !c.endsLineAt 0 then none
  else
    let c := c.readBreak.2
    let known := head.increment.map fun n => n + outer.toNat
    let (widest, breaks, c) ← blockBreaks? known (c.rest.length + 1) 0 [] c
    let indent := known.getD (max (max widest (outer + 1).toNat) 1)
    let (text, lead, breaks, c) ← blockLines? literal indent (c.rest.length + 1) [] [] false breaks c
    some (match head.chomping with
      | .strip => (text, c)
      | .clip => (text ++ lead, c)
      | .keep => (text ++ lead ++ breaks, c))

end AdmissionGate.Yaml
