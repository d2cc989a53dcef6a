-- The tokens of a YAML stream. Indentation opens and closes blocks, and a
-- colon turns the token before it, on the same line, into a key: its mark is
-- put in front of a token that has been read already.
import AdmissionGate.Yaml.Scalar

namespace AdmissionGate.Yaml

/-! ## Tokens -/

inductive Style where
  | plain
  | literal
  | other
  deriving DecidableEq

/-- A tag as written: its handle and the rest of it. -/
structure TagToken where
  handle : String
  suffix : String

inductive Token where
  | streamEnd
  | version (major minor : Nat)
  | tagDirective (handle stem : String)
  | documentStart
  | documentEnd
  | blockSequence
  | blockMapping
  | blockEnd
  | flowSequence
  | flowSequenceEnd
  | flowMapping
  | flowMappingEnd
  | blockEntry
  | flowEntry
  | key
  | value
  | alias (name : String)
  | anchor (name : String)
  | tag (tag : TagToken)
  | scalar (style : Style) (text : String)

/-! ## The state of reading -/

/-- A token that a later colon may turn into a key: its number, where it stands, and whether
there is no other way to read it. -/
structure KeyCandidate where
  number : Nat
  index : Nat
  line : Nat
  column : Nat
  required : Bool

/-- The tokens read so far, the indentation of the open blocks (innermost first), whether a
key may come next, and the key candidate of each flow level (innermost first). -/
structure Reader where
  cursor : Cursor
  tokens : Array Token
  indent : Int
  indents : List Int
  keyAllowed : Bool
  candidates : List (Option KeyCandidate)

namespace Reader

def start (cs : List Char) : Reader := ⟨Cursor.start cs, #[], -1, [], true, [none]⟩

def inFlow (r : Reader) : Bool := 1 < r.candidates.length

def add (r : Reader) (t : Token) : Reader := { r with tokens := r.tokens.push t }

def take (r : Reader) (t : Token) (n : Nat) : Reader := { r.add t with cursor := r.cursor.skip n }

/-- Puts a token in front of the token with number `n`. -/
def addAt (r : Reader) (n : Nat) (t : Token) : Reader :=
  { r with tokens := (r.tokens.toList.take n ++ t :: r.tokens.toList.drop n).toArray }

def setCandidate (r : Reader) (k : Option KeyCandidate) : Reader :=
  { r with candidates := k :: r.candidates.tail }

def candidate? (r : Reader) : Option KeyCandidate := r.candidates.head?.join

/-- Gives up the key candidate of the innermost flow level. -/
def dropCandidate? (r : Reader) : Option Reader :=
  if r.candidate?.any (·.required) then none else some (r.setCandidate none)

/-- Makes the next token a key candidate, if a key may come here. -/
def saveCandidate? (r : Reader) : Option Reader :=
  if r.keyAllowed then
    let c := r.cursor
    let required := !r.inFlow && r.indent == c.column
    r.dropCandidate?.map fun r =>
      r.setCandidate (some ⟨r.tokens.size, c.index, c.line, c.column, required⟩)
  else some r

/-- Whether a key candidate is too far back: on a line before, or more than 1024 characters. -/
def isStale (c : Cursor) (k : KeyCandidate) : Bool := k.line < c.line || k.index + 1024 < c.index

/-- Gives up key candidates that are too far back. -/
def dropStale? (r : Reader) : Option Reader :=
  if r.candidates.any (fun k => k.any fun k => isStale r.cursor k && k.required) then none
  else some { r with candidates := r.candidates.map (·.filter fun k => !isStale r.cursor k) }

/-- Opens a block at `column` if it lies deeper than the blocks that are open; its token comes
at the end, or in front of the token with number `n`. -/
def openBlock (r : Reader) (column : Nat) (n : Option Nat) (t : Token) : Reader :=
  if !r.inFlow && r.indent < column then
    let r := match n with
      | some n => r.addAt n t
      | none => r.add t
    { r with indents := r.indent :: r.indents, indent := column }
  else r

/-- Closes the blocks of some indentations that lie deeper than `column`. -/
def closeDeeper (column : Int) (indent : Int) (tokens : Array Token) :
    List Int → Int × List Int × Array Token
  | [] => (indent, [], tokens)
  | outer :: rest =>
    if column < indent then closeDeeper column outer (tokens.push .blockEnd) rest
    else (indent, outer :: rest, tokens)

def closeBlocks (r : Reader) (column : Int) : Reader :=
  if r.inFlow then r
  else
    let (indent, indents, tokens) := closeDeeper column r.indent r.tokens r.indents
    { r with indent, indents, tokens }

/-! ## Between tokens -/

/-- Skips blanks, comments and line ends. In a block, a line end allows a key again, and a tab
is no blank where a key may come. -/
def skipGap (fuel : Nat) (r : Reader) : Reader :=
  match fuel with
  | 0 => r
  | fuel + 1 =>
    let tabs := r.inFlow || !r.keyAllowed
    let c := r.cursor.skipWhile fun ch => ch == ' ' || (tabs && ch == '\t')
    let c := if c.isAt '#' then c.skipWhile fun ch => !isBreak ch else c
    if c.holdsAt 0 isBreak then
      skipGap fuel { r with cursor := c.readBreak.2, keyAllowed := r.keyAllowed || !r.inFlow }
    else { r with cursor := c }

/-! ## Directives, anchors and tags -/

/-- Reads a number of at most nine digits. -/
def readNumber? (c : Cursor) : Option (Nat × Cursor) :=
  let digits := c.rest.takeWhile Decimal.isDigit
  if digits.isEmpty || 9 < digits.length then none
  else some (Decimal.ofDigits digits, c.skip digits.length)

/-- Reads a tag's handle: an exclamation mark, perhaps letters and another one. In a directive
the second mark may only be missing without letters. -/
def readHandle? (directive : Bool) (c : Cursor) : Option (List Char × Cursor) :=
  if !c.isAt '!' then none
  else
    let letters := (c.skip 1).rest.takeWhile isWord
    let c := c.skip (1 + letters.length)
    if c.isAt '!' then some ('!' :: letters ++ ['!'], c.skip 1)
    else if directive && !letters.isEmpty then none
    else some ('!' :: letters, c)

/-- A character that may stand in a tag. -/
def isTagChar (brackets : Bool) (c : Char) : Bool :=
  isWord c || ";/?:@&=+$.!~*'()".toList.contains c
    || (brackets && (c == ',' || c == '[' || c == ']'))

/-- The byte of a percent sign and two hexadecimal digits. -/
def escapedByte? : List Char → Option UInt8
  | '%' :: a :: b :: _ => do some (UInt8.ofNat (16 * (← Hex.value? a) + (← Hex.value? b)))
  | _ => none

/-- How many bytes a character has that begins with this byte. -/
def encodedLength (b : UInt8) : Nat :=
  if b &&& 0x80 == 0 then 1
  else if b &&& 0xE0 == 0xC0 then 2
  else if b &&& 0xF0 == 0xE0 then 3
  else if b &&& 0xF8 == 0xF0 then 4
  else 0

/-- Reads `n` escaped bytes, all but the first of which continue a character. -/
def escapedBytes? : Nat → Bool → List Char → Option (Bytes × List Char)
  | 0, _, cs => some ([], cs)
  | n + 1, first, cs =>
    match escapedByte? cs with
    | some b =>
      if !first && b &&& 0xC0 != 0x80 then none
      else (escapedBytes? n false (cs.drop 3)).map fun (bs, cs) => (b :: bs, cs)
    | none => none

/-- Reads the characters of a tag, as bytes. -/
def readTagBytes? (brackets : Bool) : Nat → List Char → Option (Bytes × List Char)
  | 0, cs => some ([], cs)
  | fuel + 1, cs =>
    match cs with
    | '%' :: _ =>
      match escapedByte? cs with
      | some b =>
        if encodedLength b == 0 then none
        else match escapedBytes? (encodedLength b) true cs with
          | some (bs, cs) =>
            (readTagBytes? brackets fuel cs).map fun (more, cs) => (bs ++ more, cs)
          | none => none
      | none => none
    | c :: rest =>
      if isTagChar brackets c then
        (readTagBytes? brackets fuel rest).map fun (more, cs) => (String.utf8EncodeChar c ++ more, cs)
      else some ([], cs)
    | [] => some ([], [])

/-- Reads the characters of a tag after those that have been read as its handle. -/
def readTagText? (brackets : Bool) (before : List Char) (c : Cursor) :
    Option (List Char × Cursor) :=
  match readTagBytes? brackets (c.rest.length + 1) c.rest with
  | some (bs, rest) =>
    if before.isEmpty && bs.isEmpty then none
    else (Bytes.toText? bs).map fun s =>
      (before.drop 1 ++ s.toList, c.skip (c.rest.length - rest.length))
  | none => none

/-- Reads a directive, from its percent sign on. -/
def readDirective? (c : Cursor) : Option (Token × Cursor) := do
  let c := c.skip 1
  let name := c.rest.takeWhile isWord
  let c := c.skip name.length
  if name.isEmpty || !c.endsWordAt 0 then none
  else
    let (token, c) ←
      if name == "YAML".toList then do
        let (major, c) ← readNumber? (c.skipWhile isBlank)
        if !c.isAt '.' then none
        else
          let (minor, c) ← readNumber? (c.skip 1)
          some (Token.version major minor, c)
      else if name == "TAG".toList then do
        let (handle, c) ← readHandle? true (c.skipWhile isBlank)
        if !c.holdsAt 0 isBlank then none
        else
          let (stem, c) ← readTagText? true [] (c.skipWhile isBlank)
          if !c.endsWordAt 0 then none
          else some (Token.tagDirective (String.ofList handle) (String.ofList stem), c)
      else none
    let c := c.skipWhile isBlank
    let c := if c.isAt '#' then c.skipWhile fun ch => !isBreak ch else c
    if !c.endsLineAt 0 then none else some (token, c.readBreak.2)

/-- Reads the name of an anchor or an alias, from its mark on. -/
def readName? (c : Cursor) : Option (String × Cursor) :=
  let c := c.skip 1
  let name := c.rest.takeWhile isWord
  let c := c.skip name.length
  if name.isEmpty then none
  else if c.endsWordAt 0 || c.rest.head?.any ("?:,]\x7d%@\x60".toList.contains ·) then
    some (String.ofList name, c)
  else none

/-- Reads a tag, from its exclamation mark on. -/
def readTag? (inFlow : Bool) (c : Cursor) : Option (TagToken × Cursor) := do
  let (tag, c) ←
    if c.peek 1 == some '<' then do
      let (suffix, c) ← readTagText? true [] (c.skip 2)
      if c.isAt '>' then some (TagToken.mk "" (String.ofList suffix), c.skip 1) else none
    else do
      let (handle, c) ← readHandle? false c
      if 1 < handle.length && handle.getLast? == some '!' then
        let (suffix, c) ← readTagText? false [] c
        some (TagToken.mk (String.ofList handle) (String.ofList suffix), c)
      else
        let (suffix, c) ← readTagText? false handle c
        some (if suffix.isEmpty then TagToken.mk "" "!"
          else TagToken.mk "!" (String.ofList suffix), c)
  if c.endsWordAt 0 || (inFlow && c.isAt ',') then some (tag, c) else none

/-! ## One token after another -/

def openFlow? (r : Reader) (t : Token) : Option Reader := do
  let r ← r.saveCandidate?
  some { r.take t 1 with candidates := none :: r.candidates, keyAllowed := true }

def closeFlow? (r : Reader) (t : Token) : Option Reader := do
  let r ← r.dropCandidate?
  let outer := match r.candidates with
    | _ :: k :: rest => k :: rest
    | ks => ks
  some { r.take t 1 with candidates := outer, keyAllowed := false }

def blockEntry? (r : Reader) : Option Reader :=
  if !r.inFlow && !r.keyAllowed then none
  else
    (r.openBlock r.cursor.column none .blockSequence).dropCandidate?.map fun r =>
      { r.take .blockEntry 1 with keyAllowed := true }

def explicitKey? (r : Reader) : Option Reader :=
  if !r.inFlow && !r.keyAllowed then none
  else
    (r.openBlock r.cursor.column none .blockMapping).dropCandidate?.map fun r =>
      { r.take .key 1 with keyAllowed := !r.inFlow }

/-- Reads a colon. The key candidate becomes a key, and opens a block mapping if need be. -/
def colon? (r : Reader) : Option Reader :=
  match r.candidate? with
  | some k =>
    let r := (r.addAt k.number .key).openBlock k.column (some k.number) .blockMapping
    some { (r.setCandidate none).take .value 1 with keyAllowed := false }
  | none =>
    if !r.inFlow && !r.keyAllowed then none
    else
      let r := r.openBlock r.cursor.column none .blockMapping
      some { r.take .value 1 with keyAllowed := !r.inFlow }

/-- Adds a token that may be a key, with the place after it. -/
def addNode? (r : Reader) (read : Option (Token × Cursor)) : Option Reader := do
  let r ← r.saveCandidate?
  let (t, c) ← read
  some { r.add t with cursor := c, keyAllowed := false }

def blockScalar? (r : Reader) (literal : Bool) : Option Reader := do
  let r ← r.dropCandidate?
  let (text, c) ← block? literal r.indent r.cursor
  let style := if literal then Style.literal else Style.other
  some { r.add (.scalar style (String.ofList text)) with cursor := c, keyAllowed := true }

def plainScalar? (r : Reader) : Option Reader := do
  let r ← r.saveCandidate?
  let (text, c, broken) ← plain? r.inFlow (r.indent + 1).toNat r.cursor
  some { r.add (.scalar .plain (String.ofList text)) with cursor := c, keyAllowed := broken }

/-- A character that cannot begin a plain scalar by itself. -/
def isIndicator (c : Char) : Bool := "-?:,[]\x7b\x7d#&*!|>'\"%@\x60".toList.contains c

/-- Reads the token that begins with `ch`, the next character. -/
def readToken? (r : Reader) (ch : Char) : Option Reader :=
  let c := r.cursor
  let apart := c.endsWordAt 1
  if c.column == 0 && ch == '%' then do
    let r ← (r.closeBlocks (-1)).dropCandidate?
    let (t, c) ← readDirective? c
    some { r.add t with cursor := c, keyAllowed := false }
  else if c.isDocumentMark then do
    let r ← (r.closeBlocks (-1)).dropCandidate?
    let t := if ch == '-' then Token.documentStart else Token.documentEnd
    some { r.take t 3 with keyAllowed := false }
  else if ch == '[' then r.openFlow? .flowSequence
  else if ch == '\x7b' then r.openFlow? .flowMapping
  else if ch == ']' then r.closeFlow? .flowSequenceEnd
  else if ch == '\x7d' then r.closeFlow? .flowMappingEnd
  else if ch == ',' then
    r.dropCandidate?.map fun r => { r.take .flowEntry 1 with keyAllowed := true }
  else if ch == '-' && apart then r.blockEntry?
  else if ch == '?' && (r.inFlow || apart) then r.explicitKey?
  else if ch == ':' && (r.inFlow || apart) then r.colon?
  else if ch == '*' then r.addNode? ((readName? c).map fun (n, c) => (.alias n, c))
  else if ch == '&' then r.addNode? ((readName? c).map fun (n, c) => (.anchor n, c))
  else if ch == '!' then r.addNode? ((readTag? r.inFlow c).map fun (t, c) => (.tag t, c))
  else if ch == '|' && !r.inFlow then r.blockScalar? true
  else if ch == '>' && !r.inFlow then r.blockScalar? false
  else if ch == '\'' || ch == '\x22' then
    r.addNode? ((quoted? ch c).map fun (text, c) => (.scalar .other (String.ofList text), c))
  else if !(isBlank ch || isIndicator ch)
      || (ch == '-' && !c.holdsAt 1 isBlank)
      || (!r.inFlow && (ch == '?' || ch == ':') && !apart) then r.plainScalar?
  else none

def finish? (r : Reader) : Option (Array Token) :=
  (r.closeBlocks (-1)).dropCandidate?.map fun r => r.tokens.push .streamEnd

/-- Reads tokens to the end of the stream, at most `fuel` of them. -/
def readAll? : Nat → Reader → Option (Array Token)
  | 0, _ => none
  | fuel + 1, r =>
    match (r.skipGap (r.cursor.rest.length + 1)).dropStale? with
    | none => none
    | some r =>
      let r := r.closeBlocks r.cursor.column
      match r.cursor.rest.head? with
      | none => r.finish?
      | some ch =>
        match r.readToken? ch with
        | some r => readAll? fuel r
        | none => none

end Reader

/-- The tokens of a stream. Every token but the last takes at least one character. -/
def tokens? (cs : List Char) : Option (List Token) :=
  (Reader.readAll? (cs.length + 1) (Reader.start cs)).map (·.toList)

end AdmissionGate.Yaml
