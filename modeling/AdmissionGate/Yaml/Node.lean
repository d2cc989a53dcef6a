-- The nodes of a YAML document: scalars, sequences, mappings, and aliases of
-- nodes that were given an anchor before.
import AdmissionGate.Table
import AdmissionGate.Yaml.Token

namespace AdmissionGate.Yaml

/-- A node with its tag. An alias holds the number of its anchor. -/
inductive Node where
  | scalar (tag : Option String) (style : Style) (text : String)
  | sequence (tag : Option String) (items : List Node)
  | mapping (tag : Option String) (pairs : List (Node × Node))
  | alias (number : Nat)

def Node.missing : Node := .scalar none .plain ""

/-- The anchors of a document. Names map to numbers, a number being how many names there were
before; numbers map to the place of the anchored node among all anchored nodes, where the
last node with a number counts; and places map to nodes. -/
structure Anchors where
  numbers : Table String Nat
  places : Table Nat Nat
  nodes : Table Nat Node
  count : Nat

def Anchors.none : Anchors := ⟨Table.empty, Table.empty, Table.empty, 0⟩

/-- The node that an alias stands for. -/
def Anchors.find? (a : Anchors) (number : Nat) : Option Node :=
  (a.places.find? number).bind a.nodes.find?

/-- Sets an anchor at a node that is about to be read; gives the place of the node. -/
def Anchors.set (a : Anchors) (name : String) : Nat × Anchors :=
  let number := a.numbers.size
  (a.count, { a with
    numbers := a.numbers.insert name number,
    places := a.places.insert number a.count,
    count := a.count + 1 })

/-- The tokens still to be read, the anchors so far, and the tag handles in force. -/
structure Stage where
  tokens : List Token
  anchors : Anchors
  handles : List (String × String)

namespace Stage

def next (s : Stage) : Token := s.tokens.headD .streamEnd

def skip (s : Stage) : Stage := { s with tokens := s.tokens.tail }

/-- The tag that a tag token stands for. -/
def tagText? (s : Stage) (t : TagToken) : Option String :=
  if t.handle.isEmpty then some t.suffix
  else (s.handles.lookup t.handle).map (· ++ t.suffix)

/-- Reads the anchor and the tag in front of a node, in either order. -/
def properties (s : Stage) : Option String × Option TagToken × Stage :=
  match s.next with
  | .anchor a => match s.skip.next with
    | .tag t => (some a, some t, s.skip.skip)
    | _ => (some a, none, s.skip)
  | .tag t => match s.skip.next with
    | .anchor a => (some a, some t, s.skip.skip)
    | _ => (none, some t, s.skip)
  | _ => (none, none, s)

/-- The stage with an anchored node read. -/
def anchored (s : Stage) (place : Option Nat) (n : Node) : Stage :=
  match place with
  | some p => { s with anchors := { s.anchors with nodes := s.anchors.nodes.insert p n } }
  | none => s

end Stage

/-! ## Tokens that stand for a missing node -/

/-- Whether an entry of a block sequence ends before this token. -/
def endsBlockEntry : Token → Bool
  | .blockEntry => true
  | .blockEnd => true
  | _ => false

/-- Whether an entry of a sequence without indentation of its own ends before this token. -/
def endsOpenEntry : Token → Bool
  | .blockEntry => true
  | .key => true
  | .value => true
  | .blockEnd => true
  | _ => false

/-- Whether a key or value of a block mapping ends before this token. -/
def endsBlockPart : Token → Bool
  | .key => true
  | .value => true
  | .blockEnd => true
  | _ => false

/-- Whether a key of a flow mapping ends before this token. -/
def endsFlowKey : Token → Bool
  | .value => true
  | .flowEntry => true
  | .flowMappingEnd => true
  | _ => false

/-- Whether a value of a flow mapping ends before this token. -/
def endsFlowValue : Token → Bool
  | .flowEntry => true
  | .flowMappingEnd => true
  | _ => false

/-- Whether the key of a single pair in a flow sequence ends before this token. -/
def endsPairKey : Token → Bool
  | .value => true
  | .flowEntry => true
  | .flowSequenceEnd => true
  | _ => false

/-- Whether the value of a single pair in a flow sequence ends before this token. -/
def endsPairValue : Token → Bool
  | .flowEntry => true
  | .flowSequenceEnd => true
  | _ => false

/-! ## Nodes -/

mutual

/-- Reads a node. Block collections are allowed if `block`, and a block sequence that is not
indented more than its key if `openEntries`. -/
def node? (fuel : Nat) (block openEntries : Bool) (s : Stage) : Option (Node × Stage) :=
  match fuel with
  | 0 => none
  | fuel + 1 =>
    match s.next with
    | .alias name => (s.anchors.numbers.find? name).map fun n => (.alias n, s.skip)
    | _ => do
      let (anchor, tagToken, s) := s.properties
      let tag ← match tagToken with
        | some t => (s.tagText? t).map some
        | none => some none
      let (place, s) : Option Nat × Stage := match anchor with
        | some name =>
          let (p, anchors) := s.anchors.set name
          (some p, { s with anchors })
        | none => (none, s)
      let (n, s) ← content? fuel block openEntries (anchor.isSome || tag.isSome) tag s
      some (n, s.anchored place n)

/-- Reads a node after its anchor and tag; it may be missing if it has either of them. -/
def content? (fuel : Nat) (block openEntries mayMiss : Bool) (tag : Option String) (s : Stage) :
    Option (Node × Stage) :=
  match fuel with
  | 0 => none
  | fuel + 1 =>
    match s.next with
    | .blockEntry =>
      if openEntries then (openItems? fuel s).map fun (items, s) => (.sequence tag items, s)
      else if mayMiss then some (.scalar tag .plain "", s) else none
    | .scalar style text =>
      some (.scalar (if tag == some "!" then none else tag) style text, s.skip)
    | .flowSequence => (flowItems? fuel true s.skip).map fun (items, s) => (.sequence tag items, s)
    | .flowMapping => (flowPairs? fuel true s.skip).map fun (pairs, s) => (.mapping tag pairs, s)
    | .blockSequence =>
      if block then (blockItems? fuel s.skip).map fun (items, s) => (.sequence tag items, s)
      else if mayMiss then some (.scalar tag .plain "", s) else none
    | .blockMapping =>
      if block then (blockPairs? fuel s.skip).map fun (pairs, s) => (.mapping tag pairs, s)
      else if mayMiss then some (.scalar tag .plain "", s) else none
    | _ => if mayMiss then some (.scalar tag .plain "", s) else none

def blockItems? (fuel : Nat) (s : Stage) : Option (List Node × Stage) :=
  match fuel with
  | 0 => none
  | fuel + 1 =>
    match s.next with
    | .blockEntry => do
      let s := s.skip
      let (n, s) ← if endsBlockEntry s.next then some (Node.missing, s) else node? fuel true false s
      let (ns, s) ← blockItems? fuel s
      some (n :: ns, s)
    | .blockEnd => some ([], s.skip)
    | _ => none

/-- Reads the entries of a block sequence without indentation of its own. -/
def openItems? (fuel : Nat) (s : Stage) : Option (List Node × Stage) :=
  match fuel with
  | 0 => none
  | fuel + 1 =>
    match s.next with
    | .blockEntry => do
      let s := s.skip
      let (n, s) ← if endsOpenEntry s.next then some (Node.missing, s) else node? fuel true false s
      let (ns, s) ← openItems? fuel s
      some (n :: ns, s)
    | _ => some ([], s)

def blockPairs? (fuel : Nat) (s : Stage) : Option (List (Node × Node) × Stage) :=
  match fuel with
  | 0 => none
  | fuel + 1 =>
    match s.next with
    | .key => do
      let s := s.skip
      let (k, s) ← if endsBlockPart s.next then some (Node.missing, s) else node? fuel true true s
      let (v, s) ← match s.next with
        | .value =>
          let s := s.skip
          if endsBlockPart s.next then some (Node.missing, s) else node? fuel true true s
        | _ => some (Node.missing, s)
      let (ps, s) ← blockPairs? fuel s
      some ((k, v) :: ps, s)
    | .blockEnd => some ([], s.skip)
    | _ => none

/-- Reads the entries of a flow sequence and its end. An entry may be a single pair. -/
def flowItems? (fuel : Nat) (first : Bool) (s : Stage) : Option (List Node × Stage) :=
  match fuel with
  | 0 => none
  | fuel + 1 => do
    match s.next with
    | .flowSequenceEnd => some ([], s.skip)
    | t =>
      let s ← match first, t with
        | true, _ => some s
        | false, .flowEntry => some s.skip
        | false, _ => none
      match s.next with
      | .flowSequenceEnd => some ([], s.skip)
      | .key => do
        let s := s.skip
        let (k, s) ←
          if endsPairKey s.next then some (Node.missing, s.skip) else node? fuel false false s
        let (v, s) ← match s.next with
          | .value =>
            let s := s.skip
            if endsPairValue s.next then some (Node.missing, s) else node? fuel false false s
          | _ => some (Node.missing, s)
        let (ns, s) ← flowItems? fuel false s
        some (.mapping none [(k, v)] :: ns, s)
      | _ => do
        let (n, s) ← node? fuel false false s
        let (ns, s) ← flowItems? fuel false s
        some (n :: ns, s)

def flowPairs? (fuel : Nat) (first : Bool) (s : Stage) : Option (List (Node × Node) × Stage) :=
  match fuel with
  | 0 => none
  | fuel + 1 => do
    match s.next with
    | .flowMappingEnd => some ([], s.skip)
    | t =>
      let s ← match first, t with
        | true, _ => some s
        | false, .flowEntry => some s.skip
        | false, _ => none
      match s.next with
      | .flowMappingEnd => some ([], s.skip)
      | .key => do
        let s := s.skip
        let (k, s) ← if endsFlowKey s.next then some (Node.missing, s) else node? fuel false false s
        let (v, s) ← match s.next with
          | .value =>
            let s := s.skip
            if endsFlowValue s.next then some (Node.missing, s) else node? fuel false false s
          | _ => some (Node.missing, s)
        let (ps, s) ← flowPairs? fuel false s
        some ((k, v) :: ps, s)
      | _ => do
        let (k, s) ← node? fuel false false s
        let (ps, s) ← flowPairs? fuel false s
        some ((k, Node.missing) :: ps, s)

end

/-! ## Documents -/

/-- The tag handles that are in force without a directive. -/
def defaultHandles : List (String × String) := [("!", "!"), ("!!", "tag:yaml.org,2002:")]

/-- Reads the directives of a document: the version at most once, which is 1.1 or 1.2, and
each tag handle at most once. -/
def readDirectives? (version : Bool) (handles : List (String × String)) :
    List Token → Option (List (String × String) × List Token)
  | .version major minor :: rest =>
    if version || major ≠ 1 || (minor ≠ 1 && minor ≠ 2) then none
    else readDirectives? true handles rest
  | .tagDirective handle stem :: rest =>
    if handles.any (·.1 == handle) then none
    else readDirectives? version ((handle, stem) :: handles) rest
  | ts => some (handles ++ defaultHandles, ts)

/-- Whether a document without content ends before this token. -/
def endsDocument : Token → Bool
  | .version _ _ => true
  | .tagDirective _ _ => true
  | .documentStart => true
  | .documentEnd => true
  | .streamEnd => true
  | _ => false

structure Document where
  root : Node
  anchors : Anchors

/-- Checks that nothing but marks of a document's end follows. -/
def isAtEnd : List Token → Bool
  | .documentEnd :: rest => isAtEnd rest
  | [.streamEnd] => true
  | _ => false

/-- Reads the node of the only document of a stream. -/
def readRoot? (mayMiss : Bool) (handles : List (String × String)) (ts : List Token) :
    Option Document := do
  let s : Stage := ⟨ts, Anchors.none, handles⟩
  let (n, s) ←
    if mayMiss && endsDocument s.next then some (Node.missing, s)
    else node? (4 * ts.length + 8) true false s
  if isAtEnd s.tokens then some ⟨n, s.anchors⟩ else none

/-- The document of a stream: `some none` if the stream is empty, and `none` if it is no YAML
or has more than one document. -/
def document? (ts : List Token) : Option (Option Document) :=
  match ts with
  | [.streamEnd] => some none
  | .version _ _ :: _ => explicit ts
  | .tagDirective _ _ :: _ => explicit ts
  | .documentStart :: _ => explicit ts
  | _ => (readRoot? false defaultHandles ts).map some
where
  /-- Reads a document that begins with directives or a mark. -/
  explicit (ts : List Token) : Option (Option Document) :=
    match readDirectives? false [] ts with
    | some (handles, .documentStart :: rest) => (readRoot? true handles rest).map some
    | _ => none

/-- The document that some bytes hold. -/
def ofBytes? (bs : Bytes) : Option (Option Document) :=
  ((characters? bs).bind tokens?).bind document?

end AdmissionGate.Yaml
