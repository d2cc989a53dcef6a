-- What YAML documents stand for: values of the kinds that JSON has, and
-- firewall records. Plain scalars are null, true, false or numbers if they
-- look so, and text otherwise.
import AdmissionGate.Firewall.Record
import AdmissionGate.Value
import AdmissionGate.Yaml.Node

namespace AdmissionGate.Yaml

/-! ## Plain scalars -/

/-- What follows `stem` at the front of `s`. -/
def afterStem? (stem : String) (s : List Char) : Option (List Char) :=
  if stem.toList.isPrefixOf s then some (s.drop stem.length) else none

/-- The value of a digit in a radix of at most sixteen. -/
def digit? (radix : Nat) (c : Char) : Option Nat := (Hex.value? c).filter (· < radix)

/-- The number that digits of a radix stand for, perhaps after a plus sign. -/
def natOfRadix? (radix : Nat) (s : List Char) : Option Nat :=
  let digits := match s with
    | '+' :: rest => rest
    | _ => s
  if digits.isEmpty then none
  else (digits.mapM (digit? radix)).map fun ds => ds.foldl (fun n d => n * radix + d) 0

/-- A sign, if there is one, is passed over. -/
def dropSign (s : List Char) : List Char :=
  match s with
  | '+' :: rest => rest
  | '-' :: rest => rest
  | _ => s

/-- Whether a scalar has only digits, of which the first of several is a zero: such a scalar is
text. -/
def isZeroPadded (s : List Char) : Bool :=
  let digits := dropSign s
  1 < digits.length && digits.head? == some '0' && digits.all Decimal.isDigit

def isSigned (s : List Char) : Bool := s.head? == some '+' || s.head? == some '-'

/-- The digits after a radix mark. -/
def afterRadix? (sign : String) (s : List Char) : Option (Nat × List Char) :=
  ((afterStem? (sign ++ "0x") s).map ((16, ·))).or
    (((afterStem? (sign ++ "0o") s).map ((8, ·))).or
      ((afterStem? (sign ++ "0b") s).map ((2, ·))))

/-- The number of a scalar that has no minus sign: digits in one of four radixes. -/
def unsigned? (s : List Char) : Option Nat :=
  let body := (afterStem? "+" s).getD s
  let marked := match afterRadix? "" body with
    | some (radix, digits) => if isSigned digits then none else natOfRadix? radix digits
    | none => none
  match marked with
  | some n => some n
  | none =>
    if (afterRadix? "" body).any (fun (_, digits) => isSigned digits) || isSigned body
        || isZeroPadded s then none
    else natOfRadix? 10 body

/-- The size of a scalar that has a minus sign in front of digits in one of four radixes. -/
def negative? (s : List Char) : Option Nat :=
  match (afterRadix? "-" s).bind fun (radix, digits) =>
      if isSigned digits then none else natOfRadix? radix digits with
  | some n => some n
  | none =>
    match s with
    | '-' :: digits => if isZeroPadded s || isSigned digits then none else natOfRadix? 10 digits
    | _ => none

def isNull (s : String) : Bool := ["null", "Null", "NULL", "~"].contains s

def bool? (s : String) : Option Bool :=
  if ["true", "True", "TRUE"].contains s then some true
  else if ["false", "False", "FALSE"].contains s then some false
  else none

/-- A number that is no integer: a binary64, or one of the words for what is no finite number,
which a value cannot hold. -/
def float? (s : List Char) : Option (Option Binary64) :=
  let text := String.ofList s
  let body := (afterStem? "+" s).getD s
  if s.head? == some '+' && isSigned body then none
  else if [".inf", ".Inf", ".INF"].contains (String.ofList body) then some none
  else if ["-.inf", "-.Inf", "-.INF", ".nan", ".NaN", ".NAN"].contains text then some none
  else ((DecimalLiteral.read? body).bind DecimalLiteral.toBinary64?).map some

/-- The value of a number, `some none` if it is an integer beyond 64 bits. -/
def int? (s : List Char) : Option (Option Value) :=
  match unsigned? s with
  | some n =>
    if n ≤ Decimal.maxU64 then some (some (.int n))
    else if n < Nat.pow 2 128 then some none
    else none
  | none => match negative? s with
    | some n =>
      if n ≤ Nat.pow 2 63 then some (some (.int (- (n : Int))))
      else if n ≤ Nat.pow 2 127 then some none
      else none
    | none => none

/-- The value of a plain scalar, `none` if it is an integer beyond 64 bits. -/
def plainValue? (text : String) : Option Value :=
  let s := text.toList
  if text.isEmpty || isNull text then some .null
  else match bool? text with
    | some b => some (.bool b)
    | none => match int? s with
      | some v => v
      | none =>
        if isZeroPadded s then some (.text text)
        else match float? s with
          | some (some x) => some (.float x)
          | some none => some .null
          | none => some (.text text)

/-! ## Tagged scalars -/

/-- A tag of the application, which no value can have. -/
def isLocalTag (tag : Option String) : Bool := tag.any fun t => t.startsWith "!"

def coreTag (kind : String) : String := "tag:yaml.org,2002:" ++ kind

def scalarValue? (tag : Option String) (style : Style) (text : String) : Option Value :=
  match tag with
  | some t =>
    if t == coreTag "bool" then (bool? text).map .bool
    else if t == coreTag "int" then (int? text.toList).join
    else if t == coreTag "float" then
      (float? text.toList).map fun x => (x.map Value.float).getD .null
    else if t == coreTag "null" then if isNull text then some .null else none
    else some (.text text)
  | none => if style = .plain then plainValue? text else some (.text text)

/-! ## Values -/

/-- How many aliases may be followed, and what is left of them. -/
abbrev Jumps := Nat

/-- What a node is, with aliases followed. -/
def follow? (a : Anchors) (n : Node) (jumps : Jumps) : Option (Node × Jumps) :=
  match n with
  | .alias number => match jumps, a.find? number with
    | jumps + 1, some (.alias _) => some (.missing, jumps)
    | jumps + 1, some n => some (n, jumps)
    | _, _ => none
  | n => some (n, jumps)

def text? (a : Anchors) (n : Node) (jumps : Jumps) : Option (String × Jumps) :=
  match follow? a n jumps with
  | some (.scalar _ _ text, jumps) => some (text, jumps)
  | _ => none

def readEach? {α : Type} (read : Node → Jumps → Option (α × Jumps)) :
    List Node → Jumps → Option (List α × Jumps)
  | [], jumps => some ([], jumps)
  | n :: rest, jumps => do
    let (x, jumps) ← read n jumps
    let (xs, jumps) ← readEach? read rest jumps
    some (x :: xs, jumps)

def readPairs? {α : Type} (a : Anchors) (read : Node → Jumps → Option (α × Jumps)) :
    List (Node × Node) → Jumps → Option (List (String × α) × Jumps)
  | [], jumps => some ([], jumps)
  | (k, v) :: rest, jumps => do
    let (name, jumps) ← text? a k jumps
    let (x, jumps) ← read v jumps
    let (xs, jumps) ← readPairs? a read rest jumps
    some ((name, x) :: xs, jumps)

/-- The value of a node whose collections nest at most `depth` deep. -/
def value? (a : Anchors) : Nat → Node → Jumps → Option (Value × Jumps)
  | depth, n, jumps =>
    match follow? a n jumps with
    | some (.scalar tag style text, jumps) =>
      if isLocalTag tag then none
      else (scalarValue? tag style text).map fun v => (v, jumps)
    | some (.sequence tag items, jumps) =>
      if isLocalTag tag then none
      else match depth with
        | 0 => none
        | depth + 1 =>
          (readEach? (value? a depth) items jumps).map fun (vs, jumps) => (.list vs, jumps)
    | some (.mapping tag pairs, jumps) =>
      if isLocalTag tag then none
      else match depth with
        | 0 => none
        | depth + 1 =>
          (readPairs? a (value? a depth) pairs jumps).map fun (fs, jumps) =>
            (Value.mapOf fs, jumps)
    | _ => none

/-- The number of events in a node: one for a scalar or an alias, and two around the parts of a
collection. -/
def Node.events : Node → Nat
  | .scalar _ _ _ => 1
  | .alias _ => 1
  | .sequence _ items => 2 + sumItems items
  | .mapping _ pairs => 2 + sumPairs pairs
where
  sumItems : List Node → Nat
    | [] => 0
    | n :: rest => n.events + sumItems rest
  sumPairs : List (Node × Node) → Nat
    | [] => 0
    | (k, v) :: rest => k.events + v.events + sumPairs rest

/-- How many aliases may be followed while a document is read. -/
def Document.jumps (d : Document) : Jumps := 100 * d.root.events

/-- The deepest nesting of collections that is read. -/
def maxDepth : Nat := 128

/-- The value that some bytes of YAML stand for; an empty stream stands for null. -/
def valueOfBytes? (bs : Bytes) : Option Value :=
  match ofBytes? bs with
  | some (some d) => (value? d.anchors maxDepth d.root d.jumps).map (·.1)
  | some none => some .null
  | none => none

/-! ## Records -/

/-- Whether a node may stand for an empty collection. -/
def isUnwritten : Node → Bool
  | .scalar _ .plain "" => true
  | _ => false

/-- A blocklist: a sequence of scalars, whose texts count. -/
def ips? (a : Anchors) (n : Node) (jumps : Jumps) : Option (List String × Jumps) :=
  match follow? a n jumps with
  | some (.sequence _ items, jumps) => readEach? (text? a) items jumps
  | some (n, jumps) => if isUnwritten n then some ([], jumps) else none
  | none => none

/-- A threshold: an integer that is written plainly, or as a block with the tag of integers. -/
def threshold? (a : Anchors) (n : Node) (jumps : Jumps) : Option (Nat × Jumps) :=
  match follow? a n jumps with
  | some (.scalar tag style text, jumps) =>
    if style = .plain || (style = .literal && tag == some (coreTag "int")) then
      ((unsigned? text.toList).filter (· ≤ Decimal.maxU32)).map fun n => (n, jumps)
    else none
  | _ => none

/-- Reads the fields of a record; each of its two fields may come once, others are passed over
without a look at them. -/
def recordFields? (a : Anchors) : Option (List String) → Option Nat → List (Node × Node) →
    Jumps → Option FirewallRecord
  | ips, max, [], _ => some ⟨ips.getD [], max.getD 0⟩
  | ips, max, (k, v) :: rest, jumps => do
    let (name, jumps) ← text? a k jumps
    if name == "block_ip" then
      if ips.isSome then none
      else
        let (xs, jumps) ← ips? a v jumps
        recordFields? a (some xs) max rest jumps
    else if name == "max_req_second" then
      if max.isSome then none
      else
        let (m, jumps) ← threshold? a v jumps
        recordFields? a ips (some m) rest jumps
    else recordFields? a ips max rest jumps

def record? (d : Document) : Option FirewallRecord :=
  match follow? d.anchors d.root d.jumps with
  | some (.mapping _ pairs, jumps) => recordFields? d.anchors none none pairs jumps
  | some (n, _) => if isUnwritten n then some ⟨[], 0⟩ else none
  | none => none

/-- The record that some bytes of YAML hold; an empty stream holds the empty record. -/
def recordOfBytes? (bs : Bytes) : Option FirewallRecord :=
  match ofBytes? bs with
  | some (some d) => record? d
  | some none => some ⟨[], 0⟩
  | none => none

end AdmissionGate.Yaml
