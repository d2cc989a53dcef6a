-- JSON documents. The tokens of a text are read one by one with the open
-- containers on a stack, so nesting is bounded by nothing but the text.
import AdmissionGate.Json.Token

namespace AdmissionGate

/-- A JSON value as written: numbers keep their digits, objects keep every field in order,
and a string that is no text is kept as `none`. -/
inductive Json where
  | null
  | bool (value : Bool)
  | number (value : Json.Number)
  | text (value : Option String)
  | array (items : List Json)
  | object (fields : List (Option String × Json))

namespace Json

/-! ## The stack -/

/-- A container that is still open, its parts in reverse: an array, an object, or an object
with a field whose value is to come. -/
inductive Frame where
  | array (items : List Json)
  | object (fields : List (Option String × Json))
  | field (fields : List (Option String × Json)) (name : Option String)

inductive Phase where
  | value
  | firstItem
  | afterItem
  | firstName
  | name
  | colon
  | afterField
  | finished (value : Json)

/-- The open containers, innermost first, and what may come next. -/
structure State where
  stack : List Frame
  phase : Phase

def State.start : State := ⟨[], .value⟩

/-- Hands a finished value to the container it belongs to. -/
def deliver? (v : Json) : List Frame → Option State
  | [] => some ⟨[], .finished v⟩
  | .array items :: rest => some ⟨.array (v :: items) :: rest, .afterItem⟩
  | .field fields name :: rest => some ⟨.object ((name, v) :: fields) :: rest, .afterField⟩
  | .object _ :: _ => none

/-- The state after a token that begins a value, or is one. -/
def begin? (stack : List Frame) : Token → Option State
  | .null => deliver? .null stack
  | .bool b => deliver? (.bool b) stack
  | .number n => deliver? (.number n) stack
  | .text t => deliver? (.text t) stack
  | .openArray => some ⟨.array [] :: stack, .firstItem⟩
  | .openObject => some ⟨.object [] :: stack, .firstName⟩
  | _ => none

/-- The state after the bracket that closes the innermost container. -/
def close? : List Frame → Option State
  | .array items :: rest => deliver? (.array items.reverse) rest
  | .object fields :: rest => deliver? (.object fields.reverse) rest
  | _ => none

/-- The state after the name of a field. -/
def name? (t : Option String) : List Frame → Option State
  | .object fields :: rest => some ⟨.field fields t :: rest, .colon⟩
  | _ => none

/-- The state after one more token. -/
def step? (s : State) (t : Token) : Option State :=
  match s.phase, t with
  | .value, t => begin? s.stack t
  | .firstItem, .closeArray => close? s.stack
  | .firstItem, t => begin? s.stack t
  | .afterItem, .comma => some ⟨s.stack, .value⟩
  | .afterItem, .closeArray => close? s.stack
  | .firstName, .closeObject => close? s.stack
  | .firstName, .text t => name? t s.stack
  | .name, .text t => name? t s.stack
  | .colon, .colon => some ⟨s.stack, .value⟩
  | .afterField, .comma => some ⟨s.stack, .name⟩
  | .afterField, .closeObject => close? s.stack
  | _, _ => none

/-- The value that some tokens make up. -/
def ofTokens? (ts : List Token) : Option Json :=
  match ts.foldlM step? State.start with
  | some ⟨_, .finished v⟩ => some v
  | _ => none

/-- The value that some bytes are, with nothing but blanks around it. -/
def ofBytes? (bs : Bytes) : Option Json := (tokens? bs).bind ofTokens?

/-! ## Reading parts -/

def text? : Json → Option String
  | .text t => t
  | _ => none

def texts? : Json → Option (List String)
  | .array items => items.mapM text?
  | _ => none

/-- A number written as an integer without a sign, if it is at most `max`. -/
def upTo? (max : Nat) : Json → Option Nat
  | .number n =>
    let value := Decimal.ofDigits n.literal.whole
    if n.integral && !n.literal.negative && value ≤ max then some value else none
  | _ => none

/-- The fields of an object whose names are all text. -/
def named? (fields : List (Option String × Json)) : Option (List (String × Json)) :=
  fields.mapM fun f => f.1.map fun name => (name, f.2)

/-- The value of a field that may occur at most once: `none` if it occurs twice. -/
def single? (fields : List (String × Json)) (name : String) : Option (Option Json) :=
  match fields.filter (·.1 = name) with
  | [] => some none
  | [f] => some (some f.2)
  | _ => none

end Json

end AdmissionGate
