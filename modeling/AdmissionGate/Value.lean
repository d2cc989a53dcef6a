-- Decoded values: what a stored document holds once its notation is gone.
import AdmissionGate.Table
import AdmissionGate.Json.Document
import AdmissionGate.Json.Magnitude

namespace AdmissionGate

/-- A decoded value. Integers are those of 64 bits, signed or unsigned; a map has each name
once, with the last value given to it. -/
inductive Value where
  | null
  | bool (value : Bool)
  | int (value : Int)
  | float (value : Binary64)
  | text (value : String)
  | list (items : List Value)
  | map (fields : List (String × Value))

namespace Value

/-- The fields of a map in which the last value of a name counts. -/
def mapOf (fields : List (String × Value)) : Value := .map (Table.ofList fields).entries

/-- The value of a number: an integer if it is written as one and 64 bits can hold it, and
otherwise a binary64. A negative zero is a binary64. -/
def ofNumber? (n : Json.Number) : Option Value :=
  let size := Decimal.ofDigits n.literal.whole
  if n.integral && !n.literal.negative && size ≤ Decimal.maxU64 then some (.int size)
  else if n.integral && n.literal.negative && 0 < size && size ≤ Nat.pow 2 63 then
    some (.int (- (size : Int)))
  else n.toBinary64?.map .float

mutual

/-- The value of a JSON document in which arrays and objects nest less than `depth` deep. -/
def ofJson? : Nat → Json → Option Value
  | _, .null => some .null
  | _, .bool b => some (.bool b)
  | _, .number n => ofNumber? n
  | _, .text t => t.map .text
  | 0, .array _ => none
  | 0, .object _ => none
  | depth + 1, .array items => if depth = 0 then none else (ofItems? depth items).map .list
  | depth + 1, .object fields => if depth = 0 then none else (ofFields? depth fields).map mapOf

def ofItems? : Nat → List Json → Option (List Value)
  | _, [] => some []
  | depth, j :: rest => do
    let v ← ofJson? depth j
    let vs ← ofItems? depth rest
    some (v :: vs)

def ofFields? : Nat → List (Option String × Json) → Option (List (String × Value))
  | _, [] => some []
  | depth, (name, j) :: rest => do
    let name ← name
    let v ← ofJson? depth j
    let vs ← ofFields? depth rest
    some ((name, v) :: vs)

end

/-- The deepest nesting that is read, counting from the outermost container. -/
def maxDepth : Nat := 128

def ofJsonBytes? (bs : Bytes) : Option Value := (Json.ofBytes? bs).bind (ofJson? maxDepth)

end Value

end AdmissionGate
