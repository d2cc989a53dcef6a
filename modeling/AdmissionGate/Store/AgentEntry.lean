-- Entries as a Consul agent writes them: an array of objects whose values
-- are in Base64.
import AdmissionGate.Json.Document
import AdmissionGate.Store.Basic

namespace AdmissionGate

/-- An entry as the agent writes it. -/
structure AgentEntry where
  key : String
  /-- The value in Base64; an empty value may be left out. -/
  value : Option String
  modifyIndex : Nat
  deriving DecidableEq

namespace AgentEntry

/-- The value of a field that may be null. -/
def value? : Json → Option (Option String)
  | .null => some none
  | j => j.text?.map some

/-- The entry of a JSON value: an object with these fields once each, the value perhaps
missing and others passed over, or an array of the three in this order. -/
def ofJson? : Json → Option AgentEntry
  | .array [key, value, index] => do
    some ⟨← key.text?, ← value? value, ← index.upTo? Decimal.maxU64⟩
  | .object fields => do
    let fields ← Json.named? fields
    let key ← (← Json.single? fields "Key").bind Json.text?
    let value ← match ← Json.single? fields "Value" with
      | some j => value? j
      | none => some none
    let index ← (← Json.single? fields "ModifyIndex").bind (·.upTo? Decimal.maxU64)
    some ⟨key, value, index⟩
  | _ => none

def listOfBytes? (bs : Bytes) : Option (List AgentEntry) :=
  match Json.ofBytes? bs with
  | some (.array items) => items.mapM ofJson?
  | _ => none

def toEntry (e : AgentEntry) : Except StoreError Entry :=
  match e.value with
  | none => .ok ⟨e.key, [], e.modifyIndex⟩
  | some text =>
    match Base64.decode (Bytes.ofText text) with
    | .ok bytes => .ok ⟨e.key, bytes, e.modifyIndex⟩
    | .error why => .error (.decode (.value e.key why))

end AgentEntry

end AdmissionGate
