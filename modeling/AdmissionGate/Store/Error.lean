-- Why a store cannot answer, and how that is said.
import AdmissionGate.Text.Base64
import AdmissionGate.Store.Status

namespace AdmissionGate

/-- Why a store cannot be reached or does not serve. -/
inductive Outage where
  /-- The store in memory has been told not to answer. -/
  | marked
  /-- Nothing came back from the agent. -/
  | unreachable
  /-- The agent answered a read with a status that is no success. -/
  | status (code : Nat)
  /-- The agent answered a write with a status that is no success. -/
  | writeStatus (key : String) (code : Nat)
  deriving DecidableEq

/-- Why an answer makes no sense. -/
inductive Garble where
  | indexHeader
  | value (key : String) (why : Base64.Error)
  | document
  deriving DecidableEq

inductive StoreError where
  | unavailable (why : Outage)
  | decode (why : Garble)
  | invalidAddress (address : String)
  deriving DecidableEq

namespace StoreError

/-- The text of an error, except where a lower layer would word it. -/
def message? : StoreError → Option String
  | .unavailable .marked => some "KV store unavailable: memory store marked unavailable"
  | .unavailable .unreachable => none
  | .unavailable (.status code) => some s!"KV store unavailable: store returned {Status.text code}"
  | .unavailable (.writeStatus key code) =>
    some s!"KV store unavailable: PUT {key} returned {Status.text code}"
  | .decode .indexHeader => some "KV response decode error: bad x-consul-index header"
  | .decode (.value key why) =>
    some s!"KV response decode error: value of '{key}': {why.message}"
  | .decode .document => none
  | .invalidAddress address => some s!"Invalid KV store address '{address}'"

end StoreError

end AdmissionGate
