-- The firewall record: the blocklist and the request threshold, as they are
-- kept in the store in JSON.
import AdmissionGate.Json.Document
import AdmissionGate.Json.Writer

namespace AdmissionGate

/-- The live settings of a firewall as the store holds them. -/
structure FirewallRecord where
  blockIp : List String
  maxReqSecond : Nat
  deriving DecidableEq, Repr

namespace FirewallRecord

def threshold? (j : Json) : Option Nat := j.upTo? Decimal.maxU32

/-- The record of an array: blocklist and threshold in this order, either of them missing
from the end, and nothing more. -/
def ofItems? : List Json → Option FirewallRecord
  | [] => some ⟨[], 0⟩
  | [ips] => ips.texts?.map (⟨·, 0⟩)
  | [ips, max] => do some ⟨← ips.texts?, ← threshold? max⟩
  | _ => none

/-- The record of an object: its two fields at most once each, either of them missing, and
any others passed over. -/
def ofFields? (fields : List (String × Json)) : Option FirewallRecord := do
  let ips ← match ← Json.single? fields "block_ip" with
    | some j => j.texts?
    | none => some []
  let max ← match ← Json.single? fields "max_req_second" with
    | some j => threshold? j
    | none => some 0
  some ⟨ips, max⟩

def ofJson? : Json → Option FirewallRecord
  | .array items => ofItems? items
  | .object fields => (Json.named? fields).bind ofFields?
  | _ => none

def ofBytes? (raw : Bytes) : Option FirewallRecord := (Json.ofBytes? raw).bind ofJson?

def toText (r : FirewallRecord) : String :=
  Json.writeObject
    [("block_ip", Json.writeArray (r.blockIp.map Json.quote)),
     ("max_req_second", toString r.maxReqSecond)]

end FirewallRecord

end AdmissionGate
