-- A store behind a Consul agent: every operation is one HTTP call, made
-- through a transport, and the answer is decoded.
import AdmissionGate.Http.Request
import AdmissionGate.Store.AgentEntry
import AdmissionGate.Text.FormEncoding
import AdmissionGate.Url.Reading

namespace AdmissionGate

structure HttpCall where
  method : String
  url : Url
  body : Bytes

structure HttpReply where
  status : Nat
  headers : Http.Headers
  body : Bytes

/-- How calls are made: what comes back from each, `none` if nothing does. -/
abbrev Transport := HttpCall → Option HttpReply

/-- A client of the agent under a base URL, whose path ends in a slash. -/
structure AgentClient where
  base : Url
  deriving DecidableEq

namespace AgentClient

/-! ## Addresses -/

def hasScheme (address : String) : Bool := (Http.afterScheme? address.toList).isSome

/-- The client of an address, which is a URL or what follows `http://` in one. -/
def ofAddress (address : String) : Except StoreError AgentClient :=
  match Url.ofText? (if hasScheme address then address else "http://" ++ address) with
  | some url => .ok ⟨url.asDirectory⟩
  | none => .error (.invalidAddress address)

/-- The URL of a key. Slashes in front of a key do not count. -/
def keyUrl (a : AgentClient) (key : String) : Url :=
  a.base.join ("v1/kv/" ++ Text.trimSlashesStart key)

/-- A URL with more parameters at the end of its query. -/
def withParams (u : Url) (params : List (String × String)) : Url :=
  let more := FormEncoding.write params
  let query := match u.query with
    | some q => if q == "" then more else q ++ "&" ++ more
    | none => more
  { u with query := some query }

/-! ## Answers -/

/-- The header that carries the store's index. -/
def indexHeader : String := "x-consul-index"

/-- The index of the store when it answered; zero if the answer has none. -/
def indexOf (r : HttpReply) : Except StoreError Nat :=
  match r.headers.find? indexHeader with
  | none => .ok 0
  | some _ =>
    match (r.headers.text? indexHeader).bind fun v => Decimal.readUpTo? Decimal.maxU64 v.toList with
    | some n => .ok n
    | none => .error (.decode .indexHeader)

def entriesOf (r : HttpReply) : Except StoreError (List Entry) :=
  if Status.isSuccess r.status then
    match AgentEntry.listOfBytes? r.body with
    | some entries => entries.mapM AgentEntry.toEntry
    | none => .error (.decode .document)
  else .error (.unavailable (.status r.status))

def reply (t : Transport) (call : HttpCall) : Except StoreError HttpReply :=
  match t call with
  | some r => .ok r
  | none => .error (.unavailable .unreachable)

/-! ## Operations -/

/-- Reads the entry of a key; among several entries that of this very key counts. -/
def get (a : AgentClient) (t : Transport) (key : String) : Except StoreError (Option Entry) := do
  let r ← reply t ⟨"GET", a.keyUrl key, []⟩
  if r.status = 404 then .ok none
  else
    let entries ← entriesOf r
    .ok (entries.find? (·.key = key))

/-- The listing of an answer. A stem without entries is answered with 404. -/
def listingOf (r : HttpReply) : Except StoreError Listing := do
  let lastIndex ← indexOf r
  if r.status = 404 then .ok ⟨[], lastIndex⟩
  else
    let entries ← entriesOf r
    .ok ⟨entries, lastIndex⟩

/-- Reads the listing of a stem, with more parameters for the agent. -/
def listWith (a : AgentClient) (t : Transport) (stem : String) (params : List (String × String)) :
    Except StoreError Listing := do
  let r ← reply t ⟨"GET", withParams (a.keyUrl stem) (("recurse", "true") :: params), []⟩
  listingOf r

def list (a : AgentClient) (t : Transport) (stem : String) : Except StoreError Listing :=
  a.listWith t stem []

/-- Reads the listing of a stem once the index is past `cursor`, or when the wait, in
milliseconds, is over. The agent is told the wait in whole seconds, at least one. -/
def listWait (a : AgentClient) (t : Transport) (stem : String) (cursor wait : Nat) :
    Except StoreError Listing :=
  a.listWith t stem [("index", toString cursor), ("wait", s!"{max 1 (wait / 1000)}s")]

def put (a : AgentClient) (t : Transport) (key : String) (value : Bytes) :
    Except StoreError Unit := do
  let r ← reply t ⟨"PUT", a.keyUrl key, value⟩
  if Status.isSuccess r.status then .ok ()
  else .error (.unavailable (.writeStatus key r.status))

end AgentClient

end AdmissionGate
