-- Subscriptions: a handler, and how far it has been served. A version is
-- offered to a handler at most once, whether or not the handler takes it.
import AdmissionGate.Metrics
import AdmissionGate.Store.Basic

namespace AdmissionGate.Watch

/-! ## Handlers -/

/-- What a handler is offered: the value of a key, or the values of all keys in a directory. -/
inductive Payload where
  | value (bytes : Bytes)
  | snapshot (values : Table String Bytes)
  deriving DecidableEq

inductive Refusal where
  | stated (text : String)
  | malformedRecord
  deriving DecidableEq

/-- How handlers of kind `H` answer offers: they take one and change what they look after, or
they refuse it and change nothing. -/
abbrev Reaction (H σ : Type) := H → Payload → σ → Except Refusal σ

/-- An offer that was made, and whether it was taken. -/
structure Offer (H : Type) where
  handler : H
  payload : Payload
  version : Nat
  accepted : Bool

/-- The kind of what an offer is about. -/
def Offer.watched {H : Type} (o : Offer H) : Watched :=
  match o.payload with
  | .value _ => .key
  | .snapshot _ => .directory

/-! ## Subscriptions -/

/-- A handler with the last version that it took, and the last one that it was offered. -/
structure Subscription (H : Type) where
  handler : H
  delivered : Nat
  attempted : Nat

namespace Subscription

variable {H σ : Type}

def start (handler : H) (baseline : Nat) : Subscription H := ⟨handler, baseline, baseline⟩

/-- Whether a version has not been offered yet. -/
def isNew (s : Subscription H) (version : Nat) : Bool := s.attempted < version

def offered (s : Subscription H) (version : Nat) (accepted : Bool) : Subscription H :=
  ⟨s.handler, if accepted then version else s.delivered, version⟩

end Subscription

/-! ## Directories -/

/-- The entries of a listing that lie in one directory, and the highest of their versions. -/
structure Batch where
  directory : String
  version : Nat
  values : Table String Bytes

/-- The highest version of some entries, zero without any. -/
def maxVersion (entries : List Entry) : Nat := entries.foldl (fun v e => max v e.version) 0

def valuesOf (entries : List Entry) : Table String Bytes :=
  Table.ofList (entries.map fun e => (e.key, e.value))

/-- The batch of a directory, unless none of the entries lies in it. -/
def batchOf? (entries : List Entry) (directory : String) : Option Batch :=
  match entries.filter fun e => Text.startsWith e.key directory with
  | [] => none
  | inside => some ⟨directory, maxVersion inside, valuesOf inside⟩

/-- The batches of all directories that have one. An entry belongs to every directory that its
key begins with. -/
def batches (entries : List Entry) (directories : List String) : List Batch :=
  directories.filterMap (batchOf? entries)

end AdmissionGate.Watch
