-- The watcher: subscriptions to keys and directories of one namespace. A
-- subscription is registered with what the store holds at that moment, and
-- is served from listings after that.
import AdmissionGate.Settings.Basic
import AdmissionGate.Store.Error
import AdmissionGate.Watch.Subscription

namespace AdmissionGate

open Watch

/-- The subscriptions of a namespace by full key and by full directory name, and the offers
counted so far. -/
structure Watcher (H : Type) where
  space : String
  keys : Table String (Subscription H)
  directories : Table String (Subscription H)
  metrics : Metrics

namespace Watch

inductive WatchError where
  | keyNotFound (key : String)
  | store (why : StoreError)
  | decode (key : String)
  | refused (key : String) (why : Refusal)
  deriving DecidableEq

/-- The text of an error, except where a lower layer would word it. -/
def WatchError.message? : WatchError → Option String
  | .keyNotFound key => some s!"key not found: {key}"
  | .store why => why.message?
  | .decode _ => none
  | .refused key (.stated text) => some s!"initial load of '{key}' failed: {text}"
  | .refused _ .malformedRecord => none

/-- A watcher and what its handlers look after, with the offers that were just made, in order. -/
structure Served (H σ : Type) where
  watcher : Watcher H
  state : σ
  offers : List (Offer H)

/-- How many offers of a round were taken and how many refused. -/
structure Report where
  delivered : Nat
  failed : Nat
  deriving DecidableEq

def Report.count (r : Report) (accepted : Bool) : Report :=
  if accepted then { r with delivered := r.delivered + 1 }
  else { r with failed := r.failed + 1 }

/-- Subscribers served in one round, with the report on its offers. -/
structure Round (H σ : Type) extends Served H σ where
  report : Report

/-- A round that has made no offer yet. -/
def Round.start {H σ : Type} (w : Watcher H) (s : σ) : Round H σ := ⟨⟨w, s, []⟩, ⟨0, 0⟩⟩

/-- Goes on with a round after a subscription was looked at. An offer that was made is counted,
in the report and in the metrics. -/
def Round.next {H σ : Type} (r : Round H σ) (w : Watcher H) (s : σ) (made : Option (Offer H)) :
    Round H σ :=
  match made with
  | none => { r with watcher := w, state := s }
  | some o =>
    { watcher := { w with metrics := w.metrics.increment (.offer o.watched o.accepted) }
      state := s
      offers := r.offers ++ [o]
      report := r.report.count o.accepted }

end Watch

namespace Watcher

variable {H σ : Type}

/-- A watcher of a namespace without subscriptions. -/
def start (space : String) : Watcher H :=
  ⟨Text.trimSlashes space, Table.empty, Table.empty, Metrics.empty⟩

/-- The store key of a name within the namespace. -/
def fullKey (w : Watcher H) (name : String) : String :=
  w.space ++ "/" ++ Text.trimSlashesStart name

/-- What every watched key begins with. -/
def stem (w : Watcher H) : String := w.space ++ "/"

/-- The last version that the subscriber of a key took. -/
def keyVersion? (w : Watcher H) (name : String) : Option Nat :=
  (w.keys.find? (w.fullKey name)).map (·.delivered)

/-- The last version that the subscriber of a directory took. -/
def directoryVersion? (w : Watcher H) (name : String) : Option Nat :=
  (w.directories.find? (w.fullKey name)).map (·.delivered)

def valueOf (w : Watcher H) (name : String) (read : Except StoreError (Option Entry)) :
    Except WatchError Bytes :=
  match read with
  | .ok (some e) => .ok e.value
  | .ok none => .error (.keyNotFound (w.fullKey name))
  | .error why => .error (.store why)

def decodedOf {α : Type} (w : Watcher H) (name : String) (decode : Bytes → Option α)
    (read : Except StoreError (Option Entry)) : Except WatchError α :=
  match w.valueOf name read with
  | .error e => .error e
  | .ok raw => match decode raw with
    | some a => .ok a
    | none => .error (.decode (w.fullKey name))

/-! ## Registration -/

/-- Subscribes to a key. What the store holds is offered at once; if that is refused, nothing
changes. Without a value to offer the subscription fails too, unless it is `tolerant`: then it
begins at version zero. -/
def subscribeKey (react : Reaction H σ) (w : Watcher H) (name : String) (tolerant : Bool)
    (handler : H) (read : Except StoreError (Option Entry)) (s : σ) :
    Except WatchError Unit × Served H σ :=
  let key := w.fullKey name
  let registered (baseline : Nat) : Watcher H :=
    { w with keys := w.keys.insert key (Subscription.start handler baseline) }
  match read with
  | .ok (some e) =>
    match react handler (.value e.value) s with
    | .ok s => (.ok (), ⟨registered e.version, s, [⟨handler, .value e.value, e.version, true⟩]⟩)
    | .error why =>
      (.error (.refused key why), ⟨w, s, [⟨handler, .value e.value, e.version, false⟩]⟩)
  | .ok none =>
    if tolerant then (.ok (), ⟨registered 0, s, []⟩)
    else (.error (.keyNotFound key), ⟨w, s, []⟩)
  | .error why =>
    if tolerant then (.ok (), ⟨registered 0, s, []⟩)
    else (.error (.store why), ⟨w, s, []⟩)

/-- Subscribes to a directory. What the store lists is offered at once, even if it is empty;
if that is refused, or the store does not answer, nothing changes. -/
def subscribeDirectory (react : Reaction H σ) (w : Watcher H) (name : String) (handler : H)
    (read : Except StoreError Listing) (s : σ) : Except WatchError Unit × Served H σ :=
  let directory := w.fullKey name
  match read with
  | .ok listing =>
    let payload := Payload.snapshot (valuesOf listing.entries)
    let version := maxVersion listing.entries
    match react handler payload s with
    | .ok s =>
      (.ok (),
        ⟨{ w with
            directories := w.directories.insert directory (Subscription.start handler version) },
          s, [⟨handler, payload, version, true⟩]⟩)
    | .error why => (.error (.refused directory why), ⟨w, s, [⟨handler, payload, version, false⟩]⟩)
  | .error why => (.error (.store why), ⟨w, s, []⟩)

/-! ## Dispatch -/

/-- Offers a version to a handler, unless it has been offered before; gives the subscription
after that, the state, and the offer if one was made. -/
def offer (react : Reaction H σ) (sub : Subscription H) (payload : Payload) (version : Nat)
    (s : σ) : Subscription H × σ × Option (Offer H) :=
  if sub.isNew version then
    match react sub.handler payload s with
    | .ok s => (sub.offered version true, s, some ⟨sub.handler, payload, version, true⟩)
    | .error _ => (sub.offered version false, s, some ⟨sub.handler, payload, version, false⟩)
  else (sub, s, none)

def offerEntry (react : Reaction H σ) (r : Round H σ) (e : Entry) : Round H σ :=
  match r.watcher.keys.find? e.key with
  | none => r
  | some sub =>
    let (sub, s, made) := offer react sub (.value e.value) e.version r.state
    r.next { r.watcher with keys := r.watcher.keys.insert e.key sub } s made

def offerBatch (react : Reaction H σ) (r : Round H σ) (b : Batch) : Round H σ :=
  match r.watcher.directories.find? b.directory with
  | none => r
  | some sub =>
    let (sub, s, made) := offer react sub (.snapshot b.values) b.version r.state
    r.next { r.watcher with directories := r.watcher.directories.insert b.directory sub } s made

/-- Serves all subscribers from a listing: first the keys, entry by entry, and then the
directories, in the order in which `visit` puts their batches. -/
def dispatch (react : Reaction H σ) (visit : List Batch → List Batch) (w : Watcher H)
    (listing : Listing) (s : σ) : Round H σ :=
  let round := visit (batches listing.entries w.directories.keys)
  let r := listing.entries.foldl (offerEntry react) (.start w s)
  round.foldl (offerBatch react) r

end Watcher

end AdmissionGate
