-- The firewall: it decides on each request by the client's address, the rate
-- of its requests, screened words, and the age, signature and first use of
-- what it signed. Its blocklist and threshold follow the stored record.
import AdmissionGate.Address.Client
import AdmissionGate.Clock
import AdmissionGate.Firewall.Keywords
import AdmissionGate.Firewall.RateWindow
import AdmissionGate.Firewall.Record
import AdmissionGate.Firewall.ReplayCache
import AdmissionGate.Firewall.Signer
import AdmissionGate.Metrics
import AdmissionGate.Settings.Basic

namespace AdmissionGate

/-- What the firewall sees of a request. -/
structure Visit where
  /-- The client's address, empty if it is not known. -/
  ip : ClientAddress
  /-- The query as it came, not decoded. -/
  rawQuery : String
  body : Bytes
  /-- Uploads are not screened for words in the body. -/
  isUpload : Bool
  query : Params

/-- The settings that follow the stored record. -/
structure LiveSettings where
  blocked : List String
  maxReqSecond : Nat
  deriving DecidableEq

/-- A firewall: its live settings, what it remembers of past requests, what it asks of a
request, and what it has counted. -/
structure Firewall where
  window : RateWindow
  live : LiveSettings
  replay : ReplayCache
  filter : KeywordFilter
  signer : Signer
  skipSignature : Bool
  maxClockSkewSecs : Int
  minEnforcedReqSecond : Nat
  metrics : Metrics

namespace Firewall

def start (settings : FirewallSettings) (filter : KeywordFilter) (now : Moment) : Firewall where
  window := RateWindow.start now.secondOfMinute
  live := ⟨[], settings.defaultMaxReqSecond⟩
  replay := ReplayCache.empty
  filter := filter
  signer := Signer.make settings.signedFields settings.defaultSalt settings.salts
  skipSignature := settings.skipSignature
  maxClockSkewSecs := settings.maxClockSkewSecs
  minEnforcedReqSecond := settings.minEnforcedReqSecond
  metrics := Metrics.empty

/-! ## The live record -/

def isBlocked (f : Firewall) (ip : String) : Bool := f.live.blocked.contains ip

def maxReqSecond (f : Firewall) : Nat := f.live.maxReqSecond

/-- The firewall under the settings that `raw` holds, if it is a record. -/
def applyRecord? (f : Firewall) (raw : Bytes) : Option Firewall :=
  (FirewallRecord.ofBytes? raw).map fun r => { f with live := ⟨r.blockIp, r.maxReqSecond⟩ }

/-- The firewall after it was offered `raw`: a record takes effect as a whole, and anything
else changes nothing. -/
def offerRecord (f : Firewall) (raw : Bytes) : Firewall := (f.applyRecord? raw).getD f

/-! ## Decisions -/

def isOverLimit (f : Firewall) (count : Nat) : Bool :=
  0 < f.maxReqSecond && f.minEnforcedReqSecond ≤ f.maxReqSecond && f.maxReqSecond < count

/-- Checks the blocklist, then counts the request and checks its rate. -/
def checkRate (f : Firewall) (ip : ClientAddress) : Option Rejection × Firewall :=
  if f.isBlocked ip then (some .blocked, f)
  else
    let key := ip.rateKey
    let f := { f with window := f.window.hit key }
    (if f.isOverLimit (f.window.count key) then some .rateLimited else none, f)

/-- Checks the client's address; clients on the local network and requests without an address
pass uncounted. -/
def checkAddress (f : Firewall) (ip : ClientAddress) : Option Rejection × Firewall :=
  if ip.isEmpty || ip.isLocal then (none, f) else f.checkRate ip

/-- Whether a screened word stands in the query as it came, or in the body of a request that
is no upload. -/
def isDangerous (f : Firewall) (v : Visit) : Bool :=
  f.filter.isDangerous (Bytes.ofText v.rawQuery)
    || (!v.isUpload && f.filter.isDangerous v.body)

/-- The timestamp of a query, zero if it has none. -/
def timestamp (query : Params) : Moment :=
  match query.find? Params.timestamp with
  | some t => lenientInt t
  | none => 0

/-- Checks that a query is fresh, carries its signature, and carries it for the first time. -/
def checkSignature (f : Firewall) (query : Params) (now : Moment) : Verdict × Firewall :=
  let t := timestamp query
  if f.maxClockSkewSecs < Moment.age now t then (.rejected .staleTimestamp, f)
  else if !f.signer.verify query then (.rejected .badSignature, f)
  else
    let signature := query.value Params.signature
    if f.replay.holds t.partOfHour signature then (.rejected .replayed, f)
    else (.admitted, { f with replay := f.replay.insert t.partOfHour signature })

/-- Decides on a request; the first check that fails gives the reason. -/
def check (f : Firewall) (v : Visit) (now : Moment) : Verdict × Firewall :=
  match f.checkAddress v.ip with
  | (some why, f) => (.rejected why, f)
  | (none, f) =>
    if f.isDangerous v then (.rejected .dangerousInput, f)
    else if f.skipSignature then (.admitted, f)
    else f.checkSignature v.query now

/-- Decides on a request and counts the decision. -/
def judge (f : Firewall) (v : Visit) (now : Moment) : Verdict × Firewall :=
  let (verdict, f) := f.check v now
  (verdict, { f with metrics := f.metrics.increment (.decision verdict) })

/-! ## Maintenance -/

def rotate (f : Firewall) (now : Moment) : Firewall :=
  { f with window := f.window.rotate now.secondOfMinute }

/-- How far ahead of the clock a swept bucket lies, in seconds. -/
def sweepAhead : Int := 120

/-- Empties the replay bucket that comes into use two minutes after `now`, and publishes how
many signatures are left. -/
def sweep (f : Firewall) (now : Moment) : Firewall :=
  let replay := f.replay.clear (Moment.partOfHour (now + sweepAhead))
  { f with replay, metrics := { f.metrics with replaySignatures := some replay.size } }

/-- How many ticks lie between two sweeps. -/
def sweepTicks : Nat := 60

/-- One tick of maintenance at `now`, after `ticks` ticks since the last sweep. -/
def tick (now : Moment) : Nat × Firewall → Nat × Firewall
  | (ticks, f) =>
    let f := f.rotate now
    if ticks + 1 = sweepTicks then (0, f.sweep now) else (ticks + 1, f)

/-- A run of maintenance from its start, with the clock at each tick. -/
def maintain (f : Firewall) (clock : List Moment) : Firewall :=
  (clock.foldl (fun s now => tick now s) (0, f)).2

end Firewall

end AdmissionGate
