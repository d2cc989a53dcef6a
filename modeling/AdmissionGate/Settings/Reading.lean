-- Settings from a TOML document. What a document leaves out keeps its
-- default, and names that no setting has are passed over.
import AdmissionGate.Settings.Basic
import AdmissionGate.Toml.Document

namespace AdmissionGate

namespace Toml.Node

/-! ## Values of one kind -/

def text? : Node → Option String
  | .text s => some s
  | _ => none

def bool? : Node → Option Bool
  | .bool b => some b
  | _ => none

def int? : Node → Option Int
  | .int n => some n
  | _ => none

/-- The integer of a node, if it lies from zero to `max`. -/
def natUpTo? (max : Nat) : Node → Option Nat
  | .int (.ofNat n) => if n ≤ max then some n else none
  | _ => none

def texts? : Node → Option (List String)
  | .list items => items.mapM text?
  | _ => none

/-- The name of the one field that a date or time has when it stands for a table. -/
def dateTimeField : String := "$__toml_private_datetime"

def fields? : Node → Option Fields
  | .table _ fields => some fields
  | .dateTime m => some [(dateTimeField, .text m.toText)]
  | _ => none

def textTable? (n : Node) : Option (Table String String) := do
  let fields ← n.fields?
  let entries ← fields.mapM fun (name, n) => n.text?.map fun s => (name, s)
  some (Table.ofList entries)

/-- The fields of a group of settings: those of a table, or the items of an array, which are
taken for the fields in the order of `names`. -/
def group? (names : List String) (n : Node) : Option Fields :=
  match n with
  | .list items => some (names.zip items)
  | .tables items => some (names.zip (items.map (.table .header)))
  | n => n.fields?

end Toml.Node

open Toml in
/-- The setting of a name, `default` if there is none. -/
def setting? {α : Type} (read : Node → Option α) (fields : Fields) (name : String) (default : α) :
    Option α :=
  match fields.find? name with
  | some n => read n
  | none => some default

/-! ## Groups of settings -/

namespace ListenerSettings

def names : List String := ["bind_address", "behind_proxy", "max_body_bytes"]

/-- The settings that a node holds. -/
def ofNode? (n : Toml.Node) : Option ListenerSettings := do
  let fields ← n.group? names
  let d : ListenerSettings := {}
  some {
    bindAddress := ← setting? (·.text?) fields "bind_address" d.bindAddress
    behindProxy := ← setting? (·.bool?) fields "behind_proxy" d.behindProxy
    maxBodyBytes := ← setting? (·.natUpTo? Decimal.maxU64) fields "max_body_bytes" d.maxBodyBytes }

end ListenerSettings

namespace StoreSettings

def names : List String :=
  ["address", "namespace", "wait_secs", "retry_delay_ms", "request_timeout_secs"]

def ofNode? (n : Toml.Node) : Option StoreSettings := do
  let fields ← n.group? names
  let d : StoreSettings := {}
  let number := setting? (·.natUpTo? Decimal.maxU64) fields
  some {
    address := ← setting? (·.text?) fields "address" d.address
    space := ← setting? (·.text?) fields "namespace" d.space
    waitSecs := ← number "wait_secs" d.waitSecs
    retryDelayMs := ← number "retry_delay_ms" d.retryDelayMs
    requestTimeoutSecs := ← number "request_timeout_secs" d.requestTimeoutSecs }

end StoreSettings

namespace FirewallSettings

def names : List String :=
  ["config_key", "skip_signature", "max_clock_skew_secs", "default_max_req_second",
    "min_enforced_req_second", "default_salt", "salts", "signed_fields"]

def ofNode? (n : Toml.Node) : Option FirewallSettings := do
  let fields ← n.group? names
  let d : FirewallSettings := {}
  let threshold := setting? (·.natUpTo? Decimal.maxU32) fields
  some {
    configKey := ← setting? (·.text?) fields "config_key" d.configKey
    skipSignature := ← setting? (·.bool?) fields "skip_signature" d.skipSignature
    maxClockSkewSecs := ← setting? (·.int?) fields "max_clock_skew_secs" d.maxClockSkewSecs
    defaultMaxReqSecond := ← threshold "default_max_req_second" d.defaultMaxReqSecond
    minEnforcedReqSecond := ← threshold "min_enforced_req_second" d.minEnforcedReqSecond
    defaultSalt := ← setting? (·.text?) fields "default_salt" d.defaultSalt
    salts := ← setting? (·.textTable?) fields "salts" d.salts
    signedFields := ← setting? (·.texts?) fields "signed_fields" d.signedFields }

end FirewallSettings

namespace TimeoutSettings

def names : List String := ["request_secs"]

def ofNode? (n : Toml.Node) : Option TimeoutSettings := do
  let fields ← n.group? names
  let d : TimeoutSettings := {}
  some { requestSecs :=
    ← setting? (·.natUpTo? Decimal.maxU64) fields "request_secs" d.requestSecs }

end TimeoutSettings

namespace ObservabilitySettings

def names : List String := ["log_level", "metrics_enabled", "metrics_address"]

def ofNode? (n : Toml.Node) : Option ObservabilitySettings := do
  let fields ← n.group? names
  let d : ObservabilitySettings := {}
  some {
    logLevel := ← setting? (·.text?) fields "log_level" d.logLevel
    metricsEnabled := ← setting? (·.bool?) fields "metrics_enabled" d.metricsEnabled
    metricsAddress := ← setting? (·.text?) fields "metrics_address" d.metricsAddress }

end ObservabilitySettings

namespace Settings

def ofFields? (fields : Toml.Fields) : Option Settings := do
  some {
    listener := ← setting? ListenerSettings.ofNode? fields "listener" {}
    store := ← setting? StoreSettings.ofNode? fields "kv" {}
    firewall := ← setting? FirewallSettings.ofNode? fields "firewall" {}
    timeouts := ← setting? TimeoutSettings.ofNode? fields "timeouts" {}
    observability := ← setting? ObservabilitySettings.ofNode? fields "observability" {} }

def ofText? (text : String) : Option Settings := (Toml.ofText? text).bind ofFields?

end Settings

end AdmissionGate
