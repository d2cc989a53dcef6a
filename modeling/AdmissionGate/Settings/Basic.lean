-- The settings of the service and their defaults.
import AdmissionGate.Table

namespace AdmissionGate

/-- Where requests are taken in. -/
structure ListenerSettings where
  bindAddress : String := "0.0.0.0:8080"
  /-- Whether forwarding headers name the client. -/
  behindProxy : Bool := true
  /-- The largest request body that is taken in, in bytes. -/
  maxBodyBytes : Nat := 2097152
  deriving DecidableEq

/-- The key-value store and how it is polled. -/
structure StoreSettings where
  /-- The agent's address; blank if it comes from the environment. -/
  address : String := "127.0.0.1:8500"
  /-- What every watched key begins with. -/
  space : String := "Acm"
  waitSecs : Nat := 60
  retryDelayMs : Nat := 1000
  requestTimeoutSecs : Nat := 10
  deriving DecidableEq

/-- What the firewall asks of a request. -/
structure FirewallSettings where
  /-- The key of the live record, within the namespace. -/
  configKey : String := "config.firewall"
  skipSignature : Bool := false
  /-- The greatest age of a client's timestamp, in seconds. -/
  maxClockSkewSecs : Int := 1680
  /-- The threshold until the first record arrives. -/
  defaultMaxReqSecond : Nat := 10
  /-- Thresholds below this one are not enforced. -/
  minEnforcedReqSecond : Nat := 10
  defaultSalt : String := "!rilegoule#"
  salts : Table String String := ⟨[("1", "!caihongmeng#")]⟩
  signedFields : List String :=
    ["package", "_ipv", "_platform", "_index", "_model", "_timestamp", "format"]
  deriving DecidableEq

/-- How long a request may take. -/
structure TimeoutSettings where
  requestSecs : Nat := 30
  deriving DecidableEq

structure ObservabilitySettings where
  logLevel : String := "info"
  metricsEnabled : Bool := true
  metricsAddress : String := "0.0.0.0:9090"
  deriving DecidableEq

structure Settings where
  listener : ListenerSettings := {}
  store : StoreSettings := {}
  firewall : FirewallSettings := {}
  timeouts : TimeoutSettings := {}
  observability : ObservabilitySettings := {}
  deriving DecidableEq

namespace ObservabilitySettings

/-- The log filter for a level, where the environment names none. -/
def logFilter (level : String) : String := s!"gatekeeper={level},tower_http={level}"

end ObservabilitySettings

end AdmissionGate
