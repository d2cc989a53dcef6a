-- What is asked of settings beyond their form, and the problems of those
-- that fall short.
import AdmissionGate.Address.Socket
import AdmissionGate.Settings.Basic
import AdmissionGate.Text.Blank

namespace AdmissionGate

inductive Problem where
  | bindAddress (address : String)
  | emptyNamespace
  | noWait
  | noRetryDelay
  | emptyConfigKey
  | noClockSkew
  | nothingSigned
  | noRequestTime
  | metricsAddress (address : String)
  deriving DecidableEq, Repr

namespace Problem

def field : Problem → String
  | .bindAddress _ => "listener.bind_address"
  | .emptyNamespace => "kv.namespace"
  | .noWait => "kv.wait_secs"
  | .noRetryDelay => "kv.retry_delay_ms"
  | .emptyConfigKey => "firewall.config_key"
  | .noClockSkew => "firewall.max_clock_skew_secs"
  | .nothingSigned => "firewall.signed_fields"
  | .noRequestTime => "timeouts.request_secs"
  | .metricsAddress _ => "observability.metrics_address"

def message : Problem → String
  | .bindAddress address => s!"'{address}' is not a socket address"
  | .emptyNamespace => "must not be empty"
  | .noWait => "must be greater than 0"
  | .noRetryDelay => "must be greater than 0"
  | .emptyConfigKey => "must not be empty"
  | .noClockSkew => "must be greater than 0"
  | .nothingSigned => "at least one field must be signed unless skip_signature is set"
  | .noRequestTime => "must be greater than 0"
  | .metricsAddress address => s!"'{address}' is not a socket address"

def text (p : Problem) : String := s!"{p.field}: {p.message}"

end Problem

namespace Settings

def hasProblem (s : Settings) : Problem → Bool
  | .bindAddress address =>
    address == s.listener.bindAddress && (SocketAddress.ofText? address).isNone
  | .emptyNamespace => Text.trimSlashes s.store.space == ""
  | .noWait => s.store.waitSecs == 0
  | .noRetryDelay => s.store.retryDelayMs == 0
  | .emptyConfigKey => s.firewall.configKey == ""
  | .noClockSkew => s.firewall.maxClockSkewSecs ≤ 0
  | .nothingSigned => s.firewall.signedFields.isEmpty && !s.firewall.skipSignature
  | .noRequestTime => s.timeouts.requestSecs == 0
  | .metricsAddress address =>
    address == s.observability.metricsAddress && s.observability.metricsEnabled
      && (SocketAddress.ofText? address).isNone

/-- The problems that the settings may have, in the order in which they are reported. -/
def possibleProblems (s : Settings) : List Problem :=
  [.bindAddress s.listener.bindAddress, .emptyNamespace, .noWait, .noRetryDelay, .emptyConfigKey,
    .noClockSkew, .nothingSigned, .noRequestTime, .metricsAddress s.observability.metricsAddress]

def problems (s : Settings) : List Problem := s.possibleProblems.filter s.hasProblem

/-- A problem is reported exactly if the settings have it. -/
theorem mem_problems_iff (s : Settings) (p : Problem) : p ∈ s.problems ↔ s.hasProblem p = true := by
  simp only [problems, List.mem_filter, and_iff_right_iff_imp]
  intro h
  cases p <;> simp_all [possibleProblems, hasProblem]

end Settings

end AdmissionGate
