-- Starting the service: its settings are loaded, the store is found, the
-- listener takes its address, and the firewall subscribes to its record.
import AdmissionGate.Http.Service
import AdmissionGate.Settings.Loading
import AdmissionGate.Store.Agent
import AdmissionGate.Watch.Following

namespace AdmissionGate

inductive StartupError where
  | load (why : LoadError)
  | store (why : StoreError)
  /-- The address to listen on is taken. -/
  | bind (address : String)
  | watch (why : Watch.WatchError)
  deriving DecidableEq

/-- A service that runs, with the watcher that keeps its firewall up to date and the filter of
its log. -/
structure Running where
  logFilter : String
  service : Http.Service
  watcher : Watcher Unit
  agent : AgentClient

namespace Startup

/-- The addresses that are taken once metrics are published. -/
def takenWith (taken : List String) (o : ObservabilitySettings) : List String :=
  if o.metricsEnabled && (SocketAddress.ofText? o.metricsAddress).isSome then
    o.metricsAddress :: taken
  else taken

/-- Starts the service with some settings, where the addresses `taken` are in use. -/
def start (s : Settings) (taken : List String) (t : Transport) (now : Moment) :
    Except StartupError Running := do
  let agent ← (AgentClient.ofAddress s.store.address).mapError .store
  if (takenWith taken s.observability).contains s.listener.bindAddress then
    .error (.bind s.listener.bindAddress)
  else
    let service := Http.Service.start s now
    let watcher : Watcher Unit := Watcher.start s.store.space
    let key := s.firewall.configKey
    let (result, served) := service.firewall.subscribe watcher key (agent.get t (watcher.fullKey key))
    result.mapError .watch
    .ok {
      logFilter := ObservabilitySettings.logFilter s.observability.logLevel
      service := { service with firewall := served.state }
      watcher := served.watcher
      agent }

def ofFile (file : Option Bytes) (agentIp : Option String) (taken : List String) (t : Transport)
    (now : Moment) : Except StartupError Running := do
  let s ← (Settings.load file agentIp).mapError .load
  start s taken t now

end Startup

end AdmissionGate
