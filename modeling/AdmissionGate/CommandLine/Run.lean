-- Carrying out the commands of the operator's program, in an environment
-- that is given: files, the clock, and the network.
import AdmissionGate.CommandLine.Arguments
import AdmissionGate.Firewall.Record
import AdmissionGate.Firewall.Signer
import AdmissionGate.Json.Indented
import AdmissionGate.Settings.Loading
import AdmissionGate.Store.Agent

namespace AdmissionGate.CommandLine

structure Environment where
  file : String → Option Bytes
  agentIp : Option String
  /-- The time in whole seconds. -/
  now : Int
  transport : Transport

inductive Failure where
  | load (why : LoadError)
  | store (why : StoreError)
  | http
  deriving DecidableEq

structure Printed where
  out : String
  err : String
  deriving DecidableEq

inductive Outcome where
  | printed (text : Printed)
  | failed (why : Failure)
  | unused (why : Usage)
  deriving DecidableEq

def Outcome.exitCode : Outcome → Nat
  | .printed _ => 0
  | .failed _ => 1
  | .unused .help => 0
  | .unused .misuse => 2

def Printed.line (text : String) : Printed := ⟨text ++ "\n", ""⟩

/-! ## Signing -/

/-- Parameters with the present time for their timestamp, unless they have one. -/
def withTimestamp (params : Params) (now : Int) : Params :=
  if params.holds Params.timestamp then params
  else params.insert Params.timestamp (toString now)

/-- The query of some parameters in the order of their names, with their signature at the
end. -/
def signedQuery (settings : FirewallSettings) (params : Params) (now : Int) : String :=
  let params := withTimestamp params now
  let signer := Signer.make settings.signedFields settings.defaultSalt settings.salts
  let sorted := (Names.sort params.keys).map fun name => (name, params.value name)
  FormEncoding.write (sorted ++ [(Params.signature, signer.sign params)])

/-! ## The record -/

/-- The store key of the live firewall record. -/
def recordKey (s : Settings) : String :=
  Text.trimSlashes s.store.space ++ "/" ++ s.firewall.configKey

def pushRecord (env : Environment) (s : Settings) (record : FirewallRecord) :
    Except Failure Printed := do
  let agent ← (AgentClient.ofAddress s.store.address).mapError .store
  let key := recordKey s
  (agent.put env.transport key (Bytes.ofText record.toText)).mapError .store
  .ok (.line s!"Wrote {record.toText} to {key}")

/-! ## Health -/

/-- What is printed of a service's answer: the JSON that it sent, or the status if that is no
success, with the text that came with it. -/
def printReply (r : HttpReply) : Except Failure Printed :=
  if Status.isSuccess r.status then
    match Value.ofJsonBytes? r.body with
    | some v => .ok (.line v.toIndentedText)
    | none => .error .http
  else
    let status := s!"Error: service returned status {Status.text r.status}"
    .ok ⟨"", s!"{status}\nResponse: {Bytes.toTextLossy r.body}\n"⟩

def askHealth (env : Environment) (url : String) : Except Failure Printed :=
  match Url.ofText? (Text.trimSlashesEnd url ++ "/health") with
  | none => .error .http
  | some url =>
    match env.transport ⟨"GET", url, []⟩ with
    | none => .error .http
    | some r => printReply r

/-! ## The program -/

/-- The settings that a command works with: those of the file, or the defaults. -/
def settingsOf (env : Environment) (config : Option String) : Except Failure Settings :=
  match config with
  | none => .ok {}
  | some path => (Settings.load (env.file path) env.agentIp).mapError .load

def carryOut (env : Environment) (i : Invocation) : Except Failure Printed := do
  let s ← settingsOf env i.config
  match i.command with
  | .sign params => .ok (.line (signedQuery s.firewall (Table.ofList params) env.now))
  | .pushConfig ips max => pushRecord env s ⟨ips, max⟩
  | .health url => askHealth env url

def run (env : Environment) (args : List String) : Outcome :=
  match Invocation.ofArguments args with
  | .error why => .unused why
  | .ok i => match carryOut env i with
    | .ok text => .printed text
    | .error why => .failed why

end AdmissionGate.CommandLine
