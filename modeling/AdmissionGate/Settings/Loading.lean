-- Settings from a file: the file is read, a missing store address comes from
-- the environment, and then the settings must have no problem.
import AdmissionGate.Settings.Reading
import AdmissionGate.Settings.Validation

namespace AdmissionGate

/-- Why settings cannot be loaded. -/
inductive LoadError where
  /-- There is no such file, or it is no text. -/
  | unreadable
  | malformed
  | missingStoreAddress
  | invalid (problems : List Problem)
  deriving DecidableEq

/-- The text of an error, except where a lower layer would word it. -/
def LoadError.message? : LoadError → Option String
  | .unreadable => none
  | .malformed => none
  | .missingStoreAddress => some "kv.address is empty and CONSUL_AGENT_IP is not set"
  | .invalid problems =>
    some ("Validation failed: " ++ ", ".intercalate (problems.map Problem.text))

namespace Settings

/-- The port of a store agent whose address comes from the environment. -/
def agentPort : Nat := 8500

/-- The settings with a store address: if the address is blank, the agent's IP address from
the environment takes its place, unless that is missing or blank too. -/
def resolveStore (agentIp : Option String) (s : Settings) : Except LoadError Settings :=
  if Text.trim s.store.address != "" then .ok s
  else match agentIp.map Text.trim with
    | none => .error .missingStoreAddress
    | some ip =>
      if ip == "" then .error .missingStoreAddress
      else .ok { s with store := { s.store with address := s!"{ip}:{agentPort}" } }

/-- The settings, if they have no problem. -/
def validate (s : Settings) : Except LoadError Settings :=
  if s.problems.isEmpty then .ok s else .error (.invalid s.problems)

/-- The settings in a file of this content, `none` if there is no such file. -/
def load (file : Option Bytes) (agentIp : Option String) : Except LoadError Settings := do
  let text ← match file.bind Bytes.toText? with
    | some text => .ok text
    | none => .error .unreadable
  let s ← match ofText? text with
    | some s => .ok s
    | none => .error .malformed
  let s ← s.resolveStore agentIp
  s.validate

end Settings

end AdmissionGate
