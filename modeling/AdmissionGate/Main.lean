-- The operator's program. It reads files, the environment and the clock; it
-- has no network of its own, so that every call counts as unanswered.
import AdmissionGate.CommandLine.Run
import Std.Time.DateTime.Timestamp

namespace AdmissionGate

def readFile (path : String) : IO (Option Bytes) := do
  try
    let content ← IO.FS.readBinFile path
    return some content.toList
  catch _ => return none

def failureText : CommandLine.Failure → String
  | .load why => why.message?.getD "the configuration cannot be loaded"
  | .store why => why.message?.getD "the store cannot be reached"
  | .http => "the service cannot be reached"

def namedFile (args : List String) : IO (Option (String × Option Bytes)) := do
  match CommandLine.Invocation.ofArguments args with
  | .ok ⟨some path, _⟩ => return some (path, ← readFile path)
  | _ => return none

end AdmissionGate

open AdmissionGate in
def main (args : List String) : IO UInt32 := do
  let file ← namedFile args
  let agentIp ← IO.getEnv "CONSUL_AGENT_IP"
  let now ← Std.Time.Timestamp.now
  let env : CommandLine.Environment := {
    file := fun path => match file with
      | some (name, content) => if name == path then content else none
      | none => none
    agentIp
    now := now.toSecondsSinceUnixEpoch.val
    transport := fun _ => none }
  let outcome := CommandLine.run env args
  match outcome with
  | .printed text =>
    IO.print text.out
    IO.eprint text.err
  | .failed why => IO.eprintln ("Error: " ++ failureText why)
  | .unused _ => IO.eprintln "usage: [--config FILE] sign | push-config | health"
  return outcome.exitCode.toUInt32
