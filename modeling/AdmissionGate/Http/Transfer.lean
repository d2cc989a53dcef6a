-- Bodies on their way. A body comes in parts, and the gate reads it part by
-- part, as long as there is time and room for it.
import AdmissionGate.Http.Request

namespace AdmissionGate.Http

/-- A body on its way. Each part comes some milliseconds after the one before it, and the
first one as long after the head of its request. -/
structure Transfer where
  parts : List (Nat × Bytes)
  /-- How long after the last part the body is complete, `none` if it never is. -/
  ending : Option Nat

namespace Transfer

def body (t : Transfer) : Bytes := t.parts.flatMap (·.2)

/-- When the body is complete. -/
def completeAt? (t : Transfer) : Option Nat :=
  t.ending.map fun last => t.parts.foldr (fun part later => part.1 + later) last

def readParts (ending : Option Nat) : Nat → Nat → List (Nat × Bytes) → Option Bytes
  | _, time, [] => if ending.any (· < time) then some [] else none
  | room, time, (delay, part) :: rest =>
    if time ≤ delay then none
    else if room < part.length then some part
    else (readParts ending (room - part.length) (time - delay) rest).map (part ++ ·)

/-- What the gate reads of a body: all of it, or so much that it goes beyond `room`, or
nothing if `time` is over before that. -/
def read? (t : Transfer) (room time : Nat) : Option Bytes := readParts t.ending room time t.parts

end Transfer

/-- A request with its body still on its way. -/
structure Sending where
  method : String
  target : Target
  headers : Headers
  transfer : Transfer

/-- The request that the gate sees. -/
def Sending.request (sent : Sending) (room time : Nat) : Request :=
  ⟨sent.method, sent.target, sent.headers, sent.transfer.read? room time⟩

end AdmissionGate.Http
