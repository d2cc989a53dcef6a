-- The shutdown signal: one sender and any number of receivers, where only the
-- last message is kept for a receiver that is behind.
import AdmissionGate.Table

namespace AdmissionGate

/-- How many signals have been sent, and for each receiver how many it has seen or missed. -/
structure Shutdown where
  sent : Nat
  receivers : Table String Nat

inductive Reception where
  | signal
  | empty
  | lagged
  deriving DecidableEq, Repr

namespace Shutdown

def start : Shutdown := ⟨0, Table.empty⟩

def receiverCount (s : Shutdown) : Nat := s.receivers.size

/-- Adds a receiver, which will see only later signals. One of the same name is replaced. -/
def subscribe (s : Shutdown) (id : String) : Shutdown :=
  { s with receivers := s.receivers.insert id s.sent }

/-- Whether there is such a receiver, and the signal without it. -/
def drop (s : Shutdown) (id : String) : Bool × Shutdown :=
  (s.receivers.holds id, { s with receivers := s.receivers.erase id })

/-- Sends a signal, and tells how many receivers it reaches. -/
def trigger (s : Shutdown) : Nat × Shutdown := (s.receiverCount, { s with sent := s.sent + 1 })

/-- Looks for a signal without waiting. A receiver that missed signals learns that first, and
then sees the last one. -/
def poll (s : Shutdown) (id : String) : Reception × Shutdown :=
  let seen := (s.receivers.find? id).getD s.sent
  if s.sent ≤ seen then (.empty, s)
  else if s.sent = seen + 1 then (.signal, { s with receivers := s.receivers.insert id s.sent })
  else (.lagged, { s with receivers := s.receivers.insert id (s.sent - 1) })

end Shutdown

end AdmissionGate
