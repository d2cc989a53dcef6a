-- Socket addresses: an IP address and a port, an IPv6 address in brackets
-- and perhaps with a numeric scope.
import AdmissionGate.Address.Ip

namespace AdmissionGate

structure SocketAddress where
  ip : Ip
  port : Nat
  deriving DecidableEq

namespace SocketAddress

open Decimal

/-- Reads a number of at least one digit that is at most `max`; leading zeros are allowed. -/
def readNumber? (max : Nat) (s : List Char) : Option (Nat × List Char) :=
  match readNat? (s.takeWhile isDigit) with
  | some n => if n ≤ max then some (n, s.dropWhile isDigit) else none
  | none => none

def readPort? : List Char → Option (Nat × List Char)
  | ':' :: rest => readNumber? 65535 rest
  | _ => none

/-- Skips the scope of an IPv6 address, `%` and a number of 32 bits. -/
def skipScope (s : List Char) : List Char :=
  match s with
  | '%' :: rest => match readNumber? maxU32 rest with
    | some (_, rest) => rest
    | none => s
  | _ => s

/-- Reads `a.b.c.d:port`. -/
def readV4? (s : List Char) : Option (SocketAddress × List Char) := do
  let (ip, s) ← Ip.readIpv4? s
  let (port, s) ← readPort? s
  some (⟨.v4 ip, port⟩, s)

/-- Reads `[groups]:port` or `[groups%scope]:port`. -/
def readV6? : List Char → Option (SocketAddress × List Char)
  | '[' :: s => do
    let (ip, s) ← Ip.readIpv6? s
    match skipScope s with
    | ']' :: s =>
      let (port, s) ← readPort? s
      some (⟨.v6 ip, port⟩, s)
    | _ => none
  | _ => none

def ofText? (text : String) : Option SocketAddress :=
  match (readV4? text.toList).or (readV6? text.toList) with
  | some (address, []) => some address
  | _ => none

end SocketAddress

end AdmissionGate
