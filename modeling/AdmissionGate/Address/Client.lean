-- What the text of a client's address says about the client: whether it
-- belongs to the local network, and which rate counter it shares.
import AdmissionGate.Text.Blank
import AdmissionGate.Address.Ip

namespace AdmissionGate

namespace Ipv4

/-- Loopback, link-local, RFC 1918 private, or the local multicast block 224.0.0.0/24. -/
def isLocal (ip : Ipv4) : Bool :=
  ip.a == 127
    || (ip.a == 169 && ip.b == 254)
    || (ip.a == 224 && ip.b == 0 && ip.c == 0)
    || ip.a == 10
    || (ip.a == 172 && 16 ≤ ip.b && ip.b ≤ 31)
    || (ip.a == 192 && ip.b == 168)

end Ipv4

namespace Ipv6

/-- Loopback, link-local unicast `fe80::/10`, or multicast of link-local scope `ff02`. -/
def isLocal (ip : Ipv6) : Bool :=
  let first := ip.groups[0]
  ip.groups.toList == [0, 0, 0, 0, 0, 0, 0, 1]
    || (first &&& 0xffc0) == 0xfe80
    || (first &&& 0xff0f) == 0xff02

end Ipv6

namespace Ip

/-- Whether an address belongs to the local network; a mapped IPv4 address is judged as the
IPv4 address. -/
def isLocal : Ip → Bool
  | .v4 ip => ip.isLocal
  | .v6 ip => match ip.toIpv4? with
    | some mapped => mapped.isLocal
    | none => ip.isLocal

end Ip

abbrev ClientAddress := String

namespace ClientAddress

/-- Whether the client is on the local network. Blanks around the address do not matter, and
text that is no address counts as public. -/
def isLocal (text : ClientAddress) : Bool :=
  match Ip.ofText? (Text.trim text) with
  | some ip => ip.isLocal
  | none => false

/-- The first four bytes as one number, highest first, with zeros for missing ones. -/
def headWord (bs : Bytes) : UInt32 :=
  (bs.getD 0 0).toUInt32 <<< 24 ||| (bs.getD 1 0).toUInt32 <<< 16
    ||| (bs.getD 2 0).toUInt32 <<< 8 ||| (bs.getD 3 0).toUInt32

/-- The key of the client's rate counter. An address written with dots counts as its IPv4
address if it has one; any other IPv6 address counts as the first four bytes of its text, so
that IPv6 clients may share a counter; everything else has the key zero. -/
def rateKey (text : ClientAddress) : UInt32 :=
  match Ip.ofText? text with
  | none => 0
  | some ip =>
    if text.toList.contains '.' then
      match ip with
      | .v4 ip => ip.toUInt32
      | .v6 ip => (ip.toIpv4?.map Ipv4.toUInt32).getD 0
    else headWord (Bytes.ofText text)

end ClientAddress

end AdmissionGate
