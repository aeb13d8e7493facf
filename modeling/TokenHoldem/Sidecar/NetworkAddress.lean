import TokenHoldem.Library.Checked
import TokenHoldem.Library.Collections
import TokenHoldem.Primitives

/-!
# Dial addresses

`token-holdem-sidecar/src/network_address.rs`: which of the addresses a peer
signed is dialled first.
-/

namespace TokenHoldem

open Library

variable (address : Multiaddr)

def containsRelayHop : Bool := address.any fun
  | .p2pCircuit => true
  | _ => false

/-- `Ipv4Addr::is_private`. -/
def isPrivateIpv4 (a b : UInt8) : Bool :=
  a == 10 || (a == 172 && 16 ≤ b && b ≤ 31) || (a == 192 && b == 168)

def isPublicIpv4 (a b c d : UInt8) : Bool :=
  !(a == 0 && b == 0 && c == 0 && d == 0) && !(a == 127) && !isPrivateIpv4 a b
    && !(a == 169 && b == 254) && !(224 ≤ a && a ≤ 239)
    && !(a == 255 && b == 255 && c == 255 && d == 255)
    && !(a == 100 && 64 ≤ b && b ≤ 127) && !(a == 192 && b == 0 && c == 0)
    && !(a == 192 && b == 0 && c == 2) && !(a == 198 && 18 ≤ b && b ≤ 19)
    && !(a == 198 && b == 51 && c == 100) && !(a == 203 && b == 0 && c == 113) && a < 224

variable (octets : FixedBytes 16)

/-- `ip.segments()[index]`. -/
def ipv6Segment (index : Nat) : Nat :=
  octets.val / 2 ^ (16 * (7 - index)) % 2 ^ 16

/-- `(segments[0] & 0xfe00) == 0xfc00`: a unique local address. -/
def isUniqueLocalIpv6 : Bool :=
  (ipv6Segment octets 0 &&& 0xfe00) == 0xfc00

def isPublicIpv6 : Bool :=
  !(octets.val == 0) && !(octets.val == 1) && !((ipv6Segment octets 0 &&& 0xff00) == 0xff00)
    && !isUniqueLocalIpv6 octets && !((ipv6Segment octets 0 &&& 0xffc0) == 0xfe80)
    && !(ipv6Segment octets 0 == 0x2001 && ipv6Segment octets 1 == 0x0db8)

def isPublicHostProtocol : Protocol → Bool
  | .dns _ => true
  | .ip4 a b c d => isPublicIpv4 a b c d
  | .ip6 octets => isPublicIpv6 octets
  | _ => false

def isPublicDirectAddress : Bool :=
  !containsRelayHop address && address.any isPublicHostProtocol

def containsPrivateHost : Bool := address.any fun
  | .ip4 a b _ _ => isPrivateIpv4 a b
  | .ip6 octets => isUniqueLocalIpv6 octets
  | _ => false

def containsLoopbackHost : Bool := address.any fun
  | .ip4 a _ _ _ => a == 127
  | .ip6 octets => octets.val == 1
  | _ => false

/-- `dial_priority`, with the pair (reachability, transport) as one number: the
transport only breaks ties. -/
def dialPriority : Nat :=
  let reachability :=
    if containsRelayHop address then 0
    else if isPublicDirectAddress address then 1
    else if containsPrivateHost address then 2
    else if containsLoopbackHost address then 3
    else 4
  let transport := if address.any (fun | .tcp _ => true | _ => false) then 0 else 1
  2 * reachability + transport

/-- `preferred_dial_address`: the first address of the best priority. -/
def preferredDialAddress (addresses : List Multiaddr) : Option Multiaddr :=
  addresses.argmin dialPriority

end TokenHoldem
