import Corduit.Netstack.Packet.Core

/-!
# Addresses that are not globally reachable

The IANA special-purpose ranges, in priority order: an address has the class of
the first range that contains it.
-/

namespace Corduit.Dns

open Netstack

/-- How an address fails to be globally reachable. -/
inductive BogonType where
  | global
  | «private»
  | loopback
  | linkLocal
  | multicast
  | reserved
  | documentation
  | other
  deriving DecidableEq, Repr

/-- Only global addresses are routable. -/
def BogonType.isGloballyRoutable (kind : BogonType) : Bool :=
  kind = global

/-- `recurse_x::cidr`: the addresses that the network of a text contains. -/
structure CidrLibrary where
  parseV4 : String → Option (Ipv4Addr → Bool)
  parseV6 : String → Option (Ipv6Addr → Bool)

/-- The special ranges of IPv4. -/
def V4_RANGES : List (String × BogonType) :=
  [("127.0.0.0/8", .loopback), ("10.0.0.0/8", .«private»), ("172.16.0.0/12", .«private»),
    ("192.168.0.0/16", .«private»), ("169.254.0.0/16", .linkLocal), ("224.0.0.0/4", .multicast),
    ("192.0.2.0/24", .documentation), ("198.51.100.0/24", .documentation),
    ("203.0.113.0/24", .documentation), ("0.0.0.0/8", .reserved), ("192.0.0.0/24", .reserved),
    ("192.88.99.0/24", .reserved), ("240.0.0.0/4", .reserved), ("100.64.0.0/10", .other),
    ("198.18.0.0/15", .other)]

/-- IPv4-mapped addresses are not listed: they are classified as the IPv4 addresses
they carry. -/
def V6_RANGES : List (String × BogonType) :=
  [("::1/128", .loopback), ("fc00::/7", .«private»), ("fe80::/10", .linkLocal),
    ("ff00::/8", .multicast), ("2001:db8::/32", .documentation), ("3fff::/20", .documentation),
    ("::/128", .reserved), ("100::/64", .reserved), ("100:0:0:1::/64", .reserved),
    ("5f00::/16", .reserved), ("2001:2::/48", .reserved), ("64:ff9b::/96", .other),
    ("64:ff9b:1::/48", .other), ("2001::/32", .other), ("2001:10::/28", .other),
    ("2001:20::/28", .other), ("2002::/16", .other)]

/-- The class of the first range that contains an address; what is no range is left
out. -/
def classifyIn {α : Type} (parse : String → Option (α → Bool)) (ranges : List (String × BogonType))
    (addr : α) : BogonType :=
  let rules := ranges.filterMap fun (cidr, kind) => (parse cidr).map fun contains => (contains, kind)
  match rules.find? fun rule => rule.1 addr with
  | some rule => rule.2
  | none => .global

/-- `Ipv6Addr::to_ipv4_mapped`. -/
def toIpv4Mapped (addr : Ipv6Addr) : Option Ipv4Addr :=
  if addr >>> 32 = 0xFFFF then some (addr.setWidth 32) else none

/-- `classify_bogon`. -/
def classifyBogon (library : CidrLibrary) : IpAddr → BogonType
  | .v4 addr => classifyIn library.parseV4 V4_RANGES addr
  | .v6 addr =>
      match toIpv4Mapped addr with
      | some mapped => classifyIn library.parseV4 V4_RANGES mapped
      | none => classifyIn library.parseV6 V6_RANGES addr

/-- An address that cannot legitimately answer for a public name. -/
def isBogon (library : CidrLibrary) (addr : IpAddr) : Bool :=
  !(classifyBogon library addr).isGloballyRoutable

end Corduit.Dns
