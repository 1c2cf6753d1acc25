import Corduit.Word.OnesComplement

/-!
# Addresses, flags and segment descriptions

The vocabulary shared by the packet codec, the connection state machine and
the stack: socket addresses, the flag set of a TCP header, and what the parser
reports about a packet.
-/

namespace Corduit.Netstack

open Word

/-- An IPv4 address as the number its octets spell. -/
abbrev Ipv4Addr := BitVec 32

/-- An IPv6 address as the number its octets spell. -/
abbrev Ipv6Addr := BitVec 128

/-- `std::net::IpAddr`. -/
inductive IpAddr where
  | v4 (addr : Ipv4Addr)
  | v6 (addr : Ipv6Addr)
  deriving DecidableEq, Repr

/-- `std::net::SocketAddr`. -/
structure SocketAddr where
  ip : IpAddr
  port : BitVec 16
  deriving DecidableEq, Repr

/-- The errors of the stack that the modelled functions return. -/
inductive SolidTcpError where
  | invalidPacket (message : String)
  | packetTooShort (expected actual : Nat)
  | invalidIpVersion (version : Byte)
  | fakeIpPoolExhausted
  | natTableFull (max : Nat)
  | deviceNotReady
  | channelClosed
  | unsupported (message : String)
  deriving DecidableEq, Repr

/-- The segment size of IPv4. -/
def DEFAULT_MSS_V4 : BitVec 16 := 1360

/-- The segment size of IPv6. -/
def DEFAULT_MSS_V6 : BitVec 16 := 1340

/-- The flags of a TCP header that the stack distinguishes. -/
structure TcpFlags where
  fin : Bool := false
  syn : Bool := false
  rst : Bool := false
  psh : Bool := false
  ack : Bool := false
  deriving DecidableEq, Repr

namespace TcpFlags

/-- SYN. -/
def synOnly : TcpFlags := { syn := true }

/-- SYN and ACK. -/
def synAck : TcpFlags := { syn := true, ack := true }

/-- ACK. -/
def ackOnly : TcpFlags := { ack := true }

/-- FIN and ACK. -/
def finAck : TcpFlags := { fin := true, ack := true }

/-- RST and ACK. -/
def rstAck : TcpFlags := { rst := true, ack := true }

/-- RST. -/
def rstOnly : TcpFlags := { rst := true }

/-- PSH and ACK. -/
def pshAck : TcpFlags := { psh := true, ack := true }

/-- The flag byte of the header. -/
def toByte (flags : TcpFlags) : Byte :=
  let byte : Byte := 0
  let byte := if flags.fin then byte ||| 0x01 else byte
  let byte := if flags.syn then byte ||| 0x02 else byte
  let byte := if flags.rst then byte ||| 0x04 else byte
  let byte := if flags.psh then byte ||| 0x08 else byte
  if flags.ack then byte ||| 0x10 else byte

end TcpFlags

/-- What the parser reports about a TCP header. -/
structure TcpInfo where
  srcPort : BitVec 16
  dstPort : BitVec 16
  seq : BitVec 32
  ack : BitVec 32
  flags : TcpFlags
  window : BitVec 16
  mss : Option (BitVec 16)
  payloadLen : Nat
  deriving DecidableEq, Repr

/-- A TCP segment on its way to the tunnel: the arguments of `build_tcp`. -/
structure Segment where
  src : SocketAddr
  dst : SocketAddr
  seq : BitVec 32
  ack : BitVec 32
  flags : TcpFlags
  window : BitVec 16
  payload : List Byte
  mss : Option (BitVec 16)
  deriving DecidableEq, Repr

end Corduit.Netstack

/-!
# Building packets

The four packet builders, as they write their fields into a zeroed buffer at
fixed offsets, and the checksums they store.  The identification field of an
IPv4 header comes from a process-wide counter and is an argument here.
-/

namespace Corduit.Netstack.Packet

open Word

/-- The loop of `sum_words`, on a 32-bit register that wraps. -/
def sumWordsFrom (sum : BitVec 32) : List Byte → BitVec 32
  | [] => sum
  | [high] => sum + (high.setWidth 32 <<< 8)
  | high :: low :: rest =>
      sumWordsFrom (sum + ((high.setWidth 32 <<< 8) ||| low.setWidth 32)) rest

/-- Sum over arbitrary bytes, odd trailing byte padded. -/
def sumWords (data : List Byte) : BitVec 32 :=
  sumWordsFrom 0 data

/-- The checksum of some bytes. -/
def checksum (data : List Byte) : BitVec 16 :=
  (~~~(foldCarries (sumWords data))).setWidth 16

/-- Transport checksum over a v4 or v6 pseudo-header. -/
def transportChecksum (src dst : List Byte) (proto : Byte) (data : List Byte) : BitVec 16 :=
  let sum := sumWords src
  let sum := sum + sumWords dst
  let sum := sum + proto.setWidth 32
  let sum := sum + BitVec.ofNat 32 data.length
  let sum := sum + sumWords data
  (~~~(foldCarries sum)).setWidth 16

/-- The checksum of a segment. -/
def tcpChecksum (src dst tcp : List Byte) : BitVec 16 :=
  transportChecksum src dst 6 tcp

/-- The checksum of a datagram, never zero. -/
def udpChecksum (src dst udp : List Byte) : BitVec 16 :=
  let cksum := transportChecksum src dst 17 udp
  if cksum = 0 then 0xFFFF else cksum

/-- Store the checksum of an IPv4 header, computed over the header as it is. -/
def storeIpv4Checksum (pkt : List Byte) : List Byte :=
  let ipCksum := checksum (pkt.take 20)
  writeAt pkt 10 (toBeBytes 2 ipCksum)

/-- The length of the options of a segment. -/
def tcpOptsLen (flags : TcpFlags) (mss : Option (BitVec 16)) : Nat :=
  if flags.syn && mss.isSome then 4 else 0

/-- The fixed part of the TCP header, which both builders write from `tcpStart`
on. -/
def writeTcpHeader (pkt : List Byte) (tcpStart tcpHdrLen : Nat) (srcPort dstPort : BitVec 16)
    (seq ack : BitVec 32) (flags : TcpFlags) (window : BitVec 16) : List Byte :=
  let pkt := writeAt pkt tcpStart (toBeBytes 2 srcPort)
  let pkt := writeAt pkt (tcpStart + 2) (toBeBytes 2 dstPort)
  let pkt := writeAt pkt (tcpStart + 4) (toBeBytes 4 seq)
  let pkt := writeAt pkt (tcpStart + 8) (toBeBytes 4 ack)
  let pkt := writeAt pkt (tcpStart + 12) [BitVec.ofNat 8 (tcpHdrLen / 4) <<< 4]
  let pkt := writeAt pkt (tcpStart + 13) [flags.toByte]
  writeAt pkt (tcpStart + 14) (toBeBytes 2 window)

/-- The maximum segment size, on a SYN that has one. -/
def writeTcpOptions (pkt : List Byte) (tcpStart : Nat) (flags : TcpFlags)
    (mss : Option (BitVec 16)) : List Byte :=
  if flags.syn then
    match mss with
    | some mssVal =>
        let pkt := writeAt pkt (tcpStart + 20) [2]
        let pkt := writeAt pkt (tcpStart + 21) [4]
        writeAt pkt (tcpStart + 22) (toBeBytes 2 mssVal)
    | none => pkt
  else
    pkt

/-- The payload, if there is one. -/
def writePayload (pkt : List Byte) (payloadStart : Nat) (payload : List Byte) : List Byte :=
  if !payload.isEmpty then writeAt pkt payloadStart payload else pkt

/-- A segment in an IPv4 packet, with its checksums. -/
def buildIpv4Tcp (srcIp dstIp : Ipv4Addr) (srcPort dstPort : BitVec 16) (seq ack : BitVec 32)
    (flags : TcpFlags) (window : BitVec 16) (payload : List Byte) (mss : Option (BitVec 16))
    (ipId : BitVec 16) : List Byte :=
  let tcpHdrLen := 20 + tcpOptsLen flags mss
  let totalLen := 20 + tcpHdrLen + payload.length
  let pkt := List.replicate totalLen 0
  let pkt := writeAt pkt 0 [0x45]
  let pkt := writeAt pkt 1 [0x00]
  let pkt := writeAt pkt 2 (toBeBytes 2 (BitVec.ofNat 16 totalLen))
  let pkt := writeAt pkt 4 (toBeBytes 2 ipId)
  let pkt := writeAt pkt 6 (toBeBytes 2 (0x4000 : BitVec 16))
  let pkt := writeAt pkt 8 [64]
  let pkt := writeAt pkt 9 [6]
  let pkt := writeAt pkt 12 (toBeBytes 4 srcIp)
  let pkt := writeAt pkt 16 (toBeBytes 4 dstIp)
  let pkt := storeIpv4Checksum pkt
  let tcpStart := 20
  let pkt := writeTcpHeader pkt tcpStart tcpHdrLen srcPort dstPort seq ack flags window
  let pkt := writeTcpOptions pkt tcpStart flags mss
  let pkt := writePayload pkt (tcpStart + tcpHdrLen) payload
  let tcpCksum := tcpChecksum (toBeBytes 4 srcIp) (toBeBytes 4 dstIp) (pkt.drop tcpStart)
  writeAt pkt (tcpStart + 16) (toBeBytes 2 tcpCksum)

/-- A segment in an IPv6 packet. -/
def buildIpv6Tcp (srcIp dstIp : Ipv6Addr) (srcPort dstPort : BitVec 16) (seq ack : BitVec 32)
    (flags : TcpFlags) (window : BitVec 16) (payload : List Byte) (mss : Option (BitVec 16)) :
    List Byte :=
  let tcpHdrLen := 20 + tcpOptsLen flags mss
  let totalLen := 40 + tcpHdrLen + payload.length
  let pkt := List.replicate totalLen 0
  let pkt := writeAt pkt 0 [0x60]
  let pkt := writeAt pkt 4 (toBeBytes 2 (BitVec.ofNat 16 (tcpHdrLen + payload.length)))
  let pkt := writeAt pkt 6 [6]
  let pkt := writeAt pkt 7 [64]
  let pkt := writeAt pkt 8 (toBeBytes 16 srcIp)
  let pkt := writeAt pkt 24 (toBeBytes 16 dstIp)
  let tcpStart := 40
  let pkt := writeTcpHeader pkt tcpStart tcpHdrLen srcPort dstPort seq ack flags window
  let pkt := writeTcpOptions pkt tcpStart flags mss
  let pkt := writePayload pkt (tcpStart + tcpHdrLen) payload
  let tcpCksum :=
    transportChecksum (toBeBytes 16 srcIp) (toBeBytes 16 dstIp) 6 (pkt.drop tcpStart)
  writeAt pkt (tcpStart + 16) (toBeBytes 2 tcpCksum)

/-- Build a TCP packet for either address family. -/
def buildTcp (srcIp dstIp : IpAddr) (srcPort dstPort : BitVec 16) (seq ack : BitVec 32)
    (flags : TcpFlags) (window : BitVec 16) (payload : List Byte) (mss : Option (BitVec 16))
    (ipId : BitVec 16) : Except SolidTcpError (List Byte) :=
  match srcIp, dstIp with
  | .v4 src, .v4 dst =>
      .ok (buildIpv4Tcp src dst srcPort dstPort seq ack flags window payload mss ipId)
  | .v6 src, .v6 dst =>
      .ok (buildIpv6Tcp src dst srcPort dstPort seq ack flags window payload mss)
  | _, _ => .error (.unsupported "mixed address families")

/-- A datagram in an IPv6 packet. -/
def buildIpv6Udp (srcIp dstIp : Ipv6Addr) (srcPort dstPort : BitVec 16)
    (payload : List Byte) : List Byte :=
  let totalLen := 40 + 8 + payload.length
  let pkt := List.replicate totalLen 0
  let pkt := writeAt pkt 0 [0x60]
  let pkt := writeAt pkt 4 (toBeBytes 2 (BitVec.ofNat 16 (8 + payload.length)))
  let pkt := writeAt pkt 6 [17]
  let pkt := writeAt pkt 7 [64]
  let pkt := writeAt pkt 8 (toBeBytes 16 srcIp)
  let pkt := writeAt pkt 24 (toBeBytes 16 dstIp)
  let udpLen := BitVec.ofNat 16 (8 + payload.length)
  let pkt := writeAt pkt 40 (toBeBytes 2 srcPort)
  let pkt := writeAt pkt 42 (toBeBytes 2 dstPort)
  let pkt := writeAt pkt 44 (toBeBytes 2 udpLen)
  let pkt := writePayload pkt 48 payload
  let udpCksum := transportChecksum (toBeBytes 16 srcIp) (toBeBytes 16 dstIp) 17 (pkt.drop 40)
  let udpCksum := if udpCksum = 0 then 0xFFFF else udpCksum
  writeAt pkt 46 (toBeBytes 2 udpCksum)

/-- A datagram in an IPv4 packet. -/
def buildIpv4Udp (srcIp dstIp : Ipv4Addr) (srcPort dstPort : BitVec 16)
    (payload : List Byte) : List Byte :=
  let totalLen := 20 + 8 + payload.length
  let pkt := List.replicate totalLen 0
  let pkt := writeAt pkt 0 [0x45]
  let pkt := writeAt pkt 2 (toBeBytes 2 (BitVec.ofNat 16 totalLen))
  let pkt := writeAt pkt 6 (toBeBytes 2 (0x4000 : BitVec 16))
  let pkt := writeAt pkt 8 [64]
  let pkt := writeAt pkt 9 [17]
  let pkt := writeAt pkt 12 (toBeBytes 4 srcIp)
  let pkt := writeAt pkt 16 (toBeBytes 4 dstIp)
  let pkt := storeIpv4Checksum pkt
  let udpLen := BitVec.ofNat 16 (8 + payload.length)
  let pkt := writeAt pkt 20 (toBeBytes 2 srcPort)
  let pkt := writeAt pkt 22 (toBeBytes 2 dstPort)
  let pkt := writeAt pkt 24 (toBeBytes 2 udpLen)
  let pkt := writePayload pkt 28 payload
  let udpCksum := udpChecksum (toBeBytes 4 srcIp) (toBeBytes 4 dstIp) (pkt.drop 20)
  writeAt pkt 26 (toBeBytes 2 udpCksum)

/-- Build a UDP packet for either address family. -/
def buildUdp (srcIp dstIp : IpAddr) (srcPort dstPort : BitVec 16) (payload : List Byte) :
    Except SolidTcpError (List Byte) :=
  match srcIp, dstIp with
  | .v4 src, .v4 dst => .ok (buildIpv4Udp src dst srcPort dstPort payload)
  | .v6 src, .v6 dst => .ok (buildIpv6Udp src dst srcPort dstPort payload)
  | _, _ => .error (.unsupported "mixed address families")

end Corduit.Netstack.Packet

/-!
# Networks

A network is known by what the library says about it: whatever that is, the
callers go by it.  `Net.ofPrefix` says what the library does for an address and the
length of its prefix.
-/

namespace Corduit.Netstack

/-- `Ipv4Net` and `Ipv6Net`. -/
structure Net (w : Nat) where
  prefixLen : Nat
  network : BitVec w
  contains : BitVec w → Bool

/-- From the first address of the network to the last one. -/
def Net.ofPrefix {w : Nat} (addr : BitVec w) (prefixLen : Nat) : Net w :=
  let netmask := BitVec.allOnes w <<< (w - prefixLen)
  { prefixLen := prefixLen
    network := addr &&& netmask
    contains := fun other => addr &&& netmask ≤ other && other ≤ addr ||| ~~~netmask }

/-- `ipnet::IpNet`. -/
inductive IpNet where
  | v4 (net : Net 32)
  | v6 (net : Net 128)

/-- A network contains addresses of its own family only. -/
def IpNet.contains : IpNet → IpAddr → Bool
  | .v4 net, .v4 addr => net.contains addr
  | .v6 net, .v6 addr => net.contains addr
  | _, _ => false

end Corduit.Netstack
