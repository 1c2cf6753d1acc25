import Corduit.Netstack.Packet.Core

/-!
# Parsing packets

The parser reads headers through the packet views of the `smoltcp` crate: a
length check that a view has to pass, and accessors for its fields.  `Wire` is
that interface; the parser is written against it.  `Rfc` says where the RFCs
put the fields, and `Wire.FollowsRfc` that the views accept every well-formed
header and read its fields from there.
-/

namespace Corduit.Netstack.Packet

open Transition Word

/-- The version of a packet. -/
inductive IpVersion where
  | ipv4
  | ipv6
  deriving DecidableEq, Repr

/-- The protocols that the parser tells apart; any other keeps its number. -/
inductive IpProtocol where
  | tcp
  | udp
  | icmp
  | icmpv6
  | other (number : Byte)
  deriving DecidableEq, Repr

/-- The protocol of a number. -/
def IpProtocol.ofByte (number : Byte) : IpProtocol :=
  if number = 6 then .tcp
  else if number = 17 then .udp
  else if number = 1 then .icmp
  else if number = 58 then .icmpv6
  else .other number

/-- What is kept of a UDP header. -/
structure UdpInfo where
  srcPort : BitVec 16
  dstPort : BitVec 16
  payloadLen : Nat
  deriving DecidableEq, Repr

/-- What is kept of the transport header. -/
inductive TransportInfo where
  | tcp (info : TcpInfo)
  | udp (info : UdpInfo)
  | icmp
  | other (number : Byte)
  deriving DecidableEq, Repr

/-- What is kept of a packet. -/
structure ParsedPacket where
  version : IpVersion
  srcAddr : IpAddr
  dstAddr : IpAddr
  protocol : IpProtocol
  payloadOffset : Nat
  payloadLen : Nat
  transport : TransportInfo
  deriving DecidableEq, Repr

/-- The packet views of `smoltcp`.  A check returns the text of its error. -/
structure Wire where
  ipv4Checked : List Byte → Option String
  ipv4Payload : List Byte → List Byte
  ipv4NextHeader : List Byte → IpProtocol
  ipv4SrcAddr : List Byte → Ipv4Addr
  ipv4DstAddr : List Byte → Ipv4Addr
  ipv6Checked : List Byte → Option String
  ipv6Payload : List Byte → List Byte
  ipv6NextHeader : List Byte → IpProtocol
  ipv6SrcAddr : List Byte → Ipv6Addr
  ipv6DstAddr : List Byte → Ipv6Addr
  tcpChecked : List Byte → Option String
  tcpHeaderLen : List Byte → Nat
  tcpSrcPort : List Byte → BitVec 16
  tcpDstPort : List Byte → BitVec 16
  tcpSeqNumber : List Byte → BitVec 32
  tcpAckNumber : List Byte → BitVec 32
  tcpFin : List Byte → Bool
  tcpSyn : List Byte → Bool
  tcpRst : List Byte → Bool
  tcpPsh : List Byte → Bool
  tcpAck : List Byte → Bool
  tcpWindowLen : List Byte → BitVec 16
  udpChecked : List Byte → Option String
  udpSrcPort : List Byte → BitVec 16
  udpDstPort : List Byte → BitVec 16
  udpPayload : List Byte → List Byte

/-- Where the scan of the TCP options stands, and the segment size found. -/
structure OptionScan where
  index : Nat
  mss : Option (BitVec 16)

/-- One turn of the scan; `none` is its `break`, or the end of the options. -/
def scanOption (opts : List Byte) : Step OptionScan := fun scan =>
  match opts[scan.index]? with
  | none => none
  | some kind =>
      if kind = 0 then
        none
      else if kind = 1 then
        some { scan with index := scan.index + 1 }
      else if kind = 2 ∧ scan.index + 4 ≤ opts.length then
        some { index := scan.index + 4
               mss := some (BitVec.ofNat 16 (ofBeBytes (slice opts (scan.index + 2) 2))) }
      else
        match opts[scan.index + 1]? with
        | none => none
        | some len =>
            if 0 < len.toNat then some { scan with index := scan.index + len.toNat } else none

/-- The scan moves forward in every turn, so it ends within the options. -/
def scanOptions (opts : List Byte) : Option (BitVec 16) :=
  (drain (scanOption opts) opts.length { index := 0, mss := none }).mss

variable (wire : Wire)

/-- A TCP segment. -/
def parseTcp (data : List Byte) : Except SolidTcpError TransportInfo :=
  match wire.tcpChecked data with
  | some message => .error (.invalidPacket ("TCP: " ++ message))
  | none =>
      let headerLen := wire.tcpHeaderLen data
      let mss :=
        if 20 < headerLen ∧ headerLen ≤ data.length then
          scanOptions (slice data 20 (headerLen - 20))
        else
          none
      .ok (.tcp {
        srcPort := wire.tcpSrcPort data
        dstPort := wire.tcpDstPort data
        seq := wire.tcpSeqNumber data
        ack := wire.tcpAckNumber data
        flags := {
          fin := wire.tcpFin data
          syn := wire.tcpSyn data
          rst := wire.tcpRst data
          psh := wire.tcpPsh data
          ack := wire.tcpAck data }
        window := wire.tcpWindowLen data
        mss := mss
        payloadLen := data.length - headerLen })

/-- A UDP datagram. -/
def parseUdp (data : List Byte) : Except SolidTcpError TransportInfo :=
  match wire.udpChecked data with
  | some message => .error (.invalidPacket ("UDP: " ++ message))
  | none =>
      .ok (.udp {
        srcPort := wire.udpSrcPort data
        dstPort := wire.udpDstPort data
        payloadLen := (wire.udpPayload data).length })

/-- What the protocol says is inside. -/
def parseTransport (protocol : IpProtocol) (payload : List Byte) :
    Except SolidTcpError TransportInfo :=
  match protocol with
  | .tcp => parseTcp wire payload
  | .udp => parseUdp wire payload
  | .icmp => .ok .icmp
  | .icmpv6 => .ok .icmp
  | .other number => .ok (.other number)

/-- An IPv4 packet. -/
def parseIpv4 (data : List Byte) : Except SolidTcpError ParsedPacket :=
  match wire.ipv4Checked data with
  | some message => .error (.invalidPacket ("IPv4: " ++ message))
  | none => do
      let ihl := (data.headD 0 &&& 0x0F#8).toNat * 4
      let payload := wire.ipv4Payload data
      let protocol := wire.ipv4NextHeader data
      let transport ← parseTransport wire protocol payload
      return {
        version := .ipv4
        srcAddr := .v4 (wire.ipv4SrcAddr data)
        dstAddr := .v4 (wire.ipv4DstAddr data)
        protocol := protocol
        payloadOffset := ihl
        payloadLen := payload.length
        transport := transport }

/-- An IPv6 packet. -/
def parseIpv6 (data : List Byte) : Except SolidTcpError ParsedPacket :=
  match wire.ipv6Checked data with
  | some message => .error (.invalidPacket ("IPv6: " ++ message))
  | none => do
      let payload := wire.ipv6Payload data
      let protocol := wire.ipv6NextHeader data
      let transport ← parseTransport wire protocol payload
      return {
        version := .ipv6
        srcAddr := .v6 (wire.ipv6SrcAddr data)
        dstAddr := .v6 (wire.ipv6DstAddr data)
        protocol := protocol
        payloadOffset := 40
        payloadLen := payload.length
        transport := transport }

/-- Parse an IP packet. -/
def parsePacket (data : List Byte) : Except SolidTcpError ParsedPacket :=
  match data with
  | [] => .error (.packetTooShort 1 0)
  | first :: _ =>
      let version := (first >>> 4) &&& 0x0F#8
      if version = 4 then parseIpv4 wire data
      else if version = 6 then parseIpv6 wire data
      else .error (.invalidIpVersion version)

namespace Rfc

/-- A byte, or zero behind the end. -/
def byteAt (data : List Byte) (index : Nat) : Byte :=
  data.getD index 0

/-- The big-endian number in a range of bytes. -/
def field (data : List Byte) (start count : Nat) : Nat :=
  ofBeBytes (slice data start count)

/-- The header length field, in bytes. -/
def ipv4HeaderLen (data : List Byte) : Nat :=
  4 * (byteAt data 0 &&& 0x0F#8).toNat

/-- The total length field. -/
def ipv4TotalLen (data : List Byte) : Nat :=
  field data 2 2

/-- Header and packet are inside the data. -/
def Ipv4WellFormed (data : List Byte) : Prop :=
  20 ≤ ipv4HeaderLen data ∧ ipv4HeaderLen data ≤ ipv4TotalLen data ∧
    ipv4TotalLen data ≤ data.length

/-- The payload length field. -/
def ipv6PayloadLen (data : List Byte) : Nat :=
  field data 4 2

/-- The packet is inside the data. -/
def Ipv6WellFormed (data : List Byte) : Prop :=
  40 + ipv6PayloadLen data ≤ data.length

/-- The data offset field, in bytes. -/
def tcpHeaderLen (data : List Byte) : Nat :=
  4 * (byteAt data 12 >>> 4).toNat

/-- The header is inside the data. -/
def TcpWellFormed (data : List Byte) : Prop :=
  20 ≤ tcpHeaderLen data ∧ tcpHeaderLen data ≤ data.length

/-- A control bit of the TCP header. -/
def tcpControl (data : List Byte) (bit : Nat) : Bool :=
  (byteAt data 13).getLsbD bit

/-- The length field. -/
def udpLen (data : List Byte) : Nat :=
  field data 4 2

/-- The datagram is inside the data. -/
def UdpWellFormed (data : List Byte) : Prop :=
  8 ≤ udpLen data ∧ udpLen data ≤ data.length

instance (data : List Byte) : Decidable (Ipv4WellFormed data) :=
  inferInstanceAs (Decidable (_ ∧ _))

instance (data : List Byte) : Decidable (Ipv6WellFormed data) :=
  inferInstanceAs (Decidable (_ ≤ _))

instance (data : List Byte) : Decidable (TcpWellFormed data) :=
  inferInstanceAs (Decidable (_ ∧ _))

instance (data : List Byte) : Decidable (UdpWellFormed data) :=
  inferInstanceAs (Decidable (_ ∧ _))

end Rfc

/-- The views accept every well-formed header and read its fields from where
the RFCs put them. -/
structure Wire.FollowsRfc (wire : Wire) : Prop where
  ipv4 : ∀ data, Rfc.Ipv4WellFormed data →
    wire.ipv4Checked data = none ∧
    wire.ipv4Payload data =
      slice data (Rfc.ipv4HeaderLen data) (Rfc.ipv4TotalLen data - Rfc.ipv4HeaderLen data) ∧
    wire.ipv4NextHeader data = IpProtocol.ofByte (Rfc.byteAt data 9) ∧
    wire.ipv4SrcAddr data = BitVec.ofNat 32 (Rfc.field data 12 4) ∧
    wire.ipv4DstAddr data = BitVec.ofNat 32 (Rfc.field data 16 4)
  ipv6 : ∀ data, Rfc.Ipv6WellFormed data →
    wire.ipv6Checked data = none ∧
    wire.ipv6Payload data = slice data 40 (Rfc.ipv6PayloadLen data) ∧
    wire.ipv6NextHeader data = IpProtocol.ofByte (Rfc.byteAt data 6) ∧
    wire.ipv6SrcAddr data = BitVec.ofNat 128 (Rfc.field data 8 16) ∧
    wire.ipv6DstAddr data = BitVec.ofNat 128 (Rfc.field data 24 16)
  tcp : ∀ data, Rfc.TcpWellFormed data →
    wire.tcpChecked data = none ∧
    wire.tcpHeaderLen data = Rfc.tcpHeaderLen data ∧
    wire.tcpSrcPort data = BitVec.ofNat 16 (Rfc.field data 0 2) ∧
    wire.tcpDstPort data = BitVec.ofNat 16 (Rfc.field data 2 2) ∧
    wire.tcpSeqNumber data = BitVec.ofNat 32 (Rfc.field data 4 4) ∧
    wire.tcpAckNumber data = BitVec.ofNat 32 (Rfc.field data 8 4) ∧
    wire.tcpFin data = Rfc.tcpControl data 0 ∧
    wire.tcpSyn data = Rfc.tcpControl data 1 ∧
    wire.tcpRst data = Rfc.tcpControl data 2 ∧
    wire.tcpPsh data = Rfc.tcpControl data 3 ∧
    wire.tcpAck data = Rfc.tcpControl data 4 ∧
    wire.tcpWindowLen data = BitVec.ofNat 16 (Rfc.field data 14 2)
  udp : ∀ data, Rfc.UdpWellFormed data →
    wire.udpChecked data = none ∧
    wire.udpSrcPort data = BitVec.ofNat 16 (Rfc.field data 0 2) ∧
    wire.udpDstPort data = BitVec.ofNat 16 (Rfc.field data 2 2) ∧
    wire.udpPayload data = slice data 8 (Rfc.udpLen data - 8)

/-- The views that accept the well-formed headers and no others. -/
def Wire.rfc : Wire where
  ipv4Checked data := if Rfc.Ipv4WellFormed data then none else some "wire::Error"
  ipv4Payload data :=
    slice data (Rfc.ipv4HeaderLen data) (Rfc.ipv4TotalLen data - Rfc.ipv4HeaderLen data)
  ipv4NextHeader data := .ofByte (Rfc.byteAt data 9)
  ipv4SrcAddr data := BitVec.ofNat 32 (Rfc.field data 12 4)
  ipv4DstAddr data := BitVec.ofNat 32 (Rfc.field data 16 4)
  ipv6Checked data := if Rfc.Ipv6WellFormed data then none else some "wire::Error"
  ipv6Payload data := slice data 40 (Rfc.ipv6PayloadLen data)
  ipv6NextHeader data := .ofByte (Rfc.byteAt data 6)
  ipv6SrcAddr data := BitVec.ofNat 128 (Rfc.field data 8 16)
  ipv6DstAddr data := BitVec.ofNat 128 (Rfc.field data 24 16)
  tcpChecked data := if Rfc.TcpWellFormed data then none else some "wire::Error"
  tcpHeaderLen := Rfc.tcpHeaderLen
  tcpSrcPort data := BitVec.ofNat 16 (Rfc.field data 0 2)
  tcpDstPort data := BitVec.ofNat 16 (Rfc.field data 2 2)
  tcpSeqNumber data := BitVec.ofNat 32 (Rfc.field data 4 4)
  tcpAckNumber data := BitVec.ofNat 32 (Rfc.field data 8 4)
  tcpFin data := Rfc.tcpControl data 0
  tcpSyn data := Rfc.tcpControl data 1
  tcpRst data := Rfc.tcpControl data 2
  tcpPsh data := Rfc.tcpControl data 3
  tcpAck data := Rfc.tcpControl data 4
  tcpWindowLen data := BitVec.ofNat 16 (Rfc.field data 14 2)
  udpChecked data := if Rfc.UdpWellFormed data then none else some "wire::Error"
  udpSrcPort data := BitVec.ofNat 16 (Rfc.field data 0 2)
  udpDstPort data := BitVec.ofNat 16 (Rfc.field data 2 2)
  udpPayload data := slice data 8 (Rfc.udpLen data - 8)

theorem Wire.rfc_followsRfc : Wire.rfc.FollowsRfc where
  ipv4 _ wellFormed := ⟨if_pos wellFormed, rfl, rfl, rfl, rfl⟩
  ipv6 _ wellFormed := ⟨if_pos wellFormed, rfl, rfl, rfl, rfl⟩
  tcp _ wellFormed :=
    ⟨if_pos wellFormed, rfl, rfl, rfl, rfl, rfl, rfl, rfl, rfl, rfl, rfl, rfl⟩
  udp _ wellFormed := ⟨if_pos wellFormed, rfl, rfl, rfl⟩

end Corduit.Netstack.Packet
