import Corduit.Netstack.Packet.Parse

/-!
# The payload of a packet

The parser finds the length of the payload through the views of a packet; the
stack cuts the payload out of the raw bytes by reading the headers again.  Where
the views check the lengths that they promise to check, both come to the same
bytes.
-/

namespace Corduit.Netstack.Packet

open Transition Word

namespace ParsedPacket

/-- Where a packet comes from. -/
def srcSocket (parsed : ParsedPacket) : Option SocketAddr :=
  match parsed.transport with
  | .tcp info => some ⟨parsed.srcAddr, info.srcPort⟩
  | .udp info => some ⟨parsed.srcAddr, info.srcPort⟩
  | _ => none

/-- Where a packet goes. -/
def dstSocket (parsed : ParsedPacket) : Option SocketAddr :=
  match parsed.transport with
  | .tcp info => some ⟨parsed.dstAddr, info.dstPort⟩
  | .udp info => some ⟨parsed.dstAddr, info.dstPort⟩
  | _ => none

end ParsedPacket

/-- What a handler of the stack knows of a packet once it has cut the payload out. -/
structure Cut (ι : Type) where
  src : SocketAddr
  dst : SocketAddr
  info : ι
  payload : List Byte
  deriving DecidableEq

/-- `tcp_data_offset` of `handle_tcp_packet`. -/
def tcpDataOffset (parsed : ParsedPacket) (raw : List Byte) : Nat :=
  if parsed.payloadOffset + 12 < raw.length then
    (raw.getD (parsed.payloadOffset + 12) 0 >>> 4).toNat * 4
  else
    20

/-- `ip_total_len` of `handle_tcp_packet`. -/
def ipTotalLen (parsed : ParsedPacket) (raw : List Byte) : Nat :=
  match parsed.version with
  | .ipv4 => if 4 ≤ raw.length then ofBeBytes (slice raw 2 2) else raw.length
  | .ipv6 =>
      if 6 ≤ raw.length then
        let payloadLen := ofBeBytes (slice raw 4 2)
        if payloadLen = 0 then raw.length else payloadLen + 40
      else
        raw.length

/-- `handle_tcp_packet` up to the payload; outside of the packet the cut would
panic. -/
def cutTcp (parsed : ParsedPacket) (raw : List Byte) :
    Option (Except SolidTcpError (Option (Cut TcpInfo))) :=
  match parsed.transport with
  | .tcp info =>
      match parsed.srcSocket, parsed.dstSocket with
      | none, _ => some (.error (.invalidPacket "Missing source address"))
      | some _, none => some (.error (.invalidPacket "Missing destination address"))
      | some src, some dst =>
          let payloadStart := parsed.payloadOffset + tcpDataOffset parsed raw
          let payloadEnd := min (ipTotalLen parsed raw) raw.length
          if payloadStart < payloadEnd then
            (range? raw payloadStart payloadEnd).map fun payload =>
              .ok (some ⟨src, dst, info, payload⟩)
          else
            some (.ok (some ⟨src, dst, info, []⟩))
  | _ => some (.ok none)

/-- `handle_udp_packet` up to the payload; a datagram without one is dropped. -/
def cutUdp (parsed : ParsedPacket) (raw : List Byte) :
    Option (Except SolidTcpError (Option (Cut UdpInfo))) :=
  match parsed.transport with
  | .udp info =>
      match parsed.srcSocket, parsed.dstSocket with
      | none, _ => some (.error (.invalidPacket "Missing source address"))
      | some _, none => some (.error (.invalidPacket "Missing destination address"))
      | some src, some dst =>
          let payloadStart := parsed.payloadOffset + 8
          if 0 < info.payloadLen ∧ payloadStart < raw.length then
            (range? raw payloadStart (min raw.length (payloadStart + info.payloadLen))).map
              fun payload => .ok (some ⟨src, dst, info, payload⟩)
          else
            some (.ok none)
  | _ => some (.ok none)

/-- The views check the lengths of what they accept, and give the payload that
stands behind the header. -/
structure Wire.ChecksLengths (wire : Wire) : Prop where
  ipv4 : ∀ data, wire.ipv4Checked data = none →
    20 ≤ data.length ∧ Rfc.ipv4HeaderLen data ≤ Rfc.ipv4TotalLen data ∧
      Rfc.ipv4TotalLen data ≤ data.length ∧
      wire.ipv4Payload data =
        slice data (Rfc.ipv4HeaderLen data) (Rfc.ipv4TotalLen data - Rfc.ipv4HeaderLen data)
  ipv6 : ∀ data, wire.ipv6Checked data = none →
    40 + Rfc.ipv6PayloadLen data ≤ data.length ∧
      wire.ipv6Payload data = slice data 40 (Rfc.ipv6PayloadLen data)
  tcp : ∀ data, wire.tcpChecked data = none →
    20 ≤ Rfc.tcpHeaderLen data ∧ Rfc.tcpHeaderLen data ≤ data.length ∧
      wire.tcpHeaderLen data = Rfc.tcpHeaderLen data
  udp : ∀ data, wire.udpChecked data = none →
    8 ≤ Rfc.udpLen data ∧ Rfc.udpLen data ≤ data.length ∧
      wire.udpPayload data = slice data 8 (Rfc.udpLen data - 8)

theorem Wire.rfc_checksLengths : Wire.rfc.ChecksLengths where
  ipv4 data accepted := by
    have wellFormed : Rfc.Ipv4WellFormed data := by
      by_contra malformed
      exact absurd (accepted.symm.trans (if_neg malformed)) (Option.some_ne_none _).symm
    exact ⟨wellFormed.1.trans (wellFormed.2.1.trans wellFormed.2.2), wellFormed.2.1,
      wellFormed.2.2, rfl⟩
  ipv6 data accepted := by
    have wellFormed : Rfc.Ipv6WellFormed data := by
      by_contra malformed
      exact absurd (accepted.symm.trans (if_neg malformed)) (Option.some_ne_none _).symm
    exact ⟨wellFormed, rfl⟩
  tcp data accepted := by
    have wellFormed : Rfc.TcpWellFormed data := by
      by_contra malformed
      exact absurd (accepted.symm.trans (if_neg malformed)) (Option.some_ne_none _).symm
    exact ⟨wellFormed.1, wellFormed.2, rfl⟩
  udp data accepted := by
    have wellFormed : Rfc.UdpWellFormed data := by
      by_contra malformed
      exact absurd (accepted.symm.trans (if_neg malformed)) (Option.some_ne_none _).symm
    exact ⟨wellFormed.1, wellFormed.2, rfl⟩

section Agreement

variable {wire : Wire} {raw : List Byte} {parsed : ParsedPacket}

/-- The payload of the IP packet. -/
def ipPayload (wire : Wire) (parsed : ParsedPacket) (raw : List Byte) : List Byte :=
  match parsed.version with
  | .ipv4 => wire.ipv4Payload raw
  | .ipv6 => wire.ipv6Payload raw

/-- The payload of the segment or the datagram in it. -/
def transportPayload (wire : Wire) (parsed : ParsedPacket) (raw : List Byte) : List Byte :=
  match parsed.transport with
  | .tcp _ => (ipPayload wire parsed raw).drop (wire.tcpHeaderLen (ipPayload wire parsed raw))
  | .udp _ => wire.udpPayload (ipPayload wire parsed raw)
  | _ => []

/-- Where the payload of an accepted packet stands; the stack finds its end, unless
it is empty. -/
theorem ipPayload_of_parsePacket (lengths : wire.ChecksLengths)
    (accepted : parsePacket wire raw = .ok parsed) :
    ∃ total, parsed.payloadOffset ≤ total ∧ total ≤ raw.length ∧
      ipPayload wire parsed raw =
        slice raw parsed.payloadOffset (total - parsed.payloadOffset) ∧
      (ipTotalLen parsed raw = total ∨ total = parsed.payloadOffset) ∧
      parseTransport wire parsed.protocol (ipPayload wire parsed raw) = .ok parsed.transport := by
  cases raw with
  | nil => cases accepted
  | cons first rest =>
      rw [parsePacket] at accepted
      by_cases four : (first >>> 4) &&& 0x0F#8 = 4
      · rw [if_pos four, parseIpv4] at accepted
        cases checked : wire.ipv4Checked (first :: rest) with
        | some message =>
            rw [checked] at accepted
            cases accepted
        | none =>
            rw [checked] at accepted
            rcases lengths.ipv4 _ checked with ⟨long, ordered, inside, payload_eq⟩
            rcases bind_eq_ok_iff.mp accepted with ⟨transport, parsedTransport, built⟩
            rw [pure_eq_ok_iff] at built
            subst built
            refine ⟨Rfc.ipv4TotalLen (first :: rest), ?_, inside, ?_, Or.inl ?_, parsedTransport⟩
            · rw [Rfc.ipv4HeaderLen, Nat.mul_comm] at ordered
              exact ordered
            · rw [Rfc.ipv4HeaderLen, Nat.mul_comm] at payload_eq
              exact payload_eq
            · exact if_pos (by omega)
      rw [if_neg four] at accepted
      by_cases six : (first >>> 4) &&& 0x0F#8 = 6
      · rw [if_pos six, parseIpv6] at accepted
        cases checked : wire.ipv6Checked (first :: rest) with
        | some message =>
            rw [checked] at accepted
            cases accepted
        | none =>
            rw [checked] at accepted
            rcases lengths.ipv6 _ checked with ⟨inside, payload_eq⟩
            rcases bind_eq_ok_iff.mp accepted with ⟨transport, parsedTransport, built⟩
            rw [pure_eq_ok_iff] at built
            subst built
            refine ⟨40 + Rfc.ipv6PayloadLen (first :: rest), Nat.le_add_right _ _, inside, ?_, ?_,
              parsedTransport⟩
            · rw [Nat.add_sub_cancel_left]
              exact payload_eq
            · by_cases empty : Rfc.ipv6PayloadLen (first :: rest) = 0
              · right
                rw [empty]
              · left
                have long : 6 ≤ (first :: rest).length := by omega
                exact (if_pos long).trans ((if_neg empty).trans (Nat.add_comm _ _))
      · rw [if_neg six] at accepted
        cases accepted

theorem segment_of_parseTransport {protocol : IpProtocol} {data : List Byte} {info : TcpInfo}
    (lengths : wire.ChecksLengths)
    (accepted : parseTransport wire protocol data = .ok (.tcp info)) :
    20 ≤ Rfc.tcpHeaderLen data ∧ Rfc.tcpHeaderLen data ≤ data.length ∧
      wire.tcpHeaderLen data = Rfc.tcpHeaderLen data ∧
      info.payloadLen = data.length - Rfc.tcpHeaderLen data := by
  cases protocol with
  | tcp =>
      rw [parseTransport, parseTcp] at accepted
      cases checked : wire.tcpChecked data with
      | some message =>
          rw [checked] at accepted
          cases accepted
      | none =>
          rw [checked] at accepted
          rcases lengths.tcp data checked with ⟨twenty, inside, headerLen⟩
          have same := TransportInfo.tcp.inj (Except.ok.inj accepted)
          refine ⟨twenty, inside, headerLen, ?_⟩
          rw [← same, ← headerLen]
  | udp =>
      rw [parseTransport, parseUdp] at accepted
      cases checked : wire.udpChecked data with
      | some message =>
          rw [checked] at accepted
          cases accepted
      | none =>
          rw [checked] at accepted
          cases accepted
  | icmp => cases accepted
  | icmpv6 => cases accepted
  | other number => cases accepted

theorem datagram_of_parseTransport {protocol : IpProtocol} {data : List Byte} {info : UdpInfo}
    (lengths : wire.ChecksLengths)
    (accepted : parseTransport wire protocol data = .ok (.udp info)) :
    wire.udpPayload data = slice data 8 info.payloadLen ∧ 8 + info.payloadLen ≤ data.length := by
  cases protocol with
  | tcp =>
      rw [parseTransport, parseTcp] at accepted
      cases checked : wire.tcpChecked data with
      | some message =>
          rw [checked] at accepted
          cases accepted
      | none =>
          rw [checked] at accepted
          cases accepted
  | udp =>
      rw [parseTransport, parseUdp] at accepted
      cases checked : wire.udpChecked data with
      | some message =>
          rw [checked] at accepted
          cases accepted
      | none =>
          rw [checked] at accepted
          rcases lengths.udp data checked with ⟨eight, inside, payload_eq⟩
          have same := congrArg UdpInfo.payloadLen (TransportInfo.udp.inj (Except.ok.inj accepted))
          have number : info.payloadLen = Rfc.udpLen data - 8 := by
            rw [← same, payload_eq, slice, List.length_take, List.length_drop]
            exact Nat.min_eq_left (by omega)
          rw [number]
          exact ⟨payload_eq, by omega⟩
  | icmp => cases accepted
  | icmpv6 => cases accepted
  | other number => cases accepted

/-- The bytes that the stack cuts out of an accepted packet are the payload that the
parser found, as long as it said: for a segment always, and for a datagram unless it
has none. -/
theorem cuts_agree (lengths : wire.ChecksLengths)
    (accepted : parsePacket wire raw = .ok parsed) :
    (∀ info, parsed.transport = .tcp info →
      (transportPayload wire parsed raw).length = info.payloadLen ∧
        cutTcp parsed raw = some (.ok (some ⟨⟨parsed.srcAddr, info.srcPort⟩,
          ⟨parsed.dstAddr, info.dstPort⟩, info, transportPayload wire parsed raw⟩))) ∧
    (∀ info, parsed.transport = .udp info →
      (transportPayload wire parsed raw).length = info.payloadLen ∧
        cutUdp parsed raw = some (.ok (if info.payloadLen = 0 then none
          else some ⟨⟨parsed.srcAddr, info.srcPort⟩, ⟨parsed.dstAddr, info.dstPort⟩, info,
            transportPayload wire parsed raw⟩))) := by
  rcases ipPayload_of_parsePacket lengths accepted with
    ⟨total, ordered, inside, payload_eq, ends, transported⟩
  have length : (ipPayload wire parsed raw).length = total - parsed.payloadOffset := by
    rw [payload_eq, slice, List.length_take, List.length_drop]
    omega
  constructor
  · intro info tcp
    rw [tcp] at transported
    rcases segment_of_parseTransport lengths transported with
      ⟨twenty, short, headerLen, payloadLen⟩
    have found : ipTotalLen parsed raw = total := by
      rcases ends with found | empty
      · exact found
      · omega
    have offset : tcpDataOffset parsed raw = Rfc.tcpHeaderLen (ipPayload wire parsed raw) := by
      rw [tcpDataOffset, if_pos (by omega), Rfc.tcpHeaderLen, Nat.mul_comm, Rfc.byteAt, payload_eq,
        List.getD_eq_getElem?_getD, List.getD_eq_getElem?_getD, slice,
        List.getElem?_take_of_lt (by omega), List.getElem?_drop]
    have cut : transportPayload wire parsed raw =
        slice raw (parsed.payloadOffset + tcpDataOffset parsed raw)
          (total - (parsed.payloadOffset + tcpDataOffset parsed raw)) := by
      rw [transportPayload, tcp]
      dsimp only
      rw [headerLen, offset]
      generalize Rfc.tcpHeaderLen (ipPayload wire parsed raw) = header
      rw [payload_eq, slice, slice, List.drop_take, List.drop_drop, Nat.sub_sub]
    refine ⟨?_, ?_⟩
    · rw [cut, slice, List.length_take, List.length_drop, payloadLen, length, offset]
      omega
    · rw [cutTcp, tcp, ParsedPacket.srcSocket, ParsedPacket.dstSocket, tcp]
      dsimp only
      rw [found, Nat.min_eq_left inside]
      by_cases some : parsed.payloadOffset + tcpDataOffset parsed raw < total
      · rw [if_pos some, range?_of_le (Nat.le_of_lt some) inside, cut]
        rfl
      · rw [if_neg some, cut, Nat.sub_eq_zero_of_le (Nat.le_of_not_lt some), slice, List.take_zero]
  · intro info udp
    rw [udp] at transported
    rcases datagram_of_parseTransport lengths transported with ⟨datagram, short⟩
    have cut : transportPayload wire parsed raw =
        slice raw (parsed.payloadOffset + 8) info.payloadLen := by
      rw [transportPayload, udp]
      dsimp only
      rw [datagram, payload_eq, slice_slice (by omega)]
    refine ⟨?_, ?_⟩
    · rw [cut, slice, List.length_take, List.length_drop]
      omega
    · rw [cutUdp, udp, ParsedPacket.srcSocket, ParsedPacket.dstSocket, udp]
      dsimp only
      by_cases empty : info.payloadLen = 0
      · rw [if_neg (by omega), if_pos empty]
      · rw [if_pos (by omega), if_neg empty, Nat.min_eq_right (by omega),
          range?_of_le (Nat.le_add_right _ _) (by omega), Nat.add_sub_cancel_left, cut]
        rfl

end Agreement

/-- A segment of two bytes behind headers with options, and padding of the link. -/
def paddedSegment : List Byte :=
  [0x46, 0, 0, 0x32, 0, 0, 0, 0, 64, 6, 0, 0, 10, 0, 0, 1, 192, 0, 2, 1, 1, 1, 1, 1,
    0x9C, 0x40, 0x01, 0xBB, 0, 0, 0, 1, 0, 0, 0, 2, 0x60, 0x18, 0xFF, 0xFF, 0, 0, 0, 0,
    2, 4, 0x05, 0xB4, 0x68, 0x69, 0, 0, 0, 0]

theorem cuts_agree_paddedSegment :
    cutTcp ⟨.ipv4, .v4 0x0A000001, .v4 0xC0000201, .tcp, 24, 26,
        .tcp ⟨40000, 443, 1, 2, TcpFlags.pshAck, 65535, some 1460, 2⟩⟩ paddedSegment =
      some (.ok (some ⟨⟨.v4 0x0A000001, 40000⟩, ⟨.v4 0xC0000201, 443⟩,
        ⟨40000, 443, 1, 2, TcpFlags.pshAck, 65535, some 1460, 2⟩, [0x68, 0x69]⟩)) := by
  have accepted : parsePacket Wire.rfc paddedSegment = .ok ⟨.ipv4, .v4 0x0A000001,
      .v4 0xC0000201, .tcp, 24, 26,
      .tcp ⟨40000, 443, 1, 2, TcpFlags.pshAck, 65535, some 1460, 2⟩⟩ := by
    decide +kernel
  exact ((cuts_agree Wire.rfc_checksLengths accepted).1 _ rfl).2

end Corduit.Netstack.Packet
