import Corduit.Netstack.Packet.Layout
import Corduit.Netstack.Packet.Parse

/-!
# What is built is parsed back

The parser reads from each laid-out packet the fields it was built from, for
both transports and both address families, and the bytes it reports as payload
are the payload.
-/

namespace Corduit.Netstack.Packet

open Transition Word

section Reading

variable {block rest : List Byte} {index : Nat}

theorem byteAt_skip (behind : block.length ≤ index) :
    Rfc.byteAt (block ++ rest) index = Rfc.byteAt rest (index - block.length) := by
  simp [Rfc.byteAt, List.getElem?_append_right behind]

theorem byteAt_here (byte : Byte) : Rfc.byteAt ([byte] ++ rest) 0 = byte :=
  rfl

theorem field_skip (behind : block.length ≤ index) (count : Nat) :
    Rfc.field (block ++ rest) index count = Rfc.field rest (index - block.length) count := by
  rw [Rfc.field, slice_skip behind, Rfc.field]

theorem field_here {w : Nat} (value : BitVec w) {count : Nat} (wide : 2 ^ w ≤ 256 ^ count) :
    BitVec.ofNat w (Rfc.field (toBeBytes count value ++ rest) 0 count) = value := by
  rw [Rfc.field, slice_here (length_toBeBytes _ _), ofNat_ofBeBytes value wide]

end Reading

section Tcp

variable (srcPort dstPort : BitVec 16) (seq ack : BitVec 32) (flags : TcpFlags)
  (window cksum : BitVec 16) (mss : Option (BitVec 16)) (payload : List Byte)

theorem length_tcpSegment :
    (tcpSegment srcPort dstPort seq ack flags window cksum mss payload).length =
      20 + tcpOptsLen flags mss + payload.length := by
  simp only [tcpSegment, List.length_append, length_tcpHeader, length_tcpOptions]
  omega

theorem tcpOptsLen_cases : tcpOptsLen flags mss = 0 ∨ tcpOptsLen flags mss = 4 := by
  unfold tcpOptsLen
  split <;> simp

theorem tcpHeaderLen_tcpSegment :
    Rfc.tcpHeaderLen (tcpSegment srcPort dstPort seq ack flags window cksum mss payload) =
      20 + tcpOptsLen flags mss := by
  have offset : Rfc.byteAt (tcpSegment srcPort dstPort seq ack flags window cksum mss payload)
      12 = BitVec.ofNat 8 ((20 + tcpOptsLen flags mss) / 4) <<< 4 := by
    simp only [tcpSegment, tcpHeader, List.append_assoc]
    simp (disch := simp) only [byteAt_skip, byteAt_here, length_toBeBytes, Nat.reduceSub,
      Nat.sub_self]
  rw [Rfc.tcpHeaderLen, offset]
  rcases tcpOptsLen_cases flags mss with none | four
  · rw [none]
    decide
  · rw [four]
    decide

theorem tcpControl_tcpSegment (bit : Nat) :
    Rfc.tcpControl (tcpSegment srcPort dstPort seq ack flags window cksum mss payload) bit =
      flags.toByte.getLsbD bit := by
  have control : Rfc.byteAt (tcpSegment srcPort dstPort seq ack flags window cksum mss payload)
      13 = flags.toByte := by
    simp only [tcpSegment, tcpHeader, List.append_assoc]
    simp (disch := simp) only [byteAt_skip, byteAt_here, length_toBeBytes, List.length_cons,
      List.length_nil, Nat.reduceSub, Nat.reduceAdd, Nat.sub_self]
  rw [Rfc.tcpControl, control]

theorem toByte_getLsbD :
    flags.toByte.getLsbD 0 = flags.fin ∧ flags.toByte.getLsbD 1 = flags.syn ∧
      flags.toByte.getLsbD 2 = flags.rst ∧ flags.toByte.getLsbD 3 = flags.psh ∧
      flags.toByte.getLsbD 4 = flags.ack := by
  rcases flags with ⟨fin, syn, rst, psh, ack⟩
  revert fin syn rst psh ack
  decide

theorem scanOptions_tcpOptions :
    scanOptions (tcpOptions flags mss) = if flags.syn then mss else none := by
  unfold tcpOptions
  cases flags.syn with
  | false => rfl
  | true =>
      cases mss with
      | none => rfl
      | some mssVal =>
          have size := ofNat_ofBeBytes mssVal (by decide : 2 ^ 16 ≤ 256 ^ 2)
          have first : scanOption ([2] ++ ([4] ++ toBeBytes 2 mssVal)) ⟨0, none⟩ =
              some ⟨4, some mssVal⟩ := by
            simp only [scanOption, List.singleton_append, List.getElem?_cons_zero,
              List.length_cons, length_toBeBytes]
            exact congrArg (fun found => some (OptionScan.mk 4 (some found))) size
          have second : scanOption ([2] ++ ([4] ++ toBeBytes 2 mssVal)) ⟨4, some mssVal⟩ =
              none := rfl
          change (drain (scanOption ([2] ++ ([4] ++ toBeBytes 2 mssVal))) 4 _).mss = _
          rw [drain_of_some first, drain_of_none second]
          rfl

theorem fields_tcpSegment :
    let data := tcpSegment srcPort dstPort seq ack flags window cksum mss payload
    BitVec.ofNat 16 (Rfc.field data 0 2) = srcPort ∧
      BitVec.ofNat 16 (Rfc.field data 2 2) = dstPort ∧
      BitVec.ofNat 32 (Rfc.field data 4 4) = seq ∧
      BitVec.ofNat 32 (Rfc.field data 8 4) = ack ∧
      BitVec.ofNat 16 (Rfc.field data 14 2) = window := by
  simp only [tcpSegment, tcpHeader, List.append_assoc]
  refine ⟨field_here _ (by decide), ?_, ?_, ?_, ?_⟩ <;>
  · simp (disch := simp) only [field_skip, length_toBeBytes, List.length_cons, List.length_nil,
      Nat.reduceSub, Nat.reduceAdd, Nat.sub_self]
    exact field_here _ (by decide)

theorem parseTcp_tcpSegment {wire : Wire} (rfc : wire.FollowsRfc) :
    parseTcp wire (tcpSegment srcPort dstPort seq ack flags window cksum mss payload) =
      .ok (.tcp {
        srcPort := srcPort
        dstPort := dstPort
        seq := seq
        ack := ack
        flags := flags
        window := window
        mss := if flags.syn then mss else none
        payloadLen := payload.length }) := by
  have length := length_tcpSegment srcPort dstPort seq ack flags window cksum mss payload
  have headerLen :=
    tcpHeaderLen_tcpSegment srcPort dstPort seq ack flags window cksum mss payload
  have control := tcpControl_tcpSegment srcPort dstPort seq ack flags window cksum mss payload
  have options : slice (tcpSegment srcPort dstPort seq ack flags window cksum mss payload) 20
      (20 + tcpOptsLen flags mss - 20) = tcpOptions flags mss := by
    rw [tcpSegment, slice_skip (by rw [length_tcpHeader]), length_tcpHeader, Nat.sub_self,
      slice_here (by simp)]
  obtain ⟨checked, headerLen_eq, srcPort_eq, dstPort_eq, seq_eq, ack_eq, fin_eq, syn_eq, rst_eq,
    psh_eq, flagAck_eq, window_eq⟩ := rfc.tcp
      (tcpSegment srcPort dstPort seq ack flags window cksum mss payload)
      ⟨by omega, by omega⟩
  rcases toByte_getLsbD flags with ⟨fin, syn, rst, psh, flagAck⟩
  obtain ⟨srcPort_field, dstPort_field, seq_field, ack_field, window_field⟩ :=
    fields_tcpSegment srcPort dstPort seq ack flags window cksum mss payload
  rw [headerLen] at headerLen_eq
  rw [control] at fin_eq syn_eq rst_eq psh_eq flagAck_eq
  have found : (if 20 < 20 + tcpOptsLen flags mss ∧
      20 + tcpOptsLen flags mss ≤ 20 + tcpOptsLen flags mss + payload.length then
      scanOptions (tcpOptions flags mss) else none) = if flags.syn then mss else none := by
    rw [scanOptions_tcpOptions]
    unfold tcpOptsLen
    cases flags.syn <;> cases mss <;> simp
  unfold parseTcp
  simp only [checked, headerLen_eq, length, options, found]
  rw [srcPort_eq, srcPort_field, dstPort_eq, dstPort_field, seq_eq, seq_field, ack_eq, ack_field,
    window_eq, window_field, fin_eq, fin, syn_eq, syn, rst_eq, rst, psh_eq, psh, flagAck_eq,
    flagAck, Nat.add_sub_cancel_left]

end Tcp

theorem length_udpDatagram (srcPort dstPort cksum : BitVec 16) (payload : List Byte) :
    (udpDatagram srcPort dstPort cksum payload).length = 8 + payload.length := by
  simp only [udpDatagram, List.length_append, length_toBeBytes]
  omega

theorem parseUdp_udpDatagram {wire : Wire} (rfc : wire.FollowsRfc)
    (srcPort dstPort cksum : BitVec 16) {payload : List Byte}
    (short : 8 + payload.length ≤ 65535) :
    parseUdp wire (udpDatagram srcPort dstPort cksum payload) =
      .ok (.udp {
        srcPort := srcPort
        dstPort := dstPort
        payloadLen := payload.length }) := by
  have length := length_udpDatagram srcPort dstPort cksum payload
  have srcPort_field : BitVec.ofNat 16
      (Rfc.field (udpDatagram srcPort dstPort cksum payload) 0 2) = srcPort :=
    field_here _ (by decide)
  have dstPort_field : BitVec.ofNat 16
      (Rfc.field (udpDatagram srcPort dstPort cksum payload) 2 2) = dstPort := by
    rw [udpDatagram, field_skip (by simp)]
    exact field_here _ (by decide)
  have udpLen : Rfc.udpLen (udpDatagram srcPort dstPort cksum payload) = 8 + payload.length := by
    unfold Rfc.udpLen udpDatagram
    simp (disch := simp) only [field_skip, length_toBeBytes, Nat.reduceSub, Nat.sub_self]
    rw [Rfc.field, slice_here (length_toBeBytes _ _), ofBeBytes_toBeBytes, BitVec.toNat_ofNat]
    omega
  obtain ⟨checked, srcPort_eq, dstPort_eq, payload_eq⟩ := rfc.udp
    (udpDatagram srcPort dstPort cksum payload) ⟨by omega, by omega⟩
  unfold parseUdp
  simp only [checked]
  rw [srcPort_eq, srcPort_field, dstPort_eq, dstPort_field, payload_eq, udpLen, slice,
    List.length_take, List.length_drop, length]
  congr 3
  omega

theorem ipv4Header_reads (totalLen ipId : BitVec 16) (proto : Byte) (cksum : BitVec 16)
    (srcIp dstIp : Ipv4Addr) (segment : List Byte) :
    let pkt := ipv4Header totalLen ipId proto cksum srcIp dstIp ++ segment
    Rfc.ipv4HeaderLen pkt = 20 ∧ Rfc.ipv4TotalLen pkt = totalLen.toNat ∧
      Rfc.byteAt pkt 9 = proto ∧ BitVec.ofNat 32 (Rfc.field pkt 12 4) = srcIp ∧
      BitVec.ofNat 32 (Rfc.field pkt 16 4) = dstIp := by
  dsimp only
  rw [ipv4Header_append]
  refine ⟨?_, ?_, ?_, ?_, ?_⟩
  · change 4 * ((0x45 : Byte) &&& 0x0F#8).toNat = 20
    decide
  · rw [Rfc.ipv4TotalLen]
    simp (disch := simp) only [field_skip, List.length_cons, List.length_nil, Nat.reduceSub,
      Nat.reduceAdd, Nat.sub_self]
    rw [Rfc.field, slice_here (length_toBeBytes _ _), ofBeBytes_toBeBytes]
    omega
  · simp (disch := simp) only [byteAt_skip, byteAt_here, length_toBeBytes, List.length_cons,
      List.length_nil, Nat.reduceSub, Nat.reduceAdd, Nat.sub_self]
  · simp (disch := simp) only [field_skip, length_toBeBytes, List.length_cons,
      List.length_nil, Nat.reduceSub, Nat.reduceAdd, Nat.sub_self]
    exact field_here _ (by decide)
  · simp (disch := simp) only [field_skip, length_toBeBytes, List.length_cons,
      List.length_nil, Nat.reduceSub, Nat.reduceAdd, Nat.sub_self]
    exact field_here _ (by decide)

theorem parsePacket_ipv4 {wire : Wire} (rfc : wire.FollowsRfc) (ipId : BitVec 16) (proto : Byte)
    (cksum : BitVec 16) (srcIp dstIp : Ipv4Addr) {segment : List Byte}
    (short : 20 + segment.length ≤ 65535) {transport : TransportInfo}
    (parsed : parseTransport wire (.ofByte proto) segment = .ok transport) :
    parsePacket wire (ipv4Header (BitVec.ofNat 16 (20 + segment.length)) ipId proto cksum srcIp
        dstIp ++ segment) =
      .ok {
        version := .ipv4
        srcAddr := .v4 srcIp
        dstAddr := .v4 dstIp
        protocol := .ofByte proto
        payloadOffset := 20
        payloadLen := segment.length
        transport := transport } := by
  generalize pkt_eq : ipv4Header (BitVec.ofNat 16 (20 + segment.length)) ipId proto cksum srcIp
    dstIp ++ segment = pkt
  have length : pkt.length = 20 + segment.length := by
    rw [← pkt_eq, List.length_append, length_ipv4Header]
  have payload : slice pkt 20 segment.length = segment := by
    rw [← pkt_eq, slice_skip (by rw [length_ipv4Header]), length_ipv4Header, Nat.sub_self, slice,
      List.drop_zero, List.take_length]
  obtain ⟨headerLen, totalLen, protocol, src_field, dst_field⟩ :=
    ipv4Header_reads (BitVec.ofNat 16 (20 + segment.length)) ipId proto cksum srcIp dstIp segment
  rw [pkt_eq] at headerLen totalLen protocol src_field dst_field
  rw [BitVec.toNat_ofNat, Nat.mod_eq_of_lt (by omega)] at totalLen
  obtain ⟨checked, payload_eq, protocol_eq, src_eq, dst_eq⟩ := rfc.ipv4 pkt
    ⟨by omega, by omega, by omega⟩
  rw [headerLen, totalLen, Nat.add_sub_cancel_left, payload] at payload_eq
  rw [protocol] at protocol_eq
  have dispatch : parsePacket wire pkt = parseIpv4 wire pkt := by
    rw [← pkt_eq]
    rfl
  have ihl : (pkt.headD 0 &&& 0x0F#8).toNat * 4 = 20 := by
    rw [← pkt_eq]
    change ((0x45 : Byte) &&& 0x0F#8).toNat * 4 = 20
    decide
  rw [dispatch, parseIpv4]
  simp only [checked, payload_eq, protocol_eq, parsed, ihl, src_eq, src_field, dst_eq, dst_field]
  rfl

theorem ipv6Header_reads (payloadLen : BitVec 16) (proto : Byte) (srcIp dstIp : Ipv6Addr)
    (segment : List Byte) :
    let pkt := ipv6Header payloadLen proto srcIp dstIp ++ segment
    Rfc.ipv6PayloadLen pkt = payloadLen.toNat ∧ Rfc.byteAt pkt 6 = proto ∧
      BitVec.ofNat 128 (Rfc.field pkt 8 16) = srcIp ∧
      BitVec.ofNat 128 (Rfc.field pkt 24 16) = dstIp := by
  dsimp only
  rw [ipv6Header_append]
  refine ⟨?_, ?_, ?_, ?_⟩
  · rw [Rfc.ipv6PayloadLen]
    simp (disch := simp) only [field_skip, List.length_cons, List.length_nil, Nat.reduceSub,
      Nat.reduceAdd, Nat.sub_self]
    rw [Rfc.field, slice_here (length_toBeBytes _ _), ofBeBytes_toBeBytes]
    omega
  · simp (disch := simp) only [byteAt_skip, byteAt_here, length_toBeBytes, List.length_cons,
      List.length_nil, Nat.reduceSub, Nat.reduceAdd, Nat.sub_self]
  · simp (disch := simp) only [field_skip, length_toBeBytes, List.length_cons,
      List.length_nil, Nat.reduceSub, Nat.reduceAdd, Nat.sub_self]
    exact field_here _ (by decide)
  · simp (disch := simp) only [field_skip, length_toBeBytes, List.length_cons,
      List.length_nil, Nat.reduceSub, Nat.reduceAdd, Nat.sub_self]
    exact field_here _ (by decide)

theorem parsePacket_ipv6 {wire : Wire} (rfc : wire.FollowsRfc) (proto : Byte)
    (srcIp dstIp : Ipv6Addr) {segment : List Byte} (short : segment.length ≤ 65535)
    {transport : TransportInfo}
    (parsed : parseTransport wire (.ofByte proto) segment = .ok transport) :
    parsePacket wire (ipv6Header (BitVec.ofNat 16 segment.length) proto srcIp dstIp ++ segment) =
      .ok {
        version := .ipv6
        srcAddr := .v6 srcIp
        dstAddr := .v6 dstIp
        protocol := .ofByte proto
        payloadOffset := 40
        payloadLen := segment.length
        transport := transport } := by
  generalize pkt_eq : ipv6Header (BitVec.ofNat 16 segment.length) proto srcIp dstIp ++ segment =
    pkt
  have length : pkt.length = 40 + segment.length := by
    rw [← pkt_eq, List.length_append, length_ipv6Header]
  have payload : slice pkt 40 segment.length = segment := by
    rw [← pkt_eq, slice_skip (by rw [length_ipv6Header]), length_ipv6Header, Nat.sub_self, slice,
      List.drop_zero, List.take_length]
  obtain ⟨payloadLen, protocol, src_field, dst_field⟩ :=
    ipv6Header_reads (BitVec.ofNat 16 segment.length) proto srcIp dstIp segment
  rw [pkt_eq] at payloadLen protocol src_field dst_field
  rw [BitVec.toNat_ofNat, Nat.mod_eq_of_lt (by omega)] at payloadLen
  obtain ⟨checked, payload_eq, protocol_eq, src_eq, dst_eq⟩ := rfc.ipv6 pkt
    (by unfold Rfc.Ipv6WellFormed; omega)
  rw [payloadLen, payload] at payload_eq
  rw [protocol] at protocol_eq
  have dispatch : parsePacket wire pkt = parseIpv6 wire pkt := by
    rw [← pkt_eq]
    rfl
  rw [dispatch, parseIpv6]
  simp only [checked, payload_eq, protocol_eq, parsed, src_eq, src_field, dst_eq, dst_field]
  rfl

/-- Two addresses of one family. -/
def SameFamily : IpAddr → IpAddr → Prop
  | .v4 _, .v4 _ => True
  | .v6 _, .v6 _ => True
  | _, _ => False

/-- The length of the IP header that the builders write for a family. -/
def ipHeaderLen : IpAddr → Nat
  | .v4 _ => 20
  | .v6 _ => 40

/-- The pseudo-header of either family. -/
def pseudoHeader (proto : Byte) (len : Nat) : IpAddr → IpAddr → List Byte
  | .v4 src, .v4 dst => pseudoHeaderV4 src dst proto len
  | .v6 src, .v6 dst => pseudoHeaderV6 src dst proto len
  | _, _ => []

/-- The IPv4 header sums to all ones; an IPv6 header has no checksum. -/
def IpHeaderVerifies (pkt : List Byte) : IpAddr → Prop
  | .v4 _ => onesSum (pkt.take 20) = 0xFFFF
  | .v6 _ => True

/-- A packet parses back to what it was built from, the bytes at the reported
position are the payload, and its checksums verify. -/
structure RoundTrips (wire : Wire) (src dst : IpAddr) (proto : Byte) (transport : TransportInfo)
    (payload pkt : List Byte) : Prop where
  parses : ∃ parsed, parsePacket wire pkt = .ok parsed ∧
    parsed.srcAddr = src ∧ parsed.dstAddr = dst ∧ parsed.protocol = .ofByte proto ∧
    parsed.transport = transport ∧
    slice pkt (parsed.payloadOffset + (parsed.payloadLen - payload.length)) payload.length =
      payload
  ipChecksum : IpHeaderVerifies pkt src
  transportChecksum :
    let segment := pkt.drop (ipHeaderLen src)
    onesSum (pseudoHeader proto segment.length src dst ++ segment) = 0xFFFF

theorem slice_payload {header front payload segment : List Byte} {start : Nat}
    (starts : header.length = start) (ends : segment = front ++ payload) :
    slice (header ++ segment) (start + (segment.length - payload.length)) payload.length =
      payload := by
  have position : start + (segment.length - payload.length) = (header ++ front).length := by
    simp only [ends, List.length_append]
    omega
  rw [position, ends, ← List.append_assoc, slice, List.drop_left, List.take_length]

section Assembly

variable {wire : Wire} (rfc : wire.FollowsRfc) (proto : Byte) (positive : 0 < proto.toNat)
  {front payload segment zeroed : List Byte} (ends : segment = front ++ payload)
  {transport : TransportInfo}
  (parsed : parseTransport wire (.ofByte proto) segment = .ok transport) {cksum : BitVec 16}
  (same : zeroed.length = segment.length)
  (stored : wordSum segment = wordSum zeroed + cksum.toNat)

include rfc positive ends parsed same stored

theorem roundTrips_ipv4 {ipId : BitVec 16} {srcIp dstIp : Ipv4Addr} {totalLen : Nat}
    (length_eq : 20 + segment.length = totalLen) (short : totalLen ≤ 65535)
    (computed : cksum = transportChecksum (toBeBytes 4 srcIp) (toBeBytes 4 dstIp) proto zeroed ∨
      cksum = if transportChecksum (toBeBytes 4 srcIp) (toBeBytes 4 dstIp) proto zeroed = 0
        then 0xFFFF else transportChecksum (toBeBytes 4 srcIp) (toBeBytes 4 dstIp) proto zeroed) :
    RoundTrips wire (.v4 srcIp) (.v4 dstIp) proto transport payload
      (ipv4Header (BitVec.ofNat 16 totalLen) ipId proto
        (checksum (ipv4Header (BitVec.ofNat 16 totalLen) ipId proto 0 srcIp dstIp)) srcIp dstIp ++
          segment) := by
  subst length_eq
  refine ⟨⟨_, parsePacket_ipv4 rfc ipId proto _ srcIp dstIp short parsed, rfl, rfl, rfl, rfl,
    slice_payload length_ipv4Header ends⟩, ?_, ?_⟩
  · rw [IpHeaderVerifies, List.take_left' length_ipv4Header]
    exact ipv4Header_verifies
  · dsimp only
    rw [ipHeaderLen, List.drop_left' length_ipv4Header]
    refine segment_verifies _ _ zeroed proto (by simp [pseudoHeader, pseudoHeaderV4]) positive
      (by simp) (by simp) (by omega) ?_ stored computed
    rw [same]
    exact wordSum_pseudoHeaderV4 srcIp dstIp proto (by omega)

theorem roundTrips_ipv6 {srcIp dstIp : Ipv6Addr} {payloadLen : Nat}
    (length_eq : segment.length = payloadLen) (short : payloadLen ≤ 65535)
    (computed : cksum = transportChecksum (toBeBytes 16 srcIp) (toBeBytes 16 dstIp) proto zeroed ∨
      cksum = if transportChecksum (toBeBytes 16 srcIp) (toBeBytes 16 dstIp) proto zeroed = 0
        then 0xFFFF else transportChecksum (toBeBytes 16 srcIp) (toBeBytes 16 dstIp) proto zeroed) :
    RoundTrips wire (.v6 srcIp) (.v6 dstIp) proto transport payload
      (ipv6Header (BitVec.ofNat 16 payloadLen) proto srcIp dstIp ++ segment) := by
  subst length_eq
  refine ⟨⟨_, parsePacket_ipv6 rfc proto srcIp dstIp short parsed, rfl, rfl, rfl, rfl,
    slice_payload length_ipv6Header ends⟩, trivial, ?_⟩
  dsimp only
  rw [ipHeaderLen, List.drop_left' length_ipv6Header]
  refine segment_verifies _ _ zeroed proto (by simp [pseudoHeader, pseudoHeaderV6]) positive
    (by simp) (by simp) (by omega) ?_ stored computed
  rw [same]
  exact wordSum_pseudoHeaderV6 srcIp dstIp proto (by omega)

end Assembly

/-- What the parser should report for a segment. -/
def reportedTcp (seg : Segment) : TransportInfo :=
  .tcp {
    srcPort := seg.src.port
    dstPort := seg.dst.port
    seq := seg.seq
    ack := seg.ack
    flags := seg.flags
    window := seg.window
    mss := if seg.flags.syn then seg.mss else none
    payloadLen := seg.payload.length }

theorem tcpSegment_ends (srcPort dstPort : BitVec 16) (seq ack : BitVec 32) (flags : TcpFlags)
    (window cksum : BitVec 16) (mss : Option (BitVec 16)) (payload : List Byte) :
    tcpSegment srcPort dstPort seq ack flags window cksum mss payload =
      (tcpHeader (20 + tcpOptsLen flags mss) srcPort dstPort seq ack flags window cksum ++
        tcpOptions flags mss) ++ payload := by
  rw [tcpSegment, List.append_assoc]

theorem udpDatagram_ends (srcPort dstPort cksum : BitVec 16) (payload : List Byte) :
    udpDatagram srcPort dstPort cksum payload =
      (toBeBytes 2 srcPort ++ (toBeBytes 2 dstPort ++
        (toBeBytes 2 (BitVec.ofNat 16 (8 + payload.length)) ++ toBeBytes 2 cksum))) ++
          payload := by
  simp only [udpDatagram, List.append_assoc]

section Packets

variable {wire : Wire} (rfc : wire.FollowsRfc) (srcPort dstPort : BitVec 16)
  (seq ack : BitVec 32) (flags : TcpFlags) (window : BitVec 16) {payload : List Byte}
  {mss : Option (BitVec 16)}

include rfc

theorem buildIpv4Tcp_roundTrips (srcIp dstIp : Ipv4Addr) (ipId : BitVec 16)
    (short : 20 + (20 + tcpOptsLen flags mss) + payload.length ≤ 65535) :
    RoundTrips wire (.v4 srcIp) (.v4 dstIp) 6
      (reportedTcp ⟨⟨.v4 srcIp, srcPort⟩, ⟨.v4 dstIp, dstPort⟩, seq, ack, flags, window, payload,
        mss⟩) payload
      (buildIpv4Tcp srcIp dstIp srcPort dstPort seq ack flags window payload mss ipId) := by
  rw [buildIpv4Tcp_eq]
  exact roundTrips_ipv4 rfc 6 (by decide) (tcpSegment_ends _ _ _ _ _ _ _ _ _)
    (parseTcp_tcpSegment _ _ _ _ _ _ _ _ _ rfc) (by rw [length_tcpSegment, length_tcpSegment])
    wordSum_tcpSegment
    (by rw [length_tcpSegment]; exact (Nat.add_assoc 20 _ _).symm) short (Or.inl rfl)

theorem buildIpv6Tcp_roundTrips (srcIp dstIp : Ipv6Addr)
    (short : 40 + (20 + tcpOptsLen flags mss) + payload.length ≤ 65535) :
    RoundTrips wire (.v6 srcIp) (.v6 dstIp) 6
      (reportedTcp ⟨⟨.v6 srcIp, srcPort⟩, ⟨.v6 dstIp, dstPort⟩, seq, ack, flags, window, payload,
        mss⟩) payload
      (buildIpv6Tcp srcIp dstIp srcPort dstPort seq ack flags window payload mss) := by
  rw [buildIpv6Tcp_eq]
  exact roundTrips_ipv6 rfc 6 (by decide) (tcpSegment_ends _ _ _ _ _ _ _ _ _)
    (parseTcp_tcpSegment _ _ _ _ _ _ _ _ _ rfc) (by rw [length_tcpSegment, length_tcpSegment])
    wordSum_tcpSegment (length_tcpSegment _ _ _ _ _ _ _ _ _) (by omega) (Or.inl rfl)

theorem buildIpv4Udp_roundTrips (srcIp dstIp : Ipv4Addr)
    (short : 20 + 8 + payload.length ≤ 65535) :
    RoundTrips wire (.v4 srcIp) (.v4 dstIp) 17 (.udp ⟨srcPort, dstPort, payload.length⟩) payload
      (buildIpv4Udp srcIp dstIp srcPort dstPort payload) := by
  rw [buildIpv4Udp_eq]
  exact roundTrips_ipv4 rfc 17 (by decide) (udpDatagram_ends _ _ _ _)
    (parseUdp_udpDatagram rfc _ _ _ (by omega)) (by rw [length_udpDatagram, length_udpDatagram])
    wordSum_udpDatagram (by rw [length_udpDatagram]; omega) short (Or.inr rfl)

theorem buildIpv6Udp_roundTrips (srcIp dstIp : Ipv6Addr)
    (short : 40 + 8 + payload.length ≤ 65535) :
    RoundTrips wire (.v6 srcIp) (.v6 dstIp) 17 (.udp ⟨srcPort, dstPort, payload.length⟩) payload
      (buildIpv6Udp srcIp dstIp srcPort dstPort payload) := by
  rw [buildIpv6Udp_eq]
  exact roundTrips_ipv6 rfc 17 (by decide) (udpDatagram_ends _ _ _ _)
    (parseUdp_udpDatagram rfc _ _ _ (by omega)) (by rw [length_udpDatagram, length_udpDatagram])
    wordSum_udpDatagram (length_udpDatagram _ _ _ _) (by omega) (Or.inr rfl)

end Packets

/-- Every packet that `build_tcp` or `build_udp` builds within the size of an IP
packet parses back to exactly what it was built from, and its checksums
verify. -/
theorem build_parse_round_trip {wire : Wire} (rfc : wire.FollowsRfc) :
    (∀ (seg : Segment) (ipId : BitVec 16), SameFamily seg.src.ip seg.dst.ip →
      ipHeaderLen seg.src.ip + (20 + tcpOptsLen seg.flags seg.mss) + seg.payload.length ≤ 65535 →
      ∃ pkt, buildTcp seg.src.ip seg.dst.ip seg.src.port seg.dst.port seg.seq seg.ack seg.flags
          seg.window seg.payload seg.mss ipId = .ok pkt ∧
        RoundTrips wire seg.src.ip seg.dst.ip 6 (reportedTcp seg) seg.payload pkt) ∧
    (∀ (srcIp dstIp : IpAddr) (srcPort dstPort : BitVec 16) (payload : List Byte),
      SameFamily srcIp dstIp → ipHeaderLen srcIp + 8 + payload.length ≤ 65535 →
      ∃ pkt, buildUdp srcIp dstIp srcPort dstPort payload = .ok pkt ∧
        RoundTrips wire srcIp dstIp 17 (.udp ⟨srcPort, dstPort, payload.length⟩) payload
          pkt) := by
  constructor
  · rintro ⟨⟨srcIp, srcPort⟩, ⟨dstIp, dstPort⟩, seq, ack, flags, window, payload, mss⟩ ipId
      family short
    cases srcIp with
    | v4 srcIp =>
        cases dstIp with
        | v4 dstIp =>
            exact ⟨_, rfl, buildIpv4Tcp_roundTrips rfc srcPort dstPort seq ack flags window srcIp
              dstIp ipId short⟩
        | v6 dstIp => exact family.elim
    | v6 srcIp =>
        cases dstIp with
        | v4 dstIp => exact family.elim
        | v6 dstIp =>
            exact ⟨_, rfl, buildIpv6Tcp_roundTrips rfc srcPort dstPort seq ack flags window srcIp
              dstIp short⟩
  · intro srcIp dstIp srcPort dstPort payload family short
    cases srcIp with
    | v4 srcIp =>
        cases dstIp with
        | v4 dstIp =>
            exact ⟨_, rfl, buildIpv4Udp_roundTrips rfc srcPort dstPort srcIp dstIp short⟩
        | v6 dstIp => exact family.elim
    | v6 srcIp =>
        cases dstIp with
        | v4 dstIp => exact family.elim
        | v6 dstIp =>
            exact ⟨_, rfl, buildIpv6Udp_roundTrips rfc srcPort dstPort srcIp dstIp short⟩

/-- A SYN with a segment size and an odd payload, and a datagram without one. -/
theorem build_parse_round_trip_syn :
    (∃ pkt, buildTcp (.v4 0x0A000001) (.v4 0xC0000201) 40000 443 1000 0 TcpFlags.synOnly 65535
        [0x61, 0x62, 0x63] (some 1460) 7 = .ok pkt ∧
      RoundTrips Wire.rfc (.v4 0x0A000001) (.v4 0xC0000201) 6
        (.tcp ⟨40000, 443, 1000, 0, TcpFlags.synOnly, 65535, some 1460, 3⟩)
        [0x61, 0x62, 0x63] pkt) ∧
    (∃ pkt, buildUdp (.v6 1) (.v6 2) 5353 53 [] = .ok pkt ∧
      RoundTrips Wire.rfc (.v6 1) (.v6 2) 17 (.udp ⟨5353, 53, 0⟩) [] pkt) :=
  have trips := build_parse_round_trip Wire.rfc_followsRfc
  ⟨trips.1 ⟨⟨.v4 0x0A000001, 40000⟩, ⟨.v4 0xC0000201, 443⟩, 1000, 0, TcpFlags.synOnly, 65535,
      [0x61, 0x62, 0x63], some 1460⟩ 7 trivial (by decide),
    trips.2 (.v6 1) (.v6 2) 5353 53 [] trivial (by decide)⟩

end Corduit.Netstack.Packet
