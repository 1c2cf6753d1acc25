import Corduit.Engine.Outbound.Fragments.Receive
import Corduit.Engine.Outbound.Fragments.Sending
import Corduit.Protocol.Address.Core

/-!
# UDP over TUIC

A packet message is a header, the target and the payload.  With native
datagrams a payload that does not fit is cut into fragments that share the
association; with streams each message has a stream of its own.
-/

namespace Corduit.Engine.Outbound.Tuic

open Collection Engine Netstack Protocol Text Word

/-- The version of TUIC. -/
def TUIC_VERSION : Byte :=
  0x05

/-- The command of a packet. -/
def TUIC_CMD_PACKET : Byte :=
  0x02

/-- The mark of an IPv4 address. -/
def TUIC_ADDR_TYPE_IPV4 : Byte :=
  0x01

/-- The mark of a domain. -/
def TUIC_ADDR_TYPE_DOMAIN : Byte :=
  0x03

/-- The mark of an IPv6 address. -/
def TUIC_ADDR_TYPE_IPV6 : Byte :=
  0x04

/-- The most bytes of a datagram. -/
def MAX_TUIC_DATAGRAM : Nat :=
  1080

/-- How packets are carried. -/
inductive UdpRelayMode where
  | native
  | quic
deriving DecidableEq, Repr

/-- The bytes of a target. -/
def encodeAddressBytes : TargetAddr → Except Error (List Byte)
  | .domain domain port =>
      if (asBytes domain).length > 255 then
        .error (.protocol "Domain name too long")
      else
        .ok (TUIC_ADDR_TYPE_DOMAIN :: BitVec.ofNat 8 (asBytes domain).length ::
          (asBytes domain ++ toBeBytes 2 port))
  | .ip ⟨.v4 addr, port⟩ => .ok (TUIC_ADDR_TYPE_IPV4 :: (toBeBytes 4 addr ++ toBeBytes 2 port))
  | .ip ⟨.v6 addr, port⟩ => .ok (TUIC_ADDR_TYPE_IPV6 :: (toBeBytes 16 addr ++ toBeBytes 2 port))

/-- A message: numbers, sizes and payload. -/
def buildUdpMessage (assocId : BitVec 16) (fragTotal fragId : Byte) (addr data : List Byte) :
    Except Error (List Byte) :=
  if data.length > 2 ^ 16 - 1 then
    .error (.protocol ("UDP payload too large for TUIC (" ++ toString data.length ++
      " bytes, u16 length field)"))
  else
    .ok ([TUIC_VERSION, TUIC_CMD_PACKET] ++ toBeBytes 2 assocId ++ [fragTotal, fragId] ++
      toBeBytes 2 (BitVec.ofNat 16 data.length) ++ addr ++ data)

/-- `send_udp_packet`, authenticated and on an open connection: the messages
that it hands over, as datagrams or on streams of their own. -/
def sendUdpPacket (mode : UdpRelayMode) (peerMaxUdpPayload : Nat) (assocId : BitVec 16)
    (target : TargetAddr) (data : List Byte) (fragId fragTotal : Byte) : Sending :=
  match encodeAddressBytes target with
  | .error error => ⟨[], .error error⟩
  | .ok addr =>
      match mode with
      | .native =>
          let maxChunk := MAX_TUIC_DATAGRAM - (8 + addr.length)
          if maxChunk = 0 then
            ⟨[], .error (.protocol "target address too long for a TUIC datagram")⟩
          else if data.length ≤ maxChunk then
            sendMessage peerMaxUdpPayload (buildUdpMessage assocId 1 0 addr data)
          else if divCeil data.length maxChunk > 255 then
            ⟨[], .error (.protocol ("UDP payload too large to fragment (" ++
              toString (divCeil data.length maxChunk) ++ " fragments)"))⟩
          else
            sendFragments peerMaxUdpPayload
              (fun fragId chunk => buildUdpMessage assocId
                (BitVec.ofNat 8 (divCeil data.length maxChunk)) fragId addr chunk)
              (numbered (chunks maxChunk data))
      | .quic =>
          match buildUdpMessage assocId fragTotal fragId addr data with
          | .error error => ⟨[], .error error⟩
          | .ok message => ⟨[message], .ok ()⟩

/-- The target at the front. -/
def parseAddress (data : List Byte) : Except Error (TargetAddr × List Byte) :=
  match data with
  | [] => .error (.protocol "Empty address data")
  | addrType :: remaining =>
      if addrType = TUIC_ADDR_TYPE_IPV4 then
        if remaining.length < 6 then
          .error (.protocol "IPv4 address too short")
        else
          .ok (.ip ⟨.v4 (ofOctets (slice remaining 0 4)), ofOctets (slice remaining 4 2)⟩,
            remaining.drop 6)
      else if addrType = TUIC_ADDR_TYPE_DOMAIN then
        match remaining with
        | [] => .error (.protocol "Domain length missing")
        | len :: rest =>
            if remaining.length < 1 + len.toNat + 2 then
              .error (.protocol "Domain data too short")
            else
              match fromUtf8 (slice rest 0 len.toNat) with
              | none => .error (.protocol "Invalid domain encoding")
              | some domain =>
                  .ok (.domain domain (ofOctets (slice rest len.toNat 2)),
                    rest.drop (2 + len.toNat))
      else if addrType = TUIC_ADDR_TYPE_IPV6 then
        if remaining.length < 18 then
          .error (.protocol "IPv6 address too short")
        else
          .ok (.ip ⟨.v6 (ofOctets (slice remaining 0 16)), ofOctets (slice remaining 16 2)⟩,
            remaining.drop 18)
      else
        .error (.protocol ("Unknown address type: " ++ toString addrType.toNat))

/-- The fragment in a message. -/
def parseUdpPacket (data : List Byte) : Except Error (Fragment (BitVec 16)) := do
  if data.length < 8 then
    .error (.protocol "UDP packet too short")
  else if data.getD 0 0 ≠ TUIC_VERSION then
    .error (.protocol ("Invalid TUIC version: " ++ toString (data.getD 0 0).toNat))
  else if data.getD 1 0 ≠ TUIC_CMD_PACKET then
    .error (.protocol ("Invalid UDP command: " ++ toString (data.getD 1 0).toNat))
  else
    let assocId := ofOctets (slice data 2 2)
    let fragTotal := data.getD 4 0
    let fragId := data.getD 5 0
    let length := ofBeBytes (slice data 6 2)
    let (target, remaining) ← parseAddress (data.drop 8)
    if remaining.length < length then
      .error (.protocol "UDP packet data truncated")
    else
      .ok ⟨assocId, fragTotal, fragId, target, remaining.take length⟩

/-- A packet of up to one fragment is passed on. -/
def receiver : Receiver (BitVec 16) where
  parse := parseUdpPacket
  whole fragTotal := fragTotal ≤ 1

/-!
# Packets over TUIC

Every message that is sent reads back as the fragment it was built from, so a
payload is the fragments of a packet that is kept under its association.
-/

open Transition

theorem ofOctets_toBeBytes {w count : Nat} (value : BitVec w) (wide : 2 ^ w ≤ 256 ^ count) :
    ofOctets (toBeBytes count value) = value :=
  ofNat_ofBeBytes value wide

theorem host_port {w count : Nat} (host : BitVec w) (wide : 2 ^ w ≤ 256 ^ count)
    (port : BitVec 16) (rest : List Byte) :
    ¬ (toBeBytes count host ++ toBeBytes 2 port ++ rest).length < count + 2 ∧
      ofOctets (slice (toBeBytes count host ++ toBeBytes 2 port ++ rest) 0 count) = host ∧
      ofOctets (slice (toBeBytes count host ++ toBeBytes 2 port ++ rest) count 2) = port ∧
      (toBeBytes count host ++ toBeBytes 2 port ++ rest).drop (count + 2) = rest := by
  have hostLength := length_toBeBytes count host
  have portLength := length_toBeBytes 2 port
  refine ⟨?_, ?_, ?_, ?_⟩
  · simp only [List.length_append, hostLength, portLength]
    omega
  · rw [List.append_assoc, slice_here hostLength, ofOctets_toBeBytes host wide]
  · rw [List.append_assoc, slice_skip (Nat.le_of_eq hostLength), hostLength, Nat.sub_self,
      slice_here portLength, ofOctets_toBeBytes port (by decide)]
  · exact List.drop_left' (by rw [List.length_append, hostLength, portLength])

/-- Every target that can be written reads back. -/
theorem parseAddress_encodeAddressBytes {target : TargetAddr} {addr : List Byte}
    (encoded : encodeAddressBytes target = .ok addr) (rest : List Byte) :
    parseAddress (addr ++ rest) = .ok (target, rest) := by
  cases target with
  | domain domain port =>
      rw [encodeAddressBytes] at encoded
      by_cases long : (asBytes domain).length > 255
      · rw [if_pos long] at encoded
        cases encoded
      · rw [if_neg long] at encoded
        have fits : (BitVec.ofNat 8 (asBytes domain).length).toNat = (asBytes domain).length := by
          rw [BitVec.toNat_ofNat, Nat.mod_eq_of_lt (Nat.lt_succ_of_le (Nat.le_of_not_gt long))]
        have text : fromUtf8 (asBytes domain) = some domain := fromUtf8_eq_some_iff.mpr rfl
        have portLength := length_toBeBytes 2 port
        have enough : ¬ (BitVec.ofNat 8 (asBytes domain).length ::
            (asBytes domain ++ toBeBytes 2 port ++ rest)).length <
              1 + (asBytes domain).length + 2 := by
          simp only [List.length_cons, List.length_append, portLength]
          omega
        rw [← Except.ok.inj encoded, List.cons_append, List.cons_append, parseAddress,
          if_neg (by decide), if_pos rfl]
        simp only [fits]
        rw [if_neg enough, List.append_assoc, slice_here rfl, text]
        simp only
        rw [slice_skip (Nat.le_refl _), Nat.sub_self, slice_here portLength,
          ofOctets_toBeBytes port (by decide), ← List.append_assoc,
          List.drop_left' (by rw [List.length_append, portLength, Nat.add_comm])]
  | ip addr' =>
      rcases addr' with ⟨ip, port⟩
      cases ip with
      | v4 ip =>
          rcases @host_port _ 4 ip (by decide) port rest with
            ⟨enough, host_eq, port_eq, rest_eq⟩
          rw [← Except.ok.inj encoded, List.cons_append, parseAddress.eq_def]
          dsimp only
          rw [if_pos rfl, if_neg enough, host_eq, port_eq, rest_eq]
      | v6 ip =>
          rcases @host_port _ 16 ip (by decide) port rest with
            ⟨enough, host_eq, port_eq, rest_eq⟩
          rw [← Except.ok.inj encoded, List.cons_append, parseAddress.eq_def]
          dsimp only
          rw [if_neg (by decide), if_neg (by decide), if_pos rfl, if_neg enough, host_eq, port_eq,
            rest_eq]

/-- Every message reads back as what it was built from. -/
theorem parseUdpPacket_buildUdpMessage {assocId : BitVec 16} {fragTotal fragId : Byte}
    {target : TargetAddr} {addr data message : List Byte}
    (encoded : encodeAddressBytes target = .ok addr)
    (built : buildUdpMessage assocId fragTotal fragId addr data = .ok message) :
    parseUdpPacket message = .ok ⟨assocId, fragTotal, fragId, target, data⟩ := by
  unfold buildUdpMessage at built
  by_cases large : data.length > 2 ^ 16 - 1
  · rw [if_pos large] at built
    cases built
  · rw [if_neg large] at built
    have small : data.length < 2 ^ 16 := by omega
    have assoc := @ofOctets_toBeBytes _ 2 assocId (by decide)
    have length : ofBeBytes (toBeBytes 2 (BitVec.ofNat 16 data.length)) = data.length := by
      rw [ofBeBytes_toBeBytes, BitVec.toNat_ofNat, Nat.mod_eq_of_lt small]
      exact Nat.mod_eq_of_lt small
    obtain ⟨assocHigh, assocLow, assoc_eq⟩ :
        ∃ high low, toBeBytes 2 assocId = [high, low] := ⟨_, _, rfl⟩
    obtain ⟨lengthHigh, lengthLow, length_eq⟩ :
        ∃ high low, toBeBytes 2 (BitVec.ofNat 16 data.length) = [high, low] := ⟨_, _, rfl⟩
    rw [assoc_eq] at assoc
    rw [length_eq] at length
    have message_eq : message = TUIC_VERSION :: TUIC_CMD_PACKET :: assocHigh :: assocLow ::
        fragTotal :: fragId :: lengthHigh :: lengthLow :: (addr ++ data) := by
      rw [← Except.ok.inj built, assoc_eq, length_eq]
      simp
    have enough : ¬ message.length < 8 := by
      rw [message_eq]
      simp
    rw [parseUdpPacket, if_neg enough, message_eq]
    simp only [List.getD_cons_zero, List.getD_cons_succ, ne_eq, not_true_eq_false, if_false,
      List.drop_succ_cons, List.drop_zero, slice, List.take_succ_cons, List.take_zero, assoc, length,
      parseAddress_encodeAddressBytes encoded]
    simp [bind, Except.bind]

/-- The arguments of a call of `send_udp_packet`; callers send whole payloads,
as fragment 0 of 1. -/
structure UdpPacket where
  mode : UdpRelayMode
  assocId : BitVec 16
  target : TargetAddr
  data : List Byte
deriving DecidableEq

namespace UdpPacket

/-- The messages of the packet. -/
def messages (packet : UdpPacket) (peerMaxUdpPayload : Nat) : List (List Byte) :=
  (sendUdpPacket packet.mode peerMaxUdpPayload packet.assocId packet.target packet.data 0
    1).datagrams

/-- The payload is cut into chunks of a size. -/
def Cut (packet : UdpPacket) (maxChunk : Nat) : Prop :=
  packet.mode = .native ∧ 0 < maxChunk ∧ maxChunk < packet.data.length ∧
    divCeil packet.data.length maxChunk ≤ 255

instance (packet : UdpPacket) (maxChunk : Nat) : Decidable (packet.Cut maxChunk) :=
  inferInstanceAs (Decidable (_ ∧ _))

/-- The bytes of a datagram that are left for the payload. -/
def maxChunk (packet : UdpPacket) : Nat :=
  match encodeAddressBytes packet.target with
  | .error _ => 0
  | .ok addr => MAX_TUIC_DATAGRAM - (8 + addr.length)

/-- The pieces of a packet. -/
def fragments (packet : UdpPacket) : List (List Byte) :=
  if packet.Cut packet.maxChunk then chunks packet.maxChunk packet.data else [packet.data]

theorem fragments_nonempty (packet : UdpPacket) : packet.fragments ≠ [] := by
  unfold fragments
  by_cases cut : packet.Cut packet.maxChunk
  · rw [if_pos cut]
    have some : packet.data ≠ [] :=
      List.ne_nil_of_length_pos (Nat.lt_of_le_of_lt (Nat.zero_le _) cut.2.2.1)
    rw [chunks_of_ne_nil cut.2.1 some]
    exact List.cons_ne_nil _ _
  · rw [if_neg cut]
    exact List.cons_ne_nil _ _

theorem fragments_few (packet : UdpPacket) : packet.fragments.length ≤ 255 := by
  unfold fragments
  by_cases cut : packet.Cut packet.maxChunk
  · rw [if_pos cut, length_chunks cut.2.1]
    exact cut.2.2.2
  · rw [if_neg cut]
    exact (by decide : 1 ≤ 255)

theorem flatten_fragments (packet : UdpPacket) : packet.fragments.flatten = packet.data := by
  unfold fragments
  by_cases cut : packet.Cut packet.maxChunk
  · rw [if_pos cut]
    exact flatten_chunks cut.2.1 packet.data
  · rw [if_neg cut]
    exact List.flatten_singleton

/-- The packet as the buffer knows it: kept under the association. -/
def packet (packet : UdpPacket) : Packet (BitVec 16) where
  key := packet.assocId
  target := packet.target
  fragments := packet.fragments
  nonempty := packet.fragments_nonempty
  few := packet.fragments_few

theorem data_packet (packet : UdpPacket) : packet.packet.data = packet.data :=
  packet.flatten_fragments

theorem carries_of_built {packet : UdpPacket} {addr : List Byte} {fragTotal fragId : Byte}
    {chunk message : List Byte} (encoded : encodeAddressBytes packet.target = .ok addr)
    (built : buildUdpMessage packet.assocId fragTotal fragId addr chunk = .ok message)
    (total : fragTotal = packet.packet.total)
    (listed : (fragId, chunk) ∈ numbered packet.fragments) :
    receiver.Carries packet.packet message := by
  intro fragment parsed
  have same := Except.ok.inj (parsed.symm.trans (parseUdpPacket_buildUdpMessage encoded built))
  rw [same]
  exact ⟨rfl, rfl, total, listed⟩

/-- Every message of a packet carries one of its fragments. -/
theorem carries_of_mem {packet : UdpPacket} {peerMaxUdpPayload : Nat} {message : List Byte}
    (member : message ∈ packet.messages peerMaxUdpPayload) :
    receiver.Carries packet.packet message := by
  unfold messages sendUdpPacket at member
  cases encoded : encodeAddressBytes packet.target with
  | error error =>
      simp only [encoded] at member
      cases member
  | ok addr =>
      have chunk_eq : packet.maxChunk = MAX_TUIC_DATAGRAM - (8 + addr.length) := by
        rw [maxChunk, encoded]
      simp only [encoded, ← chunk_eq] at member
      have single : ¬ packet.Cut packet.maxChunk → packet.packet.total = 1 ∧
          (0, packet.data) ∈ numbered packet.fragments := by
        intro notCut
        have alone : packet.fragments = [packet.data] := if_neg notCut
        refine ⟨?_, ?_⟩
        · rw [Packet.total]
          exact congrArg (fun fragments : List (List Byte) => BitVec.ofNat 8 fragments.length) alone
        · rw [alone]
          exact List.mem_singleton_self _
      cases mode : packet.mode with
      | quic =>
          simp only [mode] at member
          rcases single fun cut => UdpRelayMode.noConfusion (mode.symm.trans cut.1) with
            ⟨one, listed⟩
          cases built : buildUdpMessage packet.assocId 1 0 addr packet.data with
          | error error =>
              simp only [built] at member
              cases member
          | ok only =>
              simp only [built] at member
              rw [List.mem_singleton.mp member]
              exact carries_of_built encoded built one.symm listed
      | native =>
          simp only [mode] at member
          by_cases none : packet.maxChunk = 0
          · rw [if_pos none] at member
            cases member
          rw [if_neg none] at member
          by_cases fits : packet.data.length ≤ packet.maxChunk
          · rw [if_pos fits] at member
            rcases single fun cut => absurd cut.2.2.1 (Nat.not_lt.mpr fits) with ⟨one, listed⟩
            exact carries_of_built encoded (mem_sendMessage member).1 one.symm listed
          rw [if_neg fits] at member
          by_cases many : divCeil packet.data.length packet.maxChunk > 255
          · rw [if_pos many] at member
            cases member
          rw [if_neg many] at member
          have cut : packet.Cut packet.maxChunk :=
            ⟨mode, Nat.pos_of_ne_zero none, Nat.lt_of_not_le fits, Nat.le_of_not_gt many⟩
          have pieces : packet.fragments = chunks packet.maxChunk packet.data := if_pos cut
          rcases mem_sendFragments member with ⟨fragment, listed, built, _⟩
          refine carries_of_built encoded built ?_ (by rw [pieces]; exact listed)
          rw [Packet.total, divCeil, ← length_chunks cut.2.1, ← pieces]
          rfl

end UdpPacket

variable {peerMaxUdpPayload : Nat} {sent : List UdpPacket} {deliveries : List (Delivered (BitVec 16))}

/-- The deliveries of some of the messages of the packets, in any order and any
number of times. -/
def Delivers (peerMaxUdpPayload : Nat) (sent : List UdpPacket)
    (deliveries : List (Delivered (BitVec 16))) : Prop :=
  ∀ delivery ∈ deliveries, ∃ packet ∈ sent,
    delivery.packet = packet.packet ∧ delivery.datagram ∈ packet.messages peerMaxUdpPayload

/-- When every fragment that is taken in meets fragments of its own packet, what is
returned is what was sent. -/
theorem returned_was_sent (delivers : Delivers peerMaxUdpPayload sent deliveries)
    (joins : RunMeets (Receiving.deliver receiver) (Receiving.Joins receiver) Receiving.new
      deliveries) :
    ∀ received ∈ (run (Receiving.deliver receiver) Receiving.new deliveries).returned,
      ∃ packet ∈ sent, received = ⟨packet.assocId, packet.target, packet.data⟩ := by
  have whole : ∀ total, receiver.whole total = true → total.toNat ≤ 1 := by
    intro total single
    exact of_decide_eq_true single
  have carried : ∀ delivery ∈ deliveries, delivery.packet ∈ sent.map UdpPacket.packet ∧
      receiver.Carries delivery.packet delivery.datagram := by
    intro delivery member
    rcases delivers delivery member with ⟨packet, isSent, packet_eq, isMessage⟩
    rw [packet_eq]
    exact ⟨List.mem_map_of_mem isSent, UdpPacket.carries_of_mem isMessage⟩
  intro received member
  rcases Receiving.returned_of_joins whole carried joins received member with
    ⟨whole, isSent, rfl⟩
  rcases List.mem_map.mp isSent with ⟨packet, packetSent, rfl⟩
  exact ⟨packet, packetSent, congrArg (Received.mk _ _) packet.data_packet⟩

end Corduit.Engine.Outbound.Tuic
