import Corduit.Netstack.Packet.Core

/-!
# What the builders lay out

The headers as sequences of fields, in the order of the RFCs.  Each builder
writes exactly such a sequence: its offsets hit the fields, no two of its
writes collide, and every checksum is computed over the fields that are in
place at that time.
-/

namespace Corduit.Netstack.Packet

open Word

/-- An IPv4 header without options. -/
def ipv4Header (totalLen ipId : BitVec 16) (proto : Byte) (cksum : BitVec 16)
    (srcIp dstIp : Ipv4Addr) : List Byte :=
  [0x45] ++ ([0x00] ++ (toBeBytes 2 totalLen ++ (toBeBytes 2 ipId ++
    (toBeBytes 2 (0x4000 : BitVec 16) ++ ([64] ++ ([proto] ++ (toBeBytes 2 cksum ++
      (toBeBytes 4 srcIp ++ toBeBytes 4 dstIp))))))))

/-- An IPv6 header; version, traffic class and flow label first. -/
def ipv6Header (payloadLen : BitVec 16) (proto : Byte) (srcIp dstIp : Ipv6Addr) : List Byte :=
  [0x60] ++ ([0, 0, 0] ++ (toBeBytes 2 payloadLen ++ ([proto] ++ ([64] ++
    (toBeBytes 16 srcIp ++ toBeBytes 16 dstIp)))))

/-- The options of a TCP header: a maximum segment size, on a SYN only. -/
def tcpOptions (flags : TcpFlags) (mss : Option (BitVec 16)) : List Byte :=
  if flags.syn then
    match mss with
    | some mssVal => [2] ++ ([4] ++ toBeBytes 2 mssVal)
    | none => []
  else
    []

/-- The fixed part of a TCP header. -/
def tcpHeader (tcpHdrLen : Nat) (srcPort dstPort : BitVec 16) (seq ack : BitVec 32)
    (flags : TcpFlags) (window cksum : BitVec 16) : List Byte :=
  toBeBytes 2 srcPort ++ (toBeBytes 2 dstPort ++ (toBeBytes 4 seq ++ (toBeBytes 4 ack ++
    ([BitVec.ofNat 8 (tcpHdrLen / 4) <<< 4] ++ ([flags.toByte] ++ (toBeBytes 2 window ++
      (toBeBytes 2 cksum ++ [0, 0])))))))

/-- A TCP segment. -/
def tcpSegment (srcPort dstPort : BitVec 16) (seq ack : BitVec 32) (flags : TcpFlags)
    (window cksum : BitVec 16) (mss : Option (BitVec 16)) (payload : List Byte) : List Byte :=
  tcpHeader (20 + tcpOptsLen flags mss) srcPort dstPort seq ack flags window cksum ++
    (tcpOptions flags mss ++ payload)

/-- A UDP datagram. -/
def udpDatagram (srcPort dstPort cksum : BitVec 16) (payload : List Byte) : List Byte :=
  toBeBytes 2 srcPort ++ (toBeBytes 2 dstPort ++
    (toBeBytes 2 (BitVec.ofNat 16 (8 + payload.length)) ++ (toBeBytes 2 cksum ++ payload)))

@[simp]
theorem length_tcpOptions (flags : TcpFlags) (mss : Option (BitVec 16)) :
    (tcpOptions flags mss).length = tcpOptsLen flags mss := by
  unfold tcpOptions tcpOptsLen
  cases flags.syn <;> cases mss <;> simp

theorem zeros_add (first second : Nat) :
    List.replicate (first + second) (0 : Byte) =
      List.replicate first 0 ++ List.replicate second 0 :=
  (List.replicate_append_replicate).symm

section Headers

variable {totalLen payloadLen ipId cksum : BitVec 16} {proto : Byte} {srcIp dstIp : Ipv4Addr}
  {src dst : Ipv6Addr}

theorem length_ipv4Header : (ipv4Header totalLen ipId proto cksum srcIp dstIp).length = 20 := by
  simp [ipv4Header]

theorem length_ipv6Header : (ipv6Header payloadLen proto src dst).length = 40 := by
  simp [ipv6Header]

theorem ipv4Header_append (rest : List Byte) :
    ipv4Header totalLen ipId proto cksum srcIp dstIp ++ rest =
      [0x45] ++ ([0x00] ++ (toBeBytes 2 totalLen ++ (toBeBytes 2 ipId ++
        (toBeBytes 2 (0x4000 : BitVec 16) ++ ([64] ++ ([proto] ++ (toBeBytes 2 cksum ++
          (toBeBytes 4 srcIp ++ (toBeBytes 4 dstIp ++ rest))))))))) := by
  simp only [ipv4Header, List.append_assoc]

theorem ipv6Header_append (rest : List Byte) :
    ipv6Header payloadLen proto src dst ++ rest =
      [0x60] ++ ([0, 0, 0] ++ (toBeBytes 2 payloadLen ++ ([proto] ++ ([64] ++
        (toBeBytes 16 src ++ (toBeBytes 16 dst ++ rest)))))) := by
  simp only [ipv6Header, List.append_assoc]

end Headers

section Writes

variable {srcPort dstPort : BitVec 16} {seq ack : BitVec 32} {flags : TcpFlags}
  {window cksum : BitVec 16} {mss : Option (BitVec 16)} {payload : List Byte} {tcpHdrLen : Nat}

theorem length_tcpHeader :
    (tcpHeader tcpHdrLen srcPort dstPort seq ack flags window cksum).length = 20 := by
  simp [tcpHeader]

variable (front rest : List Byte) {start : Nat}

theorem writePayload_eq (starts : front.length = start) :
    writePayload (front ++ List.replicate payload.length 0) start payload = front ++ payload := by
  subst starts
  cases payload with
  | nil => rfl
  | cons byte rest => simp [writePayload, writeAt]

theorem writeTcpOptions_eq (starts : front.length = start + 20) :
    writeTcpOptions (front ++ (List.replicate (tcpOptsLen flags mss) 0 ++ rest)) start flags mss =
      front ++ (tcpOptions flags mss ++ rest) := by
  unfold writeTcpOptions tcpOptions tcpOptsLen
  cases flags.syn with
  | false => simp
  | true =>
      cases mss with
      | none => simp
      | some mssVal =>
          have zeros : List.replicate 4 (0 : Byte) =
              [0] ++ ([0] ++ List.replicate 2 0) := rfl
          simp only [Bool.true_and, Option.isSome_some, if_true, zeros, List.append_assoc]
          simp (disch := simp [starts]) only [writeAt_skip, writeAt_here, starts,
            Nat.sub_self, Nat.add_sub_add_left, List.length_cons, List.length_nil,
            Nat.reduceSub, Nat.reduceAdd]

theorem writeTcpHeader_eq (starts : front.length = start) :
    writeTcpHeader (front ++ (List.replicate 20 0 ++ rest)) start tcpHdrLen srcPort dstPort seq
        ack flags window =
      front ++ (tcpHeader tcpHdrLen srcPort dstPort seq ack flags window 0 ++ rest) := by
  subst starts
  have zeros : List.replicate 20 (0 : Byte) =
      List.replicate 2 0 ++ (List.replicate 2 0 ++ (List.replicate 4 0 ++ (List.replicate 4 0 ++
        ([0] ++ ([0] ++ (List.replicate 2 0 ++ (List.replicate 2 0 ++ [0, 0]))))))) := rfl
  rw [zeros]
  unfold writeTcpHeader tcpHeader
  simp only [List.append_assoc]
  simp (disch := simp) only [writeAt_skip, writeAt_here, Nat.add_sub_cancel_left, Nat.sub_self,
    length_toBeBytes, List.length_cons, List.length_nil, Nat.reduceSub, Nat.reduceAdd]
  rfl

theorem writeTcpSegment_eq (starts : front.length = start) :
    writePayload (writeTcpOptions (writeTcpHeader (front ++ (List.replicate 20 0 ++
        (List.replicate (tcpOptsLen flags mss) 0 ++ List.replicate payload.length 0))) start
        (20 + tcpOptsLen flags mss) srcPort dstPort seq ack flags window) start flags mss)
        (start + (20 + tcpOptsLen flags mss)) payload =
      front ++ tcpSegment srcPort dstPort seq ack flags window 0 mss payload := by
  rw [writeTcpHeader_eq _ _ starts, ← List.append_assoc, writeTcpOptions_eq]
  · rw [← List.append_assoc, writePayload_eq]
    · simp only [tcpSegment, List.append_assoc]
    · simp only [List.length_append, starts, length_tcpHeader, length_tcpOptions]
      omega
  · simp only [List.length_append, starts, length_tcpHeader]

theorem storeIpv4Checksum_eq (totalLen ipId : BitVec 16) (proto : Byte)
    (srcIp dstIp : Ipv4Addr) :
    storeIpv4Checksum (ipv4Header totalLen ipId proto 0 srcIp dstIp ++ rest) =
      ipv4Header totalLen ipId proto (checksum (ipv4Header totalLen ipId proto 0 srcIp dstIp))
        srcIp dstIp ++ rest := by
  unfold storeIpv4Checksum
  rw [List.take_left' length_ipv4Header]
  generalize checksum (ipv4Header totalLen ipId proto 0 srcIp dstIp) = cksum
  unfold ipv4Header
  simp only [List.append_assoc]
  simp (disch := simp) only [writeAt_skip, writeAt_here, length_toBeBytes, List.length_cons,
    List.length_nil, Nat.reduceSub, Nat.reduceAdd]

theorem storeTcpChecksum_eq (starts : front.length = start) :
    writeAt (front ++ tcpSegment srcPort dstPort seq ack flags window 0 mss payload)
        (start + 16) (toBeBytes 2 cksum) =
      front ++ tcpSegment srcPort dstPort seq ack flags window cksum mss payload := by
  subst starts
  unfold tcpSegment tcpHeader
  simp only [List.append_assoc]
  simp (disch := simp) only [writeAt_skip, writeAt_here, Nat.add_sub_cancel_left,
    length_toBeBytes, List.length_cons, List.length_nil, Nat.reduceSub, Nat.reduceAdd]

theorem writeUdpPayload_eq (starts : front.length + 8 = start) :
    writePayload (front ++ (toBeBytes 2 srcPort ++ (toBeBytes 2 dstPort ++
        (toBeBytes 2 (BitVec.ofNat 16 (8 + payload.length)) ++ (toBeBytes 2 (0 : BitVec 16) ++
          List.replicate payload.length 0))))) start payload =
      front ++ udpDatagram srcPort dstPort 0 payload := by
  have regroup : ∀ rest, front ++ (toBeBytes 2 srcPort ++ (toBeBytes 2 dstPort ++
      (toBeBytes 2 (BitVec.ofNat 16 (8 + payload.length)) ++
        (toBeBytes 2 (0 : BitVec 16) ++ rest)))) =
      (front ++ (toBeBytes 2 srcPort ++ (toBeBytes 2 dstPort ++
        (toBeBytes 2 (BitVec.ofNat 16 (8 + payload.length)) ++
          toBeBytes 2 (0 : BitVec 16))))) ++ rest := by
    intro rest
    simp only [List.append_assoc]
  unfold udpDatagram
  rw [regroup, writePayload_eq, ← regroup]
  simpa using starts

theorem storeUdpChecksum_eq (starts : front.length = start) :
    writeAt (front ++ udpDatagram srcPort dstPort 0 payload) (start + 6) (toBeBytes 2 cksum) =
      front ++ udpDatagram srcPort dstPort cksum payload := by
  subst starts
  unfold udpDatagram
  simp (disch := simp) only [writeAt_skip, writeAt_here, Nat.add_sub_cancel_left,
    length_toBeBytes, Nat.reduceSub]

end Writes

theorem buildIpv4Tcp_eq (srcIp dstIp : Ipv4Addr) (srcPort dstPort : BitVec 16)
    (seq ack : BitVec 32) (flags : TcpFlags) (window : BitVec 16) (payload : List Byte)
    (mss : Option (BitVec 16)) (ipId : BitVec 16) :
    let totalLen := BitVec.ofNat 16 (20 + (20 + tcpOptsLen flags mss) + payload.length)
    let ipCksum := checksum (ipv4Header totalLen ipId 6 0 srcIp dstIp)
    let tcpCksum := tcpChecksum (toBeBytes 4 srcIp) (toBeBytes 4 dstIp)
      (tcpSegment srcPort dstPort seq ack flags window 0 mss payload)
    buildIpv4Tcp srcIp dstIp srcPort dstPort seq ack flags window payload mss ipId =
      ipv4Header totalLen ipId 6 ipCksum srcIp dstIp ++
        tcpSegment srcPort dstPort seq ack flags window tcpCksum mss payload := by
  have zeros : List.replicate (20 + (20 + tcpOptsLen flags mss) + payload.length) (0 : Byte) =
      [0] ++ ([0] ++ (List.replicate 2 0 ++ (List.replicate 2 0 ++ (List.replicate 2 0 ++
        ([0] ++ ([0] ++ (toBeBytes 2 (0 : BitVec 16) ++ (List.replicate 4 0 ++
          (List.replicate 4 0 ++ (List.replicate 20 0 ++
            (List.replicate (tcpOptsLen flags mss) 0 ++
              List.replicate payload.length 0))))))))))) := by
    rw [Nat.add_assoc 20, zeros_add, Nat.add_assoc 20, zeros_add 20, zeros_add]
    rfl
  unfold buildIpv4Tcp
  dsimp only
  rw [zeros]
  simp (disch := simp) only [writeAt_skip, writeAt_here, length_toBeBytes, List.length_cons,
    List.length_nil, Nat.reduceSub, Nat.reduceAdd, Nat.sub_self]
  rw [← ipv4Header_append, storeIpv4Checksum_eq, writeTcpSegment_eq _ length_ipv4Header,
    List.drop_left' length_ipv4Header]
  exact storeTcpChecksum_eq _ length_ipv4Header

theorem buildIpv6Tcp_eq (srcIp dstIp : Ipv6Addr) (srcPort dstPort : BitVec 16)
    (seq ack : BitVec 32) (flags : TcpFlags) (window : BitVec 16) (payload : List Byte)
    (mss : Option (BitVec 16)) :
    let payloadLen := BitVec.ofNat 16 (20 + tcpOptsLen flags mss + payload.length)
    let tcpCksum := transportChecksum (toBeBytes 16 srcIp) (toBeBytes 16 dstIp) 6
      (tcpSegment srcPort dstPort seq ack flags window 0 mss payload)
    buildIpv6Tcp srcIp dstIp srcPort dstPort seq ack flags window payload mss =
      ipv6Header payloadLen 6 srcIp dstIp ++
        tcpSegment srcPort dstPort seq ack flags window tcpCksum mss payload := by
  have zeros : List.replicate (40 + (20 + tcpOptsLen flags mss) + payload.length) (0 : Byte) =
      [0] ++ ([0, 0, 0] ++ (List.replicate 2 0 ++ ([0] ++ ([0] ++ (List.replicate 16 0 ++
        (List.replicate 16 0 ++ (List.replicate 20 0 ++
          (List.replicate (tcpOptsLen flags mss) 0 ++
            List.replicate payload.length 0)))))))) := by
    rw [Nat.add_assoc 40, zeros_add, Nat.add_assoc 20, zeros_add 20, zeros_add]
    rfl
  unfold buildIpv6Tcp
  dsimp only
  rw [zeros]
  simp (disch := simp) only [writeAt_skip, writeAt_here, length_toBeBytes, List.length_cons,
    List.length_nil, Nat.reduceSub, Nat.reduceAdd, Nat.sub_self]
  rw [← ipv6Header_append, writeTcpSegment_eq _ length_ipv6Header,
    List.drop_left' length_ipv6Header]
  exact storeTcpChecksum_eq _ length_ipv6Header

theorem buildIpv6Udp_eq (srcIp dstIp : Ipv6Addr) (srcPort dstPort : BitVec 16)
    (payload : List Byte) :
    let payloadLen := BitVec.ofNat 16 (8 + payload.length)
    let cksum := transportChecksum (toBeBytes 16 srcIp) (toBeBytes 16 dstIp) 17
      (udpDatagram srcPort dstPort 0 payload)
    buildIpv6Udp srcIp dstIp srcPort dstPort payload =
      ipv6Header payloadLen 17 srcIp dstIp ++
        udpDatagram srcPort dstPort (if cksum = 0 then 0xFFFF else cksum) payload := by
  have zeros : List.replicate (40 + 8 + payload.length) (0 : Byte) =
      [0] ++ ([0, 0, 0] ++ (List.replicate 2 0 ++ ([0] ++ ([0] ++ (List.replicate 16 0 ++
        (List.replicate 16 0 ++ (List.replicate 2 0 ++ (List.replicate 2 0 ++
          (List.replicate 2 0 ++ (toBeBytes 2 (0 : BitVec 16) ++
            List.replicate payload.length 0)))))))))) := by
    rw [zeros_add]
    rfl
  unfold buildIpv6Udp
  dsimp only
  rw [zeros]
  simp (disch := simp) only [writeAt_skip, writeAt_here, length_toBeBytes, List.length_cons,
    List.length_nil, Nat.reduceSub, Nat.reduceAdd, Nat.sub_self]
  rw [← ipv6Header_append, writeUdpPayload_eq _ (by rw [length_ipv6Header]),
    List.drop_left' length_ipv6Header]
  exact storeUdpChecksum_eq _ length_ipv6Header

theorem buildIpv4Udp_eq (srcIp dstIp : Ipv4Addr) (srcPort dstPort : BitVec 16)
    (payload : List Byte) :
    let totalLen := BitVec.ofNat 16 (20 + 8 + payload.length)
    let ipCksum := checksum (ipv4Header totalLen 0 17 0 srcIp dstIp)
    let udpCksum := udpChecksum (toBeBytes 4 srcIp) (toBeBytes 4 dstIp)
      (udpDatagram srcPort dstPort 0 payload)
    buildIpv4Udp srcIp dstIp srcPort dstPort payload =
      ipv4Header totalLen 0 17 ipCksum srcIp dstIp ++
        udpDatagram srcPort dstPort udpCksum payload := by
  have zeros : List.replicate (20 + 8 + payload.length) (0 : Byte) =
      [0] ++ ([0] ++ (List.replicate 2 0 ++ (toBeBytes 2 (0 : BitVec 16) ++ (List.replicate 2 0 ++
        ([0] ++ ([0] ++ (toBeBytes 2 (0 : BitVec 16) ++ (List.replicate 4 0 ++
          (List.replicate 4 0 ++ (List.replicate 2 0 ++ (List.replicate 2 0 ++
            (List.replicate 2 0 ++ (toBeBytes 2 (0 : BitVec 16) ++
              List.replicate payload.length 0))))))))))))) := by
    rw [zeros_add]
    rfl
  unfold buildIpv4Udp
  dsimp only
  rw [zeros]
  simp (disch := simp) only [writeAt_skip, writeAt_here, length_toBeBytes, List.length_cons,
    List.length_nil, Nat.reduceSub, Nat.reduceAdd, Nat.sub_self]
  rw [← ipv4Header_append, storeIpv4Checksum_eq]
  simp (disch := simp [length_ipv4Header]) only [writeAt_skip, writeAt_here, length_ipv4Header,
    length_toBeBytes, Nat.reduceSub, Nat.sub_self]
  rw [writeUdpPayload_eq _ (by rw [length_ipv4Header]), List.drop_left' length_ipv4Header]
  exact storeUdpChecksum_eq _ length_ipv4Header

/-!
# The stored checksums verify

A receiver sums the pseudo-header and the segment, stored checksum included,
with end-around carry and expects all ones.  The builders' 32-bit register
never overflows for a segment that fits in an IP packet, so what they store is
the complement of the sum without the field.
-/

/-- The pseudo-header of RFC 793 and RFC 768. -/
def pseudoHeaderV4 (srcIp dstIp : Ipv4Addr) (proto : Byte) (len : Nat) : List Byte :=
  toBeBytes 4 srcIp ++ (toBeBytes 4 dstIp ++ ([0, proto] ++ toBeBytes 2 (BitVec.ofNat 16 len)))

/-- The pseudo-header of RFC 8200. -/
def pseudoHeaderV6 (srcIp dstIp : Ipv6Addr) (proto : Byte) (len : Nat) : List Byte :=
  toBeBytes 16 srcIp ++ (toBeBytes 16 dstIp ++
    (toBeBytes 4 (BitVec.ofNat 32 len) ++ [0, 0, 0, proto]))

theorem toNat_sumWordsFrom (sum : BitVec 32) (data : List Byte) :
    (sumWordsFrom sum data).toNat = (sum.toNat + wordSum data) % 2 ^ 32 := by
  have shifted : ∀ high : Byte, (high.setWidth 32 <<< 8).toNat = 256 * high.toNat := by
    intro high
    have bound := high.isLt
    rw [BitVec.toNat_shiftLeft, BitVec.toNat_setWidth, Nat.shiftLeft_eq,
      Nat.mod_eq_of_lt (a := high.toNat) (by omega)]
    omega
  fun_induction sumWordsFrom sum data with
  | case1 sum =>
      have bound := sum.isLt
      simp only [wordSum_nil, Nat.add_zero]
      omega
  | case2 sum high =>
      rw [BitVec.toNat_add, shifted]
      simp [wordSum, words]
  | case3 sum high low rest ih =>
      have joined : ((high.setWidth 32 <<< 8) ||| low.setWidth 32).toNat =
          256 * high.toNat + low.toNat := by
        have bound := low.isLt
        rw [BitVec.toNat_or, shifted, BitVec.toNat_setWidth,
          Nat.mod_eq_of_lt (a := low.toNat) (by omega)]
        exact (Nat.two_pow_add_eq_or_of_lt (i := 8) bound high.toNat).symm
      rw [ih, BitVec.toNat_add, joined, wordSum_cons_cons]
      omega

theorem toNat_sumWords (data : List Byte) : (sumWords data).toNat = wordSum data % 2 ^ 32 := by
  simp [sumWords, toNat_sumWordsFrom]

/-- The field that a builder stores for a register. -/
def complement (sum : BitVec 32) : BitVec 16 :=
  (~~~(foldCarries sum)).setWidth 16

theorem toNat_complement (sum : BitVec 32) :
    (complement sum).toNat = 0xFFFF - (foldCarries sum).toNat := by
  have bounded := (represents_foldCarries sum).bounded
  rw [complement, BitVec.toNat_setWidth, BitVec.toNat_not]
  omega

/-- The field completes the sum to a multiple of `0xFFFF`, and so does its
substitute when it is zero. -/
theorem complement_completes {sum : BitVec 32} {plain : Nat} (register : sum.toNat = plain) :
    (plain + (complement sum).toNat) % 0xFFFF = 0 ∧
      (plain + (if complement sum = 0 then 0xFFFF else complement sum).toNat) % 0xFFFF =
        0 := by
  have folded := represents_foldCarries sum
  have bounded := folded.bounded
  have congruent := folded.congruent
  have value := toNat_complement sum
  rw [register] at congruent
  have completes : (plain + (complement sum).toNat) % 0xFFFF = 0 := by omega
  refine ⟨completes, ?_⟩
  split
  · rename_i zero
    rw [zero] at completes
    change (plain + 65535) % 0xFFFF = 0
    simpa using completes
  · exact completes

theorem transportChecksum_eq {src dst data : List Byte} (proto : Byte)
    (srcShort : src.length ≤ 16) (dstShort : dst.length ≤ 16) (short : data.length ≤ 65535) :
    ∃ sum, transportChecksum src dst proto data = complement sum ∧
      sum.toNat = wordSum src + wordSum dst + proto.toNat + data.length + wordSum data := by
  refine ⟨_, rfl, ?_⟩
  have srcBound := wordSum_le src
  have dstBound := wordSum_le dst
  have dataBound := wordSum_le data
  have protoBound := proto.isLt
  simp only [BitVec.toNat_add, toNat_sumWords, BitVec.toNat_setWidth, BitVec.toNat_ofNat]
  omega

section Sums

variable {srcPort dstPort totalLen ipId cksum window : BitVec 16} {seq ack : BitVec 32}
  {flags : TcpFlags} {mss : Option (BitVec 16)} {payload : List Byte} {proto : Byte}
  {srcIp dstIp : Ipv4Addr}

theorem wordSum_tcpSegment :
    wordSum (tcpSegment srcPort dstPort seq ack flags window cksum mss payload) =
      wordSum (tcpSegment srcPort dstPort seq ack flags window 0 mss payload) + cksum.toNat := by
  simp (disch := simp) only [tcpSegment, tcpHeader, List.append_assoc, List.singleton_append,
    wordSum_append, wordSum_cons_cons, wordSum_toBeBytes, BitVec.ofNat_eq_ofNat,
    BitVec.toNat_ofNat, Nat.zero_mod]
  omega

theorem wordSum_udpDatagram :
    wordSum (udpDatagram srcPort dstPort cksum payload) =
      wordSum (udpDatagram srcPort dstPort 0 payload) + cksum.toNat := by
  simp (disch := simp) only [udpDatagram, wordSum_append, wordSum_toBeBytes, BitVec.ofNat_eq_ofNat,
    BitVec.toNat_ofNat, Nat.zero_mod]
  omega

theorem wordSum_ipv4Header :
    wordSum (ipv4Header totalLen ipId proto cksum srcIp dstIp) =
      wordSum (ipv4Header totalLen ipId proto 0 srcIp dstIp) + cksum.toNat := by
  simp (disch := simp) only [ipv4Header, List.singleton_append, wordSum_append,
    wordSum_cons_cons, wordSum_toBeBytes, BitVec.ofNat_eq_ofNat,
    BitVec.toNat_ofNat, Nat.zero_mod]
  omega

theorem ipv4Header_verifies :
    onesSum (ipv4Header totalLen ipId proto
      (checksum (ipv4Header totalLen ipId proto 0 srcIp dstIp)) srcIp dstIp) = 0xFFFF := by
  generalize header : ipv4Header totalLen ipId proto 0 srcIp dstIp = zeroed
  have bound := wordSum_le zeroed
  rw [← header, length_ipv4Header, header] at bound
  have register : (sumWords zeroed).toNat = wordSum zeroed := by
    rw [toNat_sumWords]
    omega
  have version : 0 < wordSum zeroed := by
    rw [← header]
    simp only [ipv4Header, List.singleton_append, wordSum_cons_cons]
    simp
  have sum := @wordSum_ipv4Header totalLen ipId (checksum zeroed) proto srcIp dstIp
  rw [header] at sum
  apply onesSum_eq_allOnes (by omega)
  rw [sum]
  exact (complement_completes register).1

end Sums

theorem wordSum_pseudoHeaderV4 (srcIp dstIp : Ipv4Addr) (proto : Byte) {len : Nat}
    (short : len ≤ 65535) :
    wordSum (pseudoHeaderV4 srcIp dstIp proto len) =
      wordSum (toBeBytes 4 srcIp) + wordSum (toBeBytes 4 dstIp) + proto.toNat + len := by
  simp (disch := simp) only [pseudoHeaderV4, wordSum_append, wordSum_cons_cons, wordSum_nil,
    wordSum_toBeBytes, BitVec.ofNat_eq_ofNat,
    BitVec.toNat_ofNat, Nat.zero_mod]
  omega

theorem wordSum_pseudoHeaderV6 (srcIp dstIp : Ipv6Addr) (proto : Byte) {len : Nat}
    (short : len ≤ 65535) :
    wordSum (pseudoHeaderV6 srcIp dstIp proto len) =
      wordSum (toBeBytes 16 srcIp) + wordSum (toBeBytes 16 dstIp) + proto.toNat + len := by
  have lenSum : wordSum (toBeBytes 4 (BitVec.ofNat 32 len)) = len := by
    simp only [toBeBytes, wordSum_cons_cons, wordSum_nil, BitVec.toNat_setWidth,
      BitVec.toNat_ushiftRight, BitVec.toNat_ofNat, Nat.shiftRight_eq_div_pow]
    omega
  simp (disch := simp) only [pseudoHeaderV6, wordSum_append, wordSum_cons_cons, wordSum_nil,
    lenSum, BitVec.ofNat_eq_ofNat,
    BitVec.toNat_ofNat, Nat.zero_mod]
  omega

/-- A pseudo-header and a segment whose checksum field was zero when the
transport checksum, or its substitute for zero, was computed. -/
theorem segment_verifies (src dst data : List Byte) (proto : Byte)
    {pseudo stored : List Byte} {cksum : BitVec 16} (even : pseudo.length % 2 = 0)
    (positive : 0 < proto.toNat)
    (srcShort : src.length ≤ 16) (dstShort : dst.length ≤ 16) (short : data.length ≤ 65535)
    (pseudoSum : wordSum pseudo = wordSum src + wordSum dst + proto.toNat + data.length)
    (storedSum : wordSum stored = wordSum data + cksum.toNat)
    (computed : cksum = transportChecksum src dst proto data ∨
      cksum = if transportChecksum src dst proto data = 0 then 0xFFFF
        else transportChecksum src dst proto data) :
    onesSum (pseudo ++ stored) = 0xFFFF := by
  rcases transportChecksum_eq proto srcShort dstShort short with ⟨sum, sum_eq, register⟩
  rw [sum_eq] at computed
  rcases complement_completes register with ⟨completes, substitute⟩
  have total := wordSum_append even stored
  rw [pseudoSum, storedSum] at total
  apply onesSum_eq_allOnes (by omega)
  rcases computed with rfl | rfl
  · omega
  · omega

end Corduit.Netstack.Packet
