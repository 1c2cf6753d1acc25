import Corduit.Engine.Outbound.Fragments.Receive
import Corduit.Engine.Outbound.Fragments.Sending
import Corduit.Protocol.Address.Core

/-!
# UDP over Hysteria 2

A message is a header, the target as text behind its length, and the payload.
The fragments of a payload share the session and a packet number.

How IP addresses are written and read is a parameter, which `IpText.std` fills as
the standard library does.
-/

namespace Corduit.Engine.Outbound.Hysteria2

open Collection Engine Netstack Protocol Text Word

/-- The most bytes of a datagram. -/
def MAX_DATAGRAM_PAYLOAD : Nat :=
  1100

/-- `Display` and `FromStr` of the address types. -/
structure IpText where
  ipv4Text : Ipv4Addr → String
  ipv6Text : Ipv6Addr → String
  parseIpv4 : String → Option Ipv4Addr
  parseIpv6 : String → Option Ipv6Addr

namespace IpText

/-- The text of an address. -/
def fmtIpv4 (addr : Ipv4Addr) : String :=
  ".".intercalate ((toBeBytes 4 addr).map fun octet => toString octet.toNat)

/-- `fmt_subslice`. -/
def fmtSubslice (segments : List Nat) : String :=
  ":".intercalate (segments.map fun segment => String.ofList (Nat.toDigits 16 segment))

/-- The longest run of zeros, the first one of several: its start and its length. -/
def longestZeros (segments : List Nat) : Nat × Nat :=
  (List.range 8).foldl (fun longest start =>
    let len := ((segments.drop start).takeWhile (· = 0)).length
    if len > longest.2 then (start, len) else longest) (0, 0)

/-- The text of an address, with `::` for the longest run of zeros. -/
def fmtIpv6 (addr : Ipv6Addr) : String :=
  let segments := (List.range 8).map fun index => (addr >>> (16 * (7 - index))).toNat % 2 ^ 16
  let (start, len) := longestZeros segments
  if addr >>> 32 = 0xffff then
    "::ffff:" ++ fmtIpv4 (addr.setWidth 32)
  else if len > 1 then
    fmtSubslice (segments.take start) ++ "::" ++ fmtSubslice (segments.drop (start + len))
  else
    fmtSubslice segments

/-- Take a given character. -/
def readGivenChar (char : Char) : List Char → Option (List Char)
  | [] => none
  | first :: rest => if first = char then some rest else none

/-- `read_separator`: the separator stands before all but the first. -/
def readSeparator (separator : Char) (index : Nat) (text : List Char) : Option (List Char) :=
  if index = 0 then some text else readGivenChar separator text

/-- `read_number`: the number below the bound and what follows it. -/
def readNumber (radix maxDigits bound : Nat) (allowZeroPrefix : Bool) (text : List Char) :
    Option (Nat × List Char) := do
  let digits := text.takeWhile fun char => (toDigit radix char).isSome
  let number ← numeral radix digits
  if digits.length > maxDigits ∨ number ≥ bound ∨
      allowZeroPrefix = false ∧ digits.head? = some '0' ∧ digits.length > 1 then
    none
  else
    some (number, text.drop digits.length)

/-- `read_ipv4_addr`. -/
def readIpv4 (text : List Char) : Option (Nat × List Char) :=
  (List.range 4).foldlM (fun (addr, rest) index => do
    let (octet, rest) ← readNumber 10 3 256 false (← readSeparator '.' index rest)
    return (256 * addr + octet, rest)) (0, text)

/-- `read_groups`: the groups, whether the last two were an IPv4 address, and what
follows them. -/
def readGroups : (limit : Nat) → List Nat → List Char → List Nat × Bool × List Char
  | 0, groups, text => (groups, false, text)
  | left + 1, groups, text =>
      let start := readSeparator ':' groups.length text
      match if left > 0 then start.bind readIpv4 else none with
      | some (addr, rest) => (groups ++ [addr / 2 ^ 16, addr % 2 ^ 16], true, rest)
      | none =>
          match start.bind (readNumber 16 4 (2 ^ 16) true) with
          | some (group, rest) => readGroups left (groups ++ [group]) rest
          | none => (groups, false, text)

/-- `read_ipv6_addr`. -/
def readIpv6 (text : List Char) : Option (Nat × List Char) := do
  let (head, endsInIpv4, rest) := readGroups 8 [] text
  let value := fun groups : List Nat => groups.foldl (fun addr group => 2 ^ 16 * addr + group) 0
  if head.length = 8 then
    return (value head, rest)
  else if endsInIpv4 then
    none
  else
    let rest ← readGivenChar ':' (← readGivenChar ':' rest)
    let (tail, _, rest) := readGroups (7 - head.length) [] rest
    return (value (head ++ List.replicate (8 - head.length - tail.length) 0 ++ tail), rest)

/-- `parse_with`: nothing may be left over. -/
def parseWith (read : List Char → Option (Nat × List Char)) (text : String) : Option Nat :=
  match read text.toList with
  | some (addr, []) => some addr
  | _ => none

/-- The address types of the standard library. -/
def std : IpText where
  ipv4Text := fmtIpv4
  ipv6Text := fmtIpv6
  parseIpv4 text := (parseWith readIpv4 text).map (BitVec.ofNat 32)
  parseIpv6 text := (parseWith readIpv6 text).map (BitVec.ofNat 128)

end IpText

/-- `write_varint`: what is appended. -/
def writeVarint (value : Nat) : List Byte :=
  if value ≤ 63 then
    [BitVec.ofNat 8 value]
  else if value ≤ 16383 then
    [0x40 ||| BitVec.ofNat 8 (value >>> 8), BitVec.ofNat 8 (value &&& 0xff)]
  else if value ≤ 1073741823 then
    [0x80 ||| BitVec.ofNat 8 (value >>> 24), BitVec.ofNat 8 ((value >>> 16) &&& 0xff),
      BitVec.ofNat 8 ((value >>> 8) &&& 0xff), BitVec.ofNat 8 (value &&& 0xff)]
  else
    (0xc0 ||| BitVec.ofNat 8 (value >>> 56)) ::
      (List.range 7).reverse.map fun i => BitVec.ofNat 8 ((value >>> (i * 8)) &&& 0xff)

/-- The bytes of an encoding. -/
def varintLen (value : Nat) : Nat :=
  if value ≤ 63 then 1
  else if value ≤ 16383 then 2
  else if value ≤ 1073741823 then 4
  else 8

/-- A variable-length integer and the bytes it takes. -/
def readVarintSlice (data : List Byte) : Except Error (Nat × List Byte) :=
  match data with
  | [] => .error (.protocol "Empty varint")
  | first :: _ =>
      let len := 1 <<< (first >>> 6).toNat
      if data.length < len then
        .error (.protocol "Truncated varint")
      else
        .ok ((slice data 1 (len - 1)).foldl (fun value byte => 256 * value + byte.toNat)
          (first &&& 0x3f).toNat, data.drop len)

/-- The target as a text. -/
def encodeAddress (text : IpText) : TargetAddr → String
  | .domain domain port => domain ++ ":" ++ toString port.toNat
  | .ip ⟨.v4 addr, port⟩ => text.ipv4Text addr ++ ":" ++ toString port.toNat
  | .ip ⟨.v6 addr, port⟩ => "[" ++ text.ipv6Text addr ++ "]:" ++ toString port.toNat

/-- `str::strip_prefix` of one character. -/
def stripPrefixChar (char : Char) (text : String) : Option String :=
  match text.toList with
  | [] => none
  | first :: rest => if first = char then some (String.ofList rest) else none

/-- `str::rsplit_once`, at the last separator. -/
def rsplitOnce (separator : Char) (text : String) : Option (String × String) :=
  match text.toList.reverse.dropWhile (· ≠ separator) with
  | [] => none
  | _ :: before => some (String.ofList before.reverse, afterLast (· = separator) text)

/-- `str::parse` at `u16`. -/
def parsePort (text : String) : Except Error (BitVec 16) :=
  match parseUnsigned (2 ^ 16) text with
  | none => .error (.protocol "Invalid port")
  | some port => .ok (BitVec.ofNat 16 port)

/-- A text as a target. -/
def parseAddress (text : IpText) (s : String) : Except Error TargetAddr :=
  match stripPrefixChar '[' s with
  | some rest =>
      match splitOnce ']' rest with
      | none => .error (.protocol "Malformed bracketed address")
      | some (ip, portPart) =>
          match stripPrefixChar ':' portPart with
          | none => .error (.protocol "Malformed bracketed address")
          | some port =>
              match text.parseIpv6 ip with
              | none => .error (.protocol "Invalid IPv6 address")
              | some ip => do
                  let port ← parsePort port
                  return .ip ⟨.v6 ip, port⟩
  | none =>
      match rsplitOnce ':' s with
      | none => .error (.protocol "Address has no port")
      | some (host, port) => do
          let port ← parsePort port
          match text.parseIpv4 host with
          | some ip => return .ip ⟨.v4 ip, port⟩
          | none => return .domain host port

/-- A message: numbers, address and payload. -/
def writeUdpMessage (sessionId : BitVec 32) (packetId : BitVec 16) (fragId fragCount : Byte)
    (addr : String) (payload : List Byte) : List Byte :=
  toBeBytes 4 sessionId ++ toBeBytes 2 packetId ++ [fragId, fragCount] ++
    writeVarint (asBytes addr).length ++ asBytes addr ++ payload

/-- `parse_udp_message`; the session and the packet number are the key of the
fragment. -/
def parseUdpMessage (text : IpText) (data : List Byte) :
    Except Error (Fragment (BitVec 32 × BitVec 16)) := do
  if data.length < 8 then
    .error (.protocol "UDP message too short")
  else
    let sessionId := ofOctets (slice data 0 4)
    let packetId := ofOctets (slice data 4 2)
    let fragId := data.getD 6 0
    let fragCount := data.getD 7 0
    let (addrLen, addrBytes) ← readVarintSlice (data.drop 8)
    if addrLen > addrBytes.length then
      .error (.protocol "UDP address truncated")
    else
      match fromUtf8 (addrBytes.take addrLen) with
      | none => .error (.protocol "UDP address not UTF-8")
      | some addr => do
          let target ← parseAddress text addr
          return ⟨(sessionId, packetId), fragCount, fragId, target, addrBytes.drop addrLen⟩

/-- The bytes of a datagram that are left for the payload. -/
def maxChunk (addr : String) : Nat :=
  MAX_DATAGRAM_PAYLOAD -
    (4 + 2 + 1 + 1 + varintLen (asBytes addr).length + (asBytes addr).length)

/-- `send_udp_packet` with a packet number, authenticated and on an open
connection: the datagrams that it hands over. -/
def sendUdpPacket (text : IpText) (peerMaxUdpPayload : Nat) (sessionId : BitVec 32)
    (packetId : BitVec 16) (target : TargetAddr) (data : List Byte) : Option Sending :=
  let addr := encodeAddress text target
  if data.length ≤ maxChunk addr then
    some (sendMessage peerMaxUdpPayload
      (.ok (writeUdpMessage sessionId packetId 0 1 addr data)))
  else if maxChunk addr = 0 then
    none
  else if divCeil data.length (maxChunk addr) > 255 then
    some ⟨[], .error (.protocol ("UDP payload too large to fragment (" ++
      toString (divCeil data.length (maxChunk addr)) ++ " fragments)"))⟩
  else
    some (sendFragments peerMaxUdpPayload
      (fun fragId chunk => .ok (writeUdpMessage sessionId packetId fragId
        (BitVec.ofNat 8 (divCeil data.length (maxChunk addr))) addr chunk))
      (numbered (chunks (maxChunk addr) data)))

/-- A packet of exactly one fragment is passed on. -/
def receiver (text : IpText) : Receiver (BitVec 32 × BitVec 16) where
  parse := parseUdpMessage text
  whole fragCount := fragCount = 1

/-!
# Packets over Hysteria 2

Every datagram that is sent reads back as the fragment it was built from, with
the target as far as its text says it.  A packet is kept under its session and
its number, so packets of different numbers never meet.
-/

open Protocol.Quic Transition

theorem ofNat_and_255 (value : Nat) : BitVec.ofNat 8 (value &&& 0xff) = BitVec.ofNat 8 value := by
  apply BitVec.eq_of_toNat_eq
  have low : value &&& 0xff = value % 256 := Nat.and_two_pow_sub_one_eq_mod value 8
  rw [BitVec.toNat_ofNat, BitVec.toNat_ofNat, low]
  exact Nat.mod_mod value 256

theorem writeVarint_eq (value : Nat) : writeVarint value = varint value := by
  have shift : 1 <<< 30 = 1073741823 + 1 := rfl
  unfold writeVarint varint
  by_cases one : value ≤ 63
  · rw [if_pos one, if_pos (Nat.lt_succ_of_le one)]
  rw [if_neg one, if_neg (mt Nat.le_of_lt_succ one)]
  by_cases two : value ≤ 16383
  · rw [if_pos two, if_pos (Nat.lt_succ_of_le two)]
  rw [if_neg two, if_neg (mt Nat.le_of_lt_succ two), shift]
  by_cases four : value ≤ 1073741823
  · rw [if_pos four, if_pos (Nat.lt_succ_of_le four)]
    simp only [ofNat_and_255]
  · rw [if_neg four, if_neg (mt Nat.le_of_lt_succ four)]
    simp only [ofNat_and_255]
    rfl

theorem readVarintSlice_writeVarint {value : Nat} (bound : value < 2 ^ 62) (rest : List Byte) :
    readVarintSlice (writeVarint value ++ rest) = .ok (value, rest) := by
  rcases varint_cases bound with ⟨code, head, tail, varint_eq, small, length_eq, value_eq, _⟩
  rcases or_code code head small with ⟨code_eq, head_eq, _⟩
  have len : 1 <<< code.val = tail.length + 1 := by
    rw [length_eq, Nat.one_shiftLeft]
  have enough : ¬ ((BitVec.ofNat 8 (64 * code.val) ||| head) :: (tail ++ rest)).length <
      tail.length + 1 := by
    rw [List.length_cons, List.length_append]
    omega
  rw [writeVarint_eq, varint_eq, List.cons_append, readVarintSlice, code_eq, head_eq, len]
  rw [if_neg enough, Nat.add_sub_cancel, List.drop_succ_cons, List.drop_left, slice,
    List.drop_succ_cons, List.drop_zero, List.take_left]
  rw [ofBeBytes, List.foldl_cons, Nat.mul_zero, Nat.zero_add] at value_eq
  rw [value_eq]

/-- Every message reads back as what it was built from, with the target that its
text says. -/
theorem parseUdpMessage_writeUdpMessage (text : IpText) (sessionId : BitVec 32)
    (packetId : BitVec 16) (fragId fragCount : Byte) {addr : String}
    (short : (asBytes addr).length < 2 ^ 62) (payload : List Byte) :
    parseUdpMessage text (writeUdpMessage sessionId packetId fragId fragCount addr payload) =
      (parseAddress text addr).map fun target =>
        ⟨(sessionId, packetId), fragCount, fragId, target, payload⟩ := by
  have session := @ofNat_ofBeBytes _ 4 sessionId (by decide)
  have packet := @ofNat_ofBeBytes _ 2 packetId (by decide)
  obtain ⟨s0, s1, s2, s3, session_eq⟩ :
      ∃ s0 s1 s2 s3, toBeBytes 4 sessionId = [s0, s1, s2, s3] := ⟨_, _, _, _, rfl⟩
  obtain ⟨high, low, packet_eq⟩ : ∃ high low, toBeBytes 2 packetId = [high, low] := ⟨_, _, rfl⟩
  rw [session_eq] at session
  rw [packet_eq] at packet
  have message_eq : writeUdpMessage sessionId packetId fragId fragCount addr payload =
      s0 :: s1 :: s2 :: s3 :: high :: low :: fragId :: fragCount ::
        (writeVarint (asBytes addr).length ++ (asBytes addr ++ payload)) := by
    rw [writeUdpMessage, session_eq, packet_eq]
    simp
  have enough : ¬ (writeUdpMessage sessionId packetId fragId fragCount addr payload).length < 8 := by
    rw [message_eq]
    simp
  have inside : ¬ (asBytes addr).length > (asBytes addr ++ payload).length := by
    rw [List.length_append]
    omega
  have decoded : fromUtf8 (asBytes addr) = some addr := fromUtf8_eq_some_iff.mpr rfl
  rw [parseUdpMessage, if_neg enough, message_eq]
  simp only [List.getD_cons_zero, List.getD_cons_succ, List.drop_succ_cons, List.drop_zero, slice,
    List.take_succ_cons, List.take_zero, ofOctets, session, packet,
    readVarintSlice_writeVarint short]
  cases parsed : parseAddress text addr with
  | error error => simp [bind, Except.bind, decoded, parsed, Except.map]
  | ok target => simp [bind, Except.bind, decoded, parsed, Except.map, pure, Except.pure]

/-- The arguments of a call of `send_udp_packet` and the packet number that it
drew. -/
structure UdpPacket where
  sessionId : BitVec 32
  packetId : BitVec 16
  target : TargetAddr
  data : List Byte
deriving DecidableEq

namespace UdpPacket

variable {text : IpText}

/-- The messages of the packet. -/
def messages (packet : UdpPacket) (text : IpText) (peerMaxUdpPayload : Nat) : List (List Byte) :=
  match sendUdpPacket text peerMaxUdpPayload packet.sessionId packet.packetId packet.target
      packet.data with
  | none => []
  | some sending => sending.datagrams

/-- The target, if its text can be read, is read from its text. -/
def ReadsBack (text : IpText) (packet : UdpPacket) : Prop :=
  ∀ target, parseAddress text (encodeAddress text packet.target) = .ok target →
    target = packet.target

/-- The payload is cut into chunks of a size. -/
def Cut (packet : UdpPacket) (chunk : Nat) : Prop :=
  0 < chunk ∧ chunk < packet.data.length ∧ divCeil packet.data.length chunk ≤ 255

instance (packet : UdpPacket) (chunk : Nat) : Decidable (packet.Cut chunk) :=
  inferInstanceAs (Decidable (_ ∧ _))

/-- The messages of a packet. -/
def fragments (packet : UdpPacket) (text : IpText) : List (List Byte) :=
  let chunk := maxChunk (encodeAddress text packet.target)
  if packet.Cut chunk then chunks chunk packet.data else [packet.data]

theorem fragments_of_cut {packet : UdpPacket}
    (cut : packet.Cut (maxChunk (encodeAddress text packet.target))) :
    packet.fragments text =
      chunks (maxChunk (encodeAddress text packet.target)) packet.data :=
  if_pos cut

theorem fragments_of_not_cut {packet : UdpPacket}
    (cut : ¬ packet.Cut (maxChunk (encodeAddress text packet.target))) :
    packet.fragments text = [packet.data] :=
  if_neg cut

section

variable (packet : UdpPacket) (text : IpText)

theorem fragments_nonempty : packet.fragments text ≠ [] := by
  by_cases cut : packet.Cut (maxChunk (encodeAddress text packet.target))
  · have some : packet.data ≠ [] :=
      List.ne_nil_of_length_pos (Nat.lt_of_le_of_lt (Nat.zero_le _) cut.2.1)
    rw [fragments_of_cut cut, chunks_of_ne_nil cut.1 some]
    exact List.cons_ne_nil _ _
  · rw [fragments_of_not_cut cut]
    exact List.cons_ne_nil _ _

theorem fragments_few :
    (packet.fragments text).length ≤ 255 := by
  by_cases cut : packet.Cut (maxChunk (encodeAddress text packet.target))
  · rw [fragments_of_cut cut, length_chunks cut.1]
    exact cut.2.2
  · rw [fragments_of_not_cut cut]
    exact (by decide : 1 ≤ 255)

theorem flatten_fragments :
    (packet.fragments text).flatten = packet.data := by
  by_cases cut : packet.Cut (maxChunk (encodeAddress text packet.target))
  · rw [fragments_of_cut cut]
    exact flatten_chunks cut.1 packet.data
  · rw [fragments_of_not_cut cut]
    exact List.flatten_singleton

end

/-- The packet as the buffer knows it: kept under the session and the number. -/
def packet (packet : UdpPacket) (text : IpText) : Packet (BitVec 32 × BitVec 16) where
  key := (packet.sessionId, packet.packetId)
  target := packet.target
  fragments := packet.fragments text
  nonempty := packet.fragments_nonempty text
  few := packet.fragments_few text

theorem carries_of_written {packet : UdpPacket} (readsBack : packet.ReadsBack text)
    {fragId fragCount : Byte} {chunk message : List Byte}
    (written : writeUdpMessage packet.sessionId packet.packetId fragId fragCount
      (encodeAddress text packet.target) chunk = message)
    (small : message.length ≤ MAX_UDP_PAYLOAD - DATAGRAM_OVERHEAD)
    (total : fragCount = (packet.packet text).total)
    (listed : (fragId, chunk) ∈ numbered (packet.fragments text)) :
    (receiver text).Carries (packet.packet text) message := by
  have inside : (asBytes (encodeAddress text packet.target)).length ≤ message.length := by
    rw [← written, writeUdpMessage]
    simp only [List.length_append]
    omega
  have short : (asBytes (encodeAddress text packet.target)).length < 2 ^ 62 :=
    Nat.lt_of_le_of_lt (Nat.le_trans inside small) (by decide)
  intro fragment parsed
  rw [← written] at parsed
  have result := parsed.symm.trans (parseUdpMessage_writeUdpMessage text packet.sessionId
    packet.packetId fragId fragCount short chunk)
  cases target : parseAddress text (encodeAddress text packet.target) with
  | error error =>
      rw [target] at result
      cases result
  | ok read =>
      rw [target] at result
      rw [Except.ok.inj result, readsBack read target]
      exact ⟨rfl, rfl, total, listed⟩

/-- Every message of a packet carries one of its fragments. -/
theorem carries_of_mem {packet : UdpPacket} (readsBack : packet.ReadsBack text)
    {peerMaxUdpPayload : Nat} {message : List Byte}
    (member : message ∈ packet.messages text peerMaxUdpPayload) :
    (receiver text).Carries (packet.packet text) message := by
  unfold messages sendUdpPacket at member
  by_cases fits : packet.data.length ≤ maxChunk (encodeAddress text packet.target)
  · simp only [if_pos fits] at member
    have alone : packet.fragments text = [packet.data] :=
      fragments_of_not_cut fun cut => Nat.not_lt.mpr fits cut.2.1
    rcases mem_sendMessage member with ⟨written, small⟩
    refine carries_of_written readsBack (Except.ok.inj written) small ?_ ?_
    · rw [Packet.total]
      exact congrArg (fun fragments : List (List Byte) => BitVec.ofNat 8 fragments.length) alone.symm
    · rw [alone]
      exact List.mem_singleton_self _
  · simp only [if_neg fits] at member
    by_cases none : maxChunk (encodeAddress text packet.target) = 0
    · simp only [if_pos none] at member
      cases member
    simp only [if_neg none] at member
    by_cases many : divCeil packet.data.length (maxChunk (encodeAddress text packet.target)) > 255
    · simp only [if_pos many] at member
      cases member
    simp only [if_neg many] at member
    have cut : packet.Cut (maxChunk (encodeAddress text packet.target)) :=
      ⟨Nat.pos_of_ne_zero none, Nat.lt_of_not_le fits, Nat.le_of_not_gt many⟩
    have pieces := fragments_of_cut cut
    rcases mem_sendFragments member with ⟨fragment, listed, written, small⟩
    refine carries_of_written readsBack (Except.ok.inj written) small ?_ (by rw [pieces]; exact listed)
    rw [Packet.total, divCeil, ← length_chunks cut.1, ← pieces]
    rfl

end UdpPacket

variable {text : IpText} {peerMaxUdpPayload : Nat} {sent : List UdpPacket}
  {deliveries : List (Delivered (BitVec 32 × BitVec 16))}

/-- The deliveries of some of the messages of the packets, in any order and any
number of times. -/
def Delivers (text : IpText) (peerMaxUdpPayload : Nat) (sent : List UdpPacket)
    (deliveries : List (Delivered (BitVec 32 × BitVec 16))) : Prop :=
  ∀ delivery ∈ deliveries, ∃ packet ∈ sent, delivery.packet = packet.packet text ∧
    delivery.datagram ∈ packet.messages text peerMaxUdpPayload

/-- What is returned is what was sent, when the packets have numbers of their own
and their targets read back. -/
theorem returned_was_sent (delivers : Delivers text peerMaxUdpPayload sent deliveries)
    (distinct : ∀ first ∈ sent, ∀ second ∈ sent, first.sessionId = second.sessionId →
      first.packetId = second.packetId → first = second)
    (readsBack : ∀ packet ∈ sent, packet.ReadsBack text) :
    ∀ received ∈ (run (Receiving.deliver (receiver text)) Receiving.new deliveries).returned,
      ∃ packet ∈ sent,
        received = ⟨(packet.sessionId, packet.packetId), packet.target, packet.data⟩ := by
  have whole : ∀ total, (receiver text).whole total = true → total.toNat ≤ 1 := by
    intro total single
    have one : total = 1 := of_decide_eq_true single
    rw [one]
    exact Nat.le_refl 1
  have carried : ∀ delivery ∈ deliveries,
      delivery.packet ∈ sent.map (UdpPacket.packet · text) ∧
        (receiver text).Carries delivery.packet delivery.datagram := by
    intro delivery member
    rcases delivers delivery member with ⟨packet, isSent, packet_eq, isMessage⟩
    rw [packet_eq]
    exact ⟨List.mem_map_of_mem isSent, UdpPacket.carries_of_mem (readsBack packet isSent) isMessage⟩
  have apart : ∀ first ∈ sent.map (UdpPacket.packet · text),
      ∀ second ∈ sent.map (UdpPacket.packet · text), first.key = second.key → first = second := by
    intro first firstSent second secondSent same
    rcases List.mem_map.mp firstSent with ⟨one, oneSent, rfl⟩
    rcases List.mem_map.mp secondSent with ⟨other, otherSent, rfl⟩
    rcases Prod.mk.inj same with ⟨session, number⟩
    rw [distinct one oneSent other otherSent session number]
  intro received member
  rcases Receiving.returned_of_distinct whole apart carried received member with
    ⟨whole, isSent, rfl⟩
  rcases List.mem_map.mp isSent with ⟨packet, packetSent, rfl⟩
  exact ⟨packet, packetSent, congrArg (Received.mk _ _) (packet.flatten_fragments text)⟩

end Corduit.Engine.Outbound.Hysteria2
