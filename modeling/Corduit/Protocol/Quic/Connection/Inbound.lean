import Corduit.Protocol.Quic.Connection.Core

/-!
# Inbound packets

A datagram is one packet.  Its first bytes say which kind of packet it is and
whether it is for this connection; then the protection of the header is taken
off, the header is parsed, numbers that were seen before are dropped, and the
payload is opened.  Header protection, the parser of headers, the payload cipher
and the frame codec belong to the packet library.
-/

namespace Corduit.Protocol.Quic

open Collection Transition Word

/-- The version of the protocol. -/
def QUIC_VERSION : Nat := 1

/-- How far behind the largest number a packet may be. -/
def REORDER_LIMIT : Nat := 1000000

/-- A parsed header, with the fields that the transport reads. -/
inductive ParsedPacket where
  | long (packetNumber pnLen : Nat) (scid : List Byte)
  | short (packetNumber pnLen : Nat)
  deriving DecidableEq, Repr

namespace ParsedPacket

/-- The number of the packet. -/
def packetNumber : ParsedPacket → Nat
  | .long packetNumber _ _ => packetNumber
  | .short packetNumber _ => packetNumber

/-- The length of the number. -/
def pnLen : ParsedPacket → Nat
  | .long _ pnLen _ => pnLen
  | .short _ pnLen => pnLen

end ParsedPacket

/-- The functions of the packet library, with keys of the type `κ`. -/
structure PacketLibrary (κ : Type) where
  decodeVarint : List Byte → Option (Nat × Nat)
  encodeVarint : Nat → List Byte
  openRetry : (pseudo tag : List Byte) → Bool
  initialKey : (cid : List Byte) → (server : Bool) → Except String κ
  unprotectHeader : κ → List Byte → (pnOffset : Nat) → (long : Bool) → Option (List Byte)
  parse : List Byte → (largest cidLen : Nat) → Option ParsedPacket
  openPayload : κ → (pn : Nat) → (header payload : List Byte) → Option (List Byte)
  decodeFrame : List Byte → Except String (Frame × Nat)
  encodeFrame : Frame → List Byte
  encodeLong : (initial : Bool) → (dcid scid : List Byte) → (pn pnLen : Nat) →
    (token : List Byte) → (payloadLen : Nat) → Option (List Byte)
  encodeShort : (dcid : List Byte) → (pn pnLen : Nat) → (keyPhase : Bool) → Option (List Byte)
  sealPayload : κ → (pn : Nat) → (header payload : List Byte) → Option (List Byte)
  protectHeader : κ → List Byte → (pnOffset : Nat) → (long : Bool) → Option (List Byte)

/-- The byte at a position, as a number. -/
def byteAt (data : List Byte) (pos : Nat) : Nat :=
  (data.getD pos 0).toNat

/-- The offset of the packet number behind a long header. -/
def longPnOffset (decodeVarint : List Byte → Option (Nat × Nat)) (data : List Byte) : Option Nat :=
  if data.length < 7 then
    none
  else
    let dcidEnd := 6 + byteAt data 5
    if data.length < dcidEnd + 1 then
      none
    else
      let scidEnd := dcidEnd + 1 + byteAt data dcidEnd
      if data.length < scidEnd then
        none
      else do
        let tokenEnd ← (if (data.getD 0 0 >>> 4) &&& 3 = 0 then
            match decodeVarint (data.drop scidEnd) with
            | none => none
            | some (tokenLen, used) =>
                if data.length < scidEnd + used + tokenLen then
                  none
                else
                  some (scidEnd + used + tokenLen)
          else
            some scidEnd)
        let (_, used) ← decodeVarint (data.drop tokenEnd)
        return tokenEnd + used

/-- What the first bytes of a datagram say. -/
inductive Arrival where
  | dropped
  | versionNegotiation
  | retry
  | packet (space : PnSpace) (pnOffset : Nat) (long : Bool)
  deriving DecidableEq, Repr

/-- The fields of a Retry packet. -/
structure RetryPacket where
  dcid : List Byte
  scid : List Byte
  token : List Byte
  tag : List Byte

/-- A Retry: its ids, its token and its tag. -/
def parseRetry {κ : Type} (packets : PacketLibrary κ) (data : List Byte) : Option RetryPacket :=
  if data.length < 7 then
    none
  else
    let dcidEnd := 6 + byteAt data 5
    if data.length < dcidEnd + 1 then
      none
    else
      let scidEnd := dcidEnd + 1 + byteAt data dcidEnd
      if data.length < scidEnd + 2 then
        none
      else do
        let (tokenLen, used) ← packets.decodeVarint (data.drop scidEnd)
        if data.length < scidEnd + used + tokenLen + 16 then
          none
        else
          some {
            dcid := slice data 6 (byteAt data 5)
            scid := slice data (dcidEnd + 1) (byteAt data dcidEnd)
            token := slice data (scidEnd + used) tokenLen
            tag := slice data (scidEnd + used + tokenLen) 16 }

/-- The integrity tag of a Retry packet holds. -/
def RetryPacket.verified {κ : Type} (packets : PacketLibrary κ) (retry : RetryPacket) : Bool :=
  packets.openRetry
    ([BitVec.ofNat 8 retry.dcid.length] ++ retry.dcid ++ [0x40] ++
      toBeBytes 4 (BitVec.ofNat 32 QUIC_VERSION) ++ [BitVec.ofNat 8 retry.scid.length] ++
      retry.scid ++ packets.encodeVarint retry.token.length ++ retry.token)
    retry.tag

/-- A packet without its header protection. -/
structure Unwrapped (κ : Type) where
  key : κ
  parsed : ParsedPacket
  header : List Byte
  payload : List Byte

namespace Connection

variable {κ ξ : Type}

/-- The checks of `process_inbound`. -/
def classify (packets : PacketLibrary κ) (conn : Connection κ ξ) (data : List Byte) : Arrival :=
  if conn.closed.isSome || data.isEmpty then
    .dropped
  else
    let first := data.getD 0 0
    if first &&& 0x80 ≠ 0 then
      if data.length < 5 then
        .dropped
      else
        let version := ofBeBytes (slice data 1 4)
        if version = 0 then
          .versionNegotiation
        else if version ≠ QUIC_VERSION then
          .dropped
        else
          let ptype := (first >>> 4) &&& 3
          if ptype = 3 then
            .retry
          else if data.length < 6 then
            .dropped
          else
            let dcidLen := byteAt data 5
            if dcidLen ≠ conn.scid.length || data.length < 6 + dcidLen ||
                slice data 6 dcidLen ≠ conn.scid then
              .dropped
            else if ptype = 1 then
              .dropped
            else
              match longPnOffset packets.decodeVarint data with
              | none => .dropped
              | some pnOffset =>
                  .packet (if ptype = 0 then .initial else .handshake) pnOffset true
    else
      let pnOffset := 1 + conn.scid.length
      if data.length ≤ pnOffset || slice data 1 conn.scid.length ≠ conn.scid then
        .dropped
      else
        .packet .application pnOffset false

/-- The Initial space starts again, with the connection id and the token of the
server. -/
def restart (conn : Connection κ ξ) (retry : RetryPacket) (space : Space κ) : Connection κ ξ :=
  { conn.updateSpace .initial (fun _ => space) with
    dcid := retry.scid
    retryToken := retry.token }

/-- A Retry is discarded unless it answers the connection id that was sent and
its tag holds. -/
def processRetry (packets : PacketLibrary κ) (conn : Connection κ ξ) (data : List Byte) :
    Except QuicError Unit × Connection κ ξ :=
  match parseRetry packets data with
  | none => (.ok (), conn)
  | some retry =>
      if retry.dcid ≠ conn.dcid || !retry.verified packets then
        (.ok (), conn)
      else
        match packets.initialKey retry.scid false with
        | .error message => (.error (.protocol message), conn.restart retry {})
        | .ok writeKey =>
            match packets.initialKey retry.scid true with
            | .error message =>
                (.error (.protocol message), conn.restart retry { writeKey := some writeKey })
            | .ok key =>
                (.ok (), { conn.restart retry {
                  key := some key
                  writeKey := some writeKey
                  cryptoSend := conn.tls.clientHello
                  cryptoWritten := conn.tls.clientHello.length } with
                  tls := conn.tls.resetAfterRetry })

/-- Take the protection off the header and parse it. -/
def unwrap (packets : PacketLibrary κ) (conn : Connection κ ξ) (data : List Byte) (space : PnSpace)
    (pnOffset : Nat) (long : Bool) : Option (Unwrapped κ) :=
  if data.length < pnOffset + 4 + 16 + 1 then
    none
  else do
    let key ← (conn.spaces space).key
    let packet ← packets.unprotectHeader key data pnOffset long
    let parsed ← packets.parse packet (conn.spaces space).largestRecvPn conn.scid.length
    let headerEnd := pnOffset + parsed.pnLen
    if headerEnd > packet.length then
      none
    else
      some {
        key := key
        parsed := parsed
        header := packet.take headerEnd
        payload := packet.drop headerEnd }

/-- The number was seen, or is too far behind. -/
def stale (conn : Connection κ ξ) (space : PnSpace) (pn : Nat) : Bool :=
  let largest := (conn.spaces space).largestRecvPn
  pn ≤ largest && (conn.spaces space).ackQueue.contains pn || pn ≤ largest - REORDER_LIMIT

/-- The source connection id of the server becomes the destination id. -/
def adoptScid (conn : Connection κ ξ) : ParsedPacket → Connection κ ξ
  | .long _ _ scid => if scid.isEmpty then conn else { conn with dcid := scid }
  | .short _ _ => conn

/-- The loop over the frames of a payload; every frame has at least one byte. -/
def processFrames (library : TlsLibrary κ ξ) (packets : PacketLibrary κ) (clock : Clock)
    (space : PnSpace) : (bound : Nat) → (plain : List Byte) → Connection κ ξ →
    Except Fault (Except QuicError Unit × Connection κ ξ)
  | 0, _, conn => .ok (.ok (), conn)
  | bound + 1, plain, conn =>
      if plain.isEmpty then
        .ok (.ok (), conn)
      else
        match packets.decodeFrame plain with
        | .error message => .ok (.error (.protocol message), conn)
        | .ok (frame, used) =>
            match conn.processFrame library clock space frame with
            | .error fault => .error fault
            | .ok (.error error, conn) => .ok (.error error, conn)
            | .ok (.ok (), conn) =>
                processFrames library packets clock space bound (plain.drop used) conn

end Connection

/-- Keep the largest numbers of the queue. -/
def trimAckQueue (queue : OrderedSet Nat) : OrderedSet Nat :=
  drain (fun queue : OrderedSet Nat =>
      if queue.elements.length > MAX_ACK_QUEUE then some queue.dropLeast else none)
    queue.elements.length queue

/-- A packet number has been processed. -/
def Space.noteReceived {κ : Type} (space : Space κ) (pn : Nat) : Space κ :=
  { space with
    largestRecvPn := if pn > space.largestRecvPn then pn else space.largestRecvPn
    ackQueue := trimAckQueue (space.ackQueue.add pn)
    ackPending := true }

namespace Connection

variable {κ ξ : Type}

/-- The number of a packet is noted when its frames went through. -/
def noteNumber (space : PnSpace) (pn : Nat) :
    Except QuicError Unit × Connection κ ξ → Except QuicError Unit × Connection κ ξ
  | (.error error, conn) => (.error error, conn)
  | (.ok (), conn) =>
      (.ok (), if conn.closed.isNone then conn.updateSpace space (·.noteReceived pn) else conn)

/-- The frames of a packet that was opened, and the note of its number. -/
def processPayload (library : TlsLibrary κ ξ) (packets : PacketLibrary κ) (clock : Clock)
    (conn : Connection κ ξ) (space : PnSpace) (pn : Nat) (plain : List Byte) :
    Except Fault (Except QuicError Unit × Connection κ ξ) :=
  (conn.processFrames library packets clock space plain.length plain).map (noteNumber space pn)

/-- A packet is opened and its frames are run. -/
def processPacket (library : TlsLibrary κ ξ) (packets : PacketLibrary κ) (clock : Clock)
    (conn : Connection κ ξ) (data : List Byte) (space : PnSpace) (pnOffset : Nat) (long : Bool) :
    Except Fault (Except QuicError Unit × Connection κ ξ) :=
  match conn.unwrap packets data space pnOffset long with
  | none => .ok (.ok (), conn)
  | some packet =>
      let pn := packet.parsed.packetNumber
      if conn.stale space pn then
        .ok (.ok (), conn)
      else
        -- The connection id is taken over before the payload is opened.
        let conn := conn.adoptScid packet.parsed
        match packets.openPayload packet.key pn packet.header packet.payload with
        | none => .ok (.ok (), conn)
        | some plain => conn.processPayload library packets clock space pn plain

/-- What a datagram is: a Retry, or a packet. -/
def processInbound (library : TlsLibrary κ ξ) (packets : PacketLibrary κ) (clock : Clock)
    (conn : Connection κ ξ) (data : List Byte) :
    Except Fault (Except QuicError Unit × Connection κ ξ) :=
  match conn.classify packets data with
  | .dropped => .ok (.ok (), conn)
  | .versionNegotiation =>
      .ok (.error (.protocol "server sent a version-negotiation packet"), conn)
  | .retry => .ok (conn.processRetry packets data)
  | .packet space pnOffset long =>
      conn.processPacket library packets clock data space pnOffset long

/-- The driver closes the connection after an error. -/
def receive (library : TlsLibrary κ ξ) (packets : PacketLibrary κ) (clock : Clock)
    (conn : Connection κ ξ) (data : List Byte) : Except Fault (Connection κ ξ) :=
  match conn.processInbound library packets clock data with
  | .error fault => .error fault
  | .ok (.error error, conn) => .ok (conn.processFatal error)
  | .ok (.ok (), conn) => .ok conn

end Connection

/-! ## A library without encryption

Variable-length integers, headers and packet numbers as they stand on the wire,
with a key that hides nothing and a tag of sixteen zeros. -/

namespace Plain

/-- A variable-length integer. -/
def decodeVarint : List Byte → Option (Nat × Nat)
  | [] => none
  | first :: rest =>
      let size := 2 ^ (first >>> 6).toNat
      if rest.length + 1 < size then
        none
      else
        some (ofBeBytes ((first &&& 0x3f) :: rest.take (size - 1)), size)

/-- A variable-length integer. -/
def encodeVarint (value : Nat) : List Byte :=
  if value < 2 ^ 6 then
    [BitVec.ofNat 8 value]
  else if value < 2 ^ 14 then
    toBeBytes 2 (BitVec.ofNat 16 (2 ^ 14 + value))
  else if value < 2 ^ 30 then
    toBeBytes 4 (BitVec.ofNat 32 (2 ^ 31 + value))
  else
    toBeBytes 8 (BitVec.ofNat 64 (3 * 2 ^ 62 + value))

/-- The number closest to the next one expected that ends in the given bytes. -/
def decodePn (largest truncated pnLen : Nat) : Nat :=
  let expected := largest + 1
  let window := 2 ^ (8 * pnLen)
  let candidate := expected - expected % window + truncated
  if candidate + window / 2 ≤ expected then
    candidate + window
  else if candidate > expected + window / 2 && candidate ≥ window then
    candidate - window
  else
    candidate

/-- The headers of version 1. -/
def parse (packet : List Byte) (largest cidLen : Nat) : Option ParsedPacket :=
  let first := packet.getD 0 0
  let pnLen := (first &&& 3).toNat + 1
  let number := fun pnOffset => decodePn largest (ofBeBytes (slice packet pnOffset pnLen)) pnLen
  if first &&& 0x80 ≠ 0 then
    let dcidEnd := 6 + byteAt packet 5
    (longPnOffset decodeVarint packet).map fun pnOffset =>
      .long (number pnOffset) pnLen (slice packet (dcidEnd + 1) (byteAt packet dcidEnd))
  else
    some (.short (number (1 + cidLen)) pnLen)

/-- A payload whose tag is zeros. -/
def openPayload (payload : List Byte) : Option (List Byte) :=
  if payload.drop (payload.length - 16) = List.replicate 16 0 then
    some (payload.take (payload.length - 16))
  else
    none

/-- PADDING, PING, CRYPTO, HANDSHAKE_DONE and DATAGRAM frames. -/
def decodeFrame : List Byte → Except String (Frame × Nat)
  | [] => .error "empty frame"
  | kind :: rest =>
      if kind = 0x00 then
        .ok (.padding, 1)
      else if kind = 0x01 then
        .ok (.ping, 1)
      else if kind = 0x1e then
        .ok (.handshakeDone, 1)
      else if kind = 0x30 then
        .ok (.datagram rest none, 1 + rest.length)
      else if kind = 0x06 then
        match decodeVarint rest with
        | none => .error "truncated CRYPTO frame"
        | some (offset, used) =>
            match decodeVarint (rest.drop used) with
            | none => .error "truncated CRYPTO frame"
            | some (length, used') =>
                .ok (.crypto offset (slice rest (used + used') length), 1 + used + used' + length)
      else
        .error "unknown frame type"

/-- CRYPTO, STREAM, MAX_DATA, MAX_STREAM_DATA, ACK, DATAGRAM and PING frames. -/
def encodeFrame : Frame → List Byte
  | .crypto offset data => [0x06] ++ encodeVarint offset ++ encodeVarint data.length ++ data
  | .stream streamId offset data _ fin =>
      [if fin then 0x0d else 0x0c] ++ encodeVarint streamId ++ encodeVarint (offset.getD 0) ++ data
  | .maxData max => [0x10] ++ encodeVarint max
  | .maxStreamData streamId max => [0x11] ++ encodeVarint streamId ++ encodeVarint max
  | .ack largestAcked ackDelay ranges _ =>
      [0x02] ++ encodeVarint largestAcked ++ encodeVarint ackDelay ++
        encodeVarint (ranges.length - 1) ++ encodeVarint (ranges.headD (0, 0)).2 ++
        ranges.tail.flatMap fun range => encodeVarint range.1 ++ encodeVarint range.2
  | .datagram data _ => [0x30] ++ data
  | _ => [0x01]

/-- A long header with the length of what follows it; no packet is empty. -/
def encodeLong (initial : Bool) (dcid scid : List Byte) (pn pnLen : Nat) (token : List Byte)
    (payloadLen : Nat) : Option (List Byte) :=
  if payloadLen = 0 then
    none
  else
    some ([(if initial then 0xc0 else 0xe0) + BitVec.ofNat 8 (pnLen - 1)] ++
      toBeBytes 4 (BitVec.ofNat 32 QUIC_VERSION) ++
      [BitVec.ofNat 8 dcid.length] ++ dcid ++ [BitVec.ofNat 8 scid.length] ++ scid ++
      (if initial then encodeVarint token.length ++ token else []) ++
      encodeVarint (pnLen + payloadLen) ++ toBeBytes pnLen (BitVec.ofNat 64 pn))

/-- A short header. -/
def encodeShort (dcid : List Byte) (pn pnLen : Nat) (keyPhase : Bool) : List Byte :=
  [0x40 + (if keyPhase then 4 else 0) + BitVec.ofNat 8 (pnLen - 1)] ++ dcid ++
    toBeBytes pnLen (BitVec.ofNat 64 pn)

/-- A library that seals with zeros. -/
def packets : PacketLibrary Unit where
  decodeVarint := decodeVarint
  encodeVarint := encodeVarint
  openRetry := fun _ tag => tag = List.replicate 16 0
  initialKey := fun _ _ => .ok ()
  unprotectHeader := fun _ packet _ _ => some packet
  parse := parse
  openPayload := fun _ _ _ payload => openPayload payload
  decodeFrame := decodeFrame
  encodeFrame := encodeFrame
  encodeLong := encodeLong
  encodeShort := fun dcid pn pnLen keyPhase => some (encodeShort dcid pn pnLen keyPhase)
  sealPayload := fun _ _ _ payload => some (payload ++ List.replicate 16 0)
  protectHeader := fun _ datagram _ _ => some datagram

/-- A connection that has just been started. -/
def connection : Connection Unit (List Byte) :=
  .start (.new "example" false (hsMessage HS_CLIENT_HELLO [])) (List.replicate 8 1)
    (List.replicate 8 2) () () 1000 1000

end Plain

/-!
# Datagrams that do not authenticate

A datagram that does not authenticate should leave no trace.  Two kinds of
datagrams do: a version-negotiation packet closes the connection, and a long
header that parses hands over its connection id before its payload is opened.
-/

/-- A long header with a source connection id other than the given one. -/
def ParsedPacket.namesOther (dcid : List Byte) : ParsedPacket → Bool
  | .long _ _ scid => !scid.isEmpty && scid ≠ dcid
  | .short _ _ => false

namespace Connection

variable {κ ξ : Type} (library : TlsLibrary κ ξ) (packets : PacketLibrary κ) (clock : Clock)
  (conn : Connection κ ξ) (data : List Byte)

/-- The payload opens, or the integrity tag of a Retry holds. -/
def authenticates : Bool :=
  match conn.classify packets data with
  | .dropped | .versionNegotiation => false
  | .retry => (parseRetry packets data).any fun retry => retry.verified packets
  | .packet space pnOffset long =>
      (conn.unwrap packets data space pnOffset long).any fun packet =>
        (packets.openPayload packet.key packet.parsed.packetNumber packet.header
          packet.payload).isSome

/-- The header parses, its number is not dropped, and it names another
connection id. -/
def redirects : Bool :=
  match conn.classify packets data with
  | .packet space pnOffset long =>
      (conn.unwrap packets data space pnOffset long).any fun packet =>
        !conn.stale space packet.parsed.packetNumber && packet.parsed.namesOther conn.dcid
  | .dropped | .versionNegotiation | .retry => false

variable {library packets clock conn data}

theorem adoptScid_eq_self_iff (parsed : ParsedPacket) :
    conn.adoptScid parsed = conn ↔ parsed.namesOther conn.dcid = false := by
  cases parsed with
  | short packetNumber pnLen => exact iff_of_true rfl rfl
  | long packetNumber pnLen scid =>
      cases scid with
      | nil => exact iff_of_true rfl rfl
      | cons byte scid =>
          have adopted : conn.adoptScid (.long packetNumber pnLen (byte :: scid)) =
              { conn with dcid := byte :: scid } := rfl
          rw [adopted]
          simp only [ParsedPacket.namesOther, List.isEmpty_cons, Bool.not_false, Bool.true_and,
            decide_eq_false_iff_not, ne_eq, not_not]
          constructor
          · intro same
            exact congrArg Connection.dcid same
          · intro same
            rw [same]

theorem processRetry_of_not_verified
    (forged : (parseRetry packets data).any (fun retry => retry.verified packets) = false) :
    conn.processRetry packets data = (.ok (), conn) := by
  unfold processRetry
  cases parsed : parseRetry packets data with
  | none => rfl
  | some retry =>
      rw [parsed, Option.any_some] at forged
      dsimp only
      rw [forged, if_pos (by simp)]

theorem processPacket_of_not_opened {space : PnSpace} {pnOffset : Nat} {long : Bool}
    (forged : (conn.unwrap packets data space pnOffset long).any (fun packet =>
      (packets.openPayload packet.key packet.parsed.packetNumber packet.header
        packet.payload).isSome) = false) :
    conn.processPacket library packets clock data space pnOffset long = .ok (.ok (), conn) ↔
      (conn.unwrap packets data space pnOffset long).any (fun packet =>
        !conn.stale space packet.parsed.packetNumber && packet.parsed.namesOther conn.dcid) =
          false := by
  unfold processPacket
  cases unwrapped : conn.unwrap packets data space pnOffset long with
  | none => exact iff_of_true rfl rfl
  | some packet =>
      rw [unwrapped, Option.any_some, Option.isSome_eq_false_iff, Option.isNone_iff_eq_none]
        at forged
      dsimp only
      rw [Option.any_some, forged]
      cases conn.stale space packet.parsed.packetNumber with
      | true => exact iff_of_true rfl rfl
      | false =>
          rw [if_neg Bool.false_ne_true, Bool.not_false, Bool.true_and, ← adoptScid_eq_self_iff]
          simp

/-- A datagram that does not authenticate leaves the connection as it is exactly
when it is no version-negotiation packet and hands over no connection id. -/
theorem unauthenticated_unchanged_iff (library : TlsLibrary κ ξ) (packets : PacketLibrary κ)
    (clock : Clock) (conn : Connection κ ξ) (data : List Byte)
    (forged : conn.authenticates packets data = false) :
    conn.processInbound library packets clock data = .ok (.ok (), conn) ↔
      conn.classify packets data ≠ .versionNegotiation ∧ conn.redirects packets data = false := by
  unfold authenticates at forged
  unfold processInbound redirects
  cases arrival : conn.classify packets data with
  | dropped => simp
  | versionNegotiation => simp
  | retry =>
      rw [arrival] at forged
      dsimp only at forged ⊢
      rw [processRetry_of_not_verified forged]
      simp
  | packet space pnOffset long =>
      rw [arrival] at forged
      dsimp only at forged ⊢
      rw [processPacket_of_not_opened forged]
      simp

/-- An Initial packet for `Plain.connection` with the source connection id 238
and a tag that is wrong. -/
def forgedInitial : List Byte :=
  [0xc0, 0, 0, 0, 1, 8] ++ List.replicate 8 1 ++ [1, 238, 0, 21, 1] ++ List.replicate 20 9

/-- The same packet without a source connection id. -/
def forgedNameless : List Byte :=
  [0xc0, 0, 0, 0, 1, 8] ++ List.replicate 8 1 ++ [0, 0, 21, 1] ++ List.replicate 20 9

/-- Without a connection id, the forged packet is dropped without a trace. -/
theorem forgedNameless_unchanged :
    Plain.connection.authenticates Plain.packets forgedNameless = false ∧
      Plain.connection.processInbound Plain.tls Plain.packets ⟨0, 0, 0⟩ forgedNameless =
        .ok (.ok (), Plain.connection) := by
  have forged : Plain.connection.authenticates Plain.packets forgedNameless = false := by decide
  refine ⟨forged, (unauthenticated_unchanged_iff _ _ _ _ _ forged).mpr ⟨?_, ?_⟩⟩
  · decide
  · decide

/-- The forged packet is dropped, and the connection sends to the id that it
names from then on. -/
theorem destination_taken_from_forged_packet :
    Plain.connection.authenticates Plain.packets forgedInitial = false ∧
      Plain.connection.dcid = List.replicate 8 2 ∧
      (Plain.connection.processInbound Plain.tls Plain.packets ⟨0, 0, 0⟩ forgedInitial).map
        (fun result => result.2.dcid) = .ok [238] := by
  refine ⟨?_, ?_, ?_⟩
  · decide
  · decide
  · rfl

end Connection

end Corduit.Protocol.Quic
