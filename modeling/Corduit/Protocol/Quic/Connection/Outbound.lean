import Corduit.Protocol.Quic.Connection.Inbound

/-!
# Outbound packets

The driver fills packets for each space as long as the congestion window lets
it: handshake bytes in the first two spaces, datagrams, credit and stream bytes
in the last one.  Packets that ask for an acknowledgement are retained.

The order in which the table lists its streams is up to the table.  A round of
the loop takes a datagram from its queue or adds to the packets that go out, of
which there are 32 at most, so the rounds of a space are bounded.
-/

namespace Corduit.Protocol.Quic

open Collection Transition Word

/-- The bytes of a packet number. -/
def PN_LEN : Nat := 2

/-- Some order for the streams of a table. -/
structure Order where
  arrange : List Nat → List Nat
  perm : ∀ ids, (arrange ids).Perm ids

/-- The connection while packets are built, and the packets. -/
structure Outbound (κ ξ : Type) where
  conn : Connection κ ξ
  out : List (List Byte)

/-- The handshake bytes in the first CRYPTO frame of a packet. -/
def cryptoLength (frames : List Frame) : Nat :=
  match frames.find? (fun frame => match frame with | .crypto _ _ => true | _ => false) with
  | some (.crypto _ data) => data.length
  | _ => 0

/-- A packet of the space goes out. -/
def Space.noteSent {κ : Type} (clock : Clock) (frames : List Frame) (ackEliciting : Bool)
    (size cryptoBytes : Nat) (space : Space κ) : Space κ :=
  { space with
    nextPn := space.nextPn + 1
    cryptoSent := space.cryptoSent + cryptoBytes
    sent := if ackEliciting then
        space.sent ++ [
          { pn := space.nextPn
            time := clock.now
            size := size
            ackEliciting := true
            inFlight := true
            frames := frames }]
      else
        space.sent }

namespace Connection

variable {κ ξ : Type}

/-- What the peer takes, at least 1200 bytes. -/
def peerMaxUdpPayload (conn : Connection κ ξ) : Nat :=
  match conn.tls.peerTp with
  | some tp => if tp.maxUdpPayloadSize ≥ 1200 then tp.maxUdpPayloadSize else 1200
  | none => 1200

/-- The header of the next packet, the offset of its number, and whether it is a
long one.  A long header is asked for with a payload of length zero. -/
def buildPacketHeader (packets : PacketLibrary κ) (conn : Connection κ ξ) :
    PnSpace → Option (List Byte × Nat × Bool)
  | .initial =>
      (packets.encodeLong true conn.dcid conn.scid (conn.spaces .initial).nextPn PN_LEN
        conn.retryToken 0).map fun header => (header, header.length - PN_LEN, true)
  | .handshake =>
      (packets.encodeLong false conn.dcid conn.scid (conn.spaces .handshake).nextPn PN_LEN [] 0).map
        fun header => (header, header.length - PN_LEN, true)
  | .application =>
      (packets.encodeShort conn.dcid (conn.spaces .application).nextPn PN_LEN false).map
        fun header => (header, header.length - PN_LEN, false)

/-- The packet goes out: handshake bytes count as sent, and a packet that asks
for an acknowledgement is retained. -/
def noteSent (clock : Clock) (conn : Connection κ ξ) (space : PnSpace) (frames : List Frame)
    (ackEliciting : Bool) (size : Nat) : Connection κ ξ :=
  let cryptoBytes := if space = .application then 0 else cryptoLength frames
  { conn.updateSpace space (·.noteSent clock frames ackEliciting size cryptoBytes) with
    bytesInFlight := if ackEliciting then
        min (conn.bytesInFlight + size) (2 ^ 64 - 1)
      else
        conn.bytesInFlight
    ptoDue := ackEliciting || conn.ptoDue }

/-- Encode, protect and enqueue one packet; `none` when it cannot be made. -/
def sendOne (packets : PacketLibrary κ) (clock : Clock) (conn : Connection κ ξ) (space : PnSpace)
    (frames : List Frame) (ackEliciting : Bool) (maxDatagram : Nat) :
    Option (List Byte) × Connection κ ξ :=
  let payload := frames.flatMap packets.encodeFrame
  match conn.buildPacketHeader packets space with
  | none => (none, conn)
  | some (header, pnOffset, long) =>
      match (conn.spaces space).writeKey with
      | none =>
          (none, conn.updateSpace space fun before => { before with nextPn := before.nextPn + 1 })
      | some key =>
          match packets.sealPayload key (conn.spaces space).nextPn header payload with
          | none => (none, conn)
          | some sealedPayload =>
              let datagram := header ++ sealedPayload
              if datagram.length > maxDatagram then
                (none, conn)
              else
                match packets.protectHeader key datagram pnOffset long with
                | none => (none, conn)
                | some datagram =>
                    (some datagram,
                      conn.noteSent clock space frames ackEliciting datagram.length)

/-- The CRYPTO frame of the next packet, if there is one. -/
def cryptoFrames (conn : Connection κ ξ) (space : PnSpace) (maxDatagram : Nat) :
    Except Fault (List Frame) :=
  let current := conn.spaces space
  if current.hasCryptoToSend then
    match checkedSub current.cryptoSent current.cryptoAcked with
    | none => .error .cryptoOffset
    | some start =>
        let data := (current.cryptoSend.drop start).take (maxDatagram - 50)
        .ok (if data.isEmpty then [] else [.crypto current.cryptoSent data])
  else
    .ok []

/-- Credit for the peer, then STREAM frames; only the latter ask for an
acknowledgement. -/
def collectStreamFrames (order : Order) (conn : Connection κ ξ) (maxDatagram : Nat) :
    Except Fault (List Frame × Bool × Connection κ ξ) :=
  let limits := conn.recv.pendingMaxData.map Frame.maxData ++
    conn.recv.pendingMaxStreamData.map fun limit => Frame.maxStreamData limit.1 limit.2
  match conn.send.collectStreams (order.arrange conn.send.sendingIds) maxDatagram with
  | none => .error .streamOffset
  | some filling =>
      .ok (limits ++ filling.frames, !filling.frames.isEmpty,
        { conn with send := filling.state, recv := conn.recv.drainPending })

/-- A keep-alive, and a probe when there is nothing else to send. -/
def addPings (conn : Connection κ ξ) (space : PnSpace) (frames : List Frame)
    (ackEliciting : Bool) : List Frame × Bool × Connection κ ξ :=
  if conn.pingPending then
    (frames ++ [.ping], true, { conn with pingPending := false })
  else if space = .application && conn.ptoDue && frames.isEmpty then
    ([.ping], true, conn)
  else
    (frames, ackEliciting, conn)

/-- Handshake bytes in the first two spaces, credit and streams in the last. -/
def gatherFrames (order : Order) (conn : Connection κ ξ) (space : PnSpace) (maxDatagram : Nat) :
    Except Fault (List Frame × Bool × Connection κ ξ) :=
  if space = .application then
    conn.collectStreamFrames order maxDatagram
  else do
    let frames ← conn.cryptoFrames space maxDatagram
    return (frames, !frames.isEmpty, conn)

/-- The frames of the next packet of a space. -/
def nextFrames (order : Order) (conn : Connection κ ξ) (space : PnSpace) (maxDatagram : Nat) :
    Except Fault (List Frame × Bool × Connection κ ξ) := do
  let (frames, ackEliciting, conn) ← conn.gatherFrames order space maxDatagram
  return conn.addPings space frames ackEliciting

/-- The datagram that goes out next, and the connection without it. -/
def popDatagramTx (conn : Connection κ ξ) (space : PnSpace) (maxDatagram : Nat) :
    Option (List Byte × Connection κ ξ) :=
  match space, conn.datagramTx with
  | .application, datagram :: rest =>
      if datagram.length > maxDatagram - DATAGRAM_OVERHEAD then
        none
      else
        some (datagram, { conn with datagramTx := rest })
  | _, _ => none

end Connection

namespace Outbound

variable {κ ξ : Type}

/-- One packet more, if it could be made. -/
def push (building : Outbound κ ξ) : Option (List Byte) × Connection κ ξ → Outbound κ ξ
  | (datagram, conn) => { conn := conn, out := building.out ++ datagram.toList }

/-- One round for a space, and whether another one follows. -/
def round (packets : PacketLibrary κ) (clock : Clock) (order : Order) (space : PnSpace)
    (maxDatagram : Nat) (building : Outbound κ ξ) : Except Fault (Bool × Outbound κ ξ) :=
  if building.conn.cwnd - building.conn.bytesInFlight < 40 then
    .ok (false, building)
  else
    match building.conn.popDatagramTx space maxDatagram with
    | some (datagram, conn) =>
        let building := building.push
          (conn.sendOne packets clock space [.datagram datagram none] false maxDatagram)
        .ok (building.out.length < 32, building)
    | none =>
        match building.conn.nextFrames order space maxDatagram with
        | .error fault => .error fault
        | .ok (frames, ackEliciting, conn) =>
            if frames.isEmpty then
              .ok (false, { building with conn := conn })
            else
              let sent := conn.sendOne packets clock space frames ackEliciting maxDatagram
              let building := building.push sent
              .ok (sent.1.isSome && building.out.length < 32, building)

/-- Packets, until there is nothing to send. -/
def rounds (packets : PacketLibrary κ) (clock : Clock) (order : Order) (space : PnSpace)
    (maxDatagram : Nat) : (bound : Nat) → Outbound κ ξ → Except Fault (Outbound κ ξ)
  | 0, building => .ok building
  | bound + 1, building =>
      match building.round packets clock order space maxDatagram with
      | .error fault => .error fault
      | .ok (false, building) => .ok building
      | .ok (true, building) => rounds packets clock order space maxDatagram bound building

/-- An acknowledgement goes out in a packet of its own. -/
def sendAck (packets : PacketLibrary κ) (clock : Clock) (space : PnSpace) (maxDatagram : Nat)
    (building : Outbound κ ξ) : Outbound κ ξ :=
  let current := building.conn.spaces space
  if current.ackPending then
    match buildAck current.ackQueue with
    | none => building
    | some ack =>
        let conn := building.conn.updateSpace space fun before => { before with ackPending := false }
        building.push (conn.sendOne packets clock space [ack] false maxDatagram)
  else
    building

/-- The packets of one space. -/
def fill (packets : PacketLibrary κ) (clock : Clock) (order : Order) (maxDatagram : Nat)
    (building : Outbound κ ξ) (space : PnSpace) : Except Fault (Outbound κ ξ) :=
  if (building.conn.spaces space).writeKey.isNone then
    .ok building
  else
    (building.sendAck packets clock space maxDatagram).rounds packets clock order space
      maxDatagram (33 + building.conn.datagramTx.length)

end Outbound

namespace Connection

variable {κ ξ : Type}

/-- Build all pending packets. -/
def buildOutbound (packets : PacketLibrary κ) (clock : Clock) (order : Order)
    (conn : Connection κ ξ) : Except Fault (Outbound κ ξ) :=
  let maxDatagram := min conn.peerMaxUdpPayload MAX_UDP_PAYLOAD
  if conn.closed.isSome then
    .ok { conn := conn, out := [] }
  else
    [PnSpace.initial, .handshake, .application].foldlM
      (Outbound.fill packets clock order maxDatagram) { conn := conn, out := [] }

/-- The oldest packet in flight of a space that can send. -/
def probePacket (conn : Connection κ ξ) (space : PnSpace) : Option SentPacket :=
  if (conn.spaces space).writeKey.isNone then
    none
  else
    (conn.spaces space).sent.find? fun packet => packet.ackEliciting && packet.inFlight

/-- Send the frames of the oldest packet in the first of the spaces again. -/
def probeFirst (clock : Clock) (conn : Connection κ ξ) : List PnSpace → Connection κ ξ
  | [] => conn
  | space :: others =>
      match conn.probePacket space with
      | some packet => run (onLostFrame clock space) conn packet.frames
      | none => conn.probeFirst clock others

/-- A probe; the packet whose frames are sent again stays in flight. -/
def sendProbe (clock : Clock) (conn : Connection κ ξ) : Connection κ ξ :=
  { conn.probeFirst clock [.application, .handshake, .initial] with ptoDue := true }

end Connection

/-- What the application and the timers do to a connection. -/
inductive LocalOp where
  | flush (clock : Clock) (order : Order)
  | probe (clock : Clock)
  | keepAlive
  | openStream (uni : Bool)
  | sendData (streamId : Nat) (data : List Byte)
  | finStream (streamId : Nat)
  | recvInto (streamId size : Nat)
  | sendDatagram (data : List Byte)
  | popDatagram
  | close (error : QuicError)

namespace Connection

variable {κ ξ : Type}

/-- A new stream, unless closed. -/
def openStream (conn : Connection κ ξ) (uni : Bool) : Except QuicError Nat × Connection κ ξ :=
  match conn.closed with
  | some error => (.error error, conn)
  | none =>
      match conn.send.openStream uni with
      | (.error error, _) => (.error error, conn)
      | (.ok id, send) => (.ok id, { conn with send := send, recv := conn.recv.openStream id })

/-- A datagram is queued, unless closed. -/
def sendDatagram (conn : Connection κ ξ) (data : List Byte) :
    Except QuicError Unit × Connection κ ξ :=
  match conn.closed with
  | some error => (.error error, conn)
  | none =>
      if data.length > min conn.peerMaxUdpPayload MAX_UDP_PAYLOAD - DATAGRAM_OVERHEAD then
        (.error .datagramTooLarge, conn)
      else
        (.ok (), { conn with datagramTx := conn.datagramTx ++ [data] })

/-- The connection after a local operation. -/
def act (packets : PacketLibrary κ) (conn : Connection κ ξ) :
    LocalOp → Except Fault (Connection κ ξ)
  | .flush clock order => (conn.buildOutbound packets clock order).map Outbound.conn
  | .probe clock => .ok (conn.sendProbe clock)
  | .keepAlive => .ok { conn with pingPending := true }
  | .openStream uni => .ok (conn.openStream uni).2
  | .sendData streamId data =>
      if conn.closed.isSome then
        .ok conn
      else
        match conn.send.sendData streamId data with
        | none => .error .streamOffset
        | some (_, send) => .ok { conn with send := send }
  | .finStream streamId =>
      if conn.closed.isSome then
        .ok conn
      else
        .ok { conn with send := (conn.send.finStream streamId).2 }
  | .recvInto streamId size => .ok { conn with recv := (conn.recv.recvInto streamId size).2.2 }
  | .sendDatagram data => .ok (conn.sendDatagram data).2
  | .popDatagram => .ok { conn with datagramRx := conn.datagramRx.drop 1 }
  | .close error => .ok (conn.processFatal error)

end Connection

end Corduit.Protocol.Quic
