import Corduit.Protocol.Quic.Ack
import Corduit.Protocol.Quic.Send.Core
import Corduit.Protocol.Quic.Tls.Client

/-!
# QUIC connections

A connection has three packet-number spaces, the handshake and the streams.
The program keeps each stream in one record; here the table has two halves, one
for each direction, with the same streams in both.

Instants and durations are natural numbers.  What the round-trip estimate says
about them comes from a clock that is read once for each call; the estimate
itself and the wake-ups of waiting threads are left out.
-/

namespace Corduit.Protocol.Quic

open Collection Transition Word

/-- The longest queue of numbers. -/
def MAX_ACK_QUEUE : Nat := 256

/-- The longest queue of datagrams. -/
def MAX_DATAGRAM_QUEUE : Nat := 64

/-- What a packet adds to a datagram. -/
def DATAGRAM_OVERHEAD : Nat := 48

/-- The first window. -/
def INITIAL_CWND : Nat := 10 * 1200

/-- The least window. -/
def MIN_CWND : Nat := 2 * 1200

/-- The most bytes of a datagram. -/
def MAX_UDP_PAYLOAD : Nat := 1200

/-- Where the program stops: at a slice out of range, or at a subtraction that
goes below zero. -/
inductive Fault where
  | streamSlice
  | streamOffset
  | cryptoOffset
  deriving DecidableEq, Repr

/-- A packet-number space. -/
inductive PnSpace where
  | initial
  | handshake
  | application
  deriving DecidableEq, Repr

/-- One sent packet, retained until it is acknowledged or lost. -/
structure SentPacket where
  pn : Nat
  time : Nat
  size : Nat
  ackEliciting : Bool
  inFlight : Bool
  frames : List Frame

/-- What one call reads from the clock and the round-trip estimate. -/
structure Clock where
  now : Nat
  lossDelay : Nat
  recoveryPeriod : Nat

/-- The packet has been out for longer than the loss delay. -/
def Clock.expired (clock : Clock) (packet : SentPacket) : Bool :=
  clock.now - packet.time > clock.lossDelay

/-- One packet-number space, with keys of the type `κ`. -/
structure Space (κ : Type) where
  nextPn : Nat := 0
  largestRecvPn : Nat := 0
  ackQueue : OrderedSet Nat := .empty
  ackPending : Bool := false
  sent : List SentPacket := []
  cryptoRecv : List Byte := []
  cryptoSend : List Byte := []
  cryptoAcked : Nat := 0
  cryptoSent : Nat := 0
  cryptoWritten : Nat := 0
  key : Option κ := none
  writeKey : Option κ := none

namespace Space

variable {κ : Type}

/-- Whether bytes were written and not sent. -/
def hasCryptoToSend (space : Space κ) : Bool :=
  space.cryptoSent < space.cryptoWritten

/-- Everything before `stop` is acknowledged, as far as it was written. -/
def acknowledgeCrypto (space : Space κ) (stop : Nat) : Space κ :=
  if stop > space.cryptoAcked && stop ≤ space.cryptoWritten then
    { space with
      cryptoAcked := stop
      cryptoSend := space.cryptoSend.drop (min (stop - space.cryptoAcked) space.cryptoSend.length) }
  else
    space

/-- Send again from `start` on. -/
def rewindCrypto (space : Space κ) (start : Nat) : Space κ :=
  if start < space.cryptoSent then { space with cryptoSent := start } else space

/-- The handshake has more to send. -/
def writeCrypto (space : Space κ) (data : List Byte) : Space κ :=
  { space with
    cryptoSend := space.cryptoSend ++ data
    cryptoWritten := space.cryptoWritten + data.length }

/-- The keys of the space are forgotten. -/
def dropKeys (space : Space κ) : Space κ :=
  { space with key := none, writeKey := none }

end Space

/-- The state of a connection, with keys of the type `κ` and certificates of the
type `ξ`. -/
structure Connection (κ ξ : Type) where
  tls : Tls13Client κ ξ
  scid : List Byte
  dcid : List Byte
  retryToken : List Byte
  spaces : PnSpace → Space κ
  send : SendState
  recv : ConnState
  datagramTx : List (List Byte)
  datagramRx : List (List Byte)
  handshakeComplete : Bool
  handshakeConfirmed : Bool
  pingPending : Bool
  closed : Option QuicError
  cwnd : Nat
  ssthresh : Nat
  bytesInFlight : Nat
  ptoDue : Bool
  recoveryStart : Option Nat

/-- Lay the bytes of a CRYPTO frame over those that wait; `none` when they begin
behind their end. -/
def overlay (waiting : List Byte) (offset : Nat) (data : List Byte) : Option (List Byte) :=
  let expected := waiting.length
  if offset = expected then
    some (waiting ++ data)
  else if offset < expected then
    let new := min (offset + data.length) expected
    let overwritten := if new > offset then
        waiting.take offset ++ data.take (new - offset) ++ waiting.drop new
      else
        waiting
    if offset + data.length > expected then
      some (overwritten ++ data.drop (expected - offset))
    else
      some overwritten
  else
    none

namespace Connection

variable {κ ξ : Type}

/-- Change one space. -/
def updateSpace (conn : Connection κ ξ) (space : PnSpace) (change : Space κ → Space κ) :
    Connection κ ξ :=
  { conn with spaces := Function.update conn.spaces space (change (conn.spaces space)) }

/-- A new connection has its ClientHello queued and the first keys. -/
def start (tls : Tls13Client κ ξ) (scid dcid : List Byte) (key writeKey : κ)
    (initialMaxData initialMaxStreamData : Nat) : Connection κ ξ where
  tls := tls
  scid := scid
  dcid := dcid
  retryToken := []
  spaces := Function.update (fun _ => {}) .initial
    { key := some key
      writeKey := some writeKey
      cryptoSend := tls.clientHello
      cryptoWritten := tls.clientHello.length }
  send := .start
  recv := .start initialMaxData initialMaxStreamData
  datagramTx := []
  datagramRx := []
  handshakeComplete := false
  handshakeConfirmed := false
  pingPending := false
  closed := none
  cwnd := INITIAL_CWND
  ssthresh := 2 ^ 64 - 1
  bytesInFlight := 0
  ptoDue := false
  recoveryStart := none

/-- The first error closes the connection. -/
def processFatal (conn : Connection κ ξ) (error : QuicError) : Connection κ ξ :=
  if conn.closed.isNone then { conn with closed := some error } else conn

/-- Copy the keys of the handshake into the spaces. -/
def installKeys (conn : Connection κ ξ) : Connection κ ξ :=
  let conn := conn.updateSpace .handshake fun space =>
    { space with
      writeKey := space.writeKey.or conn.tls.hsWrite
      key := space.key.or conn.tls.hsRead }
  if conn.tls.isComplete then
    conn.updateSpace .application fun space =>
      { space with
        writeKey := conn.tls.appWrite.or space.writeKey
        key := conn.tls.appRead.or space.key }
  else
    conn

/-- Move what the handshake has to send into the Handshake space. -/
def takeCryptoPending (conn : Connection κ ξ) : Connection κ ξ :=
  let pending := conn.tls.cryptoPending
  let conn := { conn with tls := { conn.tls with cryptoPending := [] } }
  if pending.isEmpty then conn else conn.updateSpace .handshake (·.writeCrypto pending)

/-- A CRYPTO frame arrives. -/
def onCrypto (library : TlsLibrary κ ξ) (conn : Connection κ ξ) (space : PnSpace) (offset : Nat)
    (data : List Byte) : Except QuicError Unit × Connection κ ξ :=
  match overlay (conn.spaces space).cryptoRecv offset data with
  | none => (.error (.protocol "CRYPTO gap from peer"), conn)
  | some waiting =>
      match conn.tls.consumeCrypto library waiting with
      | (.error error, tls) =>
          (.error error,
            { conn.updateSpace space fun before => { before with cryptoRecv := waiting } with
              tls := tls })
      | (.ok consumed, tls) =>
          let fed := { conn.updateSpace space fun before =>
              { before with cryptoRecv := waiting.drop consumed } with tls := tls }
          let keyed := fed.takeCryptoPending.installKeys
          (.ok (), { keyed with
            handshakeComplete := keyed.handshakeComplete || keyed.tls.isComplete })

/-- A frame of an acknowledged packet.  CRYPTO bytes count for both handshake
spaces. -/
def onAckedFrame (conn : Connection κ ξ) : Frame → Connection κ ξ
  | .stream streamId offset data _ fin =>
      let send := conn.send.onAckedStream streamId offset data fin
      { conn with
        send := send
        recv := if (send.streams.lookup streamId).any (·.finAcked) then
            conn.recv.onFinAcked streamId
          else
            conn.recv }
  | .crypto offset data =>
      (conn.updateSpace .initial (·.acknowledgeCrypto (offset + data.length))).updateSpace
        .handshake (·.acknowledgeCrypto (offset + data.length))
  | _ => conn

/-- The congestion window after a loss. -/
def noteLoss (clock : Clock) (conn : Connection κ ξ) : Connection κ ξ :=
  if conn.recoveryStart.any fun start => clock.now - start < clock.recoveryPeriod then
    conn
  else
    { conn with
      ssthresh := max (conn.cwnd / 2) MIN_CWND
      cwnd := max (conn.cwnd / 2) MIN_CWND
      recoveryStart := some clock.now }

/-- A frame of a lost packet. -/
def onLostFrame (clock : Clock) (space : PnSpace) (conn : Connection κ ξ) : Frame → Connection κ ξ
  | .stream streamId offset _ _ fin =>
      noteLoss clock { conn with send := conn.send.onLostStream streamId offset fin }
  | .crypto offset _ => noteLoss clock (conn.updateSpace space (·.rewindCrypto offset))
  | _ => noteLoss clock conn

/-- The congestion window after acknowledgements. -/
def onAcksCc (conn : Connection κ ξ) (numAcked : Nat) : Connection κ ξ :=
  let mss := 1200
  let grown := if conn.cwnd < conn.ssthresh then
      min (conn.cwnd + mss * numAcked) (2 ^ 64 - 1)
    else
      min (conn.cwnd + mss * mss * numAcked / max conn.cwnd mss) (2 ^ 64 - 1)
  { conn with
    cwnd := grown
    recoveryStart := if conn.bytesInFlight < grown / 2 then none else conn.recoveryStart }

/-- The sent packets that an ACK frame covers. -/
def ackedPackets (conn : Connection κ ξ) (space : PnSpace) (intervals : List (Nat × Nat)) :
    List SentPacket :=
  (conn.spaces space).sent.filter fun packet => ackCovers intervals packet.pn

/-- The sent packets that are late when others are acknowledged. -/
def lostPackets (conn : Connection κ ξ) (clock : Clock) (space : PnSpace)
    (intervals : List (Nat × Nat)) : List SentPacket :=
  (conn.spaces space).sent.filter fun packet =>
    !ackCovers intervals packet.pn && (packet.inFlight && clock.expired packet)

/-- Acknowledged and lost packets are no longer retained, nor in flight. -/
def settleSent (conn : Connection κ ξ) (clock : Clock) (space : PnSpace)
    (intervals : List (Nat × Nat)) : Connection κ ξ :=
  let acked := conn.ackedPackets space intervals
  let lost := conn.lostPackets clock space intervals
  { conn.updateSpace space fun before =>
    { before with
      sent := before.sent.filter fun packet =>
        !ackCovers intervals packet.pn && !(packet.inFlight && clock.expired packet) } with
    bytesInFlight := conn.bytesInFlight -
      ((acked.filter (·.inFlight) ++ lost).map (·.size)).sum }

/-- An ACK frame arrives: every sent packet is acknowledged, lost or retained. -/
def onAck (conn : Connection κ ξ) (clock : Clock) (space : PnSpace) (largestAcked : Nat)
    (ranges : List (Nat × Nat)) : Connection κ ξ :=
  let intervals := ackIntervals largestAcked ranges
  let acked := conn.ackedPackets space intervals
  let lost := conn.lostPackets clock space intervals
  let progressed := run onAckedFrame (conn.settleSent clock space intervals)
    (acked.flatMap (·.frames))
  let rewound := run (onLostFrame clock space) progressed (lost.flatMap (·.frames))
  let grown := if acked.length > 0 then rewound.onAcksCc acked.length else rewound
  { grown with ptoDue := false }

/-- The other half of the table after a STREAM frame: streams that were swept
are gone, and a new stream has no credit. -/
def syncStreams (send : SendState) (recv : ConnState) (streamId : Nat) : SendState :=
  let kept := send.streams.eraseAll
    (send.streams.keysWhere fun id _ => (recv.streams.lookup id).isNone)
  { send with
    streams := if (kept.lookup streamId).isNone && (recv.streams.lookup streamId).isSome then
        kept.insert streamId { peerLimit := 0 }
      else
        kept }

/-- A RESET_STREAM frame is noted in both halves of the table. -/
def onResetStream (conn : Connection κ ξ) (streamId appErrorCode : Nat) : Connection κ ξ :=
  { conn with
    recv := conn.recv.onResetStream streamId appErrorCode
    send := match conn.send.streams.lookup streamId with
      | none => conn.send
      | some stream =>
          { conn.send with
            streams := conn.send.streams.insert streamId
              { stream with resetRecv := some appErrorCode } } }

/-- A frame of a packet that was opened. -/
def processFrame (library : TlsLibrary κ ξ) (clock : Clock) (space : PnSpace) (conn : Connection κ ξ) :
    Frame → Except Fault (Except QuicError Unit × Connection κ ξ)
  | .ack largestAcked _ ranges _ => .ok (.ok (), conn.onAck clock space largestAcked ranges)
  | .crypto offset data => .ok (conn.onCrypto library space offset data)
  | .stream streamId offset data _ fin =>
      match conn.recv.onStream streamId (offset.getD 0) data fin with
      | none => .error .streamSlice
      | some (result, recv) =>
          .ok (result, { conn with recv := recv, send := syncStreams conn.send recv streamId })
  | .maxData max => .ok (.ok (), { conn with send := conn.send.onMaxData max })
  | .maxStreamData streamId max =>
      .ok (.ok (), { conn with send := conn.send.onMaxStreamData streamId max })
  | .maxStreams unidirectional max =>
      .ok (.ok (), { conn with send := conn.send.onMaxStreams unidirectional max })
  | .resetStream streamId appErrorCode =>
      .ok (.ok (), conn.onResetStream streamId appErrorCode)
  | .connectionClose errorCode reason =>
      .ok (.ok (), { conn with closed := some (.closedByPeer errorCode reason) })
  | .handshakeDone =>
      .ok (.ok (), { (conn.updateSpace .initial Space.dropKeys).updateSpace .handshake
          Space.dropKeys with handshakeConfirmed := true })
  | .datagram data _ =>
      let queue := if conn.datagramRx.length ≥ MAX_DATAGRAM_QUEUE then
          conn.datagramRx.drop 1
        else
          conn.datagramRx
      .ok (.ok (), { conn with datagramRx := queue ++ [data] })
  | .stopSending | .newConnectionId | .retireConnectionId | .newToken | .pathChallenge
  | .pathResponse | .padding | .dataBlocked | .streamDataBlocked | .streamsBlocked | .ping =>
      .ok (.ok (), conn)

end Connection

end Corduit.Protocol.Quic
