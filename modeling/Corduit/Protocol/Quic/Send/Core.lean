import Corduit.Protocol.Quic.Frame

/-!
# The send side of QUIC streams

The application appends bytes to the buffer of a stream.  A packet takes bytes
from the streams that have some, within the credit of the peer and the space
left in the packet.  Acknowledged bytes leave the buffer; lost frames move the
send position back, and the bytes are sent again.

Limits and offsets are below `2 ^ 62`, so their sums do not wrap; the counters
that saturate in the program stay below a limit.  A subtraction that would go
below zero stops the program, and is `none`.
-/

namespace Corduit.Protocol.Quic

open Collection Transition Word

/-- The most bytes that wait to be sent. -/
def MAX_SEND_BUFFER : Nat := 4 * 1024 * 1024

/-- The fields of a stream that the send path reads and writes. -/
structure SendStream where
  sendBuf : List Byte := []
  ackPos : Nat := 0
  writePos : Nat := 0
  sentThrough : Nat := 0
  sentHigh : Nat := 0
  peerLimit : Nat
  finQueued : Bool := false
  finSent : Bool := false
  finAcked : Bool := false
  resetSent : Option Nat := none
  resetRecv : Option Nat := none
  deriving DecidableEq, Repr

/-- Whether the stream has something to send. -/
def SendStream.hasSendData (stream : SendStream) : Bool :=
  !stream.finAcked &&
    (stream.sentThrough < stream.writePos || (stream.finQueued && !stream.finSent))

/-- Everything before `stop` is acknowledged. -/
def SendStream.acknowledge (stream : SendStream) (stop : Nat) : SendStream :=
  if stop > stream.ackPos then
    let drained := stream.sendBuf.drop (min (stop - stream.ackPos) stream.sendBuf.length)
    { stream with
      ackPos := stop
      sendBuf := if stop ≥ stream.writePos then [] else drained }
  else
    stream

/-- Send again from `start` on. -/
def SendStream.rewind (stream : SendStream) (start : Nat) : SendStream :=
  if start < stream.sentThrough then { stream with sentThrough := start } else stream

/-- The fields of a connection that the send path reads and writes. -/
structure SendState where
  streams : Table Nat SendStream
  nextBidi : Nat
  nextUni : Nat
  peerBidiLimit : Nat
  peerUniLimit : Nat
  peerMaxData : Nat
  peerMaxStreamDataBidi : Nat
  peerMaxStreamDataUni : Nat
  totalSent : Nat
  totalAcked : Nat

namespace SendState

/-- A new connection knows no limits of the peer. -/
def start : SendState where
  streams := ∅
  nextBidi := 0
  nextUni := 2
  peerBidiLimit := 0
  peerUniLimit := 0
  peerMaxData := 0
  peerMaxStreamDataBidi := 0
  peerMaxStreamDataUni := 0
  totalSent := 0
  totalAcked := 0

/-- A connection without streams whose peer has granted some limits. -/
def withLimits (bidiLimit uniLimit maxData maxStreamDataBidi maxStreamDataUni : Nat) : SendState :=
  { start with
    peerBidiLimit := bidiLimit
    peerUniLimit := uniLimit
    peerMaxData := maxData
    peerMaxStreamDataBidi := maxStreamDataBidi
    peerMaxStreamDataUni := maxStreamDataUni }

/-- A new stream, if the peer allows one. -/
def openStream (state : SendState) (uni : Bool) : Except QuicError Nat × SendState :=
  if uni then
    let id := state.nextUni
    if id / 4 ≥ state.peerUniLimit then
      (.error .streamLimit, state)
    else
      (.ok id, { state with
        nextUni := state.nextUni + 4
        streams := state.streams.insert id { peerLimit := state.peerMaxStreamDataUni } })
  else
    let id := state.nextBidi
    if id / 4 ≥ state.peerBidiLimit then
      (.error .streamLimit, state)
    else
      (.ok id, { state with
        nextBidi := state.nextBidi + 4
        streams := state.streams.insert id { peerLimit := state.peerMaxStreamDataBidi } })

/-- Append to the buffer of a stream as much as fits; `none` is a panic. -/
def sendData (state : SendState) (streamId : Nat) (data : List Byte) :
    Option (Except QuicError Nat × SendState) :=
  match state.streams.lookup streamId with
  | none => some (.error (.protocol "unknown stream"), state)
  | some stream =>
      if stream.resetSent.isSome || stream.resetRecv.isSome then
        some (.error (.streamReset 0), state)
      else do
        let buffered ← checkedSub stream.writePos stream.ackPos
        if buffered ≥ MAX_SEND_BUFFER then
          return (.error .streamLimit, state)
        else
          let take := min data.length (MAX_SEND_BUFFER - buffered)
          return (.ok take, { state with
            streams := state.streams.insert streamId { stream with
              sendBuf := stream.sendBuf ++ data.take take
              writePos := stream.writePos + take } })

/-- The end of a stream is queued. -/
def finStream (state : SendState) (streamId : Nat) : Except QuicError Unit × SendState :=
  match state.streams.lookup streamId with
  | none => (.error (.protocol "unknown stream"), state)
  | some stream =>
      (.ok (), { state with
        streams := state.streams.insert streamId { stream with finQueued := true } })

/-- How far the stream may be sent. -/
def sendLimit (state : SendState) (id : Nat) : Nat :=
  if id &&& 1 = 0 then state.peerMaxStreamDataBidi else state.peerMaxStreamDataUni

/-- The credit that a stream has left, its own and that of the connection. -/
def avail (state : SendState) (id : Nat) (stream : SendStream) : Nat :=
  min (state.sendLimit id - stream.sentThrough) (state.peerMaxData - state.totalSent)

end SendState

/-- A packet that is being filled: the connection, the bytes left in the packet
and the frames put into it. -/
structure Filling where
  state : SendState
  budget : Nat
  frames : List Frame

namespace Filling

/-- The turn of one stream; `none` is a panic.  The loop of the program ends
when too few bytes are left, which no later turn changes. -/
def turn (packet : Filling) (id : Nat) : Option Filling :=
  if packet.budget < 16 then
    some packet
  else
    match packet.state.streams.lookup id with
    | none => some packet
    | some stream =>
        if stream.resetSent.isSome then
          some packet
        else if packet.state.avail id stream = 0 then
          some packet
        else do
          let start ← checkedSub stream.sentThrough stream.ackPos
          let take := min (min (packet.state.avail id stream) packet.budget)
            (stream.writePos - stream.sentThrough)
          if take > 0 then
            let data := (stream.sendBuf.drop start).take take
            let newThrough := stream.sentThrough + take
            let fin := stream.finQueued && !stream.finSent && newThrough == stream.writePos
            return {
              state := { packet.state with
                streams := packet.state.streams.insert id { stream with
                  sentHigh := newThrough
                  sentThrough := newThrough
                  finSent := fin || stream.finSent }
                totalSent := packet.state.totalSent + (newThrough - stream.sentHigh) }
              budget := packet.budget - take
              frames := packet.frames ++
                [.stream id (some (newThrough - take)) data none fin] }
          else if stream.finQueued && !stream.finSent && stream.sentThrough == stream.writePos then
            return { packet with
              state := { packet.state with
                streams := packet.state.streams.insert id { stream with finSent := true } }
              frames := packet.frames ++
                [.stream id (some stream.sentThrough) [] none true] }
          else
            return packet

/-- Turns one after the other; nothing follows a panic. -/
def advance (packet : Option Filling) (id : Nat) : Option Filling :=
  packet.bind fun packet => packet.turn id

end Filling

namespace SendState

/-- The streams with something to send. -/
def sendingIds (state : SendState) : List Nat :=
  state.streams.keysWhere fun _ stream => stream.hasSendData

/-- Put STREAM frames into a packet.  `ids` are the streams with something to
send, in the order in which the table lists them. -/
def collectStreams (state : SendState) (ids : List Nat) (maxDatagram : Nat) : Option Filling :=
  run Filling.advance (some { state := state, budget := maxDatagram - 50, frames := [] }) ids

/-- A STREAM frame was acknowledged. -/
def onAckedStream (state : SendState) (streamId : Nat) (offset : Option Nat) (data : List Byte)
    (fin : Bool) : SendState :=
  match state.streams.lookup streamId with
  | none => state
  | some stream =>
      let stop := offset.getD 0 + data.length
      { state with
        streams := state.streams.insert streamId { stream.acknowledge stop with
          finAcked := (fin && stop ≥ stream.sentThrough) || stream.finAcked }
        totalAcked := if stop > stream.ackPos then
            min (state.totalAcked + data.length) (2 ^ 64 - 1)
          else
            state.totalAcked }

/-- A STREAM frame was lost. -/
def onLostStream (state : SendState) (streamId : Nat) (offset : Option Nat) (fin : Bool) :
    SendState :=
  match state.streams.lookup streamId with
  | none => state
  | some stream =>
      { state with
        streams := state.streams.insert streamId { stream.rewind (offset.getD 0) with
          finSent := !fin && stream.finSent } }

/-- More credit for the connection. -/
def onMaxData (state : SendState) (max : Nat) : SendState :=
  if max > state.peerMaxData then { state with peerMaxData := max } else state

/-- More credit for a stream. -/
def onMaxStreamData (state : SendState) (streamId max : Nat) : SendState :=
  match state.streams.lookup streamId with
  | none => state
  | some stream =>
      if max > stream.peerLimit then
        { state with streams := state.streams.insert streamId { stream with peerLimit := max } }
      else
        state

/-- More streams. -/
def onMaxStreams (state : SendState) (unidirectional : Bool) (max : Nat) : SendState :=
  if unidirectional then
    if max > state.peerUniLimit then { state with peerUniLimit := max } else state
  else if max > state.peerBidiLimit then
    { state with peerBidiLimit := max }
  else
    state

end SendState

end Corduit.Protocol.Quic
