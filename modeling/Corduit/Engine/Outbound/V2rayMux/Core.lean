import Corduit.Collection.Segments
import Corduit.Transport.Scratch
import Corduit.Transport.Session

/-!
# Mux.Cool sessions

The one session that a connection of the v2ray plugin carries.  The writer puts
a NEW frame before the first payload and each payload into KEEP frames; the
reader resumes at whatever byte the transport stopped it.
-/

namespace Corduit.Engine.Outbound.V2rayMux

open Collection Transport Word

/-- `NEW_FRAME`. -/
def newFrame : List Byte :=
  [0x00, 0x11, 0x00, 0x00, 0x01, 0x00, 0x01, 0x00, 0x00, 0x02,
    0x31, 0x32, 0x37, 0x2e, 0x30, 0x2e, 0x30, 0x2e, 0x31]

/-- `SESSION_STATUS_NEW`. -/
def sessionStatusNew : Byte := 0x01

/-- `SESSION_STATUS_KEEP`. -/
def sessionStatusKeep : Byte := 0x02

/-- `SESSION_STATUS_END`. -/
def sessionStatusEnd : Byte := 0x03

/-- `SESSION_STATUS_KEEP_ALIVE`. -/
def sessionStatusKeepAlive : Byte := 0x04

/-- `OPTION_DATA`. -/
def optionData : Byte := 0x01

/-- `MAX_METADATA`. -/
def maxMetadata : Nat := 512

/-- `MAX_FRAME_PAYLOAD`. -/
def maxFramePayload : Nat := 8 * 1024

/-- `MuxStream`, with the reading side of its transport. -/
structure MuxStream where
  inner : Incoming
  newPending : Bool := true
  head : Scratch := .zeroed 6
  size : Scratch := .zeroed 2
  sizeExpected : Bool := false
  dataRemaining : Nat := 0
  skipRemaining : Nat := 0
  sawEnd : Bool := false

namespace MuxStream

/-- The peer closed in a place where a frame is not complete. -/
def closedMidFrame : IoError :=
  ⟨.unexpectedEof, "mux: the peer closed mid-frame"⟩

/-- Hand out payload. -/
def drainPayload (stream : MuxStream) (room : Nat) : Answer × MuxStream :=
  match stream.inner.read (min stream.dataRemaining room) with
  | (.error error, inner) => (.error error, { stream with inner := inner })
  | (.ok [], inner) => (.error closedMidFrame, { stream with inner := inner })
  | (.ok bytes, inner) =>
      (.ok bytes,
        { stream with
          inner := inner
          dataRemaining := stream.dataRemaining - bytes.length })

/-- `drain_skip`: at most 4096 bytes at a time. -/
def drainSkip (stream : MuxStream) : Except IoError Unit × MuxStream :=
  let fill := stream.inner.fill (fun _ => false) 4096 stream.skipRemaining
  let stream' := { stream with
    inner := fill.incoming
    skipRemaining := stream.skipRemaining - fill.bytes.length }
  match fill.ending with
  | .filled => (.ok (), stream')
  | .eof =>
      (.error ⟨.unexpectedEof, "mux: the peer closed in the middle of a frame"⟩, stream')
  | .failed error => (.error error, stream')

/-- What `read` does with a complete head: the checks, and what the frame makes
it expect. -/
def takeHead (stream : MuxStream) : Except IoError MuxStream :=
  let length := ofBeBytes (slice stream.head.bytes 0 2)
  let session := ofBeBytes (slice stream.head.bytes 2 2)
  let status := stream.head.bytes.getD 4 0
  let option := stream.head.bytes.getD 5 0
  if length < 4 || maxMetadata < length then
    .error ⟨.invalidData, s!"mux: metadata length {length} is out of range"⟩
  else if session ≠ 0 then
    .error ⟨.invalidData,
      s!"mux: the peer addressed session {session}, not this connection's"⟩
  else if status = sessionStatusNew then
    .error ⟨.invalidData, "mux: the peer opened a session on a stream that owns one"⟩
  else if status ≠ sessionStatusEnd && status ≠ sessionStatusKeep &&
      status ≠ sessionStatusKeepAlive then
    .error ⟨.invalidData, s!"mux: unknown session status {status.toNat}"⟩
  else
    .ok { stream with
      sawEnd := stream.sawEnd || status = sessionStatusEnd
      skipRemaining := stream.skipRemaining + (length - 4)
      sizeExpected := stream.sizeExpected || option &&& optionData ≠ 0 }

/-- One turn of the loop of `read`. -/
def turn (room : Nat) (stream : MuxStream) : Turn MuxStream Answer :=
  if 0 < stream.dataRemaining then
    let (answer, stream') := stream.drainPayload room
    .returns answer stream'
  else if stream.sawEnd && stream.head.filled = 0 && stream.skipRemaining = 0 then
    .returns (.ok []) stream
  else if 0 < stream.skipRemaining then
    match stream.drainSkip with
    | (.ok (), stream') => .again stream'
    | (.error error, stream') => .returns (.error error) stream'
  else if stream.sizeExpected then
    match stream.size.fill stream.inner with
    | (.filled, size, inner) =>
        let value := ofBeBytes size.bytes
        let stream' := { stream with
          inner := inner
          size := { size with filled := 0 }
          sizeExpected := false }
        if stream.head.bytes.getD 4 0 = sessionStatusKeep then
          .again { stream' with dataRemaining := value }
        else
          .again { stream' with skipRemaining := stream.skipRemaining + value }
    | (.eof, size, inner) =>
        .returns (.error closedMidFrame) { stream with inner := inner, size := size }
    | (.failed error, size, inner) =>
        .returns (.error error) { stream with inner := inner, size := size }
  else
    match stream.head.fill stream.inner with
    | (.filled, head, inner) =>
        let stream' := { stream with inner := inner, head := { head with filled := 0 } }
        match stream'.takeHead with
        | .ok stream'' => .again stream''
        | .error error => .returns (.error error) stream'
    | (.eof, head, inner) =>
        let stream' := { stream with inner := inner, head := head }
        if head.filled = 0 then .returns (.ok []) stream'
        else .returns (.error closedMidFrame) stream'
    | (.failed error, head, inner) =>
        .returns (.error error) { stream with inner := inner, head := head }

/-- `Read::read`.  Every further turn of its loop has taken a byte off the
transport. -/
def read : Reader MuxStream := fun stream room =>
  if room = 0 then some (.ok [], stream)
  else loop (turn room) (stream.inner.wire.length + 1) stream

/-- What `write` puts on the wire for one chunk. -/
def keepFrame (chunk : List Byte) : List Byte :=
  toBeBytes 2 (4 : BitVec 16) ++ [0x00, 0x00] ++ [sessionStatusKeep] ++ [optionData] ++
    toBeBytes 2 (BitVec.ofNat 16 chunk.length) ++ chunk

/-- `Write::write`: what it writes to the transport, all at once. -/
def write (stream : MuxStream) (buf : List Byte) : List Byte × MuxStream :=
  if buf = [] then ([], stream)
  else
    ((if stream.newPending then newFrame else []) ++
      (chunks maxFramePayload buf).flatMap keepFrame,
      { stream with newPending := false })

end MuxStream

end Corduit.Engine.Outbound.V2rayMux
