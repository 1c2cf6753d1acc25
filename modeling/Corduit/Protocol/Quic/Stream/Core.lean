import Corduit.Collection.OrderedMap
import Corduit.Collection.Segments
import Corduit.Collection.Table
import Corduit.Transition.Core

/-!
# The receive side of QUIC streams

STREAM frames arrive in any order.  Bytes at the end of the contiguous prefix
are appended to it; bytes further out wait in a map from offsets to segments,
and are promoted when the prefix reaches them.  The application drains the
prefix.

Offsets are decoded from variable-length integers below `2 ^ 62`, so sums of an
offset and a length do not wrap.  A slice out of range stops the program, and
is `none`; so is a merge loop that does not end within the number of segments
it started from.
-/

namespace Corduit.Protocol.Quic

open Collection Transition Word

/-- The errors that the modelled functions return. -/
inductive QuicError where
  | protocol (message : String)
  | certificate (message : String)
  | closedByPeer (errorCode : Nat) (reason : List Byte)
  | streamReset (errorCode : Nat)
  | streamLimit
  | datagramTooLarge
  | closed
  | timeout
  | idleTimeout
  deriving DecidableEq, Repr

/-- The most bytes that wait to be read. -/
def MAX_RECV_BUFFER : Nat := 16 * 1024 * 1024

/-- The most streams of the table. -/
def MAX_TRACKED_STREAMS : Nat := 1024

/-- The size from which on the table is swept. -/
def STREAM_TABLE_SWEEP_THRESHOLD : Nat := 768

/-- The fields of a stream that the receive path reads and writes. -/
structure StreamState where
  finAcked : Bool := false
  resetRecv : Option Nat := none
  recvPrefix : List Byte := []
  recvContig : Nat := 0
  recvGaps : OrderedMap Nat (List Byte) := .empty
  peerSendLimit : Nat
  finRecv : Bool := false
  finRecvOffset : Nat := 0

namespace StreamState

/-- The bytes that wait. -/
def bufferedRecv (stream : StreamState) : Nat :=
  stream.recvPrefix.length + stream.recvGaps.weight List.length

/-- Where the contiguous bytes end: `recv_contig + recv_prefix.len()`. -/
def prefixEnd (stream : StreamState) : Nat :=
  stream.recvContig + stream.recvPrefix.length

/-- One turn of the promotion loop takes the first segment if it stands at the
end of the prefix. -/
def promoteNext (stream : StreamState) : Option StreamState :=
  match stream.recvGaps.entries.head? with
  | some (key, segment) =>
      if key = stream.prefixEnd then
        some { stream with
          recvGaps := stream.recvGaps.erase key
          recvPrefix := stream.recvPrefix ++ segment }
      else
        none
  | none => none

/-- Promote segments that are now contiguous with the prefix. -/
def promoteGaps (stream : StreamState) : StreamState :=
  drain promoteNext stream.recvGaps.entries.length stream

end StreamState

/-- `v[..count]`. -/
def sliceTo (data : List Byte) (count : Nat) : Option (List Byte) :=
  if count ≤ data.length then some (data.take count) else none

/-- `v[from..]`. -/
def sliceFrom (data : List Byte) (start : Nat) : Option (List Byte) :=
  if start ≤ data.length then some (data.drop start) else none

/-- Join one stored segment to the merged one.  `mergedEnd` is the end of the
merged segment when the round began. -/
def absorb (mergedEnd : Nat) (merged : Segment Byte) (stored : Segment Byte) :
    Option (Segment Byte) := do
  let (mergedOffset, data) := merged
  let (key, value) := stored
  let valueEnd := key + value.length
  let newStart := min mergedOffset key
  let front ← (if newStart < mergedOffset then
      (checkedSub mergedOffset key).bind (sliceTo value)
    else
      some [])
  let back ← (if valueEnd > mergedEnd then
      (checkedSub mergedEnd key).bind (sliceFrom value)
    else
      some [])
  return (newStart, front ++ data ++ back)

/-- The stored segments that overlap or touch the merged one. -/
def overlapping (gaps : OrderedMap Nat (List Byte)) (merged : Segment Byte) :
    List (Segment Byte) :=
  gaps.entries.filter fun entry =>
    entry.1 ≤ merged.1 + merged.2.length && entry.1 + entry.2.length ≥ merged.1

/-- The merge loop: absorb what overlaps, round after round. -/
def mergeLoop : Nat → OrderedMap Nat (List Byte) → Segment Byte →
    Option (OrderedMap Nat (List Byte) × Segment Byte)
  | 0, _, _ => none
  | bound + 1, gaps, merged => do
      let found := overlapping gaps merged
      if found.isEmpty then
        some (gaps, merged)
      else
        let merged ← found.foldlM (absorb (merged.1 + merged.2.length)) merged
        let gaps := found.foldl (fun gaps entry => gaps.erase entry.1) gaps
        mergeLoop bound gaps merged

/-- Insert an out-of-order segment into the map, merging overlaps. -/
def insertGap (gaps : OrderedMap Nat (List Byte)) (offset : Nat) (data : List Byte) :
    Option (OrderedMap Nat (List Byte)) := do
  let (gaps, merged) ← mergeLoop (gaps.entries.length + 1) gaps (offset, data)
  return gaps.insert merged.1 merged.2

/-- The fields of a connection that the receive path reads and writes. -/
structure ConnState where
  streams : Table Nat StreamState
  myMaxStreamDataBidiLocal : Nat
  myMaxStreamDataBidiRemote : Nat
  myMaxStreamDataUni : Nat
  maxDataAdvertised : Nat
  totalRecv : Nat
  pendingMaxData : List Nat
  pendingMaxStreamData : List (Nat × Nat)

/-- The credit of a stream. -/
def recvWindowFor (conn : ConnState) (streamId : Nat) : Nat :=
  if streamId &&& 1 = 0 then conn.myMaxStreamDataBidiLocal
  else if streamId &&& 2 ≠ 0 then conn.myMaxStreamDataUni
  else conn.myMaxStreamDataBidiRemote

/-- Both directions of the stream have finished. -/
def streamFullyClosed (id : Nat) (stream : StreamState) : Bool :=
  let clientInitiated := id &&& 1 == 0
  let uni := id &&& 2 != 0
  let recvDone := if uni && clientInitiated then true
    else stream.finRecv && stream.recvContig ≥ stream.finRecvOffset &&
      stream.recvPrefix.isEmpty && stream.recvGaps.entries.isEmpty
  let sendDone := if uni && !clientInitiated then true else stream.finAcked
  recvDone && sendDone

namespace ConnState

/-- The receive side of a new connection. -/
def start (initialMaxData initialMaxStreamData : Nat) : ConnState where
  streams := ∅
  myMaxStreamDataBidiLocal := initialMaxStreamData
  myMaxStreamDataBidiRemote := initialMaxStreamData
  myMaxStreamDataUni := initialMaxStreamData
  maxDataAdvertised := initialMaxData
  totalRecv := 0
  pendingMaxData := []
  pendingMaxStreamData := []

/-- Raise the credit of the peer when the windows are more than half used. -/
def bumpRecvCredit (conn : ConnState) (streamId : Nat) : ConnState :=
  match conn.streams.lookup streamId with
  | none => conn
  | some stream =>
      let consumed := stream.prefixEnd
      let window := stream.peerSendLimit
      let conn := if window > 0 && consumed + window / 2 > window then
          let newLimit := window + window / 2
          { conn with
            streams := conn.streams.insert streamId { stream with peerSendLimit := newLimit }
            pendingMaxStreamData := conn.pendingMaxStreamData ++ [(streamId, newLimit)] }
        else
          conn
      if conn.totalRecv + conn.maxDataAdvertised / 2 > conn.maxDataAdvertised then
        let newMax := conn.maxDataAdvertised + conn.maxDataAdvertised / 2
        { conn with
          maxDataAdvertised := newMax
          pendingMaxData := conn.pendingMaxData ++ [newMax] }
      else
        conn

/-- Make sure that the stream is tracked. -/
def trackStream (conn : ConnState) (streamId : Nat) : Except QuicError Unit × ConnState :=
  let recvWindow := recvWindowFor conn streamId
  if (conn.streams.lookup streamId).isSome then
    (.ok (), conn)
  else
    let conn := if conn.streams.size ≥ STREAM_TABLE_SWEEP_THRESHOLD then
        { conn with
          streams := conn.streams.eraseAll (conn.streams.keysWhere streamFullyClosed) }
      else
        conn
    if conn.streams.size ≥ MAX_TRACKED_STREAMS then
      (.error (.protocol "peer stream table limit reached"), conn)
    else
      (.ok (), { conn with
        streams := conn.streams.insert streamId { peerSendLimit := recvWindow } })

end ConnState

namespace StreamState

/-- The flow-control checks of a frame. -/
def checkFrame (stream : StreamState) (offset : Nat) (data : List Byte) : Except QuicError Unit :=
  if offset + data.length > stream.peerSendLimit then
    .error (.protocol "stream flow-control violation")
  else if stream.bufferedRecv + data.length > MAX_RECV_BUFFER then
    .error (.protocol "receive buffer overflow")
  else
    .ok ()

/-- The FIN bit fixes where the stream ends. -/
def noteFin (stream : StreamState) (offset : Nat) (data : List Byte) (fin : Bool) : StreamState :=
  if fin then { stream with finRecv := true, finRecvOffset := offset + data.length } else stream

/-- Append what a frame holds behind the end of the prefix. -/
def extendPrefix (stream : StreamState) (offset : Nat) (data : List Byte) : StreamState :=
  let skip := stream.prefixEnd - offset
  if skip < data.length then
    { stream with recvPrefix := stream.recvPrefix ++ data.drop skip }
  else
    stream

/-- Take the segment that stands at the end of the prefix, and what follows. -/
def takeContiguous (stream : StreamState) : StreamState :=
  match stream.recvGaps.get? stream.prefixEnd with
  | some segment =>
      promoteGaps { stream with
        recvGaps := stream.recvGaps.erase stream.prefixEnd
        recvPrefix := stream.recvPrefix ++ segment }
  | none => stream

/-- Place the bytes of a frame that passed the checks. -/
def placeData (stream : StreamState) (offset : Nat) (data : List Byte) : Option StreamState :=
  if offset ≤ stream.prefixEnd then
    some (stream.extendPrefix offset data).promoteGaps
  else do
    let gaps ← insertGap stream.recvGaps offset data
    return { stream with recvGaps := gaps }.takeContiguous

end StreamState

/-- What a receive attempt reports. -/
inductive RecvOutcome where
  | data (count : Nat)
  | wouldBlock
  | eof
  | reset (code : Nat)
  deriving DecidableEq, Repr

namespace ConnState

/-- A STREAM frame arrives; `none` is a panic. -/
def onStream (conn : ConnState) (streamId offset : Nat) (data : List Byte) (fin : Bool) :
    Option (Except QuicError Unit × ConnState) :=
  match conn.trackStream streamId with
  | (.error error, conn) => some (.error error, conn)
  | (.ok (), conn) =>
      match conn.streams.lookup streamId with
      | none => some (.error (.protocol "stream vanished"), conn)
      | some stream =>
          match stream.checkFrame offset data with
          | .error error => some (.error error, conn)
          | .ok () => do
              let stream ← (stream.noteFin offset data fin).placeData offset data
              let conn := { conn with
                streams := conn.streams.insert streamId stream
                totalRecv := min (conn.totalRecv + data.length) (2 ^ 64 - 1) }
              return (.ok (), conn.bumpRecvCredit streamId)

/-- The application reads into a buffer of `size` bytes: the outcome, the bytes
that were copied, and the connection after the call. -/
def recvInto (conn : ConnState) (streamId size : Nat) : RecvOutcome × List Byte × ConnState :=
  match conn.streams.lookup streamId with
  | none => (.eof, [], conn)
  | some stream =>
      match stream.resetRecv with
      | some code => (.reset code, [], conn)
      | none =>
          if !stream.recvPrefix.isEmpty then
            let count := min size stream.recvPrefix.length
            let drained := { stream with
              recvPrefix := stream.recvPrefix.drop count
              recvContig := stream.recvContig + count }
            let conn := { conn with streams := conn.streams.insert streamId drained }
            (.data count, stream.recvPrefix.take count, conn.bumpRecvCredit streamId)
          else if stream.finRecv && stream.recvContig ≥ stream.finRecvOffset then
            (.eof, [], conn)
          else
            (.wouldBlock, [], conn)

/-- The client opens a stream: what `open_stream` does to the receive side. -/
def openStream (conn : ConnState) (id : Nat) : ConnState :=
  { conn with streams := conn.streams.insert id { peerSendLimit := 0 } }

/-- A RESET_STREAM frame arrives. -/
def onResetStream (conn : ConnState) (streamId appErrorCode : Nat) : ConnState :=
  match conn.streams.lookup streamId with
  | none => conn
  | some stream =>
      { conn with
        streams := conn.streams.insert streamId { stream with resetRecv := some appErrorCode } }

/-- The end of the stream that was sent has been acknowledged. -/
def onFinAcked (conn : ConnState) (streamId : Nat) : ConnState :=
  match conn.streams.lookup streamId with
  | none => conn
  | some stream =>
      { conn with streams := conn.streams.insert streamId { stream with finAcked := true } }

/-- The queued limits go into a packet. -/
def drainPending (conn : ConnState) : ConnState :=
  { conn with pendingMaxData := [], pendingMaxStreamData := [] }

end ConnState

end Corduit.Protocol.Quic
