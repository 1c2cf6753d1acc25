import Corduit.Protocol.Quic.Send.Core

/-!
# Runs of the send side

A session is the send side of a connection together with what has happened to
it: the bytes that the application has written to each stream, the frames that
were sent and those that were acknowledged.  Frames are acknowledged and lost in
any order, each as often as the path makes it happen, but only after they were
sent.
-/

namespace Corduit.Protocol.Quic

open Collection Transition Word

namespace Filling

variable {packet : Filling} {id : Nat}

/-- What a stream is sent in its turn. -/
def share (packet : Filling) (id : Nat) (stream : SendStream) : Nat :=
  min (min (packet.state.avail id stream) packet.budget) (stream.writePos - stream.sentThrough)

/-- A turn passes the stream by, sends some of its bytes, sends its end, or
stops the program.  It passes by only a stream that has no share. -/
theorem turn_cases (packet : Filling) (id : Nat) :
    (packet.turn id = some packet ∧
        ∀ stream, packet.state.streams.lookup id = some stream → 16 ≤ packet.budget →
          stream.resetSent = none → packet.share id stream = 0) ∨
      (∃ stream fin finSent, packet.state.streams.lookup id = some stream ∧
        16 ≤ packet.budget ∧ stream.resetSent = none ∧ 0 < packet.share id stream ∧
        packet.turn id = some {
          state := { packet.state with
            streams := packet.state.streams.insert id { stream with
              sentHigh := stream.sentThrough + packet.share id stream
              sentThrough := stream.sentThrough + packet.share id stream
              finSent := finSent }
            totalSent := packet.state.totalSent +
              (stream.sentThrough + packet.share id stream - stream.sentHigh) }
          budget := packet.budget - packet.share id stream
          frames := packet.frames ++ [.stream id (some stream.sentThrough)
            ((stream.sendBuf.drop (stream.sentThrough - stream.ackPos)).take
              (packet.share id stream)) none fin] }) ∨
      (∃ stream, packet.state.streams.lookup id = some stream ∧ packet.share id stream = 0 ∧
        packet.turn id = some { packet with
          state := { packet.state with
            streams := packet.state.streams.insert id { stream with finSent := true } }
          frames := packet.frames ++ [.stream id (some stream.sentThrough) [] none true] }) ∨
      ∃ stream, packet.state.streams.lookup id = some stream ∧
        stream.sentThrough < stream.ackPos ∧ packet.turn id = none := by
  unfold turn
  by_cases full : packet.budget < 16
  · exact Or.inl ⟨if_pos full, fun _ _ room => absurd full (Nat.not_lt.mpr room)⟩
  · rw [if_neg full]
    cases found : packet.state.streams.lookup id with
    | none => exact Or.inl ⟨rfl, fun _ found' => by cases found'⟩
    | some stream =>
        dsimp only
        by_cases reset : stream.resetSent.isSome = true
        · refine Or.inl ⟨if_pos reset, fun other same _ notReset => ?_⟩
          rw [Option.some.inj same, notReset] at reset
          cases reset
        · rw [if_neg reset]
          by_cases exhausted : packet.state.avail id stream = 0
          · refine Or.inl ⟨if_pos exhausted, fun other same _ _ => ?_⟩
            rw [← Option.some.inj same, share, exhausted]
            simp
          · rw [if_neg exhausted, checkedSub]
            by_cases inOrder : stream.ackPos ≤ stream.sentThrough
            · rw [if_pos inOrder]
              by_cases sends : 0 < packet.share id stream
              · have atEnd : ∃ fin, fin = (stream.finQueued && !stream.finSent &&
                    stream.sentThrough + packet.share id stream == stream.writePos) := ⟨_, rfl⟩
                rcases atEnd with ⟨fin, fin_eq⟩
                refine Or.inr (Or.inl ⟨stream, fin, fin || stream.finSent, rfl,
                  Nat.not_lt.mp full, by simpa using reset, sends, (if_pos sends).trans ?_⟩)
                simp only [share] at fin_eq ⊢
                rw [fin_eq, Nat.add_sub_cancel]
                rfl
              · by_cases ends : (stream.finQueued && !stream.finSent &&
                    stream.sentThrough == stream.writePos) = true
                · exact Or.inr (Or.inr (Or.inl
                    ⟨stream, rfl, Nat.eq_zero_of_not_pos sends,
                      (if_neg sends).trans (if_pos ends)⟩))
                · refine Or.inl ⟨(if_neg sends).trans (if_neg ends), fun other same _ _ => ?_⟩
                  rw [← Option.some.inj same]
                  exact Nat.eq_zero_of_not_pos sends
            · rw [if_neg inOrder]
              exact Or.inr (Or.inr (Or.inr ⟨stream, rfl, Nat.not_le.mp inOrder, rfl⟩))

end Filling

/-- Writing is refused, appends the beginning of the data to the buffer, or
stops the program. -/
theorem SendState.sendData_cases (state : SendState) (id : Nat) (data : List Byte) :
    (∃ error, state.sendData id data = some (.error error, state)) ∨
      (∃ stream count, state.streams.lookup id = some stream ∧ count ≤ data.length ∧
        state.sendData id data = some (.ok count, { state with
          streams := state.streams.insert id { stream with
            sendBuf := stream.sendBuf ++ data.take count
            writePos := stream.writePos + count } })) ∨
      ∃ stream, state.streams.lookup id = some stream ∧ stream.writePos < stream.ackPos ∧
        state.sendData id data = none := by
  unfold sendData
  cases found : state.streams.lookup id with
  | none => exact Or.inl ⟨_, rfl⟩
  | some stream =>
      dsimp only
      by_cases reset : (stream.resetSent.isSome || stream.resetRecv.isSome) = true
      · exact Or.inl ⟨_, if_pos reset⟩
      · rw [if_neg reset, checkedSub]
        by_cases inOrder : stream.ackPos ≤ stream.writePos
        · rw [if_pos inOrder]
          by_cases full : stream.writePos - stream.ackPos ≥ MAX_SEND_BUFFER
          · exact Or.inl ⟨_, if_pos full⟩
          · exact Or.inr (Or.inl ⟨stream, _, rfl, Nat.min_le_left _ _, if_neg full⟩)
        · rw [if_neg inOrder]
          exact Or.inr (Or.inr ⟨stream, rfl, Nat.not_le.mp inOrder, rfl⟩)

/-- The numbers of the streams that the client opens next are not in use. -/
structure SendState.Upcoming (state : SendState) : Prop where
  bidi : state.nextBidi % 4 = 0
  uni : state.nextUni % 4 = 2
  bidiVacant : ∀ id, id % 4 = 0 → state.nextBidi ≤ id → state.streams.lookup id = none
  uniVacant : ∀ id, id % 4 = 2 → state.nextUni ≤ id → state.streams.lookup id = none

namespace SendState.Upcoming

variable {state state' : SendState} {id : Nat}

theorem congr (upcoming : state.Upcoming) (bidi_eq : state'.nextBidi = state.nextBidi)
    (uni_eq : state'.nextUni = state.nextUni)
    (stays : ∀ id, state.streams.lookup id = none → state'.streams.lookup id = none) :
    state'.Upcoming where
  bidi := bidi_eq ▸ upcoming.bidi
  uni := uni_eq ▸ upcoming.uni
  bidiVacant := fun id kind later =>
    stays id (upcoming.bidiVacant id kind (bidi_eq ▸ later))
  uniVacant := fun id kind later =>
    stays id (upcoming.uniVacant id kind (uni_eq ▸ later))

theorem openStream (upcoming : state.Upcoming) (uni : Bool) :
    (state.openStream uni).2 = state ∨
      ∃ id peerLimit, state.streams.lookup id = none ∧
        (state.openStream uni).2.streams = state.streams.insert id { peerLimit := peerLimit } ∧
        (state.openStream uni).2.totalSent = state.totalSent ∧
        (state.openStream uni).2.peerMaxData = state.peerMaxData ∧
        (state.openStream uni).2.Upcoming := by
  rcases upcoming with ⟨bidi, uni_, bidiVacant, uniVacant⟩
  cases uni with
  | true =>
      by_cases refused : state.nextUni / 4 ≥ state.peerUniLimit
      · exact Or.inl (by simp [SendState.openStream, refused])
      · right
        simp only [SendState.openStream, if_true, if_neg refused]
        refine ⟨state.nextUni, _, uniVacant state.nextUni uni_ (Nat.le_refl _), rfl, trivial, trivial, bidi,
          by dsimp only; omega, ?_, ?_⟩
        · intro id kind later
          rw [Table.lookup_insert_eq, if_neg (by omega)]
          exact bidiVacant id kind later
        · intro id kind later
          dsimp only at later
          rw [Table.lookup_insert_eq, if_neg (by omega)]
          exact uniVacant id kind (by omega)
  | false =>
      by_cases refused : state.nextBidi / 4 ≥ state.peerBidiLimit
      · exact Or.inl (by simp [SendState.openStream, refused])
      · right
        simp only [SendState.openStream, Bool.false_eq_true, if_false, if_neg refused]
        refine ⟨state.nextBidi, _, bidiVacant state.nextBidi bidi (Nat.le_refl _), rfl, trivial, trivial,
          by dsimp only; omega, uni_, ?_, ?_⟩
        · intro id kind later
          dsimp only at later
          rw [Table.lookup_insert_eq, if_neg (by omega)]
          exact bidiVacant id kind (by omega)
        · intro id kind later
          rw [Table.lookup_insert_eq, if_neg (by omega)]
          exact uniVacant id kind later

theorem peerOpened (upcoming : state.Upcoming) (odd : id % 2 = 1) (stream : SendStream) :
    { state with streams := state.streams.insert id stream }.Upcoming := by
  rcases upcoming with ⟨bidi, uni, bidiVacant, uniVacant⟩
  refine ⟨bidi, uni, ?_, ?_⟩
  · intro other kind later
    rw [Table.lookup_insert_eq, if_neg (by omega)]
    exact bidiVacant other kind later
  · intro other kind later
    rw [Table.lookup_insert_eq, if_neg (by omega)]
    exact uniVacant other kind later

end SendState.Upcoming

/-- The part of a stream that a frame carries. -/
def Frame.streamSegment (id : Nat) : Frame → Option (Segment Byte)
  | .stream streamId offset data _ _ => if streamId = id then some (offset.getD 0, data) else none
  | _ => none

/-- The parts of a stream that the frames carry. -/
def segmentsOf (id : Nat) (frames : List Frame) : List (Segment Byte) :=
  frames.filterMap (Frame.streamSegment id)

@[simp]
theorem segmentsOf_append (id : Nat) (first second : List Frame) :
    segmentsOf id (first ++ second) = segmentsOf id first ++ segmentsOf id second :=
  List.filterMap_append

@[simp]
theorem segmentsOf_stream (id streamId offset : Nat) (data : List Byte) (length : Option Nat)
    (fin : Bool) :
    segmentsOf id [.stream streamId (some offset) data length fin] =
      if streamId = id then [(offset, data)] else [] := by
  by_cases same : streamId = id
  · simp [segmentsOf, Frame.streamSegment, same]
  · simp [segmentsOf, Frame.streamSegment, same]

/-- The send side of a connection and what has happened to it. -/
structure SendSession where
  state : SendState
  written : Nat → List Byte := fun _ => []
  emitted : List Frame := []
  acked : List Frame := []

/-- What can happen to the send side of a connection. -/
inductive SendOp where
  | openStream (uni : Bool)
  | peerOpened (streamId : Nat)
  | sendData (streamId : Nat) (data : List Byte)
  | finStream (streamId : Nat)
  | collect (ids : List Nat) (maxDatagram : Nat)
  | acked (frame : Frame)
  | lost (frame : Frame)
  | maxData (max : Nat)
  | maxStreamData (streamId max : Nat)
  | maxStreams (unidirectional : Bool) (max : Nat)

namespace SendSession

/-- The session after one operation; `none` after a panic.  The server opens
streams with odd numbers; the table lists its streams in any order. -/
def step (session : SendSession) : SendOp → Option SendSession
  | .openStream uni => some { session with state := (session.state.openStream uni).2 }
  | .peerOpened streamId =>
      if streamId % 2 = 1 && (session.state.streams.lookup streamId).isNone then
        some { session with
          state := { session.state with
            streams := session.state.streams.insert streamId { peerLimit := 0 } } }
      else
        some session
  | .sendData streamId data =>
      match session.state.sendData streamId data with
      | none => none
      | some (.error _, state) => some { session with state := state }
      | some (.ok count, state) =>
          some { session with
            state := state
            written := Function.update session.written streamId
              (session.written streamId ++ data.take count) }
  | .finStream streamId => some { session with state := (session.state.finStream streamId).2 }
  | .collect ids maxDatagram =>
      if ids.Perm session.state.sendingIds then
        (session.state.collectStreams ids maxDatagram).map fun packet =>
          { session with
            state := packet.state
            emitted := session.emitted ++ packet.frames }
      else
        some session
  | .acked frame =>
      match frame with
      | .stream streamId offset data length fin =>
          if .stream streamId offset data length fin ∈ session.emitted then
            some { session with
              state := session.state.onAckedStream streamId offset data fin
              acked := session.acked ++ [.stream streamId offset data length fin] }
          else
            some session
      | _ => some session
  | .lost frame =>
      match frame with
      | .stream streamId offset data length fin =>
          if .stream streamId offset data length fin ∈ session.emitted then
            some { session with state := session.state.onLostStream streamId offset fin }
          else
            some session
      | _ => some session
  | .maxData max => some { session with state := session.state.onMaxData max }
  | .maxStreamData streamId max =>
      some { session with state := session.state.onMaxStreamData streamId max }
  | .maxStreams unidirectional max =>
      some { session with state := session.state.onMaxStreams unidirectional max }

/-- A session begins without streams, with some limits of the peer. -/
def withLimits (bidiLimit uniLimit maxData maxStreamDataBidi maxStreamDataUni : Nat) :
    Option SendSession :=
  some { state := .withLimits bidiLimit uniLimit maxData maxStreamDataBidi maxStreamDataUni }

/-- Operations one after the other; nothing follows a panic. -/
def advance (state : Option SendSession) (op : SendOp) : Option SendSession :=
  state.bind fun session => session.step op

end SendSession

end Corduit.Protocol.Quic
