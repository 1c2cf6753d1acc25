import Corduit.Protocol.Quic.Send.Session

/-!
# The send buffer

A stream keeps the bytes from its acknowledged position on.  The program
acknowledges up to the end of a frame whatever lies before the frame, and moves
the send position back to the beginning of a lost frame wherever the
acknowledged position stands.  The buffer is right as long as acknowledgements
continue each other within what is sent, and losses lie behind them.
-/

namespace Corduit.Protocol.Quic

open Collection Transition Word

/-- The buffer of a stream is what was written to it from the acknowledged
position on, and no byte left it unacknowledged. -/
structure Backs (written : List Byte) (acked : List (Segment Byte)) (stream : SendStream) :
    Prop where
  acked_le : stream.ackPos ≤ stream.sentThrough
  sent_le : stream.sentThrough ≤ stream.writePos
  written_eq : stream.writePos = written.length
  buffer : stream.sendBuf = written.drop stream.ackPos
  discarded : ∀ position < stream.ackPos, Segment.CoveredBy acked position

/-- What has happened to one stream. -/
structure Ledger where
  written : List Byte := []
  emitted : List (Segment Byte) := []
  acked : List (Segment Byte) := []

/-- The ledger of a stream, with the facts that its later frames rest on. -/
structure Ledger.Tracks (ledger : Ledger) (stream : SendStream) : Prop where
  backs : Backs ledger.written ledger.acked stream
  carried : ∀ segment ∈ ledger.emitted, SliceOf ledger.written segment.1 segment.2
  reached : ∀ segment ∈ ledger.acked, segment.stop ≤ stream.ackPos

namespace Ledger.Tracks

variable {ledger : Ledger} {stream : SendStream} {data : List Byte} {offset : Nat}

theorem fresh (peerLimit : Nat) : Tracks {} { peerLimit := peerLimit } where
  backs := ⟨Nat.le_refl _, Nat.le_refl _, rfl, rfl, by simp⟩
  carried := by simp
  reached := by simp

variable (tracks : ledger.Tracks stream)

include tracks

theorem congr {stream' : SendStream} (buf_eq : stream'.sendBuf = stream.sendBuf)
    (ack_eq : stream'.ackPos = stream.ackPos) (sent_eq : stream'.sentThrough = stream.sentThrough)
    (write_eq : stream'.writePos = stream.writePos) : ledger.Tracks stream' where
  backs := by
    constructor
    · rw [ack_eq, sent_eq]
      exact tracks.backs.acked_le
    · rw [sent_eq, write_eq]
      exact tracks.backs.sent_le
    · rw [write_eq]
      exact tracks.backs.written_eq
    · rw [buf_eq, ack_eq]
      exact tracks.backs.buffer
    · rw [ack_eq]
      exact tracks.backs.discarded
  carried := tracks.carried
  reached := by
    rw [ack_eq]
    exact tracks.reached

theorem write (data : List Byte) :
    Tracks { ledger with written := ledger.written ++ data }
      { stream with sendBuf := stream.sendBuf ++ data, writePos := stream.writePos + data.length } where
  backs := by
    rcases tracks.backs with ⟨acked_le, sent_le, written_eq, buffer, discarded⟩
    refine ⟨acked_le, Nat.le_trans sent_le (Nat.le_add_right _ _), ?_, ?_, discarded⟩
    · rw [List.length_append, written_eq]
    · change stream.sendBuf ++ data = (ledger.written ++ data).drop stream.ackPos
      rw [buffer, List.drop_append_of_le_length (by omega)]
  carried := fun segment member => (tracks.carried segment member).append_right data
  reached := tracks.reached

theorem next_slice (take : Nat) :
    SliceOf ledger.written stream.sentThrough
      ((stream.sendBuf.drop (stream.sentThrough - stream.ackPos)).take take) := by
  rcases tracks.backs with ⟨acked_le, sent_le, written_eq, buffer, _⟩
  rw [buffer, List.drop_drop, Nat.add_sub_cancel' acked_le]
  have rest : SliceOf ledger.written stream.sentThrough (ledger.written.drop stream.sentThrough) := by
    apply SliceOf.iff_split.mpr
    refine ⟨ledger.written.take stream.sentThrough, [], ?_, List.length_take_of_le (by omega)⟩
    rw [List.append_nil, List.take_append_drop]
  exact rest.take take

theorem emit (slice : SliceOf ledger.written offset data) :
    Tracks { ledger with emitted := ledger.emitted ++ [(offset, data)] } stream where
  backs := tracks.backs
  carried := by
    intro other member
    rcases List.mem_append.mp member with earlier | last
    · exact tracks.carried other earlier
    · rw [List.mem_singleton.mp last]
      exact slice
  reached := tracks.reached

theorem move (position : Nat) (behind : stream.ackPos ≤ position)
    (inside : position ≤ stream.writePos) :
    ledger.Tracks { stream with sentThrough := position } where
  backs := by
    rcases tracks.backs with ⟨_, _, written_eq, buffer, discarded⟩
    exact ⟨behind, inside, written_eq, buffer, discarded⟩
  carried := tracks.carried
  reached := tracks.reached

theorem acknowledge
    (continues : stream.ackPos < offset + data.length →
      offset ≤ stream.ackPos ∧ offset + data.length ≤ stream.sentThrough) :
    Tracks { ledger with acked := ledger.acked ++ [(offset, data)] }
      (stream.acknowledge (offset + data.length)) := by
  rcases tracks with ⟨⟨acked_le, sent_le, written_eq, buffer, discarded⟩, carried, reached⟩
  have kept : ∀ position < stream.ackPos,
      Segment.CoveredBy (ledger.acked ++ [(offset, data)]) position := by
    intro position before
    rcases discarded position before with ⟨segment, member, covers⟩
    exact ⟨segment, List.mem_append_left _ member, covers⟩
  unfold SendStream.acknowledge
  by_cases moves : offset + data.length > stream.ackPos
  · rcases continues moves with ⟨begins, sent⟩
    rw [if_pos moves]
    refine ⟨⟨sent, sent_le, written_eq, ?_, fun position before => ?_⟩, carried, ?_⟩
    · change (if _ then [] else _) = ledger.written.drop (offset + data.length)
      by_cases all : offset + data.length ≥ stream.writePos
      · rw [if_pos all, List.drop_of_length_le (by omega)]
      · have short : offset + data.length - stream.ackPos ≤ stream.sendBuf.length := by
          rw [buffer, List.length_drop]
          omega
        rw [if_neg all, Nat.min_eq_left short, buffer, List.drop_drop]
        congr 1
        omega
    · by_cases old : position < stream.ackPos
      · exact kept position old
      · exact ⟨(offset, data), List.mem_append_right _ List.mem_cons_self, by omega, before⟩
    · intro segment member
      rcases List.mem_append.mp member with earlier | last
      · exact Nat.le_trans (reached segment earlier) (Nat.le_of_lt moves)
      · rw [List.mem_singleton.mp last]
        exact Nat.le_refl _
  · rw [if_neg moves]
    refine ⟨⟨acked_le, sent_le, written_eq, buffer, kept⟩, carried, ?_⟩
    intro segment member
    rcases List.mem_append.mp member with earlier | last
    · exact reached segment earlier
    · rw [List.mem_singleton.mp last]
      exact Nat.not_lt.mp moves

theorem rewind (behind : offset < stream.sentThrough → stream.ackPos ≤ offset) :
    ledger.Tracks (stream.rewind offset) := by
  unfold SendStream.rewind
  by_cases moves : offset < stream.sentThrough
  · rw [if_pos moves]
    exact tracks.move offset (behind moves)
      (Nat.le_trans (Nat.le_of_lt moves) tracks.backs.sent_le)
  · rwa [if_neg moves]

/-- An acknowledgement leaves the buffer right only when it continues the
acknowledged bytes within what is sent. -/
theorem continues_of_backs {finAcked : Bool}
    (backs : Backs ledger.written (ledger.acked ++ [(offset, data)])
      { stream.acknowledge (offset + data.length) with finAcked := finAcked })
    (moves : stream.ackPos < offset + data.length) :
    offset ≤ stream.ackPos ∧ offset + data.length ≤ stream.sentThrough := by
  rw [SendStream.acknowledge, if_pos moves] at backs
  constructor
  · rcases backs.discarded stream.ackPos moves with ⟨segment, member, starts, stops⟩
    rcases List.mem_append.mp member with earlier | last
    · exact absurd (tracks.reached segment earlier) (Nat.not_le_of_lt stops)
    · rw [List.mem_singleton.mp last] at starts
      exact starts
  · exact backs.acked_le

end Ledger.Tracks

namespace SendSession

variable {session session' : SendSession} {id : Nat} {stream stream' : SendStream}

/-- The ledger of one stream. -/
def ledger (session : SendSession) (id : Nat) : Ledger where
  written := session.written id
  emitted := segmentsOf id session.emitted
  acked := segmentsOf id session.acked

/-- Every buffer is right, and every frame carries the bytes that the
application wrote at its offset. -/
structure Sound (session : SendSession) : Prop where
  buffers : ∀ id stream, session.state.streams.lookup id = some stream →
    Backs (session.written id) (segmentsOf id session.acked) stream
  frames : ∀ id, ∀ segment ∈ segmentsOf id session.emitted,
    SliceOf (session.written id) segment.1 segment.2

/-- No call panicked, and the session is sound. -/
def IsSound (state : Option SendSession) : Prop :=
  ∃ session, state = some session ∧ session.Sound

/-- An acknowledgement that moves the acknowledged position continues it within
what is sent; a loss that moves the send position stays behind the acknowledged
position. -/
def Continues : Option SendSession → SendOp → Prop
  | some session, .acked (.stream streamId offset data length fin) =>
      .stream streamId offset data length fin ∈ session.emitted →
      ∀ stream, session.state.streams.lookup streamId = some stream →
        stream.ackPos < offset.getD 0 + data.length →
        offset.getD 0 ≤ stream.ackPos ∧ offset.getD 0 + data.length ≤ stream.sentThrough
  | some session, .lost (.stream streamId offset data length fin) =>
      .stream streamId offset data length fin ∈ session.emitted →
      ∀ stream, session.state.streams.lookup streamId = some stream →
        offset.getD 0 < stream.sentThrough → stream.ackPos ≤ offset.getD 0
  | _, _ => True

/-- What holds in the states of a run whose buffers are right. -/
structure Tracks (session : SendSession) : Prop where
  streams : ∀ id stream, session.state.streams.lookup id = some stream →
    (session.ledger id).Tracks stream
  vacant : ∀ id, session.state.streams.lookup id = none → session.ledger id = {}
  upcoming : session.state.Upcoming

namespace Tracks

section

variable (tracks : session.Tracks)

include tracks

theorem sound : session.Sound where
  buffers := fun id stream found => (tracks.streams id stream found).backs
  frames := by
    intro id segment member
    cases found : session.state.streams.lookup id with
    | none =>
        have empty : segmentsOf id session.emitted = [] :=
          congrArg Ledger.emitted (tracks.vacant id found)
        rw [empty] at member
        exact absurd member List.not_mem_nil
    | some stream => exact (tracks.streams id stream found).carried segment member

/-- A step that touches one tracked stream has to account for that stream. -/
theorem replace (found : session.state.streams.lookup id = some stream)
    (lookup_eq : ∀ other, session'.state.streams.lookup other =
      if other = id then some stream' else session.state.streams.lookup other)
    (bidi_eq : session'.state.nextBidi = session.state.nextBidi)
    (uni_eq : session'.state.nextUni = session.state.nextUni)
    (others : ∀ other, other ≠ id → session'.ledger other = session.ledger other)
    (here : (session'.ledger id).Tracks stream') : session'.Tracks where
  streams := by
    intro other stream found'
    rw [lookup_eq] at found'
    by_cases same : other = id
    · rw [if_pos same] at found'
      rw [← Option.some.inj found', same]
      exact here
    · rw [if_neg same] at found'
      rw [others other same]
      exact tracks.streams other stream found'
  vacant := by
    intro other absent
    rw [lookup_eq] at absent
    by_cases same : other = id
    · rw [if_pos same] at absent
      cases absent
    · rw [if_neg same] at absent
      rw [others other same]
      exact tracks.vacant other absent
  upcoming := by
    apply tracks.upcoming.congr bidi_eq uni_eq
    intro other absent
    have different : other ≠ id := by
      rintro rfl
      rw [found] at absent
      cases absent
    rw [lookup_eq, if_neg different, absent]

/-- A step that changes neither streams nor numbers nor ledgers. -/
theorem same (streams_eq : session'.state.streams = session.state.streams)
    (bidi_eq : session'.state.nextBidi = session.state.nextBidi)
    (uni_eq : session'.state.nextUni = session.state.nextUni)
    (ledger_eq : ∀ id, session'.ledger id = session.ledger id) : session'.Tracks where
  streams := by
    intro id stream found
    rw [ledger_eq]
    rw [streams_eq] at found
    exact tracks.streams id stream found
  vacant := by
    intro id absent
    rw [ledger_eq]
    rw [streams_eq] at absent
    exact tracks.vacant id absent
  upcoming := tracks.upcoming.congr bidi_eq uni_eq fun id absent => by rw [streams_eq, absent]

theorem addStream (absent : session.state.streams.lookup id = none) {state : SendState}
    (peerLimit : Nat)
    (streams_eq : state.streams = session.state.streams.insert id { peerLimit := peerLimit })
    (upcoming : state.Upcoming) : { session with state := state }.Tracks where
  streams := by
    intro other stream found
    change state.streams.lookup other = some stream at found
    rw [streams_eq, Table.lookup_insert_eq] at found
    by_cases same : other = id
    · rw [if_pos same] at found
      rw [← Option.some.inj found, same]
      have empty := tracks.vacant id absent
      change (session.ledger id).Tracks _
      rw [empty]
      exact Ledger.Tracks.fresh peerLimit
    · rw [if_neg same] at found
      exact tracks.streams other stream found
  vacant := by
    intro other missing
    change state.streams.lookup other = none at missing
    rw [streams_eq, Table.lookup_insert_eq] at missing
    by_cases same : other = id
    · rw [if_pos same] at missing
      cases missing
    · rw [if_neg same] at missing
      exact tracks.vacant other missing
  upcoming := upcoming

theorem openStream (uni : Bool) :
    { session with state := (session.state.openStream uni).2 }.Tracks := by
  rcases tracks.upcoming.openStream uni with
    refused | ⟨id, peerLimit, absent, streams_eq, _, _, upcoming⟩
  · rwa [refused]
  · exact tracks.addStream absent peerLimit streams_eq upcoming

theorem keepStream (found : session.state.streams.lookup id = some stream)
    (buf_eq : stream'.sendBuf = stream.sendBuf) (ack_eq : stream'.ackPos = stream.ackPos)
    (sent_eq : stream'.sentThrough = stream.sentThrough)
    (write_eq : stream'.writePos = stream.writePos) :
    { session with state := { session.state with
      streams := session.state.streams.insert id stream' } }.Tracks :=
  tracks.replace found (Table.lookup_insert_eq _ _ · _) rfl rfl (fun _ _ => rfl)
    ((tracks.streams id stream found).congr buf_eq ack_eq sent_eq write_eq)

theorem sendData (id : Nat) (data : List Byte) :
    ∃ session', session.step (.sendData id data) = some session' ∧ session'.Tracks := by
  rcases session.state.sendData_cases id data with
    ⟨error, refused⟩ | ⟨stream, count, found, short, accepted⟩ | ⟨stream, found, disorder, _⟩
  · exact ⟨session, by rw [step, refused], tracks⟩
  · refine ⟨_, by rw [step, accepted], ?_⟩
    refine tracks.replace found (Table.lookup_insert_eq _ _ · _) rfl rfl ?_ ?_
    · intro other different
      simp [ledger, Function.update_of_ne different]
    · have written := (tracks.streams id stream found).write (data.take count)
      rw [List.length_take_of_le short] at written
      simpa [ledger] using written
  · have backs := (tracks.streams id stream found).backs
    exact absurd (Nat.le_trans backs.acked_le backs.sent_le) (Nat.not_le_of_lt disorder)

end

/-- Filling a packet. -/
def Fills (session : SendSession) (packet : Option Filling) : Prop :=
  ∃ packet', packet = some packet' ∧
    { session with
      state := packet'.state
      emitted := session.emitted ++ packet'.frames }.Tracks

theorem turn {packet : Option Filling} (fills : Fills session packet) (id : Nat) :
    Fills session (Filling.advance packet id) := by
  rcases fills with ⟨packet, rfl, tracks⟩
  rcases packet.turn_cases id with
    ⟨passed, _⟩ | ⟨stream, fin, finSent, found, _, _, sends, turned⟩ | ⟨stream, found, _, turned⟩ |
      ⟨stream, found, disorder, _⟩
  · exact ⟨packet, passed, tracks⟩
  · refine ⟨_, turned, ?_⟩
    have known := tracks.streams id stream found
    refine tracks.replace found (Table.lookup_insert_eq _ _ · _) rfl rfl ?_ ?_
    · intro other different
      simp [ledger, Ne.symm different]
    · have sent_le := known.backs.sent_le
      have share_le : packet.share id stream ≤ stream.writePos - stream.sentThrough :=
        Nat.min_le_right _ _
      have moved := (known.emit (known.next_slice (packet.share id stream))).move
        (stream.sentThrough + packet.share id stream)
        (Nat.le_trans known.backs.acked_le (Nat.le_add_right _ _)) (by omega)
      refine @Ledger.Tracks.congr _
        { stream with sentThrough := stream.sentThrough + packet.share id stream } ?_ _ rfl rfl rfl rfl
      simpa [ledger] using moved
  · refine ⟨_, turned, ?_⟩
    have known := tracks.streams id stream found
    refine tracks.replace found (Table.lookup_insert_eq _ _ · _) rfl rfl ?_ ?_
    · intro other different
      simp [ledger, Ne.symm different]
    · have inside : stream.sentThrough ≤ (session.written id).length :=
        Nat.le_trans known.backs.sent_le (Nat.le_of_eq known.backs.written_eq)
      refine @Ledger.Tracks.congr _ stream ?_ _ rfl rfl rfl rfl
      simpa [ledger] using known.emit (SliceOf.nil inside)
  · have backs := (tracks.streams id stream found).backs
    exact absurd backs.acked_le (Nat.not_le_of_lt disorder)

variable (tracks : session.Tracks)

include tracks

theorem collect (ids : List Nat) (maxDatagram : Nat) :
    ∃ session', session.step (.collect ids maxDatagram) = some session' ∧ session'.Tracks := by
  by_cases listed : ids.Perm session.state.sendingIds
  · have filled : Fills session (session.state.collectStreams ids maxDatagram) := by
      apply run_invariant (Fills session) (fun _ id fills => turn fills id)
      exact ⟨_, rfl, by simpa using tracks⟩
    rcases filled with ⟨packet, collected, tracks'⟩
    exact ⟨_, by rw [step, if_pos listed, collected]; rfl, tracks'⟩
  · exact ⟨session, by rw [step, if_neg listed], tracks⟩

/-- An acknowledgement keeps the session tracked when it continues, and only
then keeps it sound. -/
theorem acked (frame : Frame) :
    (Continues (some session) (.acked frame) →
        ∃ session', session.step (.acked frame) = some session' ∧ session'.Tracks) ∧
      (IsSound (session.step (.acked frame)) → Continues (some session) (.acked frame)) := by
  cases frame with
  | stream streamId offset data length fin =>
      by_cases sent : Frame.stream streamId offset data length fin ∈ session.emitted
      · have segment_eq : ∀ other, segmentsOf other [.stream streamId offset data length fin] =
            if streamId = other then [(offset.getD 0, data)] else [] := by
          intro other
          cases offset <;> by_cases same : streamId = other <;>
            simp [segmentsOf, Frame.streamSegment, same]
        rw [step, if_pos sent, SendState.onAckedStream]
        cases found : session.state.streams.lookup streamId with
        | none =>
            -- Nothing was sent on a stream that is not tracked.
            have empty : segmentsOf streamId session.emitted = [] :=
              congrArg Ledger.emitted (tracks.vacant streamId found)
            have listed : (offset.getD 0, data) ∈ segmentsOf streamId session.emitted :=
              List.mem_filterMap.mpr ⟨_, sent, by simp [Frame.streamSegment]⟩
            rw [empty] at listed
            exact absurd listed List.not_mem_nil
        | some stream =>
            have known := tracks.streams streamId stream found
            constructor
            · intro continues
              refine ⟨_, rfl, ?_⟩
              refine tracks.replace found (Table.lookup_insert_eq _ _ · _) rfl rfl ?_ ?_
              · intro other different
                simp [ledger, segment_eq, Ne.symm different]
              · have acknowledged := known.acknowledge (continues sent stream found)
                refine @Ledger.Tracks.congr _ (stream.acknowledge (offset.getD 0 + data.length)) ?_ _
                  rfl rfl rfl rfl
                simpa [ledger, segment_eq] using acknowledged
            · rintro ⟨after, equal, sound⟩ _ stream' found' moves
              obtain rfl := Option.some.inj equal
              obtain rfl := Option.some.inj (found.symm.trans found')
              have backs := sound.buffers streamId _ (AList.lookup_insert _)
              dsimp only at backs
              rw [segmentsOf_append, segment_eq, if_pos rfl] at backs
              exact known.continues_of_backs backs moves
      · rw [step, if_neg sent]
        exact ⟨fun _ => ⟨session, rfl, tracks⟩, fun _ emitted => absurd emitted sent⟩
  | _ => exact ⟨fun _ => ⟨session, rfl, tracks⟩, fun _ => trivial⟩

/-- A loss keeps the session tracked when it stays behind the acknowledged
position, and only then keeps it sound. -/
theorem lost (frame : Frame) :
    (Continues (some session) (.lost frame) →
        ∃ session', session.step (.lost frame) = some session' ∧ session'.Tracks) ∧
      (IsSound (session.step (.lost frame)) → Continues (some session) (.lost frame)) := by
  cases frame with
  | stream streamId offset data length fin =>
      by_cases sent : Frame.stream streamId offset data length fin ∈ session.emitted
      · rw [step, if_pos sent, SendState.onLostStream]
        cases found : session.state.streams.lookup streamId with
        | none =>
            refine ⟨fun _ => ⟨session, rfl, tracks⟩, fun _ _ stream' found' => ?_⟩
            rw [found] at found'
            cases found'
        | some stream =>
            have known := tracks.streams streamId stream found
            constructor
            · intro continues
              refine ⟨_, rfl, ?_⟩
              refine tracks.replace found (Table.lookup_insert_eq _ _ · _) rfl rfl
                (fun _ _ => rfl) ?_
              exact (known.rewind (continues sent stream found)).congr rfl rfl rfl rfl
            · rintro ⟨after, equal, sound⟩ _ stream' found' moves
              obtain rfl := Option.some.inj equal
              obtain rfl := Option.some.inj (found.symm.trans found')
              have backs := (sound.buffers streamId _ (AList.lookup_insert _)).acked_le
              simpa [SendStream.rewind, moves] using backs
      · rw [step, if_neg sent]
        exact ⟨fun _ => ⟨session, rfl, tracks⟩, fun _ emitted => absurd emitted sent⟩
  | _ => exact ⟨fun _ => ⟨session, rfl, tracks⟩, fun _ => trivial⟩

/-- The other operations always keep the session tracked. -/
theorem step_of_other {op : SendOp} (notAcked : ∀ frame, op ≠ .acked frame)
    (notLost : ∀ frame, op ≠ .lost frame) :
    ∃ session', session.step op = some session' ∧ session'.Tracks := by
  cases op with
  | openStream uni => exact ⟨_, rfl, tracks.openStream uni⟩
  | peerOpened streamId =>
      rw [step]
      by_cases opens : (streamId % 2 = 1 && (session.state.streams.lookup streamId).isNone) = true
      · rw [if_pos opens]
        simp only [Bool.and_eq_true, decide_eq_true_eq, Option.isNone_iff_eq_none] at opens
        exact ⟨_, rfl, tracks.addStream opens.2 0 rfl (tracks.upcoming.peerOpened opens.1 _)⟩
      · rw [if_neg opens]
        exact ⟨_, rfl, tracks⟩
  | sendData streamId data => exact tracks.sendData streamId data
  | finStream streamId =>
      refine ⟨_, rfl, ?_⟩
      cases found : session.state.streams.lookup streamId with
      | none => simpa [SendState.finStream, found] using tracks
      | some stream =>
          simp only [SendState.finStream, found]
          exact tracks.keepStream found rfl rfl rfl rfl
  | collect ids maxDatagram => exact tracks.collect ids maxDatagram
  | acked frame => exact absurd rfl (notAcked frame)
  | lost frame => exact absurd rfl (notLost frame)
  | maxData max =>
      refine ⟨_, rfl, ?_⟩
      by_cases raises : max > session.state.peerMaxData
      · simp only [SendState.onMaxData, if_pos raises]
        exact tracks.same rfl rfl rfl fun _ => rfl
      · simpa only [SendState.onMaxData, if_neg raises] using tracks
  | maxStreamData streamId max =>
      refine ⟨_, rfl, ?_⟩
      cases found : session.state.streams.lookup streamId with
      | none => simpa [SendState.onMaxStreamData, found] using tracks
      | some stream =>
          by_cases raises : max > stream.peerLimit
          · simp only [SendState.onMaxStreamData, found, if_pos raises]
            exact tracks.keepStream found rfl rfl rfl rfl
          · simpa [SendState.onMaxStreamData, found, raises] using tracks
  | maxStreams unidirectional max =>
      refine ⟨_, rfl, tracks.same ?_ ?_ ?_ fun _ => rfl⟩ <;>
        simp only [SendState.onMaxStreams] <;> split <;> split <;> rfl

end Tracks

/-- The session is tracked, and no call panicked. -/
def IsTracked (state : Option SendSession) : Prop :=
  ∃ session, state = some session ∧ session.Tracks

/-- A step keeps the session tracked if it continues, and leaves an unsound
session otherwise. -/
theorem IsTracked.advance {state : Option SendSession} (tracked : IsTracked state) (op : SendOp) :
    (Continues state op → IsTracked (SendSession.advance state op)) ∧
      (IsSound (SendSession.advance state op) → Continues state op) := by
  rcases tracked with ⟨session, rfl, tracks⟩
  by_cases acked : ∃ frame, op = .acked frame
  · rcases acked with ⟨frame, rfl⟩
    exact tracks.acked frame
  · by_cases lost : ∃ frame, op = .lost frame
    · rcases lost with ⟨frame, rfl⟩
      exact tracks.lost frame
    · rw [not_exists] at acked lost
      refine ⟨fun _ => tracks.step_of_other acked lost, fun _ => ?_⟩
      cases op with
      | acked frame => exact absurd rfl (acked frame)
      | lost frame => exact absurd rfl (lost frame)
      | _ => trivial

end SendSession

/-- In every run of the send side, whatever the limits of the peer, every buffer
and every frame is right in every state exactly when acknowledgements continue
the acknowledged bytes within what is sent, and losses stay behind them. -/
theorem send_buffers_sound_iff
    (bidiLimit uniLimit maxData maxStreamDataBidi maxStreamDataUni : Nat) (ops : List SendOp) :
    RunAlways SendSession.advance SendSession.IsSound
        (SendSession.withLimits bidiLimit uniLimit maxData maxStreamDataBidi maxStreamDataUni) ops ↔
      RunMeets SendSession.advance SendSession.Continues
        (SendSession.withLimits bidiLimit uniLimit maxData maxStreamDataBidi maxStreamDataUni) ops := by
  refine runAlways_iff_runMeets SendSession.IsTracked
    (fun _ ⟨session, equal, tracks⟩ => ⟨session, equal, tracks.sound⟩)
    (fun _ op tracked => ⟨(tracked.advance op).2, fun continues =>
      let ⟨session, equal, tracks⟩ := (tracked.advance op).1 continues
      ⟨session, equal, tracks.sound⟩⟩)
    (fun _ op tracked continues => (tracked.advance op).1 continues) ?_
  refine ⟨_, rfl, ?_, fun _ _ => rfl, rfl, rfl, fun _ _ _ => rfl, fun _ _ _ => rfl⟩
  intro id stream found
  exact absurd found (by simp [SendState.withLimits, SendState.start])

/-- Two frames are sent, and the second one is acknowledged first. -/
def reorderedAck : List SendOp :=
  [.openStream false, .sendData 0 [1, 2], .collect [0] 1200, .sendData 0 [3, 4],
    .collect [0] 1200, .acked (.stream 0 (some 2) [3, 4] none false)]

/-- The first frame, which is not acknowledged, leaves the buffer; when it is
lost, the next packet stops the program. -/
theorem unacknowledged_bytes_discarded :
    (∃ session stream, run SendSession.advance
        (SendSession.withLimits 1 0 100 100 0) reorderedAck = some session ∧
      session.state.streams.lookup 0 = some stream ∧ stream.ackPos = 4 ∧ stream.sendBuf = [] ∧
      segmentsOf 0 session.acked = [(2, [3, 4])] ∧ ¬ session.Sound) ∧
      (run SendSession.advance (SendSession.withLimits 1 0 100 100 0)
        (reorderedAck ++ [.lost (.stream 0 (some 0) [1, 2] none false),
          .collect [0] 1200])).isNone = true := by
  refine ⟨⟨_, _, rfl, rfl, rfl, rfl, rfl, fun sound => ?_⟩, by decide⟩
  rcases (sound.buffers 0 _ rfl).discarded 0 (by decide) with ⟨segment, member, starts, _⟩
  obtain rfl : segment = (2, [3, 4]) := List.mem_singleton.mp member
  exact absurd starts (by decide)

end Corduit.Protocol.Quic
