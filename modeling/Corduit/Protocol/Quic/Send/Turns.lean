import Corduit.Protocol.Quic.Send.Credit

/-!
# The streams that a packet is filled from

Whether a stream sends in its turn depends on its own position and on what the
streams before it leave: the credit of the connection and the bytes of the
packet.  A stream that does not send leaves everything as it is, so the streams
that send, each with the room that it finds, are known before the first turn.
-/

namespace Corduit.Protocol.Quic

open Collection Transition Word

/-- The credit of the connection and the bytes of a packet that are left. -/
structure Room where
  credit : Nat
  budget : Nat
  deriving DecidableEq, Repr

namespace SendStream

/-- How many bytes the stream takes in its turn. -/
def takes (stream : SendStream) (limit : Nat) (room : Room) : Nat :=
  min (min (min (limit - stream.sentThrough) room.credit) room.budget)
    (stream.writePos - stream.sentThrough)

/-- Only the end of the stream is left to send. -/
def atEnd (stream : SendStream) : Bool :=
  stream.finQueued && !stream.finSent && stream.sentThrough == stream.writePos

/-- Whether the stream has a share in the packet. -/
def sends (stream : SendStream) (limit : Nat) (room : Room) : Bool :=
  16 ≤ room.budget && stream.resetSent.isNone &&
    0 < min (limit - stream.sentThrough) room.credit &&
    (0 < stream.takes limit room || stream.atEnd)

/-- The bytes of the frame. -/
def payload (stream : SendStream) (limit : Nat) (room : Room) : List Byte :=
  (stream.sendBuf.drop (stream.sentThrough - stream.ackPos)).take (stream.takes limit room)

/-- The stream after its turn. -/
def sent (stream : SendStream) (limit : Nat) (room : Room) (high : Nat) (fin : Bool) :
    SendStream :=
  { stream with
    sentHigh := high
    sentThrough := stream.sentThrough + stream.takes limit room
    finSent := fin || stream.finSent }

/-- The room that the stream leaves. -/
def leaves (stream : SendStream) (limit : Nat) (room : Room) : Room where
  credit := if 0 < stream.takes limit room then
      room.credit - (stream.sentThrough + stream.takes limit room - stream.sentHigh)
    else
      room.credit
  budget := room.budget - stream.takes limit room

end SendStream

/-- The streams that send, with the room that each of them finds. -/
def SendState.turns (state : SendState) : Room → List Nat → List (Nat × Room)
  | _, [] => []
  | room, id :: ids =>
      match state.streams.lookup id with
      | none => state.turns room ids
      | some stream =>
          if stream.sends (state.sendLimit id) room then
            (id, room) :: state.turns (stream.leaves (state.sendLimit id) room) ids
          else
            state.turns room ids

/-- The room of a packet before the first turn. -/
def SendState.room (state : SendState) (maxDatagram : Nat) : Room where
  credit := state.peerMaxData - state.totalSent
  budget := maxDatagram - 50

/-- A frame that a stream sends in its turn. -/
def SendState.SendsFrame (state : SendState) (turn : Nat × Room) (frame : Frame) : Prop :=
  ∃ stream fin, state.streams.lookup turn.1 = some stream ∧
    frame = .stream turn.1 (some stream.sentThrough)
      (stream.payload (state.sendLimit turn.1) turn.2) none fin

namespace Filling

variable {packet next : Filling} {id : Nat} {ids : List Nat} {state : SendState}

/-- What the packet has room for. -/
def left (packet : Filling) : Room where
  credit := packet.state.peerMaxData - packet.state.totalSent
  budget := packet.budget

/-- A stream sends in its turn: its frame goes into the packet, and its position
moves behind the frame. -/
structure Sends (packet next : Filling) (id : Nat) (stream : SendStream) (fin : Bool) : Prop where
  found : packet.state.streams.lookup id = some stream
  sends : stream.sends (packet.state.sendLimit id) packet.left = true
  inOrder : stream.ackPos ≤ stream.sentThrough
  frames : next.frames = packet.frames ++ [.stream id (some stream.sentThrough)
    (stream.payload (packet.state.sendLimit id) packet.left) none fin]
  left : next.left = stream.leaves (packet.state.sendLimit id) packet.left
  limits : next.state.sendLimit = packet.state.sendLimit
  streams : ∃ high, next.state.streams = packet.state.streams.insert id
    (stream.sent (packet.state.sendLimit id) packet.left high fin)
  moves : 0 < stream.takes (packet.state.sendLimit id) packet.left ∨
    (fin = true ∧ stream.finSent = false)

/-- A turn puts a frame into the packet exactly when the stream sends. -/
theorem turn_spec (turned : packet.turn id = some next) :
    (next = packet ∧ ∀ stream, packet.state.streams.lookup id = some stream →
        stream.sends (packet.state.sendLimit id) packet.left = false) ∨
      ∃ stream fin, Sends packet next id stream fin := by
  unfold turn at turned
  by_cases full : packet.budget < 16
  · rw [if_pos full] at turned
    refine Or.inl ⟨(Option.some.inj turned).symm, fun stream _ => ?_⟩
    simp [SendStream.sends, left, Nat.not_le.mpr full]
  rw [if_neg full] at turned
  cases found : packet.state.streams.lookup id with
  | none =>
      rw [found] at turned
      exact Or.inl ⟨(Option.some.inj turned).symm, fun _ found' => by cases found'⟩
  | some stream =>
      rw [found] at turned
      dsimp only at turned
      by_cases reset : stream.resetSent.isSome = true
      · rw [if_pos reset] at turned
        refine Or.inl ⟨(Option.some.inj turned).symm, fun other same => ?_⟩
        rw [← Option.some.inj same]
        simp [SendStream.sends, Option.isNone_eq_false_iff.mpr reset]
      rw [if_neg reset] at turned
      by_cases exhausted : packet.state.avail id stream = 0
      · rw [if_pos exhausted] at turned
        refine Or.inl ⟨(Option.some.inj turned).symm, fun other same => ?_⟩
        rw [← Option.some.inj same]
        have spent : min (packet.state.sendLimit id - stream.sentThrough) packet.left.credit = 0 :=
          exhausted
        simp [SendStream.sends, spent]
      rw [if_neg exhausted, checkedSub] at turned
      by_cases inOrder : stream.ackPos ≤ stream.sentThrough
      case neg =>
        rw [if_neg inOrder] at turned
        cases turned
      rw [if_pos inOrder] at turned
      have fits : 16 ≤ packet.left.budget := Nat.not_lt.mp full
      have notReset : stream.resetSent = none := by simpa using reset
      have credit : 0 < min (packet.state.sendLimit id - stream.sentThrough) packet.left.credit :=
        Nat.pos_of_ne_zero exhausted
      change (if stream.takes (packet.state.sendLimit id) packet.left > 0 then _ else _) = _ at turned
      by_cases takes : stream.takes (packet.state.sendLimit id) packet.left > 0
      · rw [if_pos takes] at turned
        cases turned
        refine Or.inr ⟨stream, stream.finQueued && !stream.finSent &&
          stream.sentThrough + stream.takes (packet.state.sendLimit id) packet.left ==
            stream.writePos, found, ?_, inOrder, ?_, ?_, rfl, ⟨_, rfl⟩, Or.inl takes⟩
        · simp [SendStream.sends, fits, notReset, credit, takes]
        · change packet.frames ++ [.stream id (some (stream.sentThrough + stream.takes _ packet.left -
            stream.takes _ packet.left)) _ none _] = _
          rw [Nat.add_sub_cancel]
          rfl
        · rw [SendStream.leaves, if_pos takes, left, left, Nat.sub_sub]
          rfl
      · rw [if_neg takes] at turned
        have nothing : stream.takes (packet.state.sendLimit id) packet.left = 0 :=
          Nat.eq_zero_of_not_pos takes
        change (if stream.atEnd = true then _ else _) = _ at turned
        by_cases ends : stream.atEnd = true
        · rw [if_pos ends] at turned
          cases turned
          have unsent : stream.finSent = false := by
            unfold SendStream.atEnd at ends
            simp only [Bool.and_eq_true, Bool.not_eq_true'] at ends
            exact ends.1.2
          refine Or.inr ⟨stream, true, found, ?_, inOrder, ?_, ?_, rfl, ⟨stream.sentHigh, ?_⟩,
            Or.inr ⟨rfl, unsent⟩⟩
          · simp [SendStream.sends, fits, notReset, credit, ends]
          · rw [SendStream.payload, nothing, List.take_zero]
          · rw [SendStream.leaves, if_neg takes, nothing]
            rfl
          · rw [SendStream.sent, nothing]
            rfl
        · rw [if_neg ends] at turned
          refine Or.inl ⟨(Option.some.inj turned).symm, fun other same => ?_⟩
          rw [← Option.some.inj same]
          simp [SendStream.sends, nothing, Bool.not_eq_true _ ▸ ends]

/-- The frames that the turns put into a packet are those of the streams that
send. -/
theorem run_spec {filling : Filling} (distinct : ids.Nodup)
    (limits : packet.state.sendLimit = state.sendLimit)
    (same : ∀ id ∈ ids, packet.state.streams.lookup id = state.streams.lookup id)
    (ran : run advance (some packet) ids = some filling) :
    ∃ frames, filling.frames = packet.frames ++ frames ∧
      List.Forall₂ state.SendsFrame (state.turns packet.left ids) frames := by
  induction ids generalizing packet with
  | nil =>
      cases ran
      exact ⟨[], (List.append_nil _).symm, .nil⟩
  | cons id ids ih =>
      have ⟨first, others⟩ := List.nodup_cons.mp distinct
      have ⟨sameHere, sameLater⟩ := List.forall_mem_cons.mp same
      change run advance (packet.turn id) ids = some filling at ran
      cases turned : packet.turn id with
      | none =>
          rw [turned, run_advance_none] at ran
          cases ran
      | some next =>
          rw [turned] at ran
          have sameNext : ∀ other ∈ ids,
              next.state.streams.lookup other = state.streams.lookup other := fun other member =>
            (lookup_turn_of_ne turned fun equal => first (equal ▸ member)).trans
              (sameLater other member)
          rcases turn_spec turned with
            ⟨rfl, passes⟩ | ⟨stream, fin, sent⟩
          · rcases ih others limits sameLater ran with ⟨frames, all, each⟩
            refine ⟨frames, all, ?_⟩
            rw [SendState.turns]
            cases found : state.streams.lookup id with
            | none => exact each
            | some stream =>
                have still := passes stream (sameHere.trans found)
                rw [limits] at still
                simpa [still] using each
          · rcases ih others (sent.limits.trans limits) sameNext ran with ⟨later, all, each⟩
            have found := sameHere.symm.trans sent.found
            have sends := sent.sends
            have leaves := sent.left
            rw [limits] at sends leaves
            refine ⟨.stream id (some stream.sentThrough)
              (stream.payload (state.sendLimit id) packet.left) none fin :: later, ?_, ?_⟩
            · rw [all, sent.frames, limits, List.append_assoc]
              rfl
            · rw [SendState.turns, found]
              simp only [sends, if_true]
              rw [leaves] at each
              exact .cons ⟨stream, fin, found, rfl⟩ each

end Filling

namespace Frame

/-- The frame carries the byte of the stream at the offset. -/
def covers (id offset : Nat) : Frame → Prop
  | .stream streamId start data _ _ =>
      streamId = id ∧ start.getD 0 ≤ offset ∧ offset < start.getD 0 + data.length
  | _ => False

/-- The frame carries the end of the stream. -/
def ends (id : Nat) : Frame → Prop
  | .stream streamId _ _ _ fin => streamId = id ∧ fin = true
  | _ => False

end Frame

/-- The buffers hold everything that is written and not acknowledged. -/
def SendState.Holds (state : SendState) : Prop :=
  ∀ id stream, state.streams.lookup id = some stream →
    stream.writePos ≤ stream.ackPos + stream.sendBuf.length

/-- What was not sent before and is sent now is in one of the frames. -/
structure SendState.Marks (before after : SendState) (frames : List Frame) : Prop where
  bytes : ∀ id stream', after.streams.lookup id = some stream' → ∀ offset < stream'.sentThrough,
    (∃ stream, before.streams.lookup id = some stream ∧ offset < stream.sentThrough) ∨
      ∃ frame ∈ frames, frame.covers id offset
  fins : ∀ id stream', after.streams.lookup id = some stream' → stream'.finSent = true →
    (∃ stream, before.streams.lookup id = some stream ∧ stream.finSent = true) ∨
      ∃ frame ∈ frames, frame.ends id
  acked : ∀ id stream', after.streams.lookup id = some stream' →
    ∃ stream, before.streams.lookup id = some stream ∧ stream.ackPos = stream'.ackPos ∧
      stream.finAcked = stream'.finAcked

theorem SendState.Marks.refl (state : SendState) (frames : List Frame) :
    state.Marks state frames where
  bytes := fun _ stream' found _ below => Or.inl ⟨stream', found, below⟩
  fins := fun _ stream' found ended => Or.inl ⟨stream', found, ended⟩
  acked := fun _ stream' found => ⟨stream', found, rfl, rfl⟩

theorem SendStream.length_payload {stream : SendStream} {limit : Nat} {room : Room}
    (holds : stream.writePos ≤ stream.ackPos + stream.sendBuf.length)
    (inOrder : stream.ackPos ≤ stream.sentThrough) :
    (stream.payload limit room).length = stream.takes limit room := by
  have bound : stream.takes limit room ≤ stream.writePos - stream.sentThrough :=
    Nat.min_le_right _ _
  rw [payload, List.length_take, List.length_drop]
  omega

namespace Filling

variable {packet next filling : Filling} {id : Nat} {ids : List Nat} {state before : SendState}

theorem marks_turn (holds : packet.state.Holds) (marks : before.Marks packet.state packet.frames)
    (turned : packet.turn id = some next) :
    next.state.Holds ∧ before.Marks next.state next.frames := by
  rcases turn_spec turned with ⟨rfl, _⟩ | ⟨stream, fin, sent⟩
  · exact ⟨holds, marks⟩
  rcases sent.streams with ⟨high, streams⟩
  have held := holds id stream sent.found
  have keeps : ∀ {property : Frame → Prop}, (∃ frame ∈ packet.frames, property frame) →
      ∃ frame ∈ next.frames, property frame := by
    rintro property ⟨frame, member, has⟩
    rw [sent.frames]
    exact ⟨frame, List.mem_append_left _ member, has⟩
  have made : ∃ frame ∈ next.frames, frame = .stream id (some stream.sentThrough)
      (stream.payload (packet.state.sendLimit id) packet.left) none fin := by
    rw [sent.frames]
    exact ⟨_, List.mem_append_right _ List.mem_cons_self, rfl⟩
  rcases made with ⟨frame, member, frame_eq⟩
  refine ⟨?_, ?_, ?_, ?_⟩
  · intro other stream' found
    rw [streams, Table.lookup_insert_eq] at found
    by_cases same : other = id
    · rw [if_pos same] at found
      cases found
      exact held
    · rw [if_neg same] at found
      exact holds other stream' found
  · intro other stream' found offset below
    rw [streams, Table.lookup_insert_eq] at found
    by_cases same : other = id
    · rw [if_pos same] at found
      cases found
      subst same
      by_cases old : offset < stream.sentThrough
      · exact (marks.bytes other stream sent.found offset old).imp_right keeps
      · refine Or.inr ⟨frame, member, ?_⟩
        rw [frame_eq]
        refine ⟨rfl, Nat.not_lt.mp old, ?_⟩
        rw [SendStream.length_payload held sent.inOrder]
        exact below
    · rw [if_neg same] at found
      exact (marks.bytes other stream' found offset below).imp_right keeps
  · intro other stream' found ended
    rw [streams, Table.lookup_insert_eq] at found
    by_cases same : other = id
    · rw [if_pos same] at found
      cases found
      subst same
      rcases Bool.or_eq_true_iff.mp ended with now | old
      · refine Or.inr ⟨frame, member, ?_⟩
        rw [frame_eq]
        exact ⟨rfl, now⟩
      · exact (marks.fins other stream sent.found old).imp_right keeps
    · rw [if_neg same] at found
      exact (marks.fins other stream' found ended).imp_right keeps
  · intro other stream' found
    rw [streams, Table.lookup_insert_eq] at found
    by_cases same : other = id
    · rw [if_pos same] at found
      cases found
      exact same ▸ marks.acked id stream sent.found
    · rw [if_neg same] at found
      exact marks.acked other stream' found

theorem marks_run (holds : packet.state.Holds) (marks : before.Marks packet.state packet.frames)
    (ran : run advance (some packet) ids = some filling) :
    filling.state.Holds ∧ before.Marks filling.state filling.frames := by
  induction ids generalizing packet with
  | nil =>
      cases ran
      exact ⟨holds, marks⟩
  | cons id ids ih =>
      change run advance (packet.turn id) ids = some filling at ran
      cases turned : packet.turn id with
      | none =>
          rw [turned, run_advance_none] at ran
          cases ran
      | some next =>
          rw [turned] at ran
          have ⟨held, marked⟩ := marks_turn holds marks turned
          exact ih held marked ran

/-- The streams change exactly when one of them sends. -/
theorem state_run_eq_iff (distinct : ids.Nodup) (limits : packet.state.sendLimit = state.sendLimit)
    (same : ∀ id ∈ ids, packet.state.streams.lookup id = state.streams.lookup id)
    (ran : run advance (some packet) ids = some filling) :
    filling.state = packet.state ↔ state.turns packet.left ids = [] := by
  induction ids generalizing packet with
  | nil =>
      cases ran
      exact iff_of_true rfl rfl
  | cons id ids ih =>
      have ⟨first, others⟩ := List.nodup_cons.mp distinct
      have ⟨sameHere, sameLater⟩ := List.forall_mem_cons.mp same
      change run advance (packet.turn id) ids = some filling at ran
      cases turned : packet.turn id with
      | none =>
          rw [turned, run_advance_none] at ran
          cases ran
      | some next =>
          rw [turned] at ran
          rcases turn_spec turned with ⟨rfl, passes⟩ | ⟨stream, fin, sent⟩
          · rw [ih others limits sameLater ran, SendState.turns]
            cases found : state.streams.lookup id with
            | none => exact Iff.rfl
            | some stream =>
                have still := passes stream (sameHere.trans found)
                rw [limits] at still
                simp [still]
          · have sends := sent.sends
            rw [limits] at sends
            refine iff_of_false (fun unchanged => ?_) ?_
            · rcases sent.streams with ⟨high, streams⟩
              have kept := lookup_run_of_notMem ran first
              rw [unchanged, sent.found, streams, Table.lookup_insert_eq, if_pos rfl] at kept
              have stream_eq := Option.some.inj kept
              rcases sent.moves with takes | ⟨rfl, unsent⟩
              · have through := congrArg SendStream.sentThrough stream_eq
                change stream.sentThrough = stream.sentThrough + _ at through
                omega
              · have ended := congrArg SendStream.finSent stream_eq
                change stream.finSent = (true || stream.finSent) at ended
                rw [unsent] at ended
                cases ended
            · rw [SendState.turns, sameHere.symm.trans sent.found]
              simp [sends]

end Filling

variable {state : SendState} {ids : List Nat} {maxDatagram : Nat} {filling : Filling}

theorem SendState.collectStreams_spec (distinct : ids.Nodup)
    (collected : state.collectStreams ids maxDatagram = some filling) :
    List.Forall₂ state.SendsFrame (state.turns (state.room maxDatagram) ids) filling.frames := by
  rcases Filling.run_spec distinct rfl (fun _ _ => rfl) collected with ⟨frames, all, each⟩
  rw [all]
  exact each

theorem SendState.marks_collectStreams (holds : state.Holds)
    (collected : state.collectStreams ids maxDatagram = some filling) :
    filling.state.Holds ∧ state.Marks filling.state filling.frames :=
  Filling.marks_run holds (.refl state []) collected

theorem SendState.collectStreams_eq_iff (distinct : ids.Nodup)
    (collected : state.collectStreams ids maxDatagram = some filling) :
    filling.state = state ↔ state.turns (state.room maxDatagram) ids = [] :=
  Filling.state_run_eq_iff distinct rfl (fun _ _ => rfl) collected

end Corduit.Protocol.Quic
