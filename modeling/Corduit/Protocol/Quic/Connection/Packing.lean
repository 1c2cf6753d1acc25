import Corduit.Protocol.Quic.Connection.Outbound
import Corduit.Protocol.Quic.Send.Turns

/-!
# The frames of a packet

A round of the loop hands a list of frames to `send_one`, which writes them one
behind the other.  STREAM frames are written without a length, so the peer reads
the same list only when at most one stream sends and no PING is put behind it.
-/

namespace Corduit.Protocol.Quic

open Collection Transition Word

variable {κ ξ : Type}

namespace Connection

/-- The credit that a packet grants. -/
def limitFrames (conn : Connection κ ξ) : List Frame :=
  conn.recv.pendingMaxData.map Frame.maxData ++
    conn.recv.pendingMaxStreamData.map fun limit => Frame.maxStreamData limit.1 limit.2

/-- The streams that send in the next packet. -/
def turns (order : Order) (conn : Connection κ ξ) (maxDatagram : Nat) : List (Nat × Room) :=
  conn.send.turns (conn.send.room maxDatagram) (order.arrange conn.send.sendingIds)

/-- The bytes of the next CRYPTO frame. -/
def cryptoCount (conn : Connection κ ξ) (space : PnSpace) (maxDatagram : Nat) : Nat :=
  let current := conn.spaces space
  if current.hasCryptoToSend then
    min (maxDatagram - 50) (current.cryptoSend.length - (current.cryptoSent - current.cryptoAcked))
  else
    0

/-- The number of the stream and the end of its bytes are variable-length
integers. -/
def Addresses (conn : Connection κ ξ) (turn : Nat × Room) : Prop :=
  turn.1 < VARINT_LIMIT ∧ ∀ stream, conn.send.streams.lookup turn.1 = some stream →
    stream.sentThrough + (stream.payload (conn.send.sendLimit turn.1) turn.2).length <
      VARINT_LIMIT

/-- All numbers are variable-length integers, at most one stream sends, and when
one does no PING is due. -/
def Assembles (order : Order) (conn : Connection κ ξ) (space : PnSpace) (maxDatagram : Nat) :
    Prop :=
  if space = .application then
    (∀ max ∈ conn.recv.pendingMaxData, max < VARINT_LIMIT) ∧
      (∀ limit ∈ conn.recv.pendingMaxStreamData, limit.1 < VARINT_LIMIT ∧ limit.2 < VARINT_LIMIT) ∧
      match conn.turns order maxDatagram with
      | [] => True
      | [turn] => conn.pingPending = false ∧ conn.Addresses turn
      | _ => False
  else
    0 < conn.cryptoCount space maxDatagram →
      (conn.spaces space).cryptoSent + conn.cryptoCount space maxDatagram < VARINT_LIMIT

end Connection

namespace Outbound

/-- The frames of the packet that a round makes, if it makes one. -/
def roundFrames (order : Order) (space : PnSpace) (maxDatagram : Nat) (building : Outbound κ ξ) :
    Except Fault (Option (List Frame)) :=
  if building.conn.cwnd - building.conn.bytesInFlight < 40 then
    .ok none
  else
    match building.conn.popDatagramTx space maxDatagram with
    | some (datagram, _) => .ok (some [.datagram datagram none])
    | none => do
        let (frames, _, _) ← building.conn.nextFrames order space maxDatagram
        return if frames.isEmpty then none else some frames

variable {packets : PacketLibrary κ} {clock : Clock} {order : Order} {space : PnSpace}
  {maxDatagram : Nat} {building building' : Outbound κ ξ} {frames : List Frame}

end Outbound

namespace Connection

variable {conn conn' : Connection κ ξ} {order : Order} {space : PnSpace} {maxDatagram : Nat}
  {frames : List Frame} {ackEliciting : Bool}

theorem addPings_cases (conn : Connection κ ξ) (space : PnSpace) (frames : List Frame)
    (ackEliciting : Bool) :
    (conn.pingPending = true ∧ (conn.addPings space frames ackEliciting).1 = frames ++ [.ping]) ∨
      (conn.pingPending = false ∧ frames = [] ∧
        (conn.addPings space frames ackEliciting).1 = [.ping]) ∨
      (conn.pingPending = false ∧ (conn.addPings space frames ackEliciting).1 = frames) := by
  unfold addPings
  cases pending : conn.pingPending with
  | true => exact Or.inl ⟨rfl, rfl⟩
  | false =>
      rw [if_neg Bool.false_ne_true]
      by_cases probe : (space = .application && conn.ptoDue && frames.isEmpty) = true
      · rw [if_pos probe]
        simp only [Bool.and_eq_true, List.isEmpty_iff] at probe
        exact Or.inr (Or.inl ⟨rfl, probe.2, rfl⟩)
      · rw [if_neg probe]
        exact Or.inr (Or.inr ⟨rfl, rfl⟩)

theorem lengthless_limitFrames {frame : Frame} (member : frame ∈ conn.limitFrames) :
    frame.lengthless = false ∧ frame.Written := by
  rcases List.mem_append.mp member with member | member
  · rcases List.mem_map.mp member with ⟨max, _, rfl⟩
    exact ⟨rfl, trivial⟩
  · rcases List.mem_map.mp member with ⟨limit, _, rfl⟩
    exact ⟨rfl, trivial⟩

theorem integers_limitFrames_iff :
    (∀ frame ∈ conn.limitFrames, frame.Integers) ↔
      (∀ max ∈ conn.recv.pendingMaxData, max < VARINT_LIMIT) ∧
        ∀ limit ∈ conn.recv.pendingMaxStreamData,
          limit.1 < VARINT_LIMIT ∧ limit.2 < VARINT_LIMIT := by
  simp only [limitFrames, List.forall_mem_append, List.forall_mem_map, Frame.Integers]

theorem collectStreamFrames_spec
    (collected : conn.collectStreamFrames order maxDatagram = .ok (frames, ackEliciting, conn')) :
    ∃ streams, frames = conn.limitFrames ++ streams ∧ conn'.pingPending = conn.pingPending ∧
      List.Forall₂ conn.send.SendsFrame (conn.turns order maxDatagram) streams := by
  unfold collectStreamFrames at collected
  dsimp only at collected
  cases filled : conn.send.collectStreams (order.arrange conn.send.sendingIds) maxDatagram with
  | none =>
      rw [filled] at collected
      cases collected
  | some filling =>
      rw [filled] at collected
      cases collected
      have distinct : (order.arrange conn.send.sendingIds).Nodup :=
        (order.perm _).nodup_iff.mpr (conn.send.streams.nodup_keysWhere _)
      exact ⟨filling.frames, rfl, rfl, SendState.collectStreams_spec distinct filled⟩

theorem cryptoFrames_spec (made : conn.cryptoFrames space maxDatagram = .ok frames) :
    (frames = [] ∧ conn.cryptoCount space maxDatagram = 0) ∨
      ∃ data, frames = [.crypto (conn.spaces space).cryptoSent data] ∧
        data.length = conn.cryptoCount space maxDatagram ∧
        0 < conn.cryptoCount space maxDatagram := by
  unfold cryptoFrames at made
  unfold cryptoCount
  dsimp only at made ⊢
  by_cases due : (conn.spaces space).hasCryptoToSend = true
  · rw [if_pos due, checkedSub] at made
    rw [if_pos due]
    by_cases inOrder : (conn.spaces space).cryptoAcked ≤ (conn.spaces space).cryptoSent
    · rw [if_pos inOrder] at made
      dsimp only at made
      rw [← List.length_drop, ← List.length_take]
      split at made
      · rename_i nothing
        cases made
        exact Or.inl ⟨rfl, List.length_eq_zero_iff.mpr (List.isEmpty_iff.mp nothing)⟩
      · rename_i something
        cases made
        refine Or.inr ⟨_, rfl, rfl, List.length_pos_iff.mpr fun nothing => something ?_⟩
        rw [nothing]
        rfl
    · rw [if_neg inOrder] at made
      cases made
  · rw [if_neg due] at made
    rw [if_neg due]
    cases made
    exact Or.inl ⟨rfl, rfl⟩

theorem decodes_iff {packets : PacketLibrary κ}
    {decode : List Byte → Except String (Frame × Nat)}
    (rules : FrameRules packets.encodeFrame decode) (written : ∀ frame ∈ frames, frame.Written) :
    decodeAll decode (frames.flatMap packets.encodeFrame).length
        (frames.flatMap packets.encodeFrame) = .ok frames ↔
      (∀ frame ∈ frames, frame.Integers) ∧ ∀ frame ∈ frames.dropLast, frame.lengthless = false :=
  rules.decodeAll_eq_iff written (Nat.le_refl _)

section

variable {turn : Nat × Room} {frame : Frame} (sends : conn.send.SendsFrame turn frame)

include sends

theorem integers_of_sendsFrame_iff : frame.Integers ↔ conn.Addresses turn := by
  rcases sends with ⟨stream, fin, found, rfl⟩
  refine and_congr_right fun _ => ⟨fun bound other same => ?_, fun bound => bound stream found⟩
  rw [found] at same
  rw [← Option.some.inj same]
  exact bound

theorem lengthless_of_sendsFrame : frame.lengthless = true ∧ frame.Written := by
  rcases sends with ⟨stream, fin, _, rfl⟩
  exact ⟨rfl, rfl, rfl⟩

end

theorem written_of_sendsFrames {turns : List (Nat × Room)}
    (each : List.Forall₂ conn.send.SendsFrame turns frames) : ∀ frame ∈ frames, frame.Written := by
  induction each with
  | nil => simp
  | cons sends _ ih =>
      exact List.forall_mem_cons.mpr ⟨(lengthless_of_sendsFrame sends).2, ih⟩

/-- Credit, the frames of the streams that send, and a PING when one is due or
nothing else is. -/
theorem nextFrames_application
    (handed : conn.nextFrames order .application maxDatagram = .ok (frames, ackEliciting, conn')) :
    ∃ streams pings, frames = conn.limitFrames ++ (streams ++ pings) ∧
      List.Forall₂ conn.send.SendsFrame (conn.turns order maxDatagram) streams ∧
      ((pings = [.ping] ∧ (streams = [] ∨ conn.pingPending = true)) ∨
        (pings = [] ∧ conn.pingPending = false)) := by
  rcases bind_eq_ok_iff.mp handed with ⟨⟨gathered, eliciting, middle⟩, collected, added⟩
  rw [gatherFrames, if_pos rfl] at collected
  rcases collectStreamFrames_spec collected with ⟨streams, rfl, pending, each⟩
  have frames_eq := congrArg Prod.fst (pure_eq_ok_iff.mp added)
  dsimp only at frames_eq
  rw [← frames_eq, ← pending]
  rcases addPings_cases middle .application (conn.limitFrames ++ streams) eliciting with
    ⟨due, is⟩ | ⟨_, nothing, is⟩ | ⟨none_, is⟩
  · exact ⟨streams, [.ping], by rw [is, List.append_assoc], each, Or.inl ⟨rfl, Or.inr due⟩⟩
  · rcases List.append_eq_nil_iff.mp nothing with ⟨noLimits, rfl⟩
    exact ⟨[], [.ping], by rw [is, noLimits]; rfl, each, Or.inl ⟨rfl, Or.inl rfl⟩⟩
  · exact ⟨streams, [], by rw [is, List.append_nil], each, Or.inr ⟨rfl, none_⟩⟩

variable {packets : PacketLibrary κ} {decode : List Byte → Except String (Frame × Nat)}
  (rules : FrameRules packets.encodeFrame decode)

include rules

theorem decodes_limitFrames_iff (written : ∀ frame ∈ frames, frame.Written) :
    decodeAll decode ((conn.limitFrames ++ frames).flatMap packets.encodeFrame).length
        ((conn.limitFrames ++ frames).flatMap packets.encodeFrame) =
          .ok (conn.limitFrames ++ frames) ↔
      (∀ frame ∈ conn.limitFrames, frame.Integers) ∧ (∀ frame ∈ frames, frame.Integers) ∧
        ∀ frame ∈ frames.dropLast, frame.lengthless = false := by
  have all : ∀ frame ∈ conn.limitFrames ++ frames, frame.Written :=
    List.forall_mem_append.mpr ⟨fun _ member => (lengthless_limitFrames member).2, written⟩
  have ends : (∀ frame ∈ (conn.limitFrames ++ frames).dropLast, frame.lengthless = false) ↔
      ∀ frame ∈ frames.dropLast, frame.lengthless = false := by
    cases frames with
    | nil =>
        rw [List.append_nil]
        exact iff_of_true
          (fun _ member => (lengthless_limitFrames (List.mem_of_mem_dropLast member)).1) (by simp)
    | cons frame frames =>
        rw [List.dropLast_append_cons, List.forall_mem_append]
        exact and_iff_right fun _ member => (lengthless_limitFrames member).1
  rw [decodes_iff rules all, ends, List.forall_mem_append, and_assoc]

/-- In the last space, the frames are read back exactly when they are assembled
well. -/
theorem decodes_application_iff
    (handed : conn.nextFrames order .application maxDatagram = .ok (frames, ackEliciting, conn')) :
    decodeAll decode (frames.flatMap packets.encodeFrame).length
        (frames.flatMap packets.encodeFrame) = .ok frames ↔
      conn.Assembles order .application maxDatagram := by
  rcases nextFrames_application handed with ⟨streams, pings, rfl, each, due⟩
  have writtenPings : ∀ frame ∈ pings, frame.Written := by
    rcases due with ⟨rfl, _⟩ | ⟨rfl, _⟩
    · simp [Frame.Written]
    · simp
  have written := List.forall_mem_append.mpr ⟨written_of_sendsFrames each, writtenPings⟩
  rw [Assembles, if_pos rfl, ← and_assoc, ← integers_limitFrames_iff,
    decodes_limitFrames_iff rules written]
  refine and_congr_right fun _ => ?_
  generalize conn.turns order maxDatagram = turns at each ⊢
  cases each with
  | nil =>
      refine iff_of_true ?_ trivial
      rcases due with ⟨rfl, _⟩ | ⟨rfl, _⟩
      · simp [Frame.Integers]
      · simp
  | @cons turn frame turns streams sends each =>
      have toEnd := (lengthless_of_sendsFrame sends).1
      cases each with
      | nil =>
          rcases due with ⟨rfl, none_ | pending⟩ | ⟨rfl, pending⟩
          · cases none_
          · simp [toEnd, pending]
          · simp [pending, integers_of_sendsFrame_iff sends]
      | cons sends' each =>
          refine iff_of_false (fun holds => ?_) id
          have first := holds.2 frame (by simp)
          rw [toEnd] at first
          cases first

theorem decodes_crypto_iff (early : space ≠ .application)
    (handed : conn.nextFrames order space maxDatagram = .ok (frames, ackEliciting, conn')) :
    decodeAll decode (frames.flatMap packets.encodeFrame).length
        (frames.flatMap packets.encodeFrame) = .ok frames ↔
      conn.Assembles order space maxDatagram := by
  rcases bind_eq_ok_iff.mp handed with ⟨⟨gathered, eliciting, middle⟩, collected, added⟩
  rw [gatherFrames, if_neg early] at collected
  rcases bind_eq_ok_iff.mp collected with ⟨crypto, made, collected⟩
  cases collected
  have frames_eq := congrArg Prod.fst (pure_eq_ok_iff.mp added)
  dsimp only at frames_eq
  rw [← frames_eq, Assembles, if_neg early]
  have pings : ∃ pings, (conn.addPings space gathered (!gathered.isEmpty)).1 = gathered ++ pings ∧
      (pings = [] ∨ pings = [.ping]) := by
    rcases addPings_cases conn space gathered (!gathered.isEmpty) with
      ⟨_, is⟩ | ⟨_, rfl, is⟩ | ⟨_, is⟩
    · exact ⟨[.ping], is, Or.inr rfl⟩
    · exact ⟨[.ping], is, Or.inr rfl⟩
    · exact ⟨[], by rw [is, List.append_nil], Or.inl rfl⟩
  rcases pings with ⟨pings, is, short⟩
  rw [is]
  rcases cryptoFrames_spec made with ⟨rfl, nothing⟩ | ⟨data, rfl, length, some_⟩
  · rw [nothing, decodes_iff rules (by rcases short with rfl | rfl <;> simp [Frame.Written])]
    refine iff_of_true ?_ (fun impossible => absurd impossible (Nat.lt_irrefl 0))
    rcases short with rfl | rfl
    · simp
    · simp [Frame.Integers]
  · rw [← length, decodes_iff rules (by rcases short with rfl | rfl <;> simp [Frame.Written])]
    rw [← length] at some_
    rcases short with rfl | rfl
    · simp [Frame.Integers, some_]
    · simp [Frame.Integers, Frame.lengthless, some_]

end Connection

namespace Outbound

variable {packets : PacketLibrary κ} {order : Order} {space : PnSpace} {maxDatagram : Nat}
  {building : Outbound κ ξ} {frames : List Frame}

/-- The payload of a packet is read back as its frames exactly when the round
sends a datagram or its frames are assembled well. -/
theorem payload_decodes_iff {decode : List Byte → Except String (Frame × Nat)}
    (rules : FrameRules packets.encodeFrame decode)
    (handed : building.roundFrames order space maxDatagram = .ok (some frames)) :
    decodeAll decode (frames.flatMap packets.encodeFrame).length
        (frames.flatMap packets.encodeFrame) = .ok frames ↔
      (building.conn.popDatagramTx space maxDatagram = none →
        building.conn.Assembles order space maxDatagram) := by
  unfold roundFrames at handed
  by_cases full : building.conn.cwnd - building.conn.bytesInFlight < 40
  · rw [if_pos full] at handed
    cases handed
  rw [if_neg full] at handed
  cases popped : building.conn.popDatagramTx space maxDatagram with
  | some found =>
      rcases found with ⟨datagram, conn⟩
      rw [popped] at handed
      cases handed
      rw [Connection.decodes_iff rules (by simp [Frame.Written])]
      exact iff_of_true (by simp [Frame.Integers]) (by simp)
  | none =>
      rw [popped] at handed
      rcases bind_eq_ok_iff.mp handed with ⟨⟨gathered, ackEliciting, conn⟩, next, handed⟩
      have handed := pure_eq_ok_iff.mp handed
      by_cases nothing : gathered.isEmpty = true
      · rw [if_pos nothing] at handed
        cases handed
      rw [if_neg nothing] at handed
      cases handed
      rw [forall_prop_of_true rfl]
      by_cases last : space = .application
      · subst last
        exact Connection.decodes_application_iff rules next
      · exact Connection.decodes_crypto_iff rules last next

end Outbound

namespace Plain

/-- The library without encryption, with frames as they stand on the wire. -/
def wire : PacketLibrary Unit :=
  { packets with
    encodeFrame := writeFrame
    decodeFrame := readFrame }

/-- The order of the table. -/
def listed : Order where
  arrange := id
  perm := fun ids => .refl ids

/-- A connection with credit to grant and one byte to send on each of the streams. -/
def busy (ids : List Nat) : Outbound Unit (List Byte) where
  conn := { connection with
    send := { SendState.withLimits 2 0 100 50 0 with
      streams := ids.foldl (fun streams id => streams.insert id
        { sendBuf := [BitVec.ofNat 8 id], writePos := 1, peerLimit := 50 }) ∅ }
    recv := { connection.recv with pendingMaxData := [200] } }
  out := []

/-- Credit and one stream. -/
def oneStream : List Frame :=
  [.maxData 200, .stream 4 (some 0) [4] none false]

/-- Credit and two streams. -/
def twoStreams : List Frame :=
  [.maxData 200, .stream 4 (some 0) [4] none false, .stream 0 (some 0) [0] none false]

end Plain

namespace Outbound

open Plain

theorem payload_decodes_iff_oneStream :
    (busy [4]).roundFrames listed .application 1200 = .ok (some oneStream) ∧
      decodeAll readFrame (oneStream.flatMap wire.encodeFrame).length
        (oneStream.flatMap wire.encodeFrame) = .ok oneStream := by
  have rules : FrameRules wire.encodeFrame readFrame := frameRules
  have handed : (busy [4]).roundFrames listed .application 1200 = .ok (some oneStream) := by
    decide +kernel
  have turns : (busy [4]).conn.turns listed 1200 = [(4, ⟨100, 1150⟩)] := by decide +kernel
  refine ⟨handed, (payload_decodes_iff rules handed).mpr fun _ => ?_⟩
  rw [Connection.Assembles, if_pos rfl, turns]
  refine ⟨by decide +kernel, by decide +kernel, by decide +kernel, by decide, ?_⟩
  intro stream found
  cases found
  decide +kernel

/-- With two streams, the second frame is read as bytes of the first stream. -/
theorem second_stream_absorbed :
    (busy [0, 4]).roundFrames listed .application 1200 = .ok (some twoStreams) ∧
      decodeAll readFrame (twoStreams.flatMap wire.encodeFrame).length
        (twoStreams.flatMap wire.encodeFrame) =
          .ok [.maxData 200, .stream 4 (some 0) [4, 0x0c, 0, 0, 0] none false] ∧
      decodeAll readFrame (twoStreams.flatMap wire.encodeFrame).length
        (twoStreams.flatMap wire.encodeFrame) ≠ .ok twoStreams :=
  ⟨by decide +kernel, by decide +kernel, by decide +kernel⟩

end Outbound

end Corduit.Protocol.Quic
