import Corduit.Protocol.Quic.Connection.Outbound
import Corduit.Protocol.Quic.Send.Session

/-!
# What operations leave alone

Packets that go out, acknowledgements, losses and the application do not touch
the handshake, the keys, the packet numbers received, the handshake bytes
received or the limits of the peer.
-/

namespace Corduit.Protocol.Quic

open Collection Transition Word

/-- The limits of the peer that the connection keeps. -/
structure Limits where
  bidi : Nat
  uni : Nat
  data : Nat
  streamDataBidi : Nat
  streamDataUni : Nat
  deriving DecidableEq, Repr

namespace SendState

variable {state state' : SendState}

/-- What the peer allows. -/
def limits (state : SendState) : Limits where
  bidi := state.peerBidiLimit
  uni := state.peerUniLimit
  data := state.peerMaxData
  streamDataBidi := state.peerMaxStreamDataBidi
  streamDataUni := state.peerMaxStreamDataUni

theorem limits_openStream (state : SendState) (uni : Bool) :
    (state.openStream uni).2.limits = state.limits := by
  cases uni with
  | true =>
      by_cases refused : state.nextUni / 4 ≥ state.peerUniLimit
      · simp [openStream, refused]
      · simp [openStream, refused, limits]
  | false =>
      by_cases refused : state.nextBidi / 4 ≥ state.peerBidiLimit
      · simp [openStream, refused]
      · simp [openStream, refused, limits]

theorem limits_sendData {streamId : Nat} {data : List Byte} {result : Except QuicError Nat}
    (sent : state.sendData streamId data = some (result, state')) :
    state'.limits = state.limits := by
  unfold sendData at sent
  cases found : state.streams.lookup streamId with
  | none =>
      rw [found] at sent
      cases sent
      rfl
  | some stream =>
      rw [found] at sent
      dsimp only at sent
      by_cases reset : (stream.resetSent.isSome || stream.resetRecv.isSome) = true
      · rw [if_pos reset] at sent
        cases sent
        rfl
      · rw [if_neg reset] at sent
        rcases Option.bind_eq_some_iff.mp sent with ⟨buffered, _, sent⟩
        by_cases full : buffered ≥ MAX_SEND_BUFFER
        · rw [if_pos full] at sent
          cases sent
          rfl
        · rw [if_neg full] at sent
          cases sent
          rfl

variable (state : SendState)

theorem limits_finStream (streamId : Nat) :
    (state.finStream streamId).2.limits = state.limits := by
  unfold finStream
  cases state.streams.lookup streamId with
  | none => rfl
  | some stream => rfl

theorem limits_onAckedStream (streamId : Nat) (offset : Option Nat) (data : List Byte)
    (fin : Bool) :
    (state.onAckedStream streamId offset data fin).limits = state.limits := by
  unfold onAckedStream
  cases state.streams.lookup streamId with
  | none => rfl
  | some stream => rfl

theorem limits_onLostStream (streamId : Nat) (offset : Option Nat) (fin : Bool) :
    (state.onLostStream streamId offset fin).limits = state.limits := by
  unfold onLostStream
  cases state.streams.lookup streamId with
  | none => rfl
  | some stream => rfl

theorem limits_onMaxStreamData (streamId max : Nat) :
    (state.onMaxStreamData streamId max).limits = state.limits := by
  unfold onMaxStreamData
  cases state.streams.lookup streamId with
  | none => rfl
  | some stream =>
      dsimp only
      by_cases raised : max > stream.peerLimit
      · rw [if_pos raised]
        rfl
      · rw [if_neg raised]

end SendState

namespace Filling

variable {packet packet' : Filling} {id : Nat}

theorem limits_turn (turned : packet.turn id = some packet') :
    packet'.state.limits = packet.state.limits := by
  rcases turn_cases packet id with ⟨same, _⟩ | ⟨stream, fin, finSent, _, _, _, _, same⟩ |
    ⟨stream, _, _, same⟩ | ⟨stream, _, _, same⟩
  · rw [same] at turned
    cases turned
    rfl
  · rw [same] at turned
    cases turned
    rfl
  · rw [same] at turned
    cases turned
    rfl
  · rw [same] at turned
    cases turned

end Filling

theorem SendState.limits_collectStreams {state : SendState} {ids : List Nat} {maxDatagram : Nat}
    {filling : Filling} (collected : state.collectStreams ids maxDatagram = some filling) :
    filling.state.limits = state.limits := by
  have step : ∀ (packet : Option Filling) (id : Nat),
      (∀ filled ∈ packet, filled.state.limits = state.limits) →
        ∀ filled ∈ Filling.advance packet id, filled.state.limits = state.limits := by
    intro packet id holds filled member
    rcases Option.bind_eq_some_iff.mp member with ⟨before, found, turned⟩
    rw [Filling.limits_turn turned]
    exact holds before found
  refine run_invariant _ step ?_ ids filling collected
  intro filled member
  cases member
  rfl

/-- The keys, the packet numbers received and the handshake bytes received are
the same. -/
structure Space.Untouched {κ : Type} (space space' : Space κ) : Prop where
  largestRecvPn : space'.largestRecvPn = space.largestRecvPn
  ackQueue : space'.ackQueue = space.ackQueue
  cryptoRecv : space'.cryptoRecv = space.cryptoRecv
  key : space'.key = space.key
  writeKey : space'.writeKey = space.writeKey

namespace Space.Untouched

variable {κ : Type} {space space' space'' : Space κ}

theorem refl (space : Space κ) : space.Untouched space :=
  ⟨rfl, rfl, rfl, rfl, rfl⟩

theorem trans (first : space.Untouched space') (second : space'.Untouched space'') :
    space.Untouched space'' where
  largestRecvPn := second.largestRecvPn.trans first.largestRecvPn
  ackQueue := second.ackQueue.trans first.ackQueue
  cryptoRecv := second.cryptoRecv.trans first.cryptoRecv
  key := second.key.trans first.key
  writeKey := second.writeKey.trans first.writeKey

theorem acknowledgeCrypto (space : Space κ) (stop : Nat) :
    space.Untouched (space.acknowledgeCrypto stop) := by
  unfold Space.acknowledgeCrypto
  split
  · exact ⟨rfl, rfl, rfl, rfl, rfl⟩
  · exact refl space

theorem rewindCrypto (space : Space κ) (start : Nat) :
    space.Untouched (space.rewindCrypto start) := by
  unfold Space.rewindCrypto
  split
  · exact ⟨rfl, rfl, rfl, rfl, rfl⟩
  · exact refl space

end Space.Untouched

/-- Beyond that, the handshake bytes to send are the same, and more of them may
have been sent. -/
structure Space.Sends {κ : Type} (space space' : Space κ) : Prop extends
    space.Untouched space' where
  cryptoSend : space'.cryptoSend = space.cryptoSend
  cryptoAcked : space'.cryptoAcked = space.cryptoAcked
  cryptoWritten : space'.cryptoWritten = space.cryptoWritten
  cryptoSent : space.cryptoSent ≤ space'.cryptoSent

namespace Space.Sends

variable {κ : Type} {space space' space'' : Space κ}

theorem refl (space : Space κ) : space.Sends space :=
  ⟨.refl space, rfl, rfl, rfl, Nat.le_refl _⟩

theorem trans (first : space.Sends space') (second : space'.Sends space'') :
    space.Sends space'' where
  toUntouched := first.toUntouched.trans second.toUntouched
  cryptoSend := second.cryptoSend.trans first.cryptoSend
  cryptoAcked := second.cryptoAcked.trans first.cryptoAcked
  cryptoWritten := second.cryptoWritten.trans first.cryptoWritten
  cryptoSent := Nat.le_trans first.cryptoSent second.cryptoSent

end Space.Sends

namespace Connection

variable {κ ξ : Type} {conn conn' conn'' : Connection κ ξ}

@[simp]
theorem spaces_updateSpace_self (conn : Connection κ ξ) (space : PnSpace)
    (change : Space κ → Space κ) :
    (conn.updateSpace space change).spaces space = change (conn.spaces space) :=
  Function.update_self ..

theorem spaces_updateSpace_of_ne {space other : PnSpace} (different : other ≠ space)
    (conn : Connection κ ξ) (change : Space κ → Space κ) :
    (conn.updateSpace space change).spaces other = conn.spaces other :=
  Function.update_of_ne different ..

theorem forall_spaces_updateSpace {property : PnSpace → Space κ → Prop} {space : PnSpace}
    {change : Space κ → Space κ} (here : property space (change (conn.spaces space)))
    (others : ∀ other, other ≠ space → property other (conn.spaces other)) (other : PnSpace) :
    property other ((conn.updateSpace space change).spaces other) := by
  by_cases same : other = space
  · rw [same, spaces_updateSpace_self]
    exact here
  · rw [spaces_updateSpace_of_ne same]
    exact others other same

theorem spaces_processFatal (conn : Connection κ ξ) (error : QuicError) :
    (conn.processFatal error).spaces = conn.spaces := by
  unfold processFatal
  split
  · rfl
  · rfl

theorem sendOne_cases (packets : PacketLibrary κ) (clock : Clock) (conn : Connection κ ξ)
    (space : PnSpace) (frames : List Frame) (ackEliciting : Bool) (maxDatagram : Nat) :
    conn.sendOne packets clock space frames ackEliciting maxDatagram = (none, conn) ∨
      conn.sendOne packets clock space frames ackEliciting maxDatagram =
        (none, conn.updateSpace space fun before => { before with nextPn := before.nextPn + 1 }) ∨
      ∃ datagram : List Byte, conn.sendOne packets clock space frames ackEliciting maxDatagram =
        (some datagram, conn.noteSent clock space frames ackEliciting datagram.length) := by
  unfold sendOne
  dsimp only
  cases conn.buildPacketHeader packets space with
  | none => exact Or.inl rfl
  | some header =>
      rcases header with ⟨header, pnOffset, long⟩
      dsimp only
      cases (conn.spaces space).writeKey with
      | none => exact Or.inr (Or.inl rfl)
      | some key =>
          dsimp only
          cases packets.sealPayload key (conn.spaces space).nextPn header
              (frames.flatMap packets.encodeFrame) with
          | none => exact Or.inl rfl
          | some sealedPayload =>
              dsimp only
              by_cases large : (header ++ sealedPayload).length > maxDatagram
              · exact Or.inl (if_pos large)
              · rw [if_neg large]
                cases packets.protectHeader key (header ++ sealedPayload) pnOffset long with
                | none => exact Or.inl rfl
                | some datagram => exact Or.inr (Or.inr ⟨datagram, rfl⟩)

/-- The handshake, the limits of the peer and what the spaces received are the
same. -/
structure Untouched (conn conn' : Connection κ ξ) : Prop where
  tls : conn'.tls = conn.tls
  limits : conn'.send.limits = conn.send.limits
  spaces : ∀ space, (conn.spaces space).Untouched (conn'.spaces space)

namespace Untouched

theorem refl (conn : Connection κ ξ) : conn.Untouched conn :=
  ⟨rfl, rfl, fun space => .refl (conn.spaces space)⟩

theorem trans (first : conn.Untouched conn') (second : conn'.Untouched conn'') :
    conn.Untouched conn'' where
  tls := second.tls.trans first.tls
  limits := second.limits.trans first.limits
  spaces := fun space => (first.spaces space).trans (second.spaces space)

theorem of_eq (tls : conn'.tls = conn.tls) (limits : conn'.send.limits = conn.send.limits)
    (spaces : conn'.spaces = conn.spaces) : conn.Untouched conn' :=
  ⟨tls, limits, fun space => by rw [spaces]; exact .refl _⟩

theorem updateSpace {space : PnSpace} {change : Space κ → Space κ}
    (untouched : (conn.spaces space).Untouched (change (conn.spaces space))) :
    conn.Untouched (conn.updateSpace space change) :=
  ⟨rfl, rfl, forall_spaces_updateSpace untouched fun other _ => .refl (conn.spaces other)⟩

theorem run {α : Type} {next : Connection κ ξ → α → Connection κ ξ}
    (step : ∀ conn action, Untouched conn (next conn action)) (conn : Connection κ ξ)
    (actions : List α) : conn.Untouched (Transition.run next conn actions) :=
  run_invariant (fun reached => conn.Untouched reached)
    (fun reached action holds => holds.trans (step reached action)) (refl conn) actions

theorem onAckedFrame (conn : Connection κ ξ) (frame : Frame) :
    conn.Untouched (conn.onAckedFrame frame) := by
  cases frame with
  | stream streamId offset data length fin =>
      exact of_eq rfl (conn.send.limits_onAckedStream streamId offset data fin) rfl
  | crypto offset data =>
      exact (updateSpace (.acknowledgeCrypto _ _)).trans (updateSpace (.acknowledgeCrypto _ _))
  | _ => exact refl conn

theorem noteLoss (clock : Clock) (conn : Connection κ ξ) :
    conn.Untouched (conn.noteLoss clock) := by
  unfold Connection.noteLoss
  split
  · exact refl conn
  · exact of_eq rfl rfl rfl

theorem onLostFrame (clock : Clock) (space : PnSpace) (conn : Connection κ ξ) (frame : Frame) :
    conn.Untouched (conn.onLostFrame clock space frame) := by
  cases frame with
  | stream streamId offset data length fin =>
      have rewound : conn.Untouched
          { conn with send := conn.send.onLostStream streamId offset fin } :=
        of_eq rfl (conn.send.limits_onLostStream streamId offset fin) rfl
      exact rewound.trans (noteLoss clock _)
  | crypto offset data => exact (updateSpace (.rewindCrypto _ _)).trans (noteLoss clock _)
  | _ => exact noteLoss clock conn

theorem onAcksCc (conn : Connection κ ξ) (numAcked : Nat) :
    conn.Untouched (conn.onAcksCc numAcked) :=
  of_eq rfl rfl rfl

variable (conn : Connection κ ξ) (clock : Clock) (space : PnSpace)

theorem settleSent (intervals : List (Nat × Nat)) :
    conn.Untouched (conn.settleSent clock space intervals) := by
  have drained : conn.Untouched (conn.updateSpace space fun before =>
      { before with
        sent := before.sent.filter fun packet =>
          !ackCovers intervals packet.pn && !(packet.inFlight && clock.expired packet) }) :=
    updateSpace ⟨rfl, rfl, rfl, rfl, rfl⟩
  exact ⟨drained.tls, drained.limits, drained.spaces⟩

theorem onAck (largestAcked : Nat) (ranges : List (Nat × Nat)) :
    conn.Untouched (conn.onAck clock space largestAcked ranges) := by
  unfold Connection.onAck
  dsimp only
  have grown : ∀ (middle : Connection κ ξ) (numAcked : Nat), middle.Untouched
      { (if numAcked > 0 then middle.onAcksCc numAcked else middle) with ptoDue := false } := by
    intro middle numAcked
    split
    · exact (onAcksCc middle numAcked).trans (of_eq rfl rfl rfl)
    · exact of_eq rfl rfl rfl
  refine Untouched.trans ?_ (grown _ _)
  refine Untouched.trans ?_ (run (onLostFrame clock space) _ _)
  exact Untouched.trans (settleSent conn clock space _) (run onAckedFrame _ _)

end Untouched

/-- Nothing was sent, and neither the keys nor the limits nor the congestion control
have moved. -/
structure Quiet (conn conn' : Connection κ ξ) : Prop where
  tls : conn'.tls = conn.tls
  limits : conn'.send.limits = conn.send.limits
  spaces : conn'.spaces = conn.spaces
  bytesInFlight : conn'.bytesInFlight = conn.bytesInFlight
  cwnd : conn'.cwnd = conn.cwnd

namespace Quiet

theorem refl (conn : Connection κ ξ) : conn.Quiet conn :=
  ⟨rfl, rfl, rfl, rfl, rfl⟩

theorem trans (first : conn.Quiet conn') (second : conn'.Quiet conn'') : conn.Quiet conn'' where
  tls := second.tls.trans first.tls
  limits := second.limits.trans first.limits
  spaces := second.spaces.trans first.spaces
  bytesInFlight := second.bytesInFlight.trans first.bytesInFlight
  cwnd := second.cwnd.trans first.cwnd

theorem collectStreamFrames {order : Order} {maxDatagram : Nat} {frames : List Frame}
    {ackEliciting : Bool}
    (collected : conn.collectStreamFrames order maxDatagram = .ok (frames, ackEliciting, conn')) :
    conn.Quiet conn' := by
  unfold Connection.collectStreamFrames at collected
  cases filled : conn.send.collectStreams (order.arrange conn.send.sendingIds) maxDatagram with
  | none =>
      rw [filled] at collected
      cases collected
  | some filling =>
      rw [filled] at collected
      cases collected
      exact ⟨rfl, SendState.limits_collectStreams filled, rfl, rfl, rfl⟩

theorem addPings (conn : Connection κ ξ) (space : PnSpace) (frames : List Frame)
    (ackEliciting : Bool) : conn.Quiet (conn.addPings space frames ackEliciting).2.2 := by
  unfold Connection.addPings
  by_cases pending : conn.pingPending = true
  · rw [if_pos pending]
    exact ⟨rfl, rfl, rfl, rfl, rfl⟩
  · rw [if_neg pending]
    split
    · exact refl conn
    · exact refl conn

section

variable {order : Order} {space : PnSpace} {maxDatagram : Nat}
  {result : List Frame × Bool × Connection κ ξ}

theorem gatherFrames (gathered : conn.gatherFrames order space maxDatagram = .ok result) :
    conn.Quiet result.2.2 := by
  unfold Connection.gatherFrames at gathered
  by_cases last : space = .application
  · rw [if_pos last] at gathered
    exact collectStreamFrames gathered
  · rw [if_neg last] at gathered
    rcases bind_eq_ok_iff.mp gathered with ⟨frames, _, gathered⟩
    cases gathered
    exact refl conn

theorem nextFrames (next : conn.nextFrames order space maxDatagram = .ok result) :
    conn.Quiet result.2.2 := by
  rcases bind_eq_ok_iff.mp next with ⟨⟨frames, ackEliciting, middle⟩, gathered, next⟩
  cases next
  exact (gatherFrames gathered).trans (addPings middle space frames ackEliciting)

end

theorem popDatagramTx {space : PnSpace} {maxDatagram : Nat} {datagram : List Byte}
    (popped : conn.popDatagramTx space maxDatagram = some (datagram, conn')) :
    conn.Quiet conn' := by
  unfold Connection.popDatagramTx at popped
  split at popped
  · split at popped
    · cases popped
    · cases popped
      exact ⟨rfl, rfl, rfl, rfl, rfl⟩
  · cases popped

theorem processFatal (conn : Connection κ ξ) (error : QuicError) :
    conn.Quiet (conn.processFatal error) := by
  unfold Connection.processFatal
  split
  · exact ⟨rfl, rfl, rfl, rfl, rfl⟩
  · exact refl conn

theorem act {op : LocalOp} (acted : conn.act packets op = .ok conn')
    (notFlush : ∀ clock order, op ≠ .flush clock order) (notProbe : ∀ clock, op ≠ .probe clock) :
    conn.Quiet conn' := by
  cases op with
  | flush clock order => exact absurd rfl (notFlush clock order)
  | probe clock => exact absurd rfl (notProbe clock)
  | keepAlive =>
      cases acted
      exact ⟨rfl, rfl, rfl, rfl, rfl⟩
  | openStream uni =>
      cases acted
      have limits := conn.send.limits_openStream uni
      unfold Connection.openStream
      cases conn.closed with
      | some error => exact refl conn
      | none =>
          rcases opened : conn.send.openStream uni with ⟨result, send⟩
          rw [opened] at limits
          cases result with
          | error error => exact refl conn
          | ok id => exact ⟨rfl, limits, rfl, rfl, rfl⟩
  | sendData streamId data =>
      unfold Connection.act at acted
      dsimp only at acted
      by_cases closed : conn.closed.isSome = true
      · rw [if_pos closed] at acted
        cases acted
        exact refl conn
      · rw [if_neg closed] at acted
        cases sent : conn.send.sendData streamId data with
        | none =>
            rw [sent] at acted
            cases acted
        | some result =>
            rcases result with ⟨result, send⟩
            rw [sent] at acted
            cases acted
            exact ⟨rfl, SendState.limits_sendData sent, rfl, rfl, rfl⟩
  | finStream streamId =>
      unfold Connection.act at acted
      dsimp only at acted
      by_cases closed : conn.closed.isSome = true
      · rw [if_pos closed] at acted
        cases acted
        exact refl conn
      · rw [if_neg closed] at acted
        cases acted
        exact ⟨rfl, conn.send.limits_finStream streamId, rfl, rfl, rfl⟩
  | recvInto streamId size =>
      cases acted
      exact ⟨rfl, rfl, rfl, rfl, rfl⟩
  | sendDatagram data =>
      cases acted
      unfold Connection.sendDatagram
      cases conn.closed with
      | some error => exact refl conn
      | none =>
          dsimp only
          split
          · exact refl conn
          · exact ⟨rfl, rfl, rfl, rfl, rfl⟩
  | popDatagram =>
      cases acted
      exact ⟨rfl, rfl, rfl, rfl, rfl⟩
  | close error =>
      cases acted
      exact processFatal conn error

end Quiet

/-- Packets went out, or nothing of the spaces changed. -/
structure Sends (conn conn' : Connection κ ξ) : Prop where
  tls : conn'.tls = conn.tls
  limits : conn'.send.limits = conn.send.limits
  spaces : ∀ space, (conn.spaces space).Sends (conn'.spaces space)

namespace Sends

theorem refl (conn : Connection κ ξ) : conn.Sends conn :=
  ⟨rfl, rfl, fun space => .refl (conn.spaces space)⟩

theorem trans (first : conn.Sends conn') (second : conn'.Sends conn'') : conn.Sends conn'' where
  tls := second.tls.trans first.tls
  limits := second.limits.trans first.limits
  spaces := fun space => (first.spaces space).trans (second.spaces space)

theorem untouched (sends : conn.Sends conn') : conn.Untouched conn' :=
  ⟨sends.tls, sends.limits, fun space => (sends.spaces space).toUntouched⟩

theorem of_quiet (quiet : conn.Quiet conn') : conn.Sends conn' :=
  ⟨quiet.tls, quiet.limits, fun space => by rw [quiet.spaces]; exact .refl _⟩

theorem updateSpace {space : PnSpace} {change : Space κ → Space κ}
    (sends : (conn.spaces space).Sends (change (conn.spaces space))) :
    conn.Sends (conn.updateSpace space change) :=
  ⟨rfl, rfl, forall_spaces_updateSpace sends fun other _ => .refl (conn.spaces other)⟩

theorem answer (conn : Connection κ ξ) (space : PnSpace) :
    conn.Sends (conn.updateSpace space ({ · with ackPending := false })) :=
  updateSpace ⟨⟨rfl, rfl, rfl, rfl, rfl⟩, rfl, rfl, rfl, Nat.le_refl _⟩

theorem noteSent (clock : Clock) (conn : Connection κ ξ) (space : PnSpace) (frames : List Frame)
    (ackEliciting : Bool) (size : Nat) :
    conn.Sends (conn.noteSent clock space frames ackEliciting size) := by
  have updated : conn.Sends (conn.updateSpace space
      (·.noteSent clock frames ackEliciting size
        (if space = .application then 0 else cryptoLength frames))) :=
    updateSpace ⟨⟨rfl, rfl, rfl, rfl, rfl⟩, rfl, rfl, rfl, Nat.le_add_right _ _⟩
  exact ⟨updated.tls, updated.limits, updated.spaces⟩

theorem sendOne (packets : PacketLibrary κ) (clock : Clock) (conn : Connection κ ξ)
    (space : PnSpace) (frames : List Frame) (ackEliciting : Bool) (maxDatagram : Nat) :
    conn.Sends (conn.sendOne packets clock space frames ackEliciting maxDatagram).2 := by
  rcases sendOne_cases packets clock conn space frames ackEliciting maxDatagram with
    same | same | ⟨datagram, same⟩
  · rw [same]
    exact refl conn
  · rw [same]
    dsimp only
    exact updateSpace ⟨⟨rfl, rfl, rfl, rfl, rfl⟩, rfl, rfl, rfl, Nat.le_refl _⟩
  · rw [same]
    exact noteSent clock conn space frames ackEliciting datagram.length

end Sends

end Connection

namespace Outbound

variable {κ ξ : Type} {packets : PacketLibrary κ} {clock : Clock} {order : Order}
  {maxDatagram : Nat} {building building' : Outbound κ ξ}

variable {space : PnSpace}

/-- What every round preserves, the rounds of a space preserve. -/
theorem rounds_invariant (invariant : Outbound κ ξ → Prop)
    (step : ∀ before more after, before.round packets clock order space maxDatagram =
      .ok (more, after) → invariant before → invariant after)
    (bound : Nat)
    (rounded : building.rounds packets clock order space maxDatagram bound = .ok building')
    (initially : invariant building) : invariant building' := by
  induction bound generalizing building with
  | zero =>
      cases rounded
      exact initially
  | succ bound ih =>
      rw [rounds] at rounded
      cases once : building.round packets clock order space maxDatagram with
      | error fault =>
          rw [once] at rounded
          cases rounded
      | ok result =>
          rcases result with ⟨more, middle⟩
          rw [once] at rounded
          have first := step building more middle once initially
          cases more with
          | false =>
              cases rounded
              exact first
          | true => exact ih rounded first

theorem fill_invariant (invariant : Outbound κ ξ → Prop)
    (acks : ∀ before, invariant before →
      invariant (before.sendAck packets clock space maxDatagram))
    (step : ∀ before more after, before.round packets clock order space maxDatagram =
      .ok (more, after) → invariant before → invariant after)
    (filled : building.fill packets clock order maxDatagram space = .ok building')
    (initially : invariant building) : invariant building' := by
  unfold fill at filled
  by_cases keyless : (building.conn.spaces space).writeKey.isNone = true
  · rw [if_pos keyless] at filled
    cases filled
    exact initially
  · rw [if_neg keyless] at filled
    exact rounds_invariant invariant step _ filled (acks building initially)

/-- What acknowledgements and rounds preserve in every space, a call preserves. -/
theorem buildOutbound_invariant (invariant : Outbound κ ξ → Prop)
    (acks : ∀ space maxDatagram before, invariant before →
      invariant (before.sendAck packets clock space maxDatagram))
    (step : ∀ space maxDatagram before more after,
      before.round packets clock order space maxDatagram = .ok (more, after) →
        invariant before → invariant after)
    {conn : Connection κ ξ} (built : conn.buildOutbound packets clock order = .ok building)
    (initially : invariant { conn := conn, out := [] }) : invariant building := by
  have filling : ∀ (spaces : List PnSpace) (before : Outbound κ ξ),
      spaces.foldlM (fill packets clock order (min conn.peerMaxUdpPayload MAX_UDP_PAYLOAD)) before =
        .ok building → invariant before → invariant building := by
    intro spaces
    induction spaces with
    | nil =>
        intro before filled holds
        cases filled
        exact holds
    | cons space spaces ih =>
        intro before filled holds
        rw [List.foldlM_cons] at filled
        rcases bind_eq_ok_iff.mp filled with ⟨middle, first, rest⟩
        exact ih middle rest
          (fill_invariant invariant (acks space _) (step space _) first holds)
  unfold Connection.buildOutbound at built
  dsimp only at built
  by_cases closed : conn.closed.isSome = true
  · rw [if_pos closed] at built
    cases built
    exact initially
  · rw [if_neg closed] at built
    exact filling _ _ built initially

section Relation

variable (relation : Connection κ ξ → Connection κ ξ → Prop)
  (trans : ∀ {first second third : Connection κ ξ},
    relation first second → relation second third → relation first third)
  (quiet : ∀ {conn conn' : Connection κ ξ}, conn.Quiet conn' → relation conn conn')
  (answer : ∀ (conn : Connection κ ξ) (space : PnSpace),
    relation conn (conn.updateSpace space ({ · with ackPending := false })))
  (sendOne : ∀ (conn : Connection κ ξ) (space : PnSpace) (frames : List Frame)
    (ackEliciting : Bool) (maxDatagram : Nat),
    relation conn (conn.sendOne packets clock space frames ackEliciting maxDatagram).2)

include trans quiet sendOne in
/-- What relates the ends of a quiet change and of a packet relates those of a round. -/
theorem relates_round {more : Bool}
    (rounded : building.round packets clock order space maxDatagram = .ok (more, building')) :
    relation building.conn building'.conn := by
  unfold round at rounded
  by_cases congested : building.conn.cwnd - building.conn.bytesInFlight < 40
  · rw [if_pos congested] at rounded
    cases rounded
    exact quiet (.refl _)
  · rw [if_neg congested] at rounded
    cases popped : building.conn.popDatagramTx space maxDatagram with
    | some found =>
        rcases found with ⟨datagram, conn⟩
        rw [popped] at rounded
        cases rounded
        exact trans (quiet (.popDatagramTx popped)) (sendOne conn space _ _ _)
    | none =>
        rw [popped] at rounded
        dsimp only at rounded
        cases next : building.conn.nextFrames order space maxDatagram with
        | error fault =>
            rw [next] at rounded
            cases rounded
        | ok result =>
            have gathered := quiet (.nextFrames next)
            rcases result with ⟨frames, ackEliciting, conn⟩
            rw [next] at rounded
            dsimp only at rounded
            by_cases empty : frames.isEmpty = true
            · rw [if_pos empty] at rounded
              cases rounded
              exact gathered
            · rw [if_neg empty] at rounded
              cases rounded
              exact trans gathered (sendOne conn space _ _ _)

include trans quiet answer sendOne in
theorem relates_sendAck (building : Outbound κ ξ) (space : PnSpace) :
    relation building.conn (building.sendAck packets clock space maxDatagram).conn := by
  unfold sendAck
  dsimp only
  split
  · cases buildAck (building.conn.spaces space).ackQueue with
    | none => exact quiet (.refl _)
    | some ack => exact trans (answer building.conn space) (sendOne _ space _ _ _)
  · exact quiet (.refl _)

include trans quiet answer sendOne in
theorem relates_buildOutbound {conn : Connection κ ξ}
    (built : conn.buildOutbound packets clock order = .ok building) :
    relation conn building.conn :=
  buildOutbound_invariant (fun reached => relation conn reached.conn)
    (fun space _ before related => trans related
      (relates_sendAck relation trans quiet answer sendOne before space))
    (fun _ _ _ _ _ rounded related => trans related
      (relates_round relation trans quiet sendOne rounded)) built (quiet (.refl conn))

end Relation

theorem sends_round {more : Bool}
    (rounded : building.round packets clock order space maxDatagram = .ok (more, building')) :
    building.conn.Sends building'.conn :=
  relates_round _ .trans .of_quiet (.sendOne packets clock) rounded

theorem sends_sendAck (building : Outbound κ ξ) (space : PnSpace) :
    building.conn.Sends (building.sendAck packets clock space maxDatagram).conn :=
  relates_sendAck _ .trans .of_quiet .answer (.sendOne packets clock) building space

theorem sends_fill (filled : building.fill packets clock order maxDatagram space = .ok building') :
    building.conn.Sends building'.conn :=
  fill_invariant (fun reached => building.conn.Sends reached.conn)
    (fun before sends => sends.trans (sends_sendAck before space))
    (fun _ _ _ rounded sends => sends.trans (sends_round rounded)) filled (.refl building.conn)

end Outbound

namespace Connection.Sends

variable {κ ξ : Type} {packets : PacketLibrary κ} {conn conn' : Connection κ ξ}

theorem buildOutbound {clock : Clock} {order : Order} {building : Outbound κ ξ}
    (built : conn.buildOutbound packets clock order = .ok building) :
    conn.Sends building.conn :=
  Outbound.relates_buildOutbound _ .trans .of_quiet .answer (.sendOne packets clock) built

/-- But for a probe, the application and the timers leave the spaces alone or send
packets. -/
theorem act {op : LocalOp} (acted : conn.act packets op = .ok conn')
    (notProbe : ∀ clock, op ≠ .probe clock) : conn.Sends conn' := by
  by_cases flushes : ∃ clock order, op = .flush clock order
  · rcases flushes with ⟨clock, order, rfl⟩
    cases built : conn.buildOutbound packets clock order with
    | error fault =>
        rw [Connection.act, built] at acted
        cases acted
    | ok building =>
        rw [Connection.act, built] at acted
        cases acted
        exact buildOutbound built
  · exact of_quiet (.act acted (fun clock order same => flushes ⟨clock, order, same⟩) notProbe)

end Connection.Sends

namespace Connection.Untouched

variable {κ ξ : Type} {packets : PacketLibrary κ} {conn conn' : Connection κ ξ}

theorem probeFirst (clock : Clock) (conn : Connection κ ξ) (spaces : List PnSpace) :
    conn.Untouched (conn.probeFirst clock spaces) := by
  induction spaces with
  | nil => exact refl conn
  | cons space others ih =>
      rw [Connection.probeFirst]
      cases conn.probePacket space with
      | some packet => exact run (onLostFrame clock space) conn packet.frames
      | none => exact ih

theorem sendProbe (clock : Clock) (conn : Connection κ ξ) :
    conn.Untouched (conn.sendProbe clock) :=
  (probeFirst clock conn _).trans (of_eq rfl rfl rfl)

/-- The application and the timers leave the handshake, the limits of the peer
and what was received alone. -/
theorem act {op : LocalOp} (acted : conn.act packets op = .ok conn') : conn.Untouched conn' := by
  by_cases probing : ∃ clock, op = .probe clock
  · rcases probing with ⟨clock, rfl⟩
    cases acted
    exact sendProbe clock conn
  · exact (Sends.act acted (not_exists.mp probing)).untouched

end Connection.Untouched

/-- Only the keys and the handshake bytes to send change, and those bytes are
only added to. -/
structure Space.Rekeys {κ : Type} (space space' : Space κ) : Prop where
  largestRecvPn : space'.largestRecvPn = space.largestRecvPn
  ackQueue : space'.ackQueue = space.ackQueue
  cryptoRecv : space'.cryptoRecv = space.cryptoRecv
  cryptoAcked : space'.cryptoAcked = space.cryptoAcked
  cryptoSent : space'.cryptoSent = space.cryptoSent
  cryptoWritten : space.cryptoWritten ≤ space'.cryptoWritten

namespace Space.Rekeys

variable {κ : Type} {space space' space'' : Space κ}

theorem refl (space : Space κ) : space.Rekeys space :=
  ⟨rfl, rfl, rfl, rfl, rfl, Nat.le_refl _⟩

theorem trans (first : space.Rekeys space') (second : space'.Rekeys space'') :
    space.Rekeys space'' where
  largestRecvPn := second.largestRecvPn.trans first.largestRecvPn
  ackQueue := second.ackQueue.trans first.ackQueue
  cryptoRecv := second.cryptoRecv.trans first.cryptoRecv
  cryptoAcked := second.cryptoAcked.trans first.cryptoAcked
  cryptoSent := second.cryptoSent.trans first.cryptoSent
  cryptoWritten := Nat.le_trans first.cryptoWritten second.cryptoWritten

end Space.Rekeys

/-- What `install_keys` and the answer of the handshake leave alone. -/
structure Connection.Rekeys {κ ξ : Type} (conn conn' : Connection κ ξ) : Prop where
  transcript : conn'.tls.transcript = conn.tls.transcript
  send : conn'.send = conn.send
  spaces : ∀ space, (conn.spaces space).Rekeys (conn'.spaces space)

namespace Connection.Rekeys

variable {κ ξ : Type} {conn conn' conn'' : Connection κ ξ}

theorem refl (conn : Connection κ ξ) : conn.Rekeys conn :=
  ⟨rfl, rfl, fun _ => .refl _⟩

theorem trans (first : conn.Rekeys conn') (second : conn'.Rekeys conn'') :
    conn.Rekeys conn'' where
  transcript := second.transcript.trans first.transcript
  send := second.send.trans first.send
  spaces := fun space => (first.spaces space).trans (second.spaces space)

theorem updateSpace (conn : Connection κ ξ) (space : PnSpace) (change : Space κ → Space κ)
    (changed : (conn.spaces space).Rekeys (change (conn.spaces space))) :
    conn.Rekeys (conn.updateSpace space change) where
  transcript := rfl
  send := rfl
  spaces := forall_spaces_updateSpace changed fun _ _ => .refl _

theorem takeCryptoPending (conn : Connection κ ξ) : conn.Rekeys conn.takeCryptoPending := by
  unfold Connection.takeCryptoPending
  dsimp only
  split
  · exact ⟨rfl, rfl, fun _ => .refl _⟩
  · have written := updateSpace conn .handshake (·.writeCrypto conn.tls.cryptoPending)
      ⟨rfl, rfl, rfl, rfl, rfl, Nat.le_add_right _ _⟩
    exact ⟨rfl, rfl, written.spaces⟩

theorem installKeys (conn : Connection κ ξ) : conn.Rekeys conn.installKeys := by
  have keyed : ∀ (conn : Connection κ ξ) (space : PnSpace) (key writeKey : Space κ → Option κ),
      conn.Rekeys (conn.updateSpace space fun before =>
        { before with writeKey := writeKey before, key := key before }) :=
    fun conn space _ _ => updateSpace conn space _ ⟨rfl, rfl, rfl, rfl, rfl, Nat.le_refl _⟩
  unfold Connection.installKeys
  dsimp only
  split
  · exact (keyed _ _ _ _).trans (keyed _ _ _ _)
  · exact keyed _ _ _ _

end Connection.Rekeys

/-- Nothing has been sent in the space, received or acknowledged. -/
structure Space.Fresh {κ : Type} (space : Space κ) : Prop where
  sent : space.sent = []
  largestRecvPn : space.largestRecvPn = 0
  ackQueue : space.ackQueue = .empty
  cryptoAcked : space.cryptoAcked = 0

theorem SendState.limits_syncStreams (send : SendState) (recv : ConnState) (streamId : Nat) :
    (Connection.syncStreams send recv streamId).limits = send.limits :=
  rfl

namespace Connection

variable {κ ξ : Type} {library : TlsLibrary κ ξ} {clock : Clock} {space : PnSpace}
  {conn conn' : Connection κ ξ}

theorem Untouched.onResetStream (conn : Connection κ ξ) (streamId appErrorCode : Nat) :
    conn.Untouched (conn.onResetStream streamId appErrorCode) := by
  refine of_eq rfl ?_ rfl
  unfold Connection.onResetStream
  dsimp only
  cases conn.send.streams.lookup streamId with
  | none => rfl
  | some stream => rfl

theorem adoptScid_eq (conn : Connection κ ξ) (parsed : ParsedPacket) :
    ∃ dcid, conn.adoptScid parsed = { conn with dcid := dcid } := by
  cases parsed with
  | short packetNumber pnLen => exact ⟨conn.dcid, rfl⟩
  | long packetNumber pnLen scid =>
      unfold adoptScid
      dsimp only
      split
      · exact ⟨conn.dcid, rfl⟩
      · exact ⟨scid, rfl⟩

theorem processRetry_cases (packets : PacketLibrary κ) (conn : Connection κ ξ) (data : List Byte) :
    (conn.processRetry packets data).2 = conn ∨
      ∃ (retry : RetryPacket) (fresh : Space κ) (tls : Tls13Client κ ξ), fresh.Fresh ∧
        (conn.processRetry packets data).2 = { conn.restart retry fresh with tls := tls } := by
  unfold processRetry
  cases parseRetry packets data with
  | none => exact Or.inl rfl
  | some retry =>
      dsimp only
      split
      · exact Or.inl rfl
      · right
        cases packets.initialKey retry.scid false with
        | error message => exact ⟨retry, _, _, ⟨rfl, rfl, rfl, rfl⟩, rfl⟩
        | ok writeKey =>
            dsimp only
            cases packets.initialKey retry.scid true with
            | error message => exact ⟨retry, _, _, ⟨rfl, rfl, rfl, rfl⟩, rfl⟩
            | ok key => exact ⟨retry, _, _, ⟨rfl, rfl, rfl, rfl⟩, rfl⟩

/-- Only CRYPTO, MAX_DATA, MAX_STREAMS and HANDSHAKE_DONE frames touch the
handshake, the limits of the connection or the keys. -/
theorem processFrame_cases {frame : Frame} {result : Except QuicError Unit}
    (processed : conn.processFrame library clock space frame = .ok (result, conn')) :
    (∃ offset data, frame = .crypto offset data ∧
        conn.onCrypto library space offset data = (result, conn')) ∨
      (∃ max, frame = .maxData max ∧ conn' = { conn with send := conn.send.onMaxData max }) ∨
      (∃ unidirectional max, frame = .maxStreams unidirectional max ∧
        conn' = { conn with send := conn.send.onMaxStreams unidirectional max }) ∨
      (frame = .handshakeDone ∧
        conn' = { (conn.updateSpace .initial Space.dropKeys).updateSpace .handshake
          Space.dropKeys with handshakeConfirmed := true }) ∨
      conn.Untouched conn' ∧ (∀ offset data, frame ≠ .crypto offset data) ∧
        (∀ max, frame ≠ .maxData max) ∧
        (∀ unidirectional max, frame ≠ .maxStreams unidirectional max) ∧
        frame ≠ .handshakeDone := by
  cases frame with
  | crypto offset data => exact Or.inl ⟨offset, data, rfl, Except.ok.inj processed⟩
  | maxData max =>
      cases processed
      exact Or.inr (Or.inl ⟨max, rfl, rfl⟩)
  | maxStreams unidirectional max =>
      cases processed
      exact Or.inr (Or.inr (Or.inl ⟨unidirectional, max, rfl, rfl⟩))
  | handshakeDone =>
      cases processed
      exact Or.inr (Or.inr (Or.inr (Or.inl ⟨rfl, rfl⟩)))
  | ack largestAcked ackDelay ranges ecn =>
      cases processed
      exact Or.inr (Or.inr (Or.inr (Or.inr ⟨.onAck conn clock space largestAcked ranges,
        by simp, by simp, by simp, by simp⟩)))
  | stream streamId offset data length fin =>
      unfold processFrame at processed
      dsimp only at processed
      cases placed : conn.recv.onStream streamId (offset.getD 0) data fin with
      | none =>
          rw [placed] at processed
          cases processed
      | some placed' =>
          rcases placed' with ⟨_, recv⟩
          rw [placed] at processed
          cases processed
          exact Or.inr (Or.inr (Or.inr (Or.inr ⟨.of_eq rfl
            (SendState.limits_syncStreams conn.send recv streamId) rfl,
            by simp, by simp, by simp, by simp⟩)))
  | maxStreamData streamId max =>
      cases processed
      exact Or.inr (Or.inr (Or.inr (Or.inr ⟨.of_eq rfl
        (conn.send.limits_onMaxStreamData streamId max) rfl, by simp, by simp, by simp, by simp⟩)))
  | resetStream streamId appErrorCode =>
      cases processed
      exact Or.inr (Or.inr (Or.inr (Or.inr ⟨.onResetStream conn streamId appErrorCode,
        by simp, by simp, by simp, by simp⟩)))
  | connectionClose errorCode reason =>
      cases processed
      exact Or.inr (Or.inr (Or.inr (Or.inr ⟨.of_eq rfl rfl rfl,
        by simp, by simp, by simp, by simp⟩)))
  | datagram data length =>
      cases processed
      exact Or.inr (Or.inr (Or.inr (Or.inr ⟨.of_eq rfl rfl rfl,
        by simp, by simp, by simp, by simp⟩)))
  | _ =>
      cases processed
      exact Or.inr (Or.inr (Or.inr (Or.inr ⟨.refl conn, by simp, by simp, by simp, by simp⟩)))

theorem onCrypto_cases {offset : Nat} {data : List Byte} {result : Except QuicError Unit}
    (handled : conn.onCrypto library space offset data = (result, conn')) :
    (overlay (conn.spaces space).cryptoRecv offset data = none ∧
        result = .error (.protocol "CRYPTO gap from peer") ∧ conn' = conn) ∨
      (∃ waiting error tls, overlay (conn.spaces space).cryptoRecv offset data = some waiting ∧
        conn.tls.consumeCrypto library waiting = (.error error, tls) ∧ result = .error error ∧
        conn' = { conn.updateSpace space fun before => { before with cryptoRecv := waiting } with
          tls := tls }) ∨
      ∃ waiting consumed tls fed keyed,
        overlay (conn.spaces space).cryptoRecv offset data = some waiting ∧
        conn.tls.consumeCrypto library waiting = (.ok consumed, tls) ∧ result = .ok () ∧
        fed = { conn.updateSpace space fun before =>
          { before with cryptoRecv := waiting.drop consumed } with tls := tls } ∧
        keyed = fed.takeCryptoPending.installKeys ∧
        conn' = { keyed with
          handshakeComplete := keyed.handshakeComplete || keyed.tls.isComplete } := by
  unfold onCrypto at handled
  cases laid : overlay (conn.spaces space).cryptoRecv offset data with
  | none =>
      rw [laid] at handled
      cases handled
      exact Or.inl ⟨rfl, rfl, rfl⟩
  | some waiting =>
      rw [laid] at handled
      dsimp only at handled
      rcases consumption : conn.tls.consumeCrypto library waiting with ⟨outcome, tls⟩
      rw [consumption] at handled
      cases outcome with
      | error error =>
          cases handled
          exact Or.inr (Or.inl ⟨waiting, error, tls, rfl, consumption, rfl, rfl⟩)
      | ok consumed =>
          cases handled
          exact Or.inr (Or.inr ⟨waiting, consumed, tls, _, _, rfl, consumption, rfl, rfl, rfl,
            rfl⟩)

/-- A CRYPTO frame changes the bytes that wait in its space and the handshake,
and then keys and the bytes to send. -/
theorem rekeys_onCrypto (conn : Connection κ ξ) (space : PnSpace) (offset : Nat)
    (data : List Byte) :
    ∃ waiting tls, Rekeys { conn.updateSpace space fun before =>
        { before with cryptoRecv := waiting } with tls := tls }
      (conn.onCrypto library space offset data).2 := by
  rcases handled : conn.onCrypto library space offset data with ⟨result, conn'⟩
  rcases onCrypto_cases handled with ⟨_, _, same⟩ | ⟨waiting, _, tls, _, _, _, same⟩ |
    ⟨waiting, consumed, tls, fed, keyed, _, _, _, feeding, keying, same⟩
  · refine ⟨(conn.spaces space).cryptoRecv, conn.tls, ?_⟩
    have unchanged : conn.updateSpace space (fun before =>
        { before with cryptoRecv := (conn.spaces space).cryptoRecv }) = conn := by
      rw [updateSpace, Function.update_eq_self]
    rw [same, unchanged]
    exact .refl conn
  · exact ⟨waiting, tls, same ▸ .refl _⟩
  · refine ⟨waiting.drop consumed, tls, ?_⟩
    have rekeys := (Rekeys.takeCryptoPending fed).trans (Rekeys.installKeys fed.takeCryptoPending)
    rw [← keying, feeding] at rekeys
    rw [same]
    exact ⟨rekeys.transcript, rekeys.send, rekeys.spaces⟩

end Connection

end Corduit.Protocol.Quic
