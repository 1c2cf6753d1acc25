import Mathlib.Algebra.GroupWithZero.Nat
import Corduit.Protocol.Quic.Connection.Session

/-!
# Bytes in flight

The congestion window is spent by the packets that are retained.  Everything
that retains a packet or gives one up counts its bytes, except a Retry, which
forgets the packets of the Initial space but not their bytes.  The library makes
no long header for the payload of length zero that it is asked for, so there are
none.  The counter has 64 bits and stays at its end when a packet goes beyond it.
-/

namespace Corduit.Protocol.Quic

open Collection Transition Word

namespace Space

variable {κ : Type}

/-- The bytes of the packets in flight. -/
def flight (space : Space κ) : Nat :=
  ((space.sent.filter (·.inFlight)).map (·.size)).sum

theorem flight_congr {first second : Space κ} (same : second.sent = first.sent) :
    second.flight = first.flight := by
  rw [flight, flight, same]

theorem flight_noteSent (clock : Clock) (frames : List Frame) (ackEliciting : Bool)
    (size cryptoBytes : Nat) (space : Space κ) :
    (space.noteSent clock frames ackEliciting size cryptoBytes).flight =
      space.flight + if ackEliciting then size else 0 := by
  cases ackEliciting with
  | true => simp [flight, noteSent]
  | false => simp [flight, noteSent]

end Space

/-- The library makes no long header for an empty payload. -/
def PacketLibrary.RefusesEmpty {κ : Type} (packets : PacketLibrary κ) : Prop :=
  ∀ initial dcid scid pn pnLen token,
    packets.encodeLong initial dcid scid pn pnLen token 0 = none

theorem sum_settled (packets : List SentPacket) (covers late : SentPacket → Bool) :
    (((packets.filter fun packet =>
          !covers packet && !(packet.inFlight && late packet)).filter (·.inFlight)).map
        (·.size)).sum +
      (((packets.filter covers).filter (·.inFlight) ++
        packets.filter fun packet => !covers packet && (packet.inFlight && late packet)).map
          (·.size)).sum =
      ((packets.filter (·.inFlight)).map (·.size)).sum := by
  induction packets with
  | nil => rfl
  | cons packet packets ih =>
      rw [List.map_append, List.sum_append] at ih ⊢
      cases covered : covers packet <;> cases flying : packet.inFlight <;>
        cases expired : late packet <;>
        simp only [List.filter_cons, covered, flying, expired, Bool.not_true, Bool.not_false,
          Bool.and_true, Bool.and_false, Bool.false_eq_true, if_true, if_false, List.map_cons,
          List.sum_cons] <;>
        omega

namespace Connection

variable {κ ξ : Type} {conn conn' conn'' : Connection κ ξ}

/-- The bytes in flight in all three spaces. -/
def flight (conn : Connection κ ξ) : Nat :=
  (conn.spaces .initial).flight + (conn.spaces .handshake).flight +
    (conn.spaces .application).flight

/-- The counter is the bytes in flight as far as it goes, and they are all in the
last space. -/
structure Paced (conn : Connection κ ξ) : Prop where
  counted : conn.bytesInFlight = min conn.flight (2 ^ 64 - 1)
  short : ∀ space, space ≠ .application → (conn.spaces space).sent = []

/-- A step that counts what it retains and keeps the window at its least value or
above. -/
structure Paces (conn conn' : Connection κ ξ) : Prop where
  paced : conn.Paced → conn'.Paced
  window : MIN_CWND ≤ conn.cwnd → MIN_CWND ≤ conn'.cwnd

theorem Paces.trans (first : conn.Paces conn') (second : conn'.Paces conn'') :
    conn.Paces conn'' :=
  ⟨second.paced ∘ first.paced, second.window ∘ first.window⟩

theorem flight_updateSpace (conn : Connection κ ξ) (space : PnSpace)
    (change : Space κ → Space κ) :
    (conn.updateSpace space change).flight + (conn.spaces space).flight =
      conn.flight + (change (conn.spaces space)).flight := by
  cases space <;> simp [flight, updateSpace] <;> omega

theorem flight_congr (sent : ∀ space, (conn'.spaces space).sent = (conn.spaces space).sent) :
    conn'.flight = conn.flight := by
  rw [flight, flight, Space.flight_congr (sent .initial), Space.flight_congr (sent .handshake),
    Space.flight_congr (sent .application)]

/-- The packets retained and the count of their bytes are the same, and the
window stays at its least value or above. -/
structure Retains (conn conn' : Connection κ ξ) : Prop where
  sent : ∀ space, (conn'.spaces space).sent = (conn.spaces space).sent
  bytesInFlight : conn'.bytesInFlight = conn.bytesInFlight
  window : MIN_CWND ≤ conn.cwnd → MIN_CWND ≤ conn'.cwnd

namespace Retains

theorem refl (conn : Connection κ ξ) : conn.Retains conn :=
  ⟨fun _ => rfl, rfl, id⟩

theorem trans (first : conn.Retains conn') (second : conn'.Retains conn'') :
    conn.Retains conn'' where
  sent := fun space => (second.sent space).trans (first.sent space)
  bytesInFlight := second.bytesInFlight.trans first.bytesInFlight
  window := second.window ∘ first.window

theorem paces (retains : conn.Retains conn') : conn.Paces conn' where
  paced := fun holds => {
    counted := by rw [retains.bytesInFlight, holds.counted, flight_congr retains.sent]
    short := fun space long => (retains.sent space).trans (holds.short space long) }
  window := retains.window

theorem of_eq (spaces : conn'.spaces = conn.spaces)
    (bytesInFlight : conn'.bytesInFlight = conn.bytesInFlight)
    (window : conn'.cwnd = conn.cwnd) : conn.Retains conn' :=
  ⟨fun _ => by rw [spaces], bytesInFlight, fun least => window ▸ least⟩

theorem of_quiet (quiet : conn.Quiet conn') : conn.Retains conn' :=
  of_eq quiet.spaces quiet.bytesInFlight quiet.cwnd

theorem updateSpace (conn : Connection κ ξ) (space : PnSpace) (change : Space κ → Space κ)
    (same : (change (conn.spaces space)).sent = (conn.spaces space).sent) :
    conn.Retains (conn.updateSpace space change) := by
  refine ⟨fun other => ?_, rfl, id⟩
  by_cases here : other = space
  · rw [here, spaces_updateSpace_self, same]
  · rw [spaces_updateSpace_of_ne here]

theorem run {α : Type} {next : Connection κ ξ → α → Connection κ ξ}
    (step : ∀ conn action, Retains conn (next conn action)) (conn : Connection κ ξ)
    (actions : List α) : conn.Retains (Transition.run next conn actions) :=
  run_invariant (fun reached => conn.Retains reached)
    (fun reached action holds => holds.trans (step reached action)) (refl conn) actions

theorem onAckedFrame (conn : Connection κ ξ) (frame : Frame) :
    conn.Retains (conn.onAckedFrame frame) := by
  have acknowledged : ∀ (conn : Connection κ ξ) (space : PnSpace) (stop : Nat),
      conn.Retains (conn.updateSpace space (·.acknowledgeCrypto stop)) := by
    intro conn space stop
    refine updateSpace conn space _ ?_
    unfold Space.acknowledgeCrypto
    split
    · rfl
    · rfl
  cases frame with
  | stream streamId offset data length fin => exact of_eq rfl rfl rfl
  | crypto offset data => exact (acknowledged _ _ _).trans (acknowledged _ _ _)
  | _ => exact refl conn

theorem noteLoss (clock : Clock) (conn : Connection κ ξ) :
    conn.Retains (conn.noteLoss clock) := by
  unfold Connection.noteLoss
  split
  · exact refl conn
  · exact ⟨fun _ => rfl, rfl, fun _ => Nat.le_max_right _ _⟩

theorem onLostFrame (clock : Clock) (space : PnSpace) (conn : Connection κ ξ) (frame : Frame) :
    conn.Retains (conn.onLostFrame clock space frame) := by
  cases frame with
  | stream streamId offset data length fin =>
      have rewound : conn.Retains
          { conn with send := conn.send.onLostStream streamId offset fin } := of_eq rfl rfl rfl
      exact rewound.trans (noteLoss clock _)
  | crypto offset data =>
      have rewound : conn.Retains (conn.updateSpace space (·.rewindCrypto offset)) := by
        refine updateSpace conn space _ ?_
        unfold Space.rewindCrypto
        split
        · rfl
        · rfl
      exact rewound.trans (noteLoss clock _)
  | _ => exact noteLoss clock conn

theorem onAcksCc (conn : Connection κ ξ) (numAcked : Nat) :
    conn.Retains (conn.onAcksCc numAcked) := by
  refine ⟨fun _ => rfl, rfl, fun least => ?_⟩
  have room : MIN_CWND ≤ 2 ^ 64 - 1 := by decide
  unfold Connection.onAcksCc
  dsimp only
  split
  · exact Nat.le_min.mpr ⟨least.trans (Nat.le_add_right _ _), room⟩
  · exact Nat.le_min.mpr ⟨least.trans (Nat.le_add_right _ _), room⟩

theorem probeFirst (clock : Clock) (conn : Connection κ ξ) (spaces : List PnSpace) :
    conn.Retains (conn.probeFirst clock spaces) := by
  induction spaces with
  | nil => exact refl conn
  | cons space others ih =>
      rw [Connection.probeFirst]
      cases conn.probePacket space with
      | some packet => exact run (onLostFrame clock space) conn packet.frames
      | none => exact ih

theorem settle (outcome : Except QuicError Unit × Connection κ ξ) :
    outcome.2.Retains (settle outcome) := by
  rcases outcome with ⟨result, conn⟩
  cases result with
  | ok => exact refl conn
  | error error => exact of_quiet (.processFatal conn error)

theorem installKeys (conn : Connection κ ξ) : conn.Retains conn.installKeys := by
  unfold Connection.installKeys
  dsimp only
  split
  · exact (updateSpace _ _ _ rfl).trans (updateSpace _ _ _ rfl)
  · exact updateSpace _ _ _ rfl

theorem takeCryptoPending (conn : Connection κ ξ) : conn.Retains conn.takeCryptoPending := by
  unfold Connection.takeCryptoPending
  dsimp only
  split
  · exact of_eq rfl rfl rfl
  · have written := updateSpace conn .handshake (·.writeCrypto conn.tls.cryptoPending) rfl
    exact ⟨written.sent, rfl, id⟩

theorem onCrypto (library : TlsLibrary κ ξ) (conn : Connection κ ξ) (space : PnSpace)
    (offset : Nat) (data : List Byte) :
    conn.Retains (conn.onCrypto library space offset data).2 := by
  rcases handled : conn.onCrypto library space offset data with ⟨result, conn'⟩
  rcases onCrypto_cases handled with ⟨_, _, same⟩ | ⟨waiting, _, tls, _, _, _, same⟩ |
    ⟨waiting, consumed, tls, fed, keyed, _, _, _, feeding, keying, same⟩
  · exact same ▸ refl conn
  · have waits := updateSpace conn space ({ · with cryptoRecv := waiting }) rfl
    exact same ▸ ⟨waits.sent, rfl, id⟩
  · have waits := updateSpace conn space ({ · with cryptoRecv := waiting.drop consumed }) rfl
    have fedRetains : conn.Retains fed := feeding ▸ ⟨waits.sent, rfl, id⟩
    have keyedRetains : conn.Retains keyed :=
      keying ▸ fedRetains.trans ((takeCryptoPending fed).trans (installKeys _))
    exact same ▸ ⟨keyedRetains.sent, keyedRetains.bytesInFlight, keyedRetains.window⟩

/-- Frames other than acknowledgements retain every packet. -/
theorem processFrame {library : TlsLibrary κ ξ} {clock : Clock} {space : PnSpace}
    {frame : Frame} {outcome : Except QuicError Unit × Connection κ ξ}
    (other : ∀ largestAcked ackDelay ranges ecn, frame ≠ .ack largestAcked ackDelay ranges ecn)
    (processed : conn.processFrame library clock space frame = .ok outcome) :
    conn.Retains outcome.2 := by
  cases frame with
  | ack largestAcked ackDelay ranges ecn => exact absurd rfl (other largestAcked ackDelay ranges ecn)
  | crypto offset data =>
      cases processed
      exact onCrypto library conn space offset data
  | stream streamId offset data length fin =>
      unfold Connection.processFrame at processed
      dsimp only at processed
      cases placed : conn.recv.onStream streamId (offset.getD 0) data fin with
      | none =>
          rw [placed] at processed
          cases processed
      | some placed' =>
          rw [placed] at processed
          cases processed
          exact of_eq rfl rfl rfl
  | handshakeDone =>
      cases processed
      have dropped := (updateSpace conn .initial Space.dropKeys rfl).trans
        (updateSpace _ .handshake Space.dropKeys rfl)
      exact ⟨dropped.sent, rfl, id⟩
  | _ =>
      cases processed
      exact of_eq rfl rfl rfl

/-- The application retains every packet, unless it flushes. -/
theorem act {packets : PacketLibrary κ} {op : LocalOp}
    (other : ∀ clock order, op ≠ .flush clock order)
    (acted : conn.act packets op = .ok conn') : conn.Retains conn' := by
  by_cases probing : ∃ clock, op = .probe clock
  · rcases probing with ⟨clock, rfl⟩
    cases acted
    exact (probeFirst clock conn _).trans (of_eq rfl rfl rfl)
  · exact of_quiet (.act acted other (not_exists.mp probing))

end Retains

theorem Paced.settleSent (holds : conn.Paced) (fits : conn.flight < 2 ^ 64) (clock : Clock)
    (space : PnSpace) (intervals : List (Nat × Nat)) :
    (conn.settleSent clock space intervals).Paced := by
  let drain : Space κ → Space κ := fun before =>
    { before with
      sent := before.sent.filter fun packet =>
        !ackCovers intervals packet.pn && !(packet.inFlight && clock.expired packet) }
  constructor
  · have drained := flight_updateSpace conn space drain
    have settled : (drain (conn.spaces space)).flight +
        (((conn.ackedPackets space intervals).filter (·.inFlight) ++
          conn.lostPackets clock space intervals).map (·.size)).sum = (conn.spaces space).flight :=
      sum_settled _ _ _
    have counted := holds.counted
    change conn.bytesInFlight - (((conn.ackedPackets space intervals).filter (·.inFlight) ++
      conn.lostPackets clock space intervals).map (·.size)).sum =
        min (conn.updateSpace space drain).flight (2 ^ 64 - 1)
    omega
  · intro other long
    change ((conn.updateSpace space drain).spaces other).sent = []
    by_cases here : other = space
    · subst here
      have nothing : (drain (conn.spaces other)).sent = List.filter _ [] :=
        congrArg (List.filter _) (holds.short other long)
      rw [spaces_updateSpace_self, nothing, List.filter_nil]
    · rw [spaces_updateSpace_of_ne here]
      exact holds.short other long

theorem Retains.onAck (conn : Connection κ ξ) (clock : Clock) (space : PnSpace)
    (largestAcked : Nat) (ranges : List (Nat × Nat)) :
    (conn.settleSent clock space (ackIntervals largestAcked ranges)).Retains
      (conn.onAck clock space largestAcked ranges) := by
  have progressed : ∀ (middle : Connection κ ξ) (acked lost : List Frame) (numAcked : Nat),
      middle.Retains { (if numAcked > 0 then
        (Transition.run (Connection.onLostFrame clock space)
          (Transition.run Connection.onAckedFrame middle acked) lost).onAcksCc numAcked
      else Transition.run (Connection.onLostFrame clock space)
        (Transition.run Connection.onAckedFrame middle acked) lost) with ptoDue := false } := by
    intro middle acked lost numAcked
    have applied := (run onAckedFrame middle acked).trans (run (onLostFrame clock space) _ lost)
    split
    · exact (applied.trans (.onAcksCc _ numAcked)).trans (.of_eq rfl rfl rfl)
    · exact applied.trans (.of_eq rfl rfl rfl)
  exact progressed _ _ _ _

variable {packets : PacketLibrary κ} {clock : Clock} {order : Order} {space : PnSpace}
  {maxDatagram : Nat} {building building' : Outbound κ ξ}

/-- No packet goes out in the first two spaces. -/
theorem sendOne_of_refuses (refuses : packets.RefusesEmpty) (long : space ≠ .application)
    (frames : List Frame) (ackEliciting : Bool) :
    conn.sendOne packets clock space frames ackEliciting maxDatagram = (none, conn) := by
  have headless : conn.buildPacketHeader packets space = none := by
    cases space with
    | initial => exact congrArg (Option.map _) (refuses ..)
    | handshake => exact congrArg (Option.map _) (refuses ..)
    | application => exact absurd rfl long
  unfold sendOne
  rw [headless]

theorem Paced.noteSent (holds : conn.Paced) (frames : List Frame) (ackEliciting : Bool)
    (size : Nat) : (conn.noteSent clock .application frames ackEliciting size).Paced := by
  let update : Space κ → Space κ := (·.noteSent clock frames ackEliciting size 0)
  constructor
  · have counted := holds.counted
    have sent := flight_updateSpace conn .application update
    have added : (update (conn.spaces .application)).flight = _ := Space.flight_noteSent ..
    change (if ackEliciting = true then min (conn.bytesInFlight + size) (2 ^ 64 - 1)
      else conn.bytesInFlight) = min (conn.updateSpace .application update).flight (2 ^ 64 - 1)
    split at added <;> rename_i eliciting
    · rw [if_pos eliciting]
      omega
    · rw [if_neg eliciting]
      omega
  · intro space long
    change ((conn.updateSpace .application update).spaces space).sent = []
    rw [spaces_updateSpace_of_ne long]
    exact holds.short space long

theorem Paces.sendOne (refuses : packets.RefusesEmpty) (conn : Connection κ ξ) (space : PnSpace)
    (frames : List Frame) (ackEliciting : Bool) (maxDatagram : Nat) :
    conn.Paces (conn.sendOne packets clock space frames ackEliciting maxDatagram).2 := by
  by_cases last : space = .application
  · subst last
    rcases sendOne_cases packets clock conn .application frames ackEliciting maxDatagram with
      same | same | ⟨datagram, same⟩
    · rw [same]
      exact (Retains.refl conn).paces
    · rw [same]
      exact (Retains.updateSpace conn .application
        ({ · with nextPn := (conn.spaces .application).nextPn + 1 }) rfl).paces
    · rw [same]
      exact ⟨fun holds => holds.noteSent frames ackEliciting datagram.length, id⟩
  · rw [sendOne_of_refuses refuses last]
    exact (Retains.refl conn).paces

theorem Paces.buildOutbound (refuses : packets.RefusesEmpty)
    (built : conn.buildOutbound packets clock order = .ok building) :
    conn.Paces building.conn :=
  Outbound.relates_buildOutbound _ .trans (fun quiet => (Retains.of_quiet quiet).paces)
    (fun conn space => (Retains.updateSpace conn space _ rfl).paces) (.sendOne refuses) built

/-- The Retry answers the connection id that was sent, and its tag holds. -/
def acceptsRetry (packets : PacketLibrary κ) (conn : Connection κ ξ) (data : List Byte) : Bool :=
  (parseRetry packets data).any fun retry => retry.dcid = conn.dcid && retry.verified packets

theorem Paces.processRetry (packets : PacketLibrary κ) (conn : Connection κ ξ)
    (data : List Byte) : conn.Paces (conn.processRetry packets data).2 := by
  rcases processRetry_cases packets conn data with same | ⟨retry, fresh, tls, empty, same⟩
  · rw [same]
    exact (Retains.refl conn).paces
  · rw [same]
    refine ⟨fun holds => ?_, id⟩
    have forgets := Retains.updateSpace conn .initial (fun _ => fresh)
      (empty.sent.trans (holds.short .initial (by decide)).symm)
    have restarts : conn.Retains { conn.restart retry fresh with tls := tls } :=
      ⟨forgets.sent, rfl, id⟩
    exact restarts.paces.paced holds

section Runs

variable {library : TlsLibrary κ ξ}

end Runs

section CutOff

/-- A clock that stands still. -/
def noTime : Clock :=
  ⟨0, 0, 0⟩

/-- The order of the table. -/
def anyOrder : Order :=
  ⟨id, List.Perm.refl⟩

/-- A PING to a peer with a connection id of 17 bytes. -/
def pingPacket (pn : Nat) : SentPacket :=
  ⟨pn, 0, 37, true, true, [.ping]⟩

/-- The credit that goes out with the next packet. -/
def creditFrames (recv : ConnState) : List Frame :=
  recv.pendingMaxData.map Frame.maxData ++
    recv.pendingMaxStreamData.map fun limit => .maxStreamData limit.1 limit.2

/-- Only PINGs are in flight, and there are only PINGs and credit to send. -/
structure Pinging (recv : ConnState) (send : SendState) (pns : List Nat) (next cwnd : Nat)
    (conn : Connection Unit (List Byte)) : Prop where
  closed : conn.closed = none
  initial : (conn.spaces .initial).writeKey = none
  handshake : (conn.spaces .handshake).writeKey = none
  application : (conn.spaces .application).writeKey = some ()
  ackPending : (conn.spaces .application).ackPending = false
  sent : (conn.spaces .application).sent = pns.map pingPacket
  nextPn : (conn.spaces .application).nextPn = next
  bytesInFlight : conn.bytesInFlight = 37 * pns.length
  cwnd : conn.cwnd = cwnd
  slowStart : conn.ssthresh = 2 ^ 64 - 1
  recovery : conn.recoveryStart = none
  datagrams : conn.datagramTx = []
  payload : conn.peerMaxUdpPayload = 1200
  dcid : conn.dcid.length = 17
  streams : send.sendingIds = []
  recv : conn.recv = recv
  send : conn.send = send

variable {conn : Connection Unit (List Byte)} {recv : ConnState} {send : SendState}
  {pns kept : List Nat} {next first count cwnd : Nat}

/-- The connection after a packet with the credit and a PING. -/
def pinged (conn : Connection Unit (List Byte)) : Connection Unit (List Byte) :=
  { conn with recv := conn.recv.drainPending, pingPending := false }.noteSent noTime .application
    (creditFrames conn.recv ++ [Frame.ping]) true
    (((creditFrames conn.recv ++ [Frame.ping]).flatMap Plain.encodeFrame).length + 36)

namespace Pinging

theorem nextFrames (pinging : Pinging recv send pns next cwnd conn)
    (due : conn.pingPending = true ∨ creditFrames recv = [] ∧ conn.ptoDue = true) :
    conn.nextFrames anyOrder .application 1200 = .ok (creditFrames recv ++ [.ping], true,
      { conn with recv := conn.recv.drainPending, pingPending := false }) := by
  have streams : conn.send.sendingIds = [] := pinging.send ▸ pinging.streams
  have gathered : conn.gatherFrames anyOrder .application 1200 =
      .ok (creditFrames recv ++ [], false, { conn with recv := conn.recv.drainPending }) := by
    unfold gatherFrames collectStreamFrames
    rw [if_pos rfl, streams, ← pinging.recv]
    rfl
  unfold Connection.nextFrames addPings
  rw [gathered, List.append_nil]
  by_cases pending : conn.pingPending = true
  · exact congrArg Except.ok (if_pos pending)
  · rcases due with due | ⟨none, due⟩
    · exact absurd due pending
    · simp [bind, Except.bind, pure, Except.pure, none, due, pending]

theorem round (pinging : Pinging recv send pns next cwnd conn)
    (due : conn.pingPending = true ∨ creditFrames recv = [] ∧ conn.ptoDue = true)
    (room : 37 * pns.length + 40 ≤ cwnd)
    (fits : ((creditFrames recv ++ [Frame.ping]).flatMap Plain.encodeFrame).length ≤ 1000)
    (out : List (List Byte)) :
    ∃ datagram, Outbound.round Plain.packets noTime anyOrder .application 1200 ⟨conn, out⟩ =
      .ok (decide (out.length + 1 < 32), ⟨conn.pinged, out ++ [datagram]⟩) := by
  let payload := (creditFrames recv ++ [Frame.ping]).flatMap Plain.encodeFrame
  let datagram := Plain.encodeShort conn.dcid (conn.spaces .application).nextPn PN_LEN false ++
    (payload ++ List.replicate 16 0)
  have length : datagram.length = payload.length + 36 := by
    simp only [datagram, Plain.encodeShort, List.length_append, List.length_singleton,
      pinging.dcid, length_toBeBytes, List.length_replicate, PN_LEN]
    omega
  have small : ¬ datagram.length > 1200 := by
    have fits : payload.length ≤ 1000 := fits
    omega
  have sent : sendOne Plain.packets noTime
      { conn with recv := conn.recv.drainPending, pingPending := false } .application
      (creditFrames recv ++ [Frame.ping]) true 1200 = (some datagram, conn.pinged) := by
    unfold sendOne pinged
    dsimp only
    rw [pinging.application, pinging.recv, ← length]
    exact if_neg small
  have popped : conn.popDatagramTx .application 1200 = none := by
    unfold popDatagramTx
    rw [pinging.datagrams]
  refine ⟨datagram, ?_⟩
  unfold Outbound.round
  dsimp only
  rw [pinging.cwnd, pinging.bytesInFlight, if_neg (by omega), popped, pinging.nextFrames due]
  dsimp only
  rw [if_neg (by simp), sent]
  simp [Outbound.push]

theorem of_round (pinging : Pinging recv send pns next cwnd conn) (granted : creditFrames recv = [])
    (drained : recv.drainPending = recv) (room : 37 * pns.length + 40 ≤ cwnd)
    (small : cwnd < 2 ^ 64) : Pinging recv send (pns ++ [next]) (next + 1) cwnd conn.pinged := by
  have alone : conn.pinged = { conn with recv := recv, pingPending := false }.noteSent noTime
      .application [.ping] true 37 := by
    rw [pinged, pinging.recv, drained, granted]
    rfl
  have counted : min (conn.bytesInFlight + 37) (2 ^ 64 - 1) = 37 * (pns ++ [next]).length := by
    rw [pinging.bytesInFlight, List.length_append, List.length_singleton]
    omega
  have listed : (conn.spaces .application).sent ++
      [pingPacket (conn.spaces .application).nextPn] = (pns ++ [next]).map pingPacket := by
    rw [pinging.sent, pinging.nextPn, List.map_append]
    rfl
  rw [alone]
  exact { pinging with
    recv := rfl
    sent := listed
    nextPn := congrArg (· + 1) pinging.nextPn
    bytesInFlight := counted }

theorem rounds (pinging : Pinging recv send pns next cwnd conn) (granted : creditFrames recv = [])
    (drained : recv.drainPending = recv) (small : cwnd < 2 ^ 64)
    (due : conn.pingPending = true ∨ conn.ptoDue = true) (left bound : Nat)
    (room : 37 * (pns.length + left) + 40 ≤ cwnd) (out : List (List Byte))
    (full : out.length + (left + 1) = 32) :
    ∃ conn' out', Outbound.rounds Plain.packets noTime anyOrder .application 1200 (left + 1 + bound)
        ⟨conn, out⟩ = .ok ⟨conn', out'⟩ ∧ conn'.ptoDue = true ∧
      Pinging recv send (pns ++ List.range' next (left + 1)) (next + (left + 1)) cwnd conn' := by
  induction left generalizing conn pns next out with
  | zero =>
      rcases pinging.round (due.imp_right (⟨granted, ·⟩)) room (by rw [granted]; decide) out with
        ⟨datagram, rounded⟩
      refine ⟨conn.pinged, out ++ [datagram], ?_, rfl, pinging.of_round granted drained room small⟩
      rw [Nat.zero_add, Nat.add_comm 1, Outbound.rounds, rounded, decide_eq_false (by omega)]
  | succ left ih =>
      rcases pinging.round (due.imp_right (⟨granted, ·⟩)) (by omega) (by rw [granted]; decide) out
        with ⟨datagram, rounded⟩
      have again := pinging.of_round granted drained (by omega) small
      rcases ih again (Or.inr rfl) (by simp; omega) (out ++ [datagram]) (by simp; omega) with ⟨conn', out', done, probes, pinging'⟩
      refine ⟨conn', out', ?_, probes, ?_⟩
      · rw [Nat.add_right_comm, Outbound.rounds, rounded, decide_eq_true (by omega)]
        exact done
      · rw [List.append_assoc, ← List.singleton_append, Nat.add_assoc, Nat.add_comm 1] at pinging'
        exact pinging'

/-- A call has only the last space to fill. -/
theorem flush {after : Outbound Unit (List Byte)} (pinging : Pinging recv send pns next cwnd conn)
    (filled : Outbound.rounds Plain.packets noTime anyOrder .application 1200 33 ⟨conn, []⟩ =
      .ok after) :
    drive Plain.tls Plain.packets (.ok conn) (.conn (.act (.flush noTime anyOrder))) =
      .ok after.conn := by
  have built : [PnSpace.initial, .handshake, .application].foldlM
      (Outbound.fill Plain.packets noTime anyOrder 1200) ⟨conn, []⟩ = .ok after := by
    simp only [List.foldlM_cons, List.foldlM_nil, Outbound.fill, Outbound.sendAck, pinging.initial,
      pinging.handshake, pinging.application, pinging.ackPending, pinging.datagrams,
      Option.isNone_none, Option.isNone_some, if_true, Bool.false_eq_true, if_false,
      List.length_nil, bind, Except.bind, filled, pure, Except.pure]
  change (buildOutbound ..).map Outbound.conn = _
  unfold buildOutbound
  rw [pinging.payload, pinging.closed, Option.isSome_none, if_neg Bool.false_ne_true]
  exact congrArg (Except.map Outbound.conn) built

theorem sum_pings (numbers : List Nat) :
    (((numbers.map pingPacket).filter (·.inFlight)).map (·.size)).sum = 37 * numbers.length := by
  have all : (numbers.map pingPacket).filter (·.inFlight) = numbers.map pingPacket :=
    List.filter_eq_self.mpr (by simp [pingPacket])
  rw [all, List.map_map, List.map_congr_left (g := fun _ => 37) (by simp [pingPacket])]
  simp [Nat.mul_comm]

/-- The PINGs from `first` on are acknowledged, none is lost, and the window grows. -/
theorem onAck (pinging : Pinging recv send (kept ++ List.range' first (count + 1)) next cwnd conn)
    (earlier : ∀ pn ∈ kept, pn < first) (small : cwnd < 2 ^ 64) :
    Pinging recv send kept next (min (cwnd + 1200 * (count + 1)) (2 ^ 64 - 1))
      (conn.onAck noTime .application (first + count) [(0, count)]) := by
  let intervals := ackIntervals (first + count) [(0, count)]
  have covers : ∀ pn, ackCovers intervals pn = decide (first ≤ pn ∧ pn ≤ first + count) := by
    intro pn
    simp [intervals, ackIntervals, ackIntervalsFrom, ackCovers, MAX_ACK_RANGES]
  have old : ∀ packet ∈ kept.map pingPacket, ackCovers intervals packet.pn = false ∧
      noTime.expired packet = false := by
    intro packet member
    rcases List.mem_map.mp member with ⟨pn, inside, rfl⟩
    refine ⟨(covers pn).trans (decide_eq_false ?_), rfl⟩
    have := earlier pn inside
    omega
  have new : ∀ packet ∈ (List.range' first (count + 1)).map pingPacket,
      ackCovers intervals packet.pn = true := by
    intro packet member
    rcases List.mem_map.mp member with ⟨pn, inside, rfl⟩
    have bounds := List.mem_range'_1.mp inside
    exact (covers pn).trans (decide_eq_true (by omega))
  have acked : conn.ackedPackets .application intervals =
      (List.range' first (count + 1)).map pingPacket := by
    rw [ackedPackets, pinging.sent, List.map_append, List.filter_append,
      List.filter_eq_self.mpr new, List.filter_eq_nil_iff.mpr fun packet member => by
        simp [old packet member], List.nil_append]
  have lost : conn.lostPackets noTime .application intervals = [] := by
    rw [lostPackets, pinging.sent, List.map_append, List.filter_append,
      List.filter_eq_nil_iff.mpr fun packet member => by simp [old packet member],
      List.filter_eq_nil_iff.mpr fun packet member => by simp [new packet member],
      List.nil_append]
  have settled : Pinging recv send kept next cwnd
      (conn.settleSent noTime .application intervals) := { pinging with
    sent := by
      change (conn.spaces .application).sent.filter _ = _
      rw [pinging.sent, List.map_append, List.filter_append, List.filter_eq_self.mpr
        fun packet member => by simp [old packet member], List.filter_eq_nil_iff.mpr
        fun packet member => by simp [new packet member], List.append_nil]
    bytesInFlight := by
      change conn.bytesInFlight - (List.map _ (_ ++ _)).sum = _
      rw [acked, lost, List.append_nil, sum_pings, pinging.bytesInFlight, List.length_append,
        List.length_range']
      omega }
  have unread : ∀ (conn : Connection Unit (List Byte)) (numbers : List Nat),
      run onAckedFrame conn ((numbers.map pingPacket).flatMap (·.frames)) = conn := by
    intro conn numbers
    induction numbers with
    | nil => rfl
    | cons number numbers ih => exact ih
  have grown : ((conn.settleSent noTime .application intervals).onAcksCc (count + 1)).cwnd =
      min (cwnd + 1200 * (count + 1)) (2 ^ 64 - 1) := by
    unfold onAcksCc
    dsimp only
    rw [settled.cwnd, settled.slowStart]
    generalize 1200 * 1200 * (count + 1) / max cwnd 1200 = inc
    split
    · rfl
    · omega
  have recovered : ((conn.settleSent noTime .application intervals).onAcksCc
      (count + 1)).recoveryStart = none := by
    unfold onAcksCc
    dsimp only
    rw [settled.recovery, ite_self]
  unfold Connection.onAck
  dsimp only
  rw [acked, lost, unread]
  simp only [List.flatMap_nil, run_nil, List.length_map, List.length_range']
  rw [if_pos (Nat.succ_pos count)]
  exact ⟨settled.closed, settled.initial, settled.handshake, settled.application, settled.ackPending,
    settled.sent, settled.nextPn, settled.bytesInFlight, grown, settled.slowStart, recovered, settled.datagrams,
    settled.payload, settled.dcid, settled.streams, settled.recv, settled.send⟩

end Pinging

/-- Some steps lead from one connection to the other. -/
def Drives (conn conn' : Connection Unit (List Byte)) : Prop :=
  ∃ ops, run (drive Plain.tls Plain.packets) (.ok conn) ops = .ok conn'

theorem Drives.trans {conn conn' conn'' : Connection Unit (List Byte)} (first : conn.Drives conn')
    (second : conn'.Drives conn'') : conn.Drives conn'' := by
  rcases first with ⟨ops, reached⟩
  rcases second with ⟨ops', reached'⟩
  exact ⟨ops ++ ops', by rw [run_append, reached, reached']⟩

namespace Pinging

end Pinging

end CutOff

end Connection

end Corduit.Protocol.Quic
