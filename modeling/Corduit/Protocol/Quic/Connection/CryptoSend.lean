import Corduit.Protocol.Quic.Connection.Session

/-!
# Handshake bytes that are sent

Each of the first two spaces sends its own handshake bytes, counted from zero.
An acknowledged CRYPTO frame is counted in both of them, whichever space it was
sent in, and a lost one moves the send position back, however much has been
acknowledged since.
-/

namespace Corduit.Protocol.Quic

open Collection Transition Word

/-- Where the bytes of a CRYPTO frame end. -/
def Frame.cryptoStop : Frame → Option Nat
  | .crypto offset data => some (offset + data.length)
  | _ => none

/-- Where the bytes of a CRYPTO frame start. -/
def Frame.cryptoStart : Frame → Option Nat
  | .crypto offset _ => some offset
  | _ => none

namespace Space

variable {κ : Type} {space space' : Space κ}

/-- What is acknowledged has been written, and sent. -/
structure Ordered (space : Space κ) : Prop where
  written : space.cryptoAcked ≤ space.cryptoWritten
  sent : space.cryptoAcked ≤ space.cryptoSent

theorem Ordered.sends (ordered : space.Ordered) (sends : space.Sends space') : space'.Ordered where
  written := by
    rw [sends.cryptoAcked, sends.cryptoWritten]
    exact ordered.written
  sent := by
    rw [sends.cryptoAcked]
    exact Nat.le_trans ordered.sent sends.cryptoSent

/-- The handshake bytes to send, and the packets that carry them, are the same. -/
structure SameCrypto (space space' : Space κ) : Prop where
  sent : space'.sent = space.sent
  cryptoSend : space'.cryptoSend = space.cryptoSend
  cryptoAcked : space'.cryptoAcked = space.cryptoAcked
  cryptoSent : space'.cryptoSent = space.cryptoSent

theorem acknowledgeCrypto_fields (space : Space κ) (stop : Nat) :
    (space.acknowledgeCrypto stop).cryptoWritten = space.cryptoWritten ∧
      (space.acknowledgeCrypto stop).cryptoSent = space.cryptoSent ∧
      (space.acknowledgeCrypto stop).sent = space.sent := by
  unfold acknowledgeCrypto
  split
  · exact ⟨rfl, rfl, rfl⟩
  · exact ⟨rfl, rfl, rfl⟩

theorem cryptoAcked_acknowledgeCrypto_le_iff (space : Space κ) (stop bound : Nat) :
    (space.acknowledgeCrypto stop).cryptoAcked ≤ bound ↔
      space.cryptoAcked ≤ bound ∧ (stop ≤ space.cryptoWritten → stop ≤ bound) := by
  unfold acknowledgeCrypto
  by_cases counts : (stop > space.cryptoAcked && stop ≤ space.cryptoWritten) = true
  · rw [if_pos counts]
    simp only [Bool.and_eq_true, decide_eq_true_eq] at counts
    dsimp only
    omega
  · rw [if_neg counts]
    simp only [Bool.and_eq_true, decide_eq_true_eq, not_and] at counts
    omega

/-- Several acknowledgements, one after the other. -/
def acknowledgeAll (space : Space κ) (stops : List Nat) : Space κ :=
  run acknowledgeCrypto space stops

section

variable (space : Space κ) (stops : List Nat)

theorem acknowledgeAll_fields :
    (space.acknowledgeAll stops).cryptoWritten = space.cryptoWritten ∧
      (space.acknowledgeAll stops).cryptoSent = space.cryptoSent ∧
      (space.acknowledgeAll stops).sent = space.sent := by
  induction stops generalizing space with
  | nil => exact ⟨rfl, rfl, rfl⟩
  | cons stop stops ih =>
      rcases ih (space.acknowledgeCrypto stop) with ⟨written, sent, table⟩
      rcases acknowledgeCrypto_fields space stop with ⟨written', sent', table'⟩
      exact ⟨written.trans written', sent.trans sent', table.trans table'⟩

theorem cryptoAcked_acknowledgeAll_le_iff (bound : Nat) :
    (space.acknowledgeAll stops).cryptoAcked ≤ bound ↔
      space.cryptoAcked ≤ bound ∧ ∀ stop ∈ stops, stop ≤ space.cryptoWritten → stop ≤ bound := by
  induction stops generalizing space with
  | nil => simp [acknowledgeAll]
  | cons stop stops ih =>
      have rest := ih (space.acknowledgeCrypto stop)
      rw [(acknowledgeCrypto_fields space stop).1, cryptoAcked_acknowledgeCrypto_le_iff,
        and_assoc] at rest
      rw [List.forall_mem_cons]
      exact rest

/-- Nothing changes exactly when no acknowledgement counts. -/
theorem sameCrypto_acknowledgeAll_iff :
    space.SameCrypto (space.acknowledgeAll stops) ↔
      ∀ stop ∈ stops, stop ≤ space.cryptoWritten → stop ≤ space.cryptoAcked := by
  constructor
  · intro same
    exact ((cryptoAcked_acknowledgeAll_le_iff space stops space.cryptoAcked).mp
      (Nat.le_of_eq same.cryptoAcked)).2
  · intro none_
    have unchanged : space.acknowledgeAll stops = space := by
      induction stops with
      | nil => rfl
      | cons stop stops ih =>
          rw [List.forall_mem_cons] at none_
          have skipped : space.acknowledgeCrypto stop = space := by
            unfold acknowledgeCrypto
            refine if_neg ?_
            simp only [Bool.and_eq_true, decide_eq_true_eq, not_and]
            omega
          rw [acknowledgeAll, run_cons, skipped]
          exact ih none_.2
    rw [unchanged]
    exact ⟨rfl, rfl, rfl, rfl⟩

end

theorem rewindCrypto_fields (space : Space κ) (start : Nat) :
    (space.rewindCrypto start).cryptoWritten = space.cryptoWritten ∧
      (space.rewindCrypto start).cryptoAcked = space.cryptoAcked := by
  unfold rewindCrypto
  split
  · exact ⟨rfl, rfl⟩
  · exact ⟨rfl, rfl⟩

theorem le_cryptoSent_rewindCrypto_iff (space : Space κ) (start bound : Nat) :
    bound ≤ (space.rewindCrypto start).cryptoSent ↔
      bound ≤ space.cryptoSent ∧ (bound ≤ start) := by
  unfold rewindCrypto
  split
  · dsimp only
    omega
  · omega

/-- Several losses, one after the other. -/
def rewindAll (space : Space κ) (starts : List Nat) : Space κ :=
  run rewindCrypto space starts

theorem rewindAll_fields (space : Space κ) (starts : List Nat) :
    (space.rewindAll starts).cryptoWritten = space.cryptoWritten ∧
      (space.rewindAll starts).cryptoAcked = space.cryptoAcked := by
  induction starts generalizing space with
  | nil => exact ⟨rfl, rfl⟩
  | cons start starts ih =>
      rcases ih (space.rewindCrypto start) with ⟨written, acked⟩
      rcases rewindCrypto_fields space start with ⟨written', acked'⟩
      exact ⟨written.trans written', acked.trans acked'⟩

theorem le_cryptoSent_rewindAll_iff (space : Space κ) (starts : List Nat) (bound : Nat) :
    bound ≤ (space.rewindAll starts).cryptoSent ↔
      bound ≤ space.cryptoSent ∧ ∀ start ∈ starts, bound ≤ start := by
  induction starts generalizing space with
  | nil => simp [rewindAll]
  | cons start starts ih =>
      have rest := ih (space.rewindCrypto start)
      rw [le_cryptoSent_rewindCrypto_iff, and_assoc] at rest
      rw [List.forall_mem_cons]
      exact rest

/-- Losses keep the order exactly when none reaches behind what is acknowledged. -/
theorem ordered_rewindAll_iff (ordered : space.Ordered) (starts : List Nat) :
    (space.rewindAll starts).Ordered ↔ ∀ start ∈ starts, space.cryptoAcked ≤ start := by
  rcases rewindAll_fields space starts with ⟨written, acked⟩
  have sent := le_cryptoSent_rewindAll_iff space starts space.cryptoAcked
  constructor
  · intro after
    have enough := after.sent
    rw [acked] at enough
    exact (sent.mp enough).2
  · intro behind
    refine ⟨?_, ?_⟩
    · rw [acked, written]
      exact ordered.written
    · rw [acked]
      exact sent.mpr ⟨ordered.sent, behind⟩

/-- The acknowledgements that count end within what was sent, no loss starts
before what is acknowledged, and none before an end that counts. -/
structure InOrder (space : Space κ) (stops starts : List Nat) : Prop where
  within : ∀ stop ∈ stops, stop ≤ space.cryptoWritten → stop ≤ space.cryptoSent
  behind : ∀ start ∈ starts, space.cryptoAcked ≤ start
  apart : ∀ start ∈ starts, ∀ stop ∈ stops, stop ≤ space.cryptoWritten → stop ≤ start

theorem ordered_settled_iff (ordered : space.Ordered) (stops starts : List Nat) :
    ((space.acknowledgeAll stops).rewindAll starts).Ordered ↔ space.InOrder stops starts := by
  rcases acknowledgeAll_fields space stops with ⟨written, sent, _⟩
  rcases rewindAll_fields (space.acknowledgeAll stops) starts with ⟨written', acked'⟩
  have atMost := cryptoAcked_acknowledgeAll_le_iff space stops
  have sentAfter := le_cryptoSent_rewindAll_iff (space.acknowledgeAll stops) starts
    (space.acknowledgeAll stops).cryptoAcked
  constructor
  · intro after
    have enough := after.sent
    rw [acked'] at enough
    rcases sentAfter.mp enough with ⟨stopped, started⟩
    rw [sent, atMost] at stopped
    exact ⟨stopped.2, fun start member => ((atMost start).mp (started start member)).1,
      fun start member => ((atMost start).mp (started start member)).2⟩
  · intro inOrder
    refine ⟨?_, ?_⟩
    · rw [acked', written', written]
      exact (atMost _).mpr ⟨ordered.written, fun _ _ counts => counts⟩
    · rw [acked']
      refine sentAfter.mpr ⟨?_, fun start member => (atMost start).mpr
        ⟨inOrder.behind start member, inOrder.apart start member⟩⟩
      rw [sent]
      exact (atMost _).mpr ⟨ordered.sent, inOrder.within⟩

end Space

/-- The ends of CRYPTO frames that count in a space when they are acknowledged. -/
def heardStops (target : PnSpace) (frames : List Frame) : List Nat :=
  if target = .application then [] else frames.filterMap Frame.cryptoStop

namespace Connection

variable {κ ξ : Type} {library : TlsLibrary κ ξ} {packets : PacketLibrary κ} {clock : Clock}
  {space : PnSpace} {conn conn' : Connection κ ξ}

theorem spaces_onAckedFrame (conn : Connection κ ξ) (frame : Frame) (target : PnSpace) :
    (conn.onAckedFrame frame).spaces target =
      (conn.spaces target).acknowledgeAll (heardStops target [frame]) := by
  cases frame with
  | crypto offset data =>
      unfold onAckedFrame
      dsimp only
      cases target with
      | initial =>
          rw [spaces_updateSpace_of_ne (by decide), spaces_updateSpace_self]
          rfl
      | handshake =>
          rw [spaces_updateSpace_self, spaces_updateSpace_of_ne (by decide)]
          rfl
      | application =>
          rw [spaces_updateSpace_of_ne (by decide), spaces_updateSpace_of_ne (by decide)]
          rfl
  | _ =>
      cases target with
      | initial => rfl
      | handshake => rfl
      | application => rfl

theorem heardStops_cons (target : PnSpace) (frame : Frame) (frames : List Frame) :
    heardStops target (frame :: frames) = heardStops target [frame] ++ heardStops target frames := by
  unfold heardStops
  split
  · rfl
  · rw [← List.filterMap_append]
    rfl

theorem spaces_run_onAckedFrame (conn : Connection κ ξ) (frames : List Frame) (target : PnSpace) :
    (run onAckedFrame conn frames).spaces target =
      (conn.spaces target).acknowledgeAll (heardStops target frames) := by
  induction frames generalizing conn with
  | nil =>
      cases target with
      | initial => rfl
      | handshake => rfl
      | application => rfl
  | cons frame frames ih =>
      have split := heardStops_cons target frame frames
      rw [run_cons, ih, spaces_onAckedFrame, split]
      exact (run_append _ _ _).symm

theorem spaces_noteLoss (clock : Clock) (conn : Connection κ ξ) :
    (conn.noteLoss clock).spaces = conn.spaces := by
  unfold noteLoss
  split
  · rfl
  · rfl

theorem spaces_onLostFrame (clock : Clock) (space : PnSpace) (conn : Connection κ ξ)
    (frame : Frame) :
    (conn.onLostFrame clock space frame).spaces space =
        (conn.spaces space).rewindAll ([frame].filterMap Frame.cryptoStart) ∧
      ∀ other, other ≠ space →
        (conn.onLostFrame clock space frame).spaces other = conn.spaces other := by
  unfold onLostFrame
  cases frame with
  | crypto offset data =>
      dsimp only
      rw [spaces_noteLoss]
      exact ⟨spaces_updateSpace_self conn space _,
        fun other different => spaces_updateSpace_of_ne different conn _⟩
  | _ =>
      dsimp only
      rw [spaces_noteLoss]
      exact ⟨rfl, fun _ _ => rfl⟩

theorem spaces_run_onLostFrame (clock : Clock) (space : PnSpace) (conn : Connection κ ξ)
    (frames : List Frame) :
    (run (onLostFrame clock space) conn frames).spaces space =
        (conn.spaces space).rewindAll (frames.filterMap Frame.cryptoStart) ∧
      ∀ other, other ≠ space →
        (run (onLostFrame clock space) conn frames).spaces other = conn.spaces other := by
  induction frames generalizing conn with
  | nil => exact ⟨rfl, fun _ _ => rfl⟩
  | cons frame frames ih =>
      rcases ih (conn.onLostFrame clock space frame) with ⟨here, others⟩
      rcases spaces_onLostFrame clock space conn frame with ⟨first, firstOthers⟩
      have split : (frame :: frames).filterMap Frame.cryptoStart =
          [frame].filterMap Frame.cryptoStart ++ frames.filterMap Frame.cryptoStart :=
        @List.filterMap_append _ _ [frame] frames _
      rw [run_cons, split]
      refine ⟨?_, fun other different => (others other different).trans
        (firstOthers other different)⟩
      rw [here, first]
      exact (run_append _ _ _).symm

/-- The frames of the sent packets that an ACK frame covers. -/
def ackedFrames (conn : Connection κ ξ) (space : PnSpace) (largestAcked : Nat)
    (ranges : List (Nat × Nat)) : List Frame :=
  (conn.ackedPackets space (ackIntervals largestAcked ranges)).flatMap (·.frames)

/-- The frames of the sent packets that are late when an ACK frame arrives. -/
def lostFrames (conn : Connection κ ξ) (clock : Clock) (space : PnSpace) (largestAcked : Nat)
    (ranges : List (Nat × Nat)) : List Frame :=
  (conn.lostPackets clock space (ackIntervals largestAcked ranges)).flatMap (·.frames)

theorem spaces_onAck (conn : Connection κ ξ) (clock : Clock) (space : PnSpace)
    (largestAcked : Nat) (ranges : List (Nat × Nat)) :
    (∃ sent, (conn.onAck clock space largestAcked ranges).spaces space =
        (({ conn.spaces space with sent := sent } : Space κ).acknowledgeAll
          (heardStops space (conn.ackedFrames space largestAcked ranges))).rewindAll
            ((conn.lostFrames clock space largestAcked ranges).filterMap Frame.cryptoStart)) ∧
      ∀ other, other ≠ space → (conn.onAck clock space largestAcked ranges).spaces other =
        (conn.spaces other).acknowledgeAll
          (heardStops other (conn.ackedFrames space largestAcked ranges)) := by
  have grown : ∀ (middle : Connection κ ξ) (numAcked : Nat),
      ({ (if numAcked > 0 then middle.onAcksCc numAcked else middle) with ptoDue := false } :
        Connection κ ξ).spaces = middle.spaces := by
    intro middle numAcked
    split
    · rfl
    · rfl
  have settled := spaces_run_onAckedFrame
    (conn.settleSent clock space (ackIntervals largestAcked ranges))
    (conn.ackedFrames space largestAcked ranges)
  rcases spaces_run_onLostFrame clock space (run onAckedFrame
      (conn.settleSent clock space (ackIntervals largestAcked ranges))
      (conn.ackedFrames space largestAcked ranges))
    (conn.lostFrames clock space largestAcked ranges) with ⟨here, others⟩
  unfold onAck
  dsimp only
  rw [grown]
  refine ⟨⟨(conn.spaces space).sent.filter fun packet =>
      !ackCovers (ackIntervals largestAcked ranges) packet.pn &&
        !(packet.inFlight && clock.expired packet), here.trans ?_⟩,
    fun other different => (others other different).trans ?_⟩
  · rw [settled, settleSent]
    dsimp only
    rw [spaces_updateSpace_self]
  · rw [settled, settleSent]
    dsimp only
    rw [spaces_updateSpace_of_ne different]

/-- In every space, what is acknowledged has been written and sent. -/
def Ordered (conn : Connection κ ξ) : Prop :=
  ∀ space, (conn.spaces space).Ordered

theorem Ordered.sends (ordered : conn.Ordered) (sends : conn.Sends conn') : conn'.Ordered :=
  fun space => (ordered space).sends (sends.spaces space)

theorem Ordered.of_eq (ordered : conn.Ordered) (spaces : conn'.spaces = conn.spaces) :
    conn'.Ordered := by
  intro space
  rw [spaces]
  exact ordered space

theorem Ordered.updateSpace (ordered : conn.Ordered) (space : PnSpace) (change : Space κ → Space κ)
    (here : (change (conn.spaces space)).Ordered) : (conn.updateSpace space change).Ordered :=
  forall_spaces_updateSpace here fun other _ => ordered other

theorem Ordered.settle {outcome : Except QuicError Unit × Connection κ ξ}
    (ordered : outcome.2.Ordered) : (settle outcome).Ordered :=
  ordered.of_eq (spaces_settle outcome)

/-- The other spaces keep their handshake bytes and their packets. -/
def Isolated (space : PnSpace) (conn conn' : Connection κ ξ) : Prop :=
  ∀ other, other ≠ space → (conn.spaces other).SameCrypto (conn'.spaces other)

/-- No acknowledged end counts in another space. -/
def CountsApart (conn : Connection κ ξ) (space : PnSpace) (frames : List Frame) : Prop :=
  ∀ other, other ≠ space → ∀ stop ∈ heardStops other frames,
    stop ≤ (conn.spaces other).cryptoWritten → stop ≤ (conn.spaces other).cryptoAcked

/-- An ACK frame leaves the other spaces alone exactly when no frame that it
acknowledges counts there. -/
theorem isolated_onAck_iff (conn : Connection κ ξ) (clock : Clock) (space : PnSpace)
    (largestAcked : Nat) (ranges : List (Nat × Nat)) :
    Isolated space conn (conn.onAck clock space largestAcked ranges) ↔
      conn.CountsApart space (conn.ackedFrames space largestAcked ranges) := by
  refine forall_congr' fun other => imp_congr_right fun different => ?_
  rw [(spaces_onAck conn clock space largestAcked ranges).2 other different]
  exact Space.sameCrypto_acknowledgeAll_iff _ _

/-- The ends that count in a space, and the starts of its lost frames, are in
order. -/
def AckInOrder (conn : Connection κ ξ) (clock : Clock) (space : PnSpace) (largestAcked : Nat)
    (ranges : List (Nat × Nat)) : Prop :=
  (conn.spaces space).InOrder (heardStops space (conn.ackedFrames space largestAcked ranges))
    ((conn.lostFrames clock space largestAcked ranges).filterMap Frame.cryptoStart)

theorem ordered_onAck_iff (ordered : conn.Ordered) (clock : Clock) (space : PnSpace)
    (largestAcked : Nat) (ranges : List (Nat × Nat))
    (apart : conn.CountsApart space (conn.ackedFrames space largestAcked ranges)) :
    (conn.onAck clock space largestAcked ranges).Ordered ↔
      conn.AckInOrder clock space largestAcked ranges := by
  rcases spaces_onAck conn clock space largestAcked ranges with ⟨⟨sent, here⟩, others⟩
  have settled := @Space.ordered_settled_iff κ { conn.spaces space with sent := sent }
    ⟨(ordered space).written, (ordered space).sent⟩
    (heardStops space (conn.ackedFrames space largestAcked ranges))
    ((conn.lostFrames clock space largestAcked ranges).filterMap Frame.cryptoStart)
  rw [← here] at settled
  constructor
  · intro after
    rcases settled.mp (after space) with ⟨within, behind, apart⟩
    exact ⟨within, behind, apart⟩
  · rintro ⟨within, behind, apart'⟩ other
    by_cases same : other = space
    · rw [same]
      exact settled.mpr ⟨within, behind, apart'⟩
    · have kept := (isolated_onAck_iff conn clock space largestAcked ranges).mpr apart other same
      refine ⟨?_, ?_⟩
      · rw [others other same, (Space.acknowledgeAll_fields _ _).1, ← others other same,
          kept.cryptoAcked]
        exact (ordered other).written
      · rw [kept.cryptoAcked, kept.cryptoSent]
        exact (ordered other).sent

/-- The packet that a probe sends again. -/
def probed (conn : Connection κ ξ) : List PnSpace → Option (PnSpace × SentPacket)
  | [] => none
  | space :: others =>
      match conn.probePacket space with
      | some packet => some (space, packet)
      | none => conn.probed others

/-- A probe goes back to bytes that are not acknowledged. -/
def ProbeInOrder (conn : Connection κ ξ) : Prop :=
  ∀ space packet, conn.probed [.application, .handshake, .initial] = some (space, packet) →
    ∀ start ∈ packet.frames.filterMap Frame.cryptoStart, (conn.spaces space).cryptoAcked ≤ start

theorem ordered_sendProbe_iff (ordered : conn.Ordered) (clock : Clock) :
    (conn.sendProbe clock).Ordered ↔ conn.ProbeInOrder := by
  have first : ∀ spaces, (conn.probeFirst clock spaces).Ordered ↔
      ∀ space packet, conn.probed spaces = some (space, packet) →
        ∀ start ∈ packet.frames.filterMap Frame.cryptoStart,
          (conn.spaces space).cryptoAcked ≤ start := by
    intro spaces
    induction spaces with
    | nil => exact iff_of_true ordered (fun _ _ none_ => by cases none_)
    | cons space others ih =>
        rw [probeFirst, probed]
        cases conn.probePacket space with
        | none => exact ih
        | some packet =>
            rcases spaces_run_onLostFrame clock space conn packet.frames with ⟨here, elsewhere⟩
            have decided := Space.ordered_rewindAll_iff (ordered space)
              (packet.frames.filterMap Frame.cryptoStart)
            rw [← here] at decided
            constructor
            · rintro after _ _ ⟨⟩
              exact decided.mp (after space)
            · intro behind other
              by_cases same : other = space
              · rw [same]
                exact decided.mpr (behind space packet rfl)
              · rw [elsewhere other same]
                exact ordered other
  exact first _

theorem cryptoFrames_isOk (ordered : conn.Ordered) (space : PnSpace) (maxDatagram : Nat) :
    ∃ frames, conn.cryptoFrames space maxDatagram = .ok frames := by
  unfold cryptoFrames
  dsimp only
  split
  · rw [checkedSub, if_pos (ordered space).sent]
    exact ⟨_, rfl⟩
  · exact ⟨_, rfl⟩

variable (ordered : conn.Ordered) (order : Order) (space : PnSpace) (maxDatagram : Nat)

include ordered

theorem gatherFrames_ne_cryptoOffset :
    conn.gatherFrames order space maxDatagram ≠ .error .cryptoOffset := by
  unfold gatherFrames
  by_cases last : space = .application
  · rw [if_pos last, collectStreamFrames]
    cases conn.send.collectStreams (order.arrange conn.send.sendingIds) maxDatagram with
    | none => exact fun impossible => by cases impossible
    | some filling => exact fun impossible => by cases impossible
  · rcases cryptoFrames_isOk ordered space maxDatagram with ⟨frames, built⟩
    rw [if_neg last, built]
    exact fun impossible => by cases impossible

theorem nextFrames_ne_cryptoOffset :
    conn.nextFrames order space maxDatagram ≠ .error .cryptoOffset := by
  have gathered := gatherFrames_ne_cryptoOffset ordered order space maxDatagram
  unfold nextFrames
  cases result : conn.gatherFrames order space maxDatagram with
  | error fault =>
      rw [result] at gathered
      exact gathered
  | ok found => exact fun impossible => by cases impossible

end Connection

namespace Outbound

variable {κ ξ : Type} {packets : PacketLibrary κ} {clock : Clock} {order : Order}
  {maxDatagram : Nat} {building : Outbound κ ξ}

theorem round_ne_cryptoOffset (ordered : building.conn.Ordered) (space : PnSpace) :
    building.round packets clock order space maxDatagram ≠ .error .cryptoOffset := by
  have next := Connection.nextFrames_ne_cryptoOffset ordered order space maxDatagram
  unfold round
  by_cases congested : building.conn.cwnd - building.conn.bytesInFlight < 40
  · rw [if_pos congested]
    exact fun impossible => by cases impossible
  · rw [if_neg congested]
    cases building.conn.popDatagramTx space maxDatagram with
    | some found => exact fun impossible => by cases impossible
    | none =>
        dsimp only
        cases result : building.conn.nextFrames order space maxDatagram with
        | error fault =>
            rw [result] at next
            exact fun same => next (congrArg Except.error (Except.error.inj same))
        | ok found =>
            rcases found with ⟨frames, ackEliciting, conn⟩
            dsimp only
            split
            · exact fun impossible => by cases impossible
            · exact fun impossible => by cases impossible

theorem rounds_ne_cryptoOffset (bound : Nat) (ordered : building.conn.Ordered) (space : PnSpace) :
    building.rounds packets clock order space maxDatagram bound ≠ .error .cryptoOffset := by
  induction bound generalizing building with
  | zero => exact fun impossible => by cases impossible
  | succ bound ih =>
      rw [rounds]
      cases once : building.round packets clock order space maxDatagram with
      | error fault =>
          intro same
          rw [Except.error.inj same] at once
          exact round_ne_cryptoOffset ordered space once
      | ok result =>
          rcases result with ⟨more, middle⟩
          cases more with
          | false => exact fun impossible => by cases impossible
          | true => exact ih (ordered.sends (sends_round once))

theorem fill_ne_cryptoOffset (ordered : building.conn.Ordered) (space : PnSpace) :
    building.fill packets clock order maxDatagram space ≠ .error .cryptoOffset := by
  unfold fill
  split
  · exact fun impossible => by cases impossible
  · exact rounds_ne_cryptoOffset _ (ordered.sends (sends_sendAck building space)) space

theorem fills_ne_cryptoOffset (spaces : List PnSpace) (ordered : building.conn.Ordered) :
    spaces.foldlM (fill packets clock order maxDatagram) building ≠ .error .cryptoOffset := by
  induction spaces generalizing building with
  | nil => exact fun impossible => by cases impossible
  | cons space spaces ih =>
      rw [List.foldlM_cons]
      cases first : building.fill packets clock order maxDatagram space with
      | error fault =>
          intro same
          rw [Except.error.inj same] at first
          exact fill_ne_cryptoOffset ordered space first
      | ok middle => exact ih (ordered.sends (sends_fill first))

end Outbound

namespace Connection

variable {κ ξ : Type} {library : TlsLibrary κ ξ} {packets : PacketLibrary κ} {clock : Clock}
  {space : PnSpace} {conn conn' : Connection κ ξ}

theorem buildOutbound_ne_cryptoOffset (ordered : conn.Ordered) (clock : Clock) (order : Order) :
    conn.buildOutbound packets clock order ≠ .error .cryptoOffset := by
  unfold buildOutbound
  dsimp only
  split
  · exact fun impossible => by cases impossible
  · exact Outbound.fills_ne_cryptoOffset _ ordered

theorem Ordered.rekeys (ordered : conn.Ordered) (rekeys : conn.Rekeys conn') :
    conn'.Ordered := by
  intro space
  have kept := rekeys.spaces space
  constructor
  · rw [kept.cryptoAcked]
    exact Nat.le_trans (ordered space).written kept.cryptoWritten
  · rw [kept.cryptoAcked, kept.cryptoSent]
    exact (ordered space).sent

theorem Ordered.onCrypto (ordered : conn.Ordered) (space : PnSpace) (offset : Nat)
    (data : List Byte) : (conn.onCrypto library space offset data).2.Ordered := by
  rcases @rekeys_onCrypto _ _ library conn space offset data with ⟨waiting, tls, rekeys⟩
  have waits := ordered.updateSpace space (fun before => { before with cryptoRecv := waiting })
    ⟨(ordered space).written, (ordered space).sent⟩
  refine Ordered.rekeys ?_ rekeys
  exact waits.of_eq rfl

theorem Ordered.dropKeys (ordered : conn.Ordered) (space : PnSpace) :
    (conn.updateSpace space Space.dropKeys).Ordered :=
  ordered.updateSpace space _ ⟨(ordered space).written, (ordered space).sent⟩

theorem Ordered.processFrame (ordered : conn.Ordered) {frame : Frame}
    {result : Except QuicError Unit}
    (notAck : ∀ largestAcked ackDelay ranges ecn, frame ≠ .ack largestAcked ackDelay ranges ecn)
    (processed : conn.processFrame library clock space frame = .ok (result, conn')) :
    conn'.Ordered := by
  cases frame with
  | ack largestAcked ackDelay ranges ecn => exact absurd rfl (notAck largestAcked ackDelay ranges ecn)
  | crypto offset data =>
      have handled := @Ordered.onCrypto κ ξ library conn ordered space offset data
      rw [Except.ok.inj processed] at handled
      exact handled
  | stream streamId offset data length fin =>
      unfold Connection.processFrame at processed
      dsimp only at processed
      cases placed : conn.recv.onStream streamId (offset.getD 0) data fin with
      | none =>
          rw [placed] at processed
          cases processed
      | some placed' =>
          rw [placed] at processed
          cases processed
          exact ordered.of_eq rfl
  | handshakeDone =>
      cases processed
      exact (ordered.dropKeys .initial).dropKeys .handshake
  | _ =>
      cases processed
      exact ordered.of_eq rfl

theorem Ordered.processRetry (ordered : conn.Ordered) (data : List Byte) :
    (conn.processRetry packets data).2.Ordered := by
  rcases processRetry_cases packets conn data with same | ⟨retry, fresh, tls, empty, same⟩
  · rw [same]
    exact ordered
  · have begun := ordered.updateSpace .initial (fun _ => fresh)
      ⟨empty.cryptoAcked ▸ Nat.zero_le _, empty.cryptoAcked ▸ Nat.zero_le _⟩
    rw [same]
    exact begun.of_eq rfl

/-- What is acknowledged has been written and sent, and no offset has gone below
zero. -/
def IsOrdered : Except Fault (Connection κ ξ) → Prop
  | .ok conn => conn.Ordered
  | .error fault => fault ≠ .cryptoOffset

/-- An ACK frame leaves the other spaces alone. -/
def AcksApart : Except Fault (Connection κ ξ) → DriverOp → Prop
  | .ok conn, .conn (.frame space clock (.ack largestAcked _ ranges _)) =>
      Isolated space conn (conn.onAck clock space largestAcked ranges)
  | _, _ => True

/-- No acknowledgement counts in another space or beyond what was sent, and no
loss or probe goes back before what is acknowledged. -/
def Orderly : Except Fault (Connection κ ξ) → DriverOp → Prop
  | .ok conn, .conn (.frame space clock (.ack largestAcked _ ranges _)) =>
      conn.CountsApart space (conn.ackedFrames space largestAcked ranges) ∧
        conn.AckInOrder clock space largestAcked ranges
  | .ok conn, .conn (.act (.probe _)) => conn.ProbeInOrder
  | _, _ => True

theorem isOrdered_act (ordered : conn.Ordered) {op : LocalOp}
    (notProbe : ∀ clock, op ≠ .probe clock) : IsOrdered (conn.act packets op) := by
  cases acted : conn.act packets op with
  | ok conn' => exact ordered.sends (Sends.act acted notProbe)
  | error fault =>
      cases op with
      | flush clock order =>
          have built := @buildOutbound_ne_cryptoOffset κ ξ packets conn ordered clock order
          unfold act at acted
          dsimp only at acted
          cases outcome : conn.buildOutbound packets clock order with
          | error fault' =>
              rw [outcome] at acted built
              cases acted
              exact fun same => built (congrArg Except.error same)
          | ok building =>
              rw [outcome] at acted
              cases acted
      | sendData streamId data =>
          unfold act at acted
          dsimp only at acted
          split at acted
          · cases acted
          · cases written : conn.send.sendData streamId data with
            | none =>
                rw [written] at acted
                cases acted
                exact fun impossible => by cases impossible
            | some outcome =>
                rw [written] at acted
                cases acted
      | finStream streamId =>
          unfold act at acted
          dsimp only at acted
          split at acted
          · cases acted
          · cases acted
      | _ => cases acted

theorem isOrdered_frame (ordered : conn.Ordered) {frame : Frame}
    (notAck : ∀ largestAcked ackDelay ranges ecn, frame ≠ .ack largestAcked ackDelay ranges ecn) :
    IsOrdered (conn.perform library packets (.frame space clock frame)) := by
  unfold perform
  dsimp only
  cases processed : conn.processFrame library clock space frame with
  | ok outcome => exact Ordered.settle (ordered.processFrame notAck processed)
  | error fault =>
      cases frame with
      | stream streamId offset data length fin =>
          unfold Connection.processFrame at processed
          dsimp only at processed
          cases placed : conn.recv.onStream streamId (offset.getD 0) data fin with
          | none =>
              rw [placed] at processed
              cases processed
              exact fun impossible => by cases impossible
          | some placed' =>
              rw [placed] at processed
              cases processed
      | _ => cases processed

/-- An ACK frame keeps the order and leaves the other spaces alone exactly when
its acknowledgements and losses are in order. -/
theorem isOrdered_ack_iff (ordered : conn.Ordered) (clock : Clock) (space : PnSpace)
    (largestAcked : Nat) (ranges : List (Nat × Nat)) :
    ((conn.onAck clock space largestAcked ranges).Ordered ∧
        Isolated space conn (conn.onAck clock space largestAcked ranges)) ↔
      (conn.CountsApart space (conn.ackedFrames space largestAcked ranges) ∧
        conn.AckInOrder clock space largestAcked ranges) := by
  have isolated := isolated_onAck_iff conn clock space largestAcked ranges
  constructor
  · rintro ⟨after, apart⟩
    have apart := isolated.mp apart
    exact ⟨apart, (ordered_onAck_iff ordered clock space largestAcked ranges apart).mp after⟩
  · rintro ⟨apart, inOrder⟩
    exact ⟨(ordered_onAck_iff ordered clock space largestAcked ranges apart).mpr inOrder,
      isolated.mpr apart⟩

/-- In an ordered state, the condition decides what a step does. -/
theorem isOrdered_drive_iff (ordered : conn.Ordered) (op : DriverOp) :
    (IsOrdered (drive library packets (.ok conn) op) ∧ AcksApart (.ok conn) op) ↔
      Orderly (.ok conn) op := by
  cases op with
  | retry data =>
      exact iff_of_true ⟨Ordered.settle (ordered.processRetry data), trivial⟩ trivial
  | conn op =>
      cases op with
      | note space pn =>
          refine iff_of_true ⟨?_, trivial⟩ trivial
          have noted := ordered.updateSpace space (·.noteReceived pn)
            ⟨(ordered space).written, (ordered space).sent⟩
          unfold drive advance Except.bind perform
          dsimp only
          split
          · exact noted
          · exact ordered
      | adopt parsed =>
          refine iff_of_true ⟨?_, trivial⟩ trivial
          rcases adoptScid_eq conn parsed with ⟨dcid, adopted⟩
          unfold drive advance Except.bind perform
          dsimp only
          rw [adopted]
          exact ordered.of_eq rfl
      | act op =>
          by_cases probing : ∃ clock, op = .probe clock
          · rcases probing with ⟨clock, rfl⟩
            have decided := ordered_sendProbe_iff ordered clock
            exact ⟨fun holds => decided.mp holds.1, fun behind => ⟨decided.mpr behind, trivial⟩⟩
          · have notProbe := not_exists.mp probing
            refine iff_of_true ⟨isOrdered_act ordered notProbe, trivial⟩ ?_
            cases op with
            | probe clock => exact absurd rfl (notProbe clock)
            | _ => trivial
      | frame space clock frame =>
          by_cases acking : ∃ largestAcked ackDelay ranges ecn,
              frame = .ack largestAcked ackDelay ranges ecn
          · rcases acking with ⟨largestAcked, ackDelay, ranges, ecn, rfl⟩
            exact isOrdered_ack_iff ordered clock space largestAcked ranges
          · have notAck : ∀ largestAcked ackDelay ranges ecn,
                frame ≠ .ack largestAcked ackDelay ranges ecn :=
              fun largestAcked ackDelay ranges ecn same =>
                acking ⟨largestAcked, ackDelay, ranges, ecn, same⟩
            refine iff_of_true ⟨@isOrdered_frame κ ξ library packets clock space conn ordered frame
              notAck, ?_⟩ ?_
            · cases frame with
              | ack largestAcked ackDelay ranges ecn =>
                  exact absurd rfl (notAck largestAcked ackDelay ranges ecn)
              | _ => trivial
            · cases frame with
              | ack largestAcked ackDelay ranges ecn =>
                  exact absurd rfl (notAck largestAcked ackDelay ranges ecn)
              | _ => trivial

theorem ordered_start (tls : Tls13Client κ ξ) (scid dcid : List Byte) (key writeKey : κ)
    (initialMaxData initialMaxStreamData : Nat) :
    (start tls scid dcid key writeKey initialMaxData initialMaxStreamData).Ordered := by
  intro space
  cases space with
  | initial => exact ⟨Nat.zero_le _, Nat.zero_le _⟩
  | handshake => exact ⟨Nat.zero_le _, Nat.zero_le _⟩
  | application => exact ⟨Nat.zero_le _, Nat.zero_le _⟩

/-- From any state, an ACK frame leaves the other spaces alone exactly when
nothing that it acknowledges counts there.  In a run from any state, all spaces
keep their order, none of their offsets goes below zero and every ACK frame stays
in its own space exactly when they are in order to begin with and acknowledgements,
losses and probes all are; a new connection is. -/
theorem crypto_spaces_isolated_iff (library : TlsLibrary κ ξ) (packets : PacketLibrary κ) :
    (∀ (conn : Connection κ ξ) (clock : Clock) (space : PnSpace) (largestAcked : Nat)
        (ranges : List (Nat × Nat)),
      Isolated space conn (conn.onAck clock space largestAcked ranges) ↔
        conn.CountsApart space (conn.ackedFrames space largestAcked ranges)) ∧
      (∀ (conn : Connection κ ξ) (ops : List DriverOp),
        (RunAlways (drive library packets) IsOrdered (.ok conn) ops ∧
            RunMeets (drive library packets) AcksApart (.ok conn) ops) ↔
          conn.Ordered ∧ RunMeets (drive library packets) Orderly (.ok conn) ops) ∧
      ∀ (tls : Tls13Client κ ξ) (scid dcid : List Byte) (key writeKey : κ)
        (initialMaxData initialMaxStreamData : Nat),
        (start tls scid dcid key writeKey initialMaxData initialMaxStreamData).Ordered := by
  refine ⟨isolated_onAck_iff, fun conn ops => ?_, ordered_start⟩
  have decided : ∀ (state : Except Fault (Connection κ ξ)) (op : DriverOp), IsOrdered state →
      ((IsOrdered (drive library packets state op) ∧ AcksApart state op) ↔ Orderly state op) := by
    intro state op ordered
    cases state with
    | ok conn => exact isOrdered_drive_iff ordered op
    | error fault =>
        refine iff_of_true ⟨?_, trivial⟩ trivial
        cases op with
        | conn op => exact ordered
        | retry data => exact ordered
  have orderly := fun initially : conn.Ordered =>
    @runAlways_and_runMeets_iff _ _ (drive library packets) _ _ _ IsOrdered
      (fun _ ordered => ordered) decided
      (fun state op ordered meets => ((decided state op ordered).mpr meets).1) (.ok conn) ops
      initially
  constructor
  · intro both
    have initially : conn.Ordered := (runAlways_iff_next.mp both.1).1
    exact ⟨initially, (orderly initially).mp both⟩
  · rintro ⟨initially, meets⟩
    exact (orderly initially).mpr meets

/-- A space with a key whose first packet, with the message in it, is out. -/
def awaitingAck (message : List Byte) : Space Unit where
  nextPn := 1
  sent := [⟨0, 0, message.length + 50, true, true, [.crypto 0 message]⟩]
  cryptoSend := message
  cryptoSent := message.length
  cryptoWritten := message.length
  key := some ()
  writeKey := some ()

/-- A client whose ClientHello of 64 bytes and whose Finished of 36 bytes are out,
and not acknowledged. -/
def bothInFlight : Connection Unit (List Byte) :=
  { Plain.connection with
    spaces := fun
      | .initial => awaitingAck (hsMessage HS_CLIENT_HELLO (List.replicate 60 0))
      | .handshake => awaitingAck Plain.finished
      | .application => {} }

/-- The acknowledgement of the Handshake packet counts in the Initial space, where
a probe then leaves less sent than is acknowledged. -/
theorem handshake_ack_counts_in_initial :
    bothInFlight.Ordered ∧
      ¬ Isolated .handshake bothInFlight (bothInFlight.onAck ⟨3, 100, 0⟩ .handshake 0 [(0, 0)]) ∧
      run (drive Plain.tls Plain.packets) (.ok bothInFlight)
          [.conn (.frame .handshake ⟨3, 100, 0⟩ (.ack 0 0 [(0, 0)] none)),
            .conn (.act (.probe ⟨4, 100, 0⟩)),
            .conn (.act (.flush ⟨5, 100, 0⟩ ⟨id, List.Perm.refl⟩))] =
        .error .cryptoOffset := by
  refine ⟨fun space => ?_, fun apart => ?_, rfl⟩
  · cases space with
    | initial => exact ⟨by decide, by decide⟩
    | handshake => exact ⟨by decide, by decide⟩
    | application => exact ⟨by decide, by decide⟩
  · have kept : 36 = 0 := (apart .initial (by decide)).cryptoAcked
    cases kept

end Connection

end Corduit.Protocol.Quic
