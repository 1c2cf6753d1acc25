import Corduit.Protocol.Quic.Connection.Effects

/-!
# Runs of connections

A connection takes one step at a time: a frame of a packet that was opened, the
note of a packet number, a connection id that is taken over, a Retry, or an
operation of the application or a timer.  A datagram is a sequence of such
steps, so what holds of every run of steps holds while datagrams arrive.
-/

namespace Corduit.Protocol.Quic

open Collection Transition Word

/-- The steps of a connection, without a Retry. -/
inductive ConnOp where
  | frame (space : PnSpace) (clock : Clock) (frame : Frame)
  | note (space : PnSpace) (pn : Nat)
  | adopt (parsed : ParsedPacket)
  | act (op : LocalOp)

/-- All steps of a connection. -/
inductive DriverOp where
  | conn (op : ConnOp)
  | retry (data : List Byte)

namespace Connection

variable {κ ξ : Type} (library : TlsLibrary κ ξ) (packets : PacketLibrary κ)

/-- The driver closes the connection after an error. -/
def settle : Except QuicError Unit × Connection κ ξ → Connection κ ξ
  | (.ok (), conn) => conn
  | (.error error, conn) => conn.processFatal error

/-- The connection after a step. -/
def perform (conn : Connection κ ξ) : ConnOp → Except Fault (Connection κ ξ)
  | .frame space clock frame => (conn.processFrame library clock space frame).map settle
  | .note space pn =>
      .ok (if conn.closed.isNone then conn.updateSpace space (·.noteReceived pn) else conn)
  | .adopt parsed => .ok (conn.adoptScid parsed)
  | .act op => conn.act packets op

/-- Steps one after the other; nothing follows a panic. -/
def advance (state : Except Fault (Connection κ ξ)) (op : ConnOp) : Except Fault (Connection κ ξ) :=
  state.bind fun conn => conn.perform library packets op

/-- A step, unless the program has stopped. -/
def drive (state : Except Fault (Connection κ ξ)) : DriverOp → Except Fault (Connection κ ξ)
  | .conn op => advance library packets state op
  | .retry data => state.map fun conn => settle (conn.processRetry packets data)

variable {library packets} {clock : Clock} {space : PnSpace} {conn : Connection κ ξ}
  {data : List Byte}

theorem spaces_settle (outcome : Except QuicError Unit × Connection κ ξ) :
    (settle outcome).spaces = outcome.2.spaces := by
  rcases outcome with ⟨result, conn⟩
  cases result with
  | ok => rfl
  | error error => exact spaces_processFatal conn error

theorem receive_eq_settle :
    conn.receive library packets clock data =
      (conn.processInbound library packets clock data).map settle := by
  unfold receive
  cases conn.processInbound library packets clock data with
  | error fault => rfl
  | ok outcome =>
      rcases outcome with ⟨outcome, middle⟩
      cases outcome with
      | error error => rfl
      | ok => rfl

/-- The frames of a payload are steps, and its number is noted behind them. -/
theorem exists_run_eq_frames (bound : Nat) (plain : List Byte) (pn : Nat) :
    ∃ ops, run (advance library packets) (.ok conn) ops =
      ((conn.processFrames library packets clock space bound plain).map
        (noteNumber space pn)).map settle := by
  induction bound generalizing plain conn with
  | zero => exact ⟨[.note space pn], rfl⟩
  | succ bound ih =>
      rw [processFrames]
      by_cases done : plain.isEmpty = true
      · rw [if_pos done]
        exact ⟨[.note space pn], rfl⟩
      · rw [if_neg done]
        cases packets.decodeFrame plain with
        | error message => exact ⟨[.act (.close (.protocol message))], rfl⟩
        | ok found =>
            rcases found with ⟨frame, used⟩
            dsimp only
            have first : ∀ ops, run (advance library packets) (.ok conn)
                (.frame space clock frame :: ops) = run (advance library packets)
                  ((conn.processFrame library clock space frame).map settle) ops := fun _ => rfl
            cases processed : conn.processFrame library clock space frame with
            | error fault =>
                rw [processed] at first
                exact ⟨[.frame space clock frame], first []⟩
            | ok outcome =>
                rcases outcome with ⟨outcome, middle⟩
                rw [processed] at first
                cases outcome with
                | error error => exact ⟨[.frame space clock frame], first []⟩
                | ok =>
                    rcases @ih middle (plain.drop used) with ⟨ops, reached⟩
                    exact ⟨.frame space clock frame :: ops, (first ops).trans reached⟩

theorem run_drive_map (state : Except Fault (Connection κ ξ)) (ops : List ConnOp) :
    run (drive library packets) state (ops.map .conn) = run (advance library packets) state ops := by
  induction ops generalizing state with
  | nil => rfl
  | cons op ops ih => exact ih _

/-- A datagram is a sequence of steps. -/
theorem exists_run_eq_receive (library : TlsLibrary κ ξ) (packets : PacketLibrary κ) (clock : Clock)
    (conn : Connection κ ξ) (data : List Byte) :
    ∃ ops, run (drive library packets) (.ok conn) ops =
      conn.receive library packets clock data := by
  rw [receive_eq_settle]
  unfold processInbound
  cases conn.classify packets data with
  | dropped => exact ⟨[], rfl⟩
  | versionNegotiation =>
      exact ⟨[.conn (.act (.close (.protocol "server sent a version-negotiation packet")))], rfl⟩
  | retry => exact ⟨[.retry data], rfl⟩
  | packet space pnOffset long =>
      dsimp only
      unfold processPacket
      cases conn.unwrap packets data space pnOffset long with
      | none => exact ⟨[], rfl⟩
      | some packet =>
          dsimp only
          by_cases old : conn.stale space packet.parsed.packetNumber = true
          · rw [if_pos old]
            exact ⟨[], rfl⟩
          · rw [if_neg old]
            cases packets.openPayload packet.key packet.parsed.packetNumber packet.header
                packet.payload with
            | none => exact ⟨[.conn (.adopt packet.parsed)], rfl⟩
            | some plain =>
                rcases @exists_run_eq_frames _ _ library packets clock space
                  (conn.adoptScid packet.parsed) plain.length plain packet.parsed.packetNumber
                  with ⟨ops, reached⟩
                refine ⟨.conn (.adopt packet.parsed) :: ops.map .conn, ?_⟩
                exact (run_drive_map _ ops).trans reached

end Connection

/-!
# The steps of a call

A call that builds packets goes through the spaces, and in each of them through
an acknowledgement and rounds.  A condition on these steps is met by a call when
every step that the call takes meets it in the state that the step begins in.
-/

variable {κ ξ : Type}

/-- A condition on the steps of a call: the space, the size of a datagram and the
state in which an acknowledgement or a round begins. -/
structure StepCondition (κ ξ : Type) where
  ack : PnSpace → Nat → Outbound κ ξ → Prop
  round : PnSpace → Nat → Outbound κ ξ → Prop

namespace Outbound

variable (packets : PacketLibrary κ) (clock : Clock) (order : Order)
  (condition : StepCondition κ ξ)

/-- The rounds of a space meet the condition. -/
def RoundsMeet (space : PnSpace) (maxDatagram : Nat) : (bound : Nat) → Outbound κ ξ → Prop
  | 0, _ => True
  | bound + 1, building =>
      condition.round space maxDatagram building ∧
        ∀ next, building.round packets clock order space maxDatagram = .ok (true, next) →
          RoundsMeet space maxDatagram bound next

/-- The packets of a space meet the condition. -/
def FillMeets (maxDatagram : Nat) (building : Outbound κ ξ) (space : PnSpace) : Prop :=
  (building.conn.spaces space).writeKey.isNone = false →
    condition.ack space maxDatagram building ∧
      RoundsMeet packets clock order condition space maxDatagram
        (33 + building.conn.datagramTx.length)
        (building.sendAck packets clock space maxDatagram)

/-- The packets of all spaces meet the condition. -/
def SpacesMeet (maxDatagram : Nat) : List PnSpace → Outbound κ ξ → Prop
  | [], _ => True
  | space :: spaces, building =>
      FillMeets packets clock order condition maxDatagram building space ∧
        ∀ next, building.fill packets clock order maxDatagram space = .ok next →
          SpacesMeet maxDatagram spaces next

end Outbound

/-- Every step of a call meets the condition. -/
def Connection.CallMeets (packets : PacketLibrary κ) (clock : Clock) (order : Order)
    (condition : StepCondition κ ξ) (conn : Connection κ ξ) : Prop :=
  conn.closed.isSome = false →
    Outbound.SpacesMeet packets clock order condition
      (min conn.peerMaxUdpPayload MAX_UDP_PAYLOAD) [.initial, .handshake, .application]
      { conn := conn, out := [] }

namespace Outbound

variable {packets : PacketLibrary κ} {clock : Clock} {order : Order}
  {first second : StepCondition κ ξ} {maxDatagram : Nat} {building building' : Outbound κ ξ}

section Agreement

variable (invariant : Outbound κ ξ → Prop)
  (acks : ∀ space maxDatagram before, invariant before →
    invariant (before.sendAck packets clock space maxDatagram))
  (step : ∀ space maxDatagram before more after,
    before.round packets clock order space maxDatagram = .ok (more, after) →
      invariant before → invariant after)
  (ack_iff : ∀ space maxDatagram before, invariant before →
    (first.ack space maxDatagram before ↔ second.ack space maxDatagram before))
  (round_iff : ∀ space maxDatagram before, invariant before →
    (first.round space maxDatagram before ↔ second.round space maxDatagram before))

include step round_iff in
theorem roundsMeet_iff {space : PnSpace} (bound : Nat) (initially : invariant building) :
    RoundsMeet packets clock order first space maxDatagram bound building ↔
      RoundsMeet packets clock order second space maxDatagram bound building := by
  induction bound generalizing building with
  | zero => exact Iff.rfl
  | succ bound ih =>
      refine and_congr (round_iff space maxDatagram building initially) ?_
      exact forall_congr' fun next => imp_congr_right fun rounded =>
        ih (step space maxDatagram building true next rounded initially)

include acks step ack_iff round_iff in
theorem spacesMeet_iff (spaces : List PnSpace) (initially : invariant building) :
    SpacesMeet packets clock order first maxDatagram spaces building ↔
      SpacesMeet packets clock order second maxDatagram spaces building := by
  induction spaces generalizing building with
  | nil => exact Iff.rfl
  | cons space spaces ih =>
      refine and_congr ?_ ?_
      · exact imp_congr_right fun _ => and_congr (ack_iff space maxDatagram building initially)
          (roundsMeet_iff invariant step round_iff _ (acks space maxDatagram building initially))
      · exact forall_congr' fun next => imp_congr_right fun filled =>
          ih (fill_invariant invariant (acks space maxDatagram)
            (step space maxDatagram) filled initially)

include acks step ack_iff round_iff in
theorem callMeets_iff {conn : Connection κ ξ} (initially : invariant { conn := conn, out := [] }) :
    conn.CallMeets packets clock order first ↔ conn.CallMeets packets clock order second :=
  imp_congr_right fun _ => spacesMeet_iff invariant acks step ack_iff round_iff _ initially

end Agreement

section Invariance

variable (invariant : Outbound κ ξ → Prop)
  (acks : ∀ space maxDatagram before, first.ack space maxDatagram before → invariant before →
    invariant (before.sendAck packets clock space maxDatagram))
  (step : ∀ space maxDatagram before more after, first.round space maxDatagram before →
    before.round packets clock order space maxDatagram = .ok (more, after) →
      invariant before → invariant after)

include step in
theorem rounds_of_roundsMeet {space : PnSpace} (bound : Nat)
    (meets : RoundsMeet packets clock order first space maxDatagram bound building)
    (rounded : building.rounds packets clock order space maxDatagram bound = .ok building')
    (initially : invariant building) : invariant building' := by
  induction bound generalizing building with
  | zero =>
      cases rounded
      exact initially
  | succ bound ih =>
      rw [rounds] at rounded
      cases once : building.round packets clock order space maxDatagram with
      | error fault =>
          rw [once] at rounded
          cases rounded
      | ok result =>
          rcases result with ⟨more, middle⟩
          rw [once] at rounded
          have here := step space maxDatagram building more middle meets.1 once initially
          cases more with
          | false =>
              cases rounded
              exact here
          | true => exact ih (meets.2 middle once) rounded here

include acks step in
theorem fill_of_fillMeets {space : PnSpace}
    (meets : FillMeets packets clock order first maxDatagram building space)
    (filled : building.fill packets clock order maxDatagram space = .ok building')
    (initially : invariant building) : invariant building' := by
  unfold fill at filled
  by_cases keyless : (building.conn.spaces space).writeKey.isNone = true
  · rw [if_pos keyless] at filled
    cases filled
    exact initially
  · rw [if_neg keyless] at filled
    have ⟨ack, rounds⟩ := meets (Bool.eq_false_iff.mpr keyless)
    exact rounds_of_roundsMeet invariant step _ rounds filled
      (acks space maxDatagram building ack initially)

include acks step in
/-- What the steps that meet the condition preserve, a call that meets it
preserves. -/
theorem buildOutbound_of_callMeets {conn : Connection κ ξ}
    (meets : conn.CallMeets packets clock order first)
    (built : conn.buildOutbound packets clock order = .ok building)
    (initially : invariant { conn := conn, out := [] }) : invariant building := by
  have filling : ∀ (spaces : List PnSpace) (before : Outbound κ ξ),
      SpacesMeet packets clock order first (min conn.peerMaxUdpPayload MAX_UDP_PAYLOAD) spaces
        before →
      spaces.foldlM (fill packets clock order (min conn.peerMaxUdpPayload MAX_UDP_PAYLOAD)) before =
        .ok building → invariant before → invariant building := by
    intro spaces
    induction spaces with
    | nil =>
        intro before _ filled holds
        cases filled
        exact holds
    | cons space spaces ih =>
        intro before meets filled holds
        rw [List.foldlM_cons] at filled
        rcases bind_eq_ok_iff.mp filled with ⟨middle, here, rest⟩
        exact ih middle (meets.2 middle here) rest
          (fill_of_fillMeets invariant acks step meets.1 here holds)
  unfold Connection.buildOutbound at built
  dsimp only at built
  by_cases closed : conn.closed.isSome = true
  · rw [if_pos closed] at built
    cases built
    exact initially
  · rw [if_neg closed] at built
    exact filling _ _ (meets (Bool.eq_false_iff.mpr closed)) built initially

end Invariance

end Outbound

end Corduit.Protocol.Quic
