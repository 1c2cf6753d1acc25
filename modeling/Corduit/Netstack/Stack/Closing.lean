import Corduit.Netstack.Stack.Core

/-!
# The FIN and its sequence number

One connection with everything that is sent on it: the calls made on the
connection, the actions these calls return until they are carried out, and the
reads of its reader thread, in any order.  Each call, each action carried out
and each read is one step.

A FIN is sent with sequence number `snd_nxt`, but `snd_nxt` does not move over
it.  So the client's acknowledgement of the FIN is never a valid one, and the
next byte of data is sent under the number of the FIN.
-/

namespace Corduit.Netstack.Stack

open Netstack.Tcp Transition Word

/-- The reader thread of a connection.  With a segment size of zero it never
leaves the loop that cuts what it has read. -/
inductive Reader where
  | waiting
  | reading
  | stuck
  | finished
  deriving DecidableEq, Repr

/-- A connection, the actions still to be carried out on it and its reader. -/
structure Endpoint where
  conn : TcpConnection
  tun : TunTx
  pending : List TcpAction
  reader : Reader

/-- What can happen to a connection. -/
inductive EndpointOp where
  | call (op : Op)
  | execute (index : Nat)
  | retransmittedSyn
  | connect
  | read (data : List Byte)
  | finish
  | hangUp

/-- The action that a call returns to its caller. -/
def returned (conn : TcpConnection) : Op → List TcpAction
  | .process now seg payload => [(conn.process now seg payload).2]
  | .processData seq data => [(conn.processData seq data).2]
  | .close => [conn.close.2]
  | _ => []

namespace Endpoint

/-- A connection just opened. -/
def start (opening : TcpConnection.Opening) (tun : TunTx) : Endpoint where
  conn := .opened opening
  tun := tun
  pending := []
  reader := .waiting

/-- Segments on this connection reach the tunnel. -/
def reachesClient (endpoint : Endpoint) : Bool :=
  reaches endpoint.tun endpoint.conn.key.dst.ip endpoint.conn.key.src.ip

/-- What the reader thread does with one read. -/
def readData (endpoint : Endpoint) (data : List Byte) : Endpoint × List Segment :=
  if endpoint.reader = .reading ∧ ReadSize data then
    let advanced := endpoint.conn.advanceSndNxt (BitVec.ofNat 32 data.length)
    if effectiveMss endpoint.conn = 0 then
      ({ endpoint with conn := advanced, reader := .stuck }, [])
    else
      ({ endpoint with conn := advanced },
        sendBatch endpoint.tun (readerPackets endpoint.conn data))
  else
    (endpoint, [])

/-- One step, and the segments it sends. -/
def act (endpoint : Endpoint) : EndpointOp → Endpoint × List Segment
  | .call op =>
      ({ endpoint with
         conn := endpoint.conn.perform op
         pending := endpoint.pending ++ returned endpoint.conn op }, [])
  | .execute index =>
      match endpoint.pending[index]? with
      | none => (endpoint, [])
      | some action =>
          let executed := executeTcpAction endpoint.tun endpoint.conn action
          ({ endpoint with
             conn := executed.conn
             pending := endpoint.pending.eraseIdx index }, executed.segments)
  | .retransmittedSyn =>
      (endpoint, transmit endpoint.tun (synAckSegment endpoint.conn))
  | .connect =>
      (if endpoint.reader = .waiting then { endpoint with reader := .reading } else endpoint, [])
  | .read data => endpoint.readData data
  | .finish =>
      if endpoint.reader = .reading then
        ({ endpoint with reader := .finished },
          transmit endpoint.tun (finSegment endpoint.conn))
      else
        (endpoint, [])
  | .hangUp =>
      (if endpoint.tun = .listening then { endpoint with tun := .closed } else endpoint, [])

/-- The state behind an operation. -/
def step (endpoint : Endpoint) (op : EndpointOp) : Endpoint :=
  (endpoint.act op).1

/-- The segments that a step sends. -/
def emits (endpoint : Endpoint) (op : EndpointOp) : List Segment :=
  (endpoint.act op).2

/-- Everything sent along a schedule. -/
def emitted : Endpoint → List EndpointOp → List Segment
  | _, [] => []
  | endpoint, op :: ops => endpoint.emits op ++ emitted (endpoint.step op) ops

/-- The segment carries a payload byte with this sequence number. -/
def Carries (seg : Segment) (seq : SeqNum) : Prop :=
  ∃ index < seg.payload.length, seg.seq + BitVec.ofNat 32 index = seq

instance (seg : Segment) (seq : SeqNum) : Decidable (Carries seg seq) :=
  inferInstanceAs (Decidable (∃ index < seg.payload.length, _))

/-- An acknowledgement of the FIN numbered `seq` is valid and completes the
close handshake. -/
structure Acknowledgeable (conn : TcpConnection) (seq : SeqNum) : Prop where
  valid : conn.validAck (seq + 1) = true
  completes : ∀ now info payload, info.flags.ack = true → info.flags.rst = false →
    info.ack = seq + 1 →
    let result := conn.process now info payload
    (conn.state = .lastAck → result.1.state = .closed ∧ result.2 = .close) ∧
    (conn.state = .finWait1 → result.1.state = .finWait2 ∨ result.1.state = .timeWait) ∧
    (conn.state = .closing → result.1.state = .timeWait)

/-- Every FIN of the run can be acknowledged as soon as it is sent, and no byte
sent after it has its sequence number. -/
def FinsOccupyOne : Endpoint → List EndpointOp → Prop
  | _, [] => True
  | endpoint, op :: ops =>
      (∀ fin ∈ endpoint.emits op, fin.flags.fin = true →
        Acknowledgeable (endpoint.step op).conn fin.seq ∧
        ∀ seg ∈ emitted (endpoint.step op) ops, ¬ Carries seg fin.seq) ∧
      FinsOccupyOne (endpoint.step op) ops

/-- The step carries out `SendFin` or `SendFinAck`, or ends the reader thread,
and its segment reaches the tunnel. -/
def SendsFin (endpoint : Endpoint) : EndpointOp → Prop
  | .execute index =>
      (endpoint.pending[index]? = some .sendFin ∨ endpoint.pending[index]? = some .sendFinAck) ∧
        endpoint.reachesClient = true
  | .finish => endpoint.reader = .reading ∧ endpoint.reachesClient = true
  | _ => False

/-- A number past `snd_nxt` is never acknowledged. -/
theorem validAck_past (conn : TcpConnection) : conn.validAck (conn.sndNxt + 1) = false := by
  unfold TcpConnection.validAck
  have una := conn.sndUna.isLt
  have nxt := conn.sndNxt.isLt
  split
  · rename_i ordered
    rw [BitVec.le_def] at ordered
    simp only [Bool.and_eq_false_iff, decide_eq_false_iff_not, BitVec.lt_def, BitVec.le_def,
      BitVec.toNat_add, BitVec.ofNat_eq_ofNat, BitVec.toNat_ofNat]
    omega
  · rename_i wrapped
    rw [BitVec.le_def] at wrapped
    simp only [Bool.or_eq_false_iff, decide_eq_false_iff_not, BitVec.lt_def, BitVec.le_def,
      BitVec.toNat_add, BitVec.ofNat_eq_ofNat, BitVec.toNat_ofNat]
    omega

@[simp]
theorem sndNxt_close (conn : TcpConnection) : conn.close.1.sndNxt = conn.sndNxt := by
  unfold TcpConnection.close
  split <;> rfl

theorem mem_segments_sendOn {tun : TunTx} {seg other : Segment} {sent failed : TcpConnection} :
    other ∈ (sendOn tun seg sent failed).segments ↔
      reaches tun seg.src.ip seg.dst.ip = true ∧ other = seg := by
  rw [segments_sendOn]
  exact mem_transmit

theorem fin_executeTcpAction {tun : TunTx} {conn : TcpConnection} {action : TcpAction}
    {fin : Segment} (member : fin ∈ (executeTcpAction tun conn action).segments)
    (isFin : fin.flags.fin = true) :
    (action = .sendFin ∨ action = .sendFinAck) ∧
      reaches tun conn.key.dst.ip conn.key.src.ip = true ∧
      fin.seq = (executeTcpAction tun conn action).conn.sndNxt := by
  cases action with
  | none => cases member
  | established => cases member
  | close => cases member
  | sendAck =>
      rcases mem_segments_sendOn.mp member with ⟨_, rfl⟩
      cases isFin
  | sendRst =>
      rcases mem_segments_sendOn.mp member with ⟨_, rfl⟩
      cases isFin
  | sendData data =>
      rcases mem_segments_sendOn.mp member with ⟨_, rfl⟩
      cases isFin
  | sendFin =>
      rcases mem_segments_sendOn.mp member with ⟨out, rfl⟩
      refine ⟨Or.inl rfl, out, ?_⟩
      rw [executeTcpAction, conn_sendOn, ite_self]
      rfl
  | sendFinAck =>
      rcases mem_segments_sendOn.mp member with ⟨out, rfl⟩
      refine ⟨Or.inr rfl, out, ?_⟩
      rw [executeTcpAction, conn_sendOn, if_pos out, sndNxt_close]
      rfl

/-- A FIN is sent by the steps that send one, under the `snd_nxt` they leave. -/
theorem fin_emits {endpoint : Endpoint} {op : EndpointOp} {fin : Segment}
    (member : fin ∈ endpoint.emits op) (isFin : fin.flags.fin = true) :
    endpoint.SendsFin op ∧ fin.seq = (endpoint.step op).conn.sndNxt := by
  cases op with
  | call op => cases member
  | connect => cases member
  | hangUp => cases member
  | retransmittedSyn =>
      rcases mem_transmit.mp member with ⟨_, rfl⟩
      cases isFin
  | execute index =>
      simp only [emits, step, act, SendsFin] at member ⊢
      cases pending : endpoint.pending[index]? with
      | none => simp [pending] at member
      | some action =>
          simp only [pending] at member ⊢
          rcases fin_executeTcpAction member isFin with ⟨kind, out, seq_eq⟩
          exact ⟨⟨by simpa using kind, out⟩, seq_eq⟩
  | read data =>
      simp only [emits, act, readData] at member
      split at member
      · split at member
        · cases member
        · unfold sendBatch at member
          split at member
          · rw [fin_readerPackets endpoint.conn data fin member] at isFin
            cases isFin
          · cases member
      · cases member
  | finish =>
      simp only [emits, step, act, SendsFin] at member ⊢
      split at member
      · rename_i reading
        rcases mem_transmit.mp member with ⟨out, rfl⟩
        rw [if_pos reading]
        exact ⟨⟨reading, out⟩, rfl⟩
      · cases member

/-- The steps that send a FIN do send one. -/
theorem SendsFin.emits {endpoint : Endpoint} {op : EndpointOp} (sends : endpoint.SendsFin op) :
    finSegment endpoint.conn ∈ endpoint.emits op := by
  cases op with
  | execute index =>
      rcases sends with ⟨kind, out⟩
      simp only [Endpoint.emits, act]
      rcases kind with pending | pending
      · rw [pending]
        exact mem_segments_sendOn.mpr ⟨out, rfl⟩
      · rw [pending]
        exact mem_segments_sendOn.mpr ⟨out, rfl⟩
  | finish =>
      rcases sends with ⟨reading, out⟩
      simp only [Endpoint.emits, act, if_pos reading]
      exact mem_transmit.mpr ⟨out, rfl⟩
  | call op => exact sends.elim
  | connect => exact sends.elim
  | hangUp => exact sends.elim
  | retransmittedSyn => exact sends.elim
  | read data => exact sends.elim

/-- The FINs of a run occupy one sequence number each only if there are none:
the acknowledgement of any FIN is refused by `valid_ack`. -/
theorem finsOccupyOne_iff_noFin (opening : TcpConnection.Opening) (tun : TunTx)
    (ops : List EndpointOp) :
    FinsOccupyOne (start opening tun) ops ↔
      RunMeets step (fun endpoint op => ¬ endpoint.SendsFin op) (start opening tun) ops := by
  generalize start opening tun = endpoint
  induction ops generalizing endpoint with
  | nil => exact Iff.rfl
  | cons op ops ih =>
      refine and_congr ⟨fun answered sends => ?_, fun silent fin member isFin => ?_⟩ (ih _)
      · have member := sends.emits
        have seq_eq := (fin_emits member rfl).2
        have valid := (answered _ member rfl).1.valid
        rw [seq_eq, validAck_past] at valid
        cases valid
      · exact absurd (fin_emits member isFin).1 silent

/-- The client's FIN is answered with `SendFinAck`, the proxy then delivers two
more bytes, and the client acknowledges the FIN. -/
def halfCloseRun : List EndpointOp :=
  [.call (.process 1 (TcpConnection.sampleSegment 101 .ackOnly) []), .execute 0,
    .call (.setProxyTx true), .connect,
    .call (.process 2 (TcpConnection.sampleSegment 101 .finAck) []), .execute 0,
    .read [0x68, 0x69],
    .call (.process 3 { TcpConnection.sampleSegment 102 .ackOnly with ack := 9 } [])]

/-- The FIN and the first byte after it are both sent as number 8, and the
number 9 that acknowledges the FIN is not valid when it has been sent. -/
theorem data_sent_as_fin :
    let endpoint := start (.sample 100 {}) .listening
    let closing := run step endpoint (halfCloseRun.take 6)
    ((emitted endpoint halfCloseRun).map fun seg => (seg.seq, seg.flags, seg.payload)) =
      [(8, .finAck, []), (8, .pshAck, [0x68, 0x69])] ∧
    closing.conn.state = .lastAck ∧ closing.conn.validAck 9 = false ∧
    (closing.conn.process 3 { TcpConnection.sampleSegment 102 .ackOnly with ack := 9 } []).1.state =
      .lastAck ∧
    ¬ FinsOccupyOne endpoint halfCloseRun := by
  refine ⟨by decide, by decide, by decide, by decide, fun answered => ?_⟩
  have sends : (run step (start (.sample 100 {}) .listening) (halfCloseRun.take 5)).SendsFin
      (.execute 0) := ⟨Or.inr (by decide), by decide⟩
  rcases answered.2.2.2.2.2.1 _ sends.emits rfl with ⟨acknowledgeable, _⟩
  exact absurd acknowledgeable.valid (by decide)

end Endpoint

end Corduit.Netstack.Stack
