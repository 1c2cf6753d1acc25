import Corduit.Netstack.Stack.Tracking

/-!
# Answering a SYN again

A SYN of a connection that is tracked already is answered from the live
`snd_nxt` and `rcv_nxt`.  In every reachable state these are the numbers of the
handshake moved by the bytes counted since, so the answer repeats the first
SYN-ACK exactly when nothing has been counted, up to whole turns of the
sequence space.
-/

namespace Corduit.Netstack.Stack

open Collection Netstack.Tcp Transition Word

/-- The connection has moved on from its handshake by what it has counted. -/
def Cell.Sequenced (cell : Cell) : Prop :=
  cell.conn.counters.Since cell.opening cell.fins

namespace Cell.Sequenced

variable {cell : Cell}

variable (sequenced : cell.Sequenced)

include sequenced

theorem onConn {update : TcpConnection → TcpConnection}
    (same : (update cell.conn).counters = cell.conn.counters) :
    (cell.onConn update).Sequenced := by
  unfold Sequenced Cell.onConn
  rw [same]
  exact sequenced

theorem advance (len : BitVec 32) :
    (cell.onConn fun conn => conn.advanceSndNxt len).Sequenced := by
  unfold Sequenced Cell.onConn
  rw [TcpConnection.counters_advanceSndNxt]
  exact Counters.Since.send sequenced len

theorem processBy (arrival : Arrival) :
    (arrival.processBy cell).Sequenced := by
  obtain ⟨count, eq⟩ :=
    cell.conn.counters_process arrival.now arrival.info arrival.payload
  unfold Sequenced Arrival.processBy
  rw [eq]
  exact Counters.Since.receive sequenced count _

theorem execute (tun : TunTx) (action : TcpAction) :
    (cell.onConn fun _ => (executeTcpAction tun cell.conn action).conn).Sequenced := by
  cases action with
  | sendData data =>
      have advanced := sequenced.advance (BitVec.ofNat 32 data.length)
      rw [executeTcpAction, conn_sendOn, ite_self]
      exact advanced
  | sendFinAck =>
      apply sequenced.onConn
      rw [executeTcpAction, conn_sendOn]
      split
      · exact cell.conn.counters_close
      · rfl
  | none => exact sequenced.onConn rfl
  | established => exact sequenced.onConn rfl
  | close => exact sequenced.onConn rfl
  | sendAck => exact sequenced.onConn (by rw [executeTcpAction, conn_sendOn, ite_self])
  | sendFin => exact sequenced.onConn (by rw [executeTcpAction, conn_sendOn, ite_self])
  | sendRst => exact sequenced.onConn (by rw [executeTcpAction, conn_sendOn, ite_self])

end Cell.Sequenced

theorem counters_attachProxy (outcome : DialOutcome) (conn : TcpConnection) :
    (SolidStack.attachProxy outcome conn).counters = conn.counters := by
  cases outcome with
  | noWriter =>
      apply (TcpConnection.dropReceiver_frame _ _).counters_eq.trans
      apply (TcpConnection.dropWriter_frame _ _).counters_eq.trans
      exact conn.counters_setProxyTx true
  | failed => exact conn.counters_setProxyTx true
  | noReader => exact conn.counters_setProxyTx true
  | connected => exact conn.counters_setProxyTx true

theorem counters_byWriter {op : Op} (isWriter : byWriter op = true) (conn : TcpConnection) :
    (conn.perform op).counters = conn.counters := by
  cases op with
  | receive index => exact (conn.receive_frame index).counters_eq
  | take index => exact (conn.take_frame index).counters_eq
  | written index => exact (conn.written_frame index).counters_eq
  | dropWriter index => exact (conn.dropWriter_frame index).counters_eq
  | dropReceiver index => exact (conn.dropReceiver_frame index).counters_eq
  | setWebsocket isWs => exact conn.counters_setWebsocket isWs
  | _ => cases isWriter

namespace SolidStack

/-- Every cell counts its bytes. -/
def AllSequenced (stack : SolidStack) : Prop :=
  ∀ cell ∈ stack.cells, cell.Sequenced

section

variable {stack : SolidStack} (all : stack.AllSequenced)

include all

theorem AllSequenced.onConn (id : Nat) {update : TcpConnection → TcpConnection}
    (same : ∀ conn, (update conn).counters = conn.counters) :
    (stack.onConn id update).AllSequenced :=
  forall_mem_modify all fun cell _ sequenced => sequenced.onConn (same cell.conn)

theorem AllSequenced.accept (arrival : Arrival) :
    (stack.accept arrival).1.AllSequenced := by
  intro cell member
  rw [cells_accept] at member
  rcases List.mem_append.mp member with earlier | last
  · exact all cell earlier
  · rw [List.mem_singleton.mp last]
    exact Counters.Since.opened _

theorem AllSequenced.execute :
    stack.execute.1.AllSequenced := by
  unfold SolidStack.execute
  split
  · exact all
  · split
    · exact all
    · rename_i cell located
      apply forall_mem_modify all
      intro other otherAt sequenced
      obtain rfl : cell = other := Option.some.inj (located.symm.trans otherAt)
      exact sequenced.execute stack.tun _

theorem AllSequenced.dial (index : Nat) (flow : Flow) (outcome : DialOutcome) :
    (stack.dial index flow outcome).AllSequenced := by
  cases outcome with
  | failed => exact all
  | _ => exact all.onConn flow.cell (counters_attachProxy _)

theorem AllSequenced.readFlow (index : Nat) (flow : Flow) (data : List Byte) :
    (stack.readFlow index flow data).1.AllSequenced := by
  have advanced : (stack.onConn flow.cell fun conn =>
      conn.advanceSndNxt (BitVec.ofNat 32 data.length)).AllSequenced :=
    forall_mem_modify all fun cell _ sequenced => sequenced.advance _
  unfold SolidStack.readFlow
  split
  · exact all
  · dsimp only
    split <;> exact advanced

theorem AllSequenced.packet (arrival : Arrival) :
    (stack.handleTcpPacket arrival).1.AllSequenced := by
  unfold handleTcpPacket
  split
  · unfold handleTcpSyn
    split
    · exact all
    · split
      · exact all
      · split
        · exact all
        · exact all.accept arrival
  · split
    · unfold SolidStack.process
      split
      · exact all
      · exact forall_mem_modify all fun cell _ sequenced => sequenced.processBy arrival
    · split <;> exact all

theorem AllSequenced.step (op : StackOp) :
    (stack.step op).AllSequenced := by
  unfold SolidStack.step
  cases op with
  | packet arrival =>
      simp only [act]
      split
      · exact all
      · exact all.packet arrival
  | execute => exact all.execute
  | dial index outcome =>
      simp only [act]
      split
      · exact all
      · exact all.dial index _ outcome
  | read index data =>
      simp only [act]
      split
      · exact all
      · split
        · exact all.readFlow index _ data
        · exact all
  | finish index =>
      simp only [act, finishFlow]
      split
      · exact all
      · split <;> exact all
  | remove index =>
      simp only [act]
      split <;> exact all
  | writer id op =>
      simp only [act]
      split
      · rename_i isWriter
        exact all.onConn id (counters_byWriter isWriter)
      · exact all
  | collect now => exact all
  | evict =>
      simp only [act, SolidStack.evict]
      split <;> exact all
  | hangUp =>
      simp only [act]
      split <;> exact all

end

theorem allSequenced_run (config : TcpConfig) (tun : TunTx) (ops : List StackOp) :
    (run SolidStack.step (start config tun) ops).AllSequenced :=
  run_invariant AllSequenced (fun _ op all => all.step op) (by simp [AllSequenced, start]) ops

/-- The answer has the numbers of the first SYN-ACK of the connection. -/
def Repeats (seg : Segment) (opening : TcpConnection.Opening) : Prop :=
  seg.seq = (synAckSegment (.opened opening)).seq ∧
    seg.ack = (synAckSegment (.opened opening)).ack

theorem repeats_iff {seg : Segment} {opening : TcpConnection.Opening} :
    Repeats seg opening ↔ seg.seq = opening.iss ∧ seg.ack = opening.theirSeq + 1 := by
  simp [Repeats, synAckSegment, reply, TcpConnection.opened, TcpConnection.newPassive]

theorem ofNat_eq_zero_iff (count : Nat) : BitVec.ofNat 32 count = 0 ↔ 2 ^ 32 ∣ count := by
  rw [Nat.dvd_iff_mod_eq_zero, ← BitVec.toNat_inj]
  simp

theorem add_one_add_sub_one_eq (start moved : SeqNum) :
    start + 1 + moved - 1 = start ↔ moved = 0 := by
  constructor
  · intro same
    bv_omega
  · rintro rfl
    bv_omega

/-- In every reachable state, a further SYN of a tracked connection is answered
with the numbers of the first SYN-ACK exactly when the bytes sent, and the
bytes and FINs received, come to whole turns of the sequence space. -/
theorem reanswer_repeats_iff (config : TcpConfig) (tun : TunTx) (ops : List StackOp)
    (arrival : Arrival) (id : Nat) (cell : Cell) :
    let stack := run SolidStack.step (start config tun) ops
    stack.job = none → arrival.isSyn = true →
    stack.connections.lookup arrival.key = some id → stack.cells[id]? = some cell →
    ∃ seg, (stack.act (.packet arrival)).2 = transmit stack.tun seg ∧ seg.flags = .synAck ∧
      seg.src = arrival.key.dst ∧ seg.dst = arrival.key.src ∧
      (Repeats seg cell.opening ↔
        2 ^ 32 ∣ cell.conn.bytesTx ∧ 2 ^ 32 ∣ cell.conn.bytesRx + cell.fins) := by
  intro stack idle syn tracked located
  rcases (named_run config tun ops).tracked arrival.key id tracked with ⟨other, otherAt, key_eq⟩
  obtain rfl : cell = other := Option.some.inj (located.symm.trans otherAt)
  have sequenced : cell.conn.counters.Since cell.opening cell.fins :=
    allSequenced_run config tun ops cell (List.mem_of_getElem? located)
  have sent : cell.conn.sndNxt = _ := sequenced.sent
  have received : cell.conn.rcvNxt = _ := sequenced.received
  have key : cell.conn.key = arrival.key := sequenced.key.trans key_eq
  refine ⟨synAckSegment cell.conn, ?_, rfl, congrArg NatKey.dst key, congrArg NatKey.src key, ?_⟩
  · simp [act, idle, handleTcpPacket, syn, handleTcpSyn, tracked, reanswer, located]
  · rw [repeats_iff, ← ofNat_eq_zero_iff, ← ofNat_eq_zero_iff]
    simp only [synAckSegment, reply, sent, received]
    exact and_congr (add_one_add_sub_one_eq _ _) BitVec.add_right_eq_self

/-- A SYN that is repeated before anything else has happened gets the first
answer again. -/
theorem reanswer_repeats_at_once :
    let stack := run SolidStack.step (start {} .listening) [.packet (.sample .synOnly 7)]
    ∃ seg cell, (stack.act (.packet (.sample .synOnly 9))).2 = transmit .listening seg ∧
      stack.cells[0]? = some cell ∧ Repeats seg cell.opening := by
  obtain ⟨seg, answered, _, _, _, exactly⟩ := reanswer_repeats_iff {} .listening
    [.packet (.sample .synOnly 7)] (.sample .synOnly 9) 0 _ (by decide) (by decide) (by decide) rfl
  exact ⟨seg, _, answered, rfl, exactly.mpr (by decide)⟩

/-- A connection whose proxy has delivered three bytes. -/
def deliveringRun : List StackOp :=
  [.packet (.sample .synOnly 7), .dial 0 .connected, .read 0 [0x61, 0x62, 0x63]]

/-- The SYN was answered with number 7; repeated after three bytes, it is
answered with number 10. -/
theorem reanswer_moves_with_data :
    let stack := run SolidStack.step (start {} .listening) deliveringRun
    stack.connections.lookup (Arrival.sample .synOnly 9).key = some 0 ∧
    ((start {} .listening).act (.packet (.sample .synOnly 7))).2.map
      (fun seg => (seg.flags, seg.seq, seg.ack)) = [(.synAck, 7, 101)] ∧
    (stack.act (.packet (.sample .synOnly 9))).2.map
      (fun seg => (seg.flags, seg.seq, seg.ack)) = [(.synAck, 10, 101)] := by
  decide

end SolidStack

end Corduit.Netstack.Stack
