import Corduit.Netstack.Tcp.Schedule

/-!
# Sequence numbers and byte counts

`snd_nxt` moves with `bytes_tx` and `rcv_nxt` with `bytes_rx`, except that
`rcv_nxt` also moves over the FIN of the peer.  Only the calls that send or
receive move them at all.
-/

namespace Corduit.Netstack.Tcp

open Transition Word

/-- The next numbers of both directions, with the bytes counted so far. -/
structure Counters where
  key : NatKey
  sndNxt : SeqNum
  bytesTx : Nat
  rcvNxt : SeqNum
  bytesRx : Nat

/-- `count` bytes of data and `fins` FINs are received. -/
def Counters.receive (counters : Counters) (count fins : Nat) : Counters :=
  { counters with
    rcvNxt := counters.rcvNxt + BitVec.ofNat 32 (count + fins)
    bytesRx := counters.bytesRx + count }

/-- `len` bytes of data are sent. -/
def Counters.send (counters : Counters) (len : BitVec 32) : Counters :=
  { counters with
    sndNxt := counters.sndNxt + len
    bytesTx := counters.bytesTx + len.toNat }

theorem Counters.receive_zero (counters : Counters) : counters.receive 0 0 = counters := by
  simp [receive]

theorem Counters.receive_receive (counters : Counters) (first second fins : Nat) :
    (counters.receive first 0).receive second fins = counters.receive (first + second) fins := by
  simp only [receive, Counters.mk.injEq, true_and]
  refine ⟨?_, Nat.add_assoc _ _ _⟩
  rw [BitVec.add_assoc, ← BitVec.ofNat_add, Nat.add_zero, Nat.add_assoc]

namespace TcpConnection

/-- What is counted. -/
def counters (conn : TcpConnection) : Counters where
  key := conn.key
  sndNxt := conn.sndNxt
  bytesTx := conn.bytesTx
  rcvNxt := conn.rcvNxt
  bytesRx := conn.bytesRx

theorem counters_advanceSndNxt (conn : TcpConnection) (len : BitVec 32) :
    (conn.advanceSndNxt len).counters = conn.counters.send len :=
  rfl

section

variable (conn : TcpConnection)

@[simp]
theorem counters_touch (now : Nat) :
    (conn.touch now).counters = conn.counters :=
  rfl

@[simp]
theorem counters_processAck (ack : SeqNum) :
    (conn.processAck ack).counters = conn.counters := by
  unfold processAck
  split <;> rfl

@[simp]
theorem counters_acknowledged (now : Nat) (seg : TcpInfo) :
    (conn.acknowledged now seg).counters = conn.counters := by
  unfold acknowledged
  split <;> simp

@[simp]
theorem counters_handOff (data : List Byte) :
    (conn.handOff data).counters = conn.counters := by
  unfold handOff channelSend
  dsimp only
  split
  · rename_i sent
    split at sent
    · cases sent
    · split at sent
      · obtain rfl := Option.some.inj sent
        rfl
      · cases sent
  · rfl

@[simp]
theorem counters_deliverToProxy (data : List Byte) :
    (conn.deliverToProxy data).counters = conn.counters := by
  unfold deliverToProxy
  split
  · rfl
  · split
    · rfl
    · exact conn.counters_handOff data

@[simp]
theorem counters_setProxyTx (receiverAlive : Bool) :
    (conn.setProxyTx receiverAlive).counters = conn.counters := by
  change (conn.attach receiverAlive).flushPending.counters = conn.counters
  unfold flushPending
  split
  · rfl
  · exact counters_handOff _ _

@[simp]
theorem counters_setWebsocket (isWs : Bool) :
    (conn.setWebsocket isWs).counters = conn.counters := by
  cases isWs <;> rfl

@[simp]
theorem counters_close : conn.close.1.counters = conn.counters := by
  unfold close
  split <;> rfl

end

theorem SameButProxy.counters_eq {conn conn' : TcpConnection} (same : SameButProxy conn conn') :
    conn'.counters = conn.counters := by
  rw [same]
  rfl

/-- The connection has received some bytes of data and nothing else. -/
def Received (conn conn' : TcpConnection) : Prop :=
  ∃ count, conn'.counters = conn.counters.receive count 0

theorem Received.of_eq {conn conn' : TcpConnection} (same : conn'.counters = conn.counters) :
    conn.Received conn' :=
  ⟨0, by rw [same, Counters.receive_zero]⟩

theorem Received.trans {first second third : TcpConnection} (before : first.Received second)
    (after : second.Received third) : first.Received third := by
  rcases before with ⟨count, eq⟩
  rcases after with ⟨more, eq'⟩
  exact ⟨count + more, by rw [eq', eq, Counters.receive_receive]⟩

theorem received_appendInOrder (conn : TcpConnection) (data : List Byte) :
    conn.Received (conn.appendInOrder data) :=
  ⟨data.length, rfl⟩

theorem received_tryDeliverOooSegments (conn : TcpConnection) :
    conn.Received conn.tryDeliverOooSegments := by
  refine drain_invariant conn.Received ?_ _ (.of_eq rfl)
  intro first second turn received
  rcases deliverNext_eq_some turn with ⟨segSeq, data, _, _, _, rfl⟩
  exact received.trans (received_appendInOrder (first.removeSegment segSeq data) _)

theorem received_acceptData (conn : TcpConnection) (newData : List Byte) :
    conn.Received (conn.acceptData newData) := by
  have gathered := (conn.received_appendInOrder newData).trans
    (received_tryDeliverOooSegments _)
  refine gathered.trans (.of_eq ?_)
  unfold acceptData
  dsimp only
  split
  · rfl
  · exact counters_deliverToProxy _ _

theorem received_processData (conn : TcpConnection) (seq : SeqNum) (data : List Byte) :
    conn.Received (conn.processData seq data).1 := by
  unfold processData
  split
  · exact .of_eq rfl
  split
  · exact .of_eq rfl
  dsimp only
  split
  · exact .of_eq rfl
  split
  · split
    · exact .of_eq rfl
    · exact received_acceptData { conn.updateRecvWindow with dupAckCount := 0 } data
  split
  · split
    · split
      · exact .of_eq rfl
      · exact received_acceptData conn.updateRecvWindow _
    · exact .of_eq rfl
  split
  · split
    · split <;> exact .of_eq rfl
    · exact .of_eq rfl
  · exact .of_eq rfl

/-- The segment is a FIN that moves `rcv_nxt` by one. -/
def countsFin (conn : TcpConnection) (seg : TcpInfo) : Bool :=
  seg.flags.fin && !seg.flags.rst &&
    decide (conn.state = .established ∨ conn.state = .finWait1 ∨ conn.state = .finWait2)

/-- The FINs that a segment adds to `rcv_nxt`. -/
def finCount (conn : TcpConnection) (seg : TcpInfo) : Nat :=
  if conn.countsFin seg then 1 else 0

section

variable {conn : TcpConnection} (now : Nat) {seg : TcpInfo} (payload : List Byte)

theorem counters_onEstablished :
    ∃ count, ((conn.touch now).onEstablished seg payload).1.counters =
      conn.counters.receive count (if seg.flags.fin then 1 else 0) := by
  rcases (conn.acknowledged now seg).received_processData seg.seq payload with ⟨count, eq⟩
  rw [counters_acknowledged, ← onPayload_fst] at eq
  refine ⟨count, ?_⟩
  unfold onEstablished
  dsimp only
  cases fin : seg.flags.fin with
  | true =>
      rw [if_pos rfl, if_pos rfl]
      have moved := congrArg (fun counters => counters.receive 0 1) eq
      rw [Counters.receive_receive, Nat.add_zero] at moved
      exact moved
  | false =>
      simp only [Bool.false_eq_true, if_false]
      rw [← eq]
      split <;> rfl

theorem counters_process_of_ne (outside : conn.state ≠ .established ∨ seg.flags.rst = true) :
    (conn.process now seg payload).1.counters = conn.counters.receive 0 (conn.finCount seg) := by
  unfold process finCount countsFin
  by_cases reset : seg.flags.rst = true
  · simp only [reset, if_true, Bool.not_true, Bool.and_false, Bool.false_and,
      Bool.false_eq_true, if_false, Counters.receive_zero]
    rfl
  have elsewhere := outside.resolve_right reset
  simp only [reset, Bool.false_eq_true, if_false, state_touch, Bool.not_false, Bool.and_true]
  cases state_eq : conn.state with
  | established => exact absurd state_eq elsewhere
  | finWait1 =>
      simp only [onFinWait1]
      cases fin : seg.flags.fin with
      | true => split <;> rfl
      | false => split <;> simp [Counters.receive_zero, counters, touch]
  | finWait2 =>
      simp only [onFinWait2]
      cases fin : seg.flags.fin with
      | true => rfl
      | false => simp [Counters.receive_zero]
  | synReceived =>
      simp only [onSynRecv]
      split <;> simp [Counters.receive_zero, counters, touch]
  | closeWait =>
      simp only [onCloseWait]
      split <;> simp [Counters.receive_zero]
  | closing =>
      simp only [onClosing]
      split <;> simp [Counters.receive_zero, counters, touch]
  | lastAck =>
      simp only [onLastAck]
      split <;> simp [Counters.receive_zero, counters, touch]
  | timeWait => simp [onTimeWait, Counters.receive_zero]
  | closed => simp [Counters.receive_zero]
  | listen => simp [Counters.receive_zero]
  | synSent => simp [Counters.receive_zero]

end

theorem counters_process (conn : TcpConnection) (now : Nat) (seg : TcpInfo)
    (payload : List Byte) :
    ∃ count, (conn.process now seg payload).1.counters =
      conn.counters.receive count (conn.finCount seg) := by
  by_cases outside : conn.state ≠ .established ∨ seg.flags.rst = true
  · exact ⟨0, counters_process_of_ne now payload outside⟩
  · obtain ⟨established, noReset⟩ : conn.state = .established ∧ seg.flags.rst = false := by
      simpa using outside
    rcases conn.counters_onEstablished now payload with ⟨count, eq⟩
    refine ⟨count, ?_⟩
    have fins : conn.finCount seg = if seg.flags.fin then 1 else 0 := by
      simp [finCount, countsFin, established, noReset]
    rw [fins, ← eq]
    simp [process, noReset, established]

end TcpConnection

/-- The next numbers are those of the handshake moved by what has been sent and
received. -/
structure Counters.Since (counters : Counters) (opening : TcpConnection.Opening) (fins : Nat) :
    Prop where
  key : counters.key = opening.key
  sent : counters.sndNxt = opening.iss + 1 + BitVec.ofNat 32 counters.bytesTx
  received : counters.rcvNxt =
    opening.theirSeq + 1 + BitVec.ofNat 32 (counters.bytesRx + fins)

namespace Counters.Since

variable {counters : Counters} {opening : TcpConnection.Opening} {fins : Nat}

theorem opened (opening : TcpConnection.Opening) :
    (TcpConnection.opened opening).counters.Since opening 0 where
  key := rfl
  sent := by simp [TcpConnection.counters, TcpConnection.opened, TcpConnection.newPassive]
  received := by simp [TcpConnection.counters, TcpConnection.opened, TcpConnection.newPassive]

theorem send (since : counters.Since opening fins) (len : BitVec 32) :
    (counters.send len).Since opening fins where
  key := since.key
  sent := by
    simp only [Counters.send, since.sent, BitVec.ofNat_add, BitVec.ofNat_toNat,
      BitVec.setWidth_eq, BitVec.add_assoc]
  received := since.received

theorem receive (since : counters.Since opening fins) (count more : Nat) :
    (counters.receive count more).Since opening (fins + more) where
  key := since.key
  sent := since.sent
  received := by
    simp only [Counters.receive, since.received]
    rw [BitVec.add_assoc, ← BitVec.ofNat_add]
    congr 2
    omega

end Counters.Since

end Corduit.Netstack.Tcp
