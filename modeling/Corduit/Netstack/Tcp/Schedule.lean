import Corduit.Netstack.Tcp.Reassembly

/-!
# Schedules of a connection

Everything that can happen to one connection, as one transition function: the
calls that the stack and the proxy threads make on it under its lock, and the
steps of the writer threads at the far ends of its channels.  A schedule is a
list of such operations; a connection is reachable when some schedule leads to
it from `new_passive`.
-/

namespace Corduit.Netstack.Tcp

open Transition Word

/-- One operation on a connection.  `processData` is the call the unit tests
make directly; the stack reaches it through `process`. -/
inductive Op where
  | process (now : Nat) (seg : TcpInfo) (payload : List Byte)
  | processData (seq : SeqNum) (data : List Byte)
  | setProxyTx (receiverAlive : Bool)
  | setWebsocket (isWs : Bool)
  | advanceSndNxt (len : BitVec 32)
  | send (data : List Byte)
  | getSendData
  | close
  | receive (index : Nat)
  | take (index : Nat)
  | written (index : Nat)
  | dropWriter (index : Nat)
  | dropReceiver (index : Nat)
  deriving DecidableEq

/-- The states in which the peer's FIN has not been consumed yet. -/
def TcpState.receiving : TcpState → Bool
  | .synReceived | .established | .finWait1 | .finWait2 => true
  | _ => false

namespace TcpConnection

/-- Perform one operation. -/
def perform (conn : TcpConnection) : Op → TcpConnection
  | .process now seg payload => (conn.process now seg payload).1
  | .processData seq data => (conn.processData seq data).1
  | .setProxyTx receiverAlive => conn.setProxyTx receiverAlive
  | .setWebsocket isWs => conn.setWebsocket isWs
  | .advanceSndNxt len => conn.advanceSndNxt len
  | .send data => conn.send data
  | .getSendData => conn.getSendData.1
  | .close => conn.close.1
  | .receive index => conn.receive index
  | .take index => conn.take index
  | .written index => conn.written index
  | .dropWriter index => conn.dropWriter index
  | .dropReceiver index => conn.dropReceiver index

/-- What `new_passive` receives for one SYN. -/
structure Opening where
  key : NatKey
  theirSeq : SeqNum
  theirMss : Option (BitVec 16)
  domain : Option String
  config : TcpConfig
  iss : SeqNum
  now : Nat

/-- The connection at its creation. -/
def opened (opening : Opening) : TcpConnection :=
  newPassive opening.key opening.theirSeq opening.theirMss opening.domain
    opening.config opening.iss opening.now

/-- A SYN for port 443 with the given sequence number, under a given
configuration. -/
def Opening.sample (theirSeq : SeqNum) (config : TcpConfig) : Opening where
  key := ⟨⟨.v4 0x0A000002, 40100⟩, ⟨.v4 0x01010101, 443⟩⟩
  theirSeq := theirSeq
  theirMss := some 1024
  domain := none
  config := config
  iss := 7
  now := 0

/-- A segment of an established flow of `Opening.sample`. -/
def sampleSegment (seq : SeqNum) (flags : TcpFlags) : TcpInfo where
  srcPort := 40100
  dstPort := 443
  seq := seq
  ack := 8
  flags := flags
  window := 65535
  mss := none
  payloadLen := 0

/-- The handshake of `Opening.sample 100`, completed. -/
def establishedSchedule : List Op :=
  [.process 1 (sampleSegment 101 .ackOnly) []]

/-- The connection after a schedule. -/
def after (opening : Opening) (ops : List Op) : TcpConnection :=
  run perform (opened opening) ops

section

variable (conn : TcpConnection)

@[simp]
theorem receiveSide_getSendData :
    conn.getSendData.1.receiveSide = conn.receiveSide := by
  unfold getSendData
  split <;> rfl

@[simp]
theorem receiveSide_close :
    conn.close.1.receiveSide = conn.receiveSide := by
  unfold close
  split <;> rfl

@[simp]
theorem state_getSendData :
    conn.getSendData.1.state = conn.state := by
  unfold getSendData
  split <;> rfl

theorem receiving_of_close (receiving : conn.close.1.state.receiving = true) :
    conn.state.receiving = true := by
  unfold close at receiving
  split at receiving
  · rename_i established
    simp [established, TcpState.receiving]
  · simp [TcpState.receiving] at receiving
  · exact receiving

/-- Marking a connection as WebSocket can only raise its reassembly limit. -/
theorem receiveSide_setWebsocket (isWs : Bool) :
    (conn.setWebsocket isWs).receiveSide = { conn.receiveSide with
      maxOooSize := if isWs then 1024 * 1024 else conn.maxOooSize } := by
  cases isWs <;> rfl

end

/-- The connection on which `on_established` runs `process_data`. -/
def acknowledged (conn : TcpConnection) (now : Nat) (seg : TcpInfo) : TcpConnection :=
  if seg.flags.ack then (conn.touch now).processAck seg.ack else conn.touch now

section

variable (conn : TcpConnection)

@[simp]
theorem state_touch (now : Nat) : (conn.touch now).state = conn.state :=
  rfl

@[simp]
theorem receiveSide_touch (now : Nat) :
    (conn.touch now).receiveSide = conn.receiveSide :=
  rfl

@[simp]
theorem state_processAck (ack : SeqNum) :
    (conn.processAck ack).state = conn.state := by
  unfold processAck
  split <;> rfl

@[simp]
theorem receiveSide_acknowledged (now : Nat) (seg : TcpInfo) :
    (conn.acknowledged now seg).receiveSide = conn.receiveSide := by
  unfold acknowledged
  split <;> simp

@[simp]
theorem state_acknowledged (now : Nat) (seg : TcpInfo) :
    (conn.acknowledged now seg).state = conn.state := by
  unfold acknowledged
  split <;> simp

theorem onPayload_fst (now : Nat) (seg : TcpInfo) (payload : List Byte) :
    ((conn.touch now).onPayload seg payload).1 =
      ((conn.acknowledged now seg).processData seg.seq payload).1 := by
  unfold onPayload
  by_cases empty : payload.isEmpty = true
  · simp only [empty, if_true, processData]
    rfl
  · simp only [empty]
    rfl

end

/-- In `Established` a segment without RST goes through `process_data`, and a
FIN then advances `rcv_nxt` by one and leaves the state. -/
theorem process_established {conn : TcpConnection} (now : Nat) {seg : TcpInfo}
    (payload : List Byte) (open_ : conn.state = .established)
    (noReset : seg.flags.rst = false) :
    let result := (conn.process now seg payload).1
    let mid := ((conn.acknowledged now seg).processData seg.seq payload).1
    (seg.flags.fin = false → result.receiveSide = mid.receiveSide ∧ result.state = mid.state) ∧
    (seg.flags.fin = true →
      result.receiveSide = { mid.receiveSide with rcvNxt := mid.rcvNxt + 1 } ∧
      result.state = .closeWait) := by
  rw [← onPayload_fst conn now seg payload]
  simp only [process, noReset, Bool.false_eq_true, if_false, state_touch, open_, onEstablished]
  constructor
  · intro noFin
    simp only [noFin, Bool.false_eq_true, if_false]
    split <;> exact ⟨rfl, rfl⟩
  · intro fin
    simp only [fin, if_true, and_true]
    rfl

/-- A FIN in `FinWait1` or `FinWait2` is consumed without its payload. -/
def ConsumesFin (conn : TcpConnection) (seg : TcpInfo) (result : TcpConnection) : Prop :=
  (conn.state = .finWait1 ∨ conn.state = .finWait2) ∧ seg.flags.fin = true ∧
    (result.state = .timeWait ∨ result.state = .closing) ∧
    result.receiveSide = { conn.receiveSide with rcvNxt := conn.rcvNxt + 1 }

/-- The receive side is untouched and the connection is not reopened. -/
def Ignores (conn result : TcpConnection) : Prop :=
  result.receiveSide = conn.receiveSide ∧
    (result.state.receiving = true → conn.state.receiving = true)

/-- Outside `Established`, and for every RST, the payload is ignored. -/
theorem process_ignores_payload {conn : TcpConnection} (now : Nat) {seg : TcpInfo}
    (payload : List Byte)
    (outside : conn.state ≠ .established ∨ seg.flags.rst = true) :
    conn.Ignores (conn.process now seg payload).1 ∨
      conn.ConsumesFin seg (conn.process now seg payload).1 := by
  unfold process
  by_cases reset : seg.flags.rst = true
  · simp only [reset, if_true]
    exact Or.inl ⟨rfl, fun receiving => absurd receiving (by simp [TcpState.receiving])⟩
  · have elsewhere := outside.resolve_right reset
    simp only [reset, Bool.false_eq_true, if_false, state_touch]
    cases state_eq : conn.state with
    | established => exact absurd state_eq elsewhere
    | closed => exact Or.inl ⟨rfl, id⟩
    | listen => exact Or.inl ⟨rfl, id⟩
    | synSent => exact Or.inl ⟨rfl, id⟩
    | synReceived =>
        simp only [onSynRecv]
        split
        · exact Or.inl ⟨rfl, fun _ => by simp [state_eq, TcpState.receiving]⟩
        · exact Or.inl ⟨rfl, id⟩
    | finWait1 =>
        have waiting : conn.state.receiving = true := by simp [state_eq, TcpState.receiving]
        simp only [onFinWait1]
        split
        · split
          · rename_i fin
            exact Or.inr ⟨Or.inl state_eq, fin, Or.inl rfl, rfl⟩
          · exact Or.inl ⟨rfl, fun _ => waiting⟩
        · split
          · rename_i fin
            exact Or.inr ⟨Or.inl state_eq, fin, Or.inr rfl, rfl⟩
          · exact Or.inl ⟨rfl, fun _ => waiting⟩
    | finWait2 =>
        simp only [onFinWait2]
        split
        · rename_i fin
          exact Or.inr ⟨Or.inr state_eq, fin, Or.inl rfl, rfl⟩
        · exact Or.inl ⟨rfl, id⟩
    | closeWait =>
        simp only [onCloseWait]
        split
        · exact Or.inl ⟨by simp, by simp⟩
        · exact Or.inl ⟨rfl, id⟩
    | closing =>
        simp only [onClosing]
        split
        · exact Or.inl ⟨rfl, fun receiving => absurd receiving (by simp [TcpState.receiving])⟩
        · exact Or.inl ⟨rfl, id⟩
    | lastAck =>
        simp only [onLastAck]
        split
        · exact Or.inl ⟨rfl, fun receiving => absurd receiving (by simp [TcpState.receiving])⟩
        · exact Or.inl ⟨rfl, id⟩
    | timeWait => exact Or.inl ⟨rfl, id⟩

/-- A segment does to the receive side at most what its payload does, and may
move `rcv_nxt` over a FIN. -/
theorem process_receiveSide (conn : TcpConnection) (now : Nat) (seg : TcpInfo)
    (payload : List Byte) :
    ∃ mid next, (mid.receiveSide = conn.receiveSide ∨ conn.Outcome seg.seq payload mid) ∧
      (conn.process now seg payload).1.receiveSide =
        { mid.receiveSide with rcvNxt := next } := by
  by_cases outside : conn.state ≠ .established ∨ seg.flags.rst = true
  · rcases process_ignores_payload now payload outside with ⟨same, _⟩ | ⟨_, _, _, same⟩
    · exact ⟨conn, conn.rcvNxt, Or.inl rfl, same⟩
    · exact ⟨conn, conn.rcvNxt + 1, Or.inl rfl, same⟩
  · obtain ⟨established, noReset⟩ : conn.state = .established ∧ seg.flags.rst = false := by
      simpa using outside
    have outcome := ((conn.acknowledged now seg).processData_outcome seg.seq payload).congr
      (receiveSide_acknowledged conn now seg) (state_acknowledged conn now seg)
    have step := process_established now payload established noReset
    cases fin : seg.flags.fin with
    | false => exact ⟨_, _, Or.inr outcome, (step.1 fin).1⟩
    | true => exact ⟨_, _, Or.inr outcome, (step.2 fin).1⟩

end TcpConnection

end Corduit.Netstack.Tcp
