import Corduit.Netstack.Tcp.Buffers
import Corduit.Netstack.Tcp.Inflight

/-!
# The receive budget

Bytes that were accepted in order are pending, or counted in flight to the
proxy; they stay within `max_recv_buffer`, because a segment is accepted only
when it fits there together with everything else that is queued.  Segments put
aside for reassembly have a limit of their own, `max_ooo_size`, and are not
measured against the budget; so the whole queue is bounded by the sum of the
two limits.
-/

namespace Corduit.Netstack.Tcp

open Collection Transition Word TcpConnection

/-- Bytes accepted in order that the proxy has not written yet. -/
def TcpConnection.inOrderBytes (conn : TcpConnection) : Nat :=
  saturatingAdd (saturatingAdd conn.recvBuf.length conn.pendingData.length) conn.proxyInflight

/-- The invariant of the budget. -/
structure Budgeted (budget : Nat) (conn : TcpConnection) : Prop where
  settled : Settled conn.reassembly
  accounted : Accounted conn 0
  limit : conn.config.maxRecvBuffer = budget
  inOrder : min (conn.pendingData.length + conn.proxyInflight) usizeMax ≤ budget

theorem pending_handOff (conn : TcpConnection) (data : List Byte) :
    (conn.handOff data).pendingData = conn.pendingData ∧
      (conn.handOff data).proxyInflight ≤ conn.proxyInflight + data.length := by
  by_cases live : ∃ link, conn.proxyTx = some link ∧ link.receiverAlive = true
  · rcases live with ⟨link, attached, alive⟩
    rw [handOff_of_alive attached alive]
    exact ⟨rfl, le_rfl⟩
  · rw [handOff_of_gone (by simpa using live)]
    exact ⟨rfl, Nat.le_add_right _ _⟩

theorem inOrder_deliverToProxy (conn : TcpConnection) (data : List Byte) :
    (conn.deliverToProxy data).pendingData.length + (conn.deliverToProxy data).proxyInflight ≤
      conn.pendingData.length + conn.proxyInflight + data.length := by
  unfold deliverToProxy
  split
  · omega
  · split
    · simp only [List.length_append]
      omega
    · rcases pending_handOff conn data with ⟨pending, inflight⟩
      rw [pending]
      omega

theorem inOrder_setProxyTx (conn : TcpConnection) (receiverAlive : Bool) :
    (conn.setProxyTx receiverAlive).pendingData.length +
      (conn.setProxyTx receiverAlive).proxyInflight ≤
      conn.pendingData.length + conn.proxyInflight := by
  unfold setProxyTx flushPending
  split
  · exact le_rfl
  · obtain ⟨pending, inflight⟩ := pending_handOff
      { conn.attach receiverAlive with pendingData := [] } (conn.attach receiverAlive).pendingData
    simp only [pending, List.length_nil, Nat.zero_add]
    apply inflight.trans
    change conn.proxyInflight + conn.pendingData.length ≤ _
    omega

theorem inflight_releaseHeld {conn : TcpConnection} {reserved : Nat}
    (holds : Accounted conn reserved) (index : Nat) :
    (conn.releaseHeld index).proxyInflight ≤ conn.proxyInflight := by
  unfold releaseHeld
  split
  · exact le_rfl
  · rename_i link located
    split
    · rw [proxyInflight_modifyLink]
      change wrappingSub conn.proxyInflight link.held ≤ conn.proxyInflight
      rw [wrappingSub_of_le (holds.held_le (List.mem_of_getElem? located))]
      exact Nat.sub_le _ _
    · exact le_rfl

theorem queuedBytes_eq (conn : TcpConnection) :
    conn.queuedBytes = min (conn.recvBuf.length + conn.pendingData.length + conn.oooSize +
      conn.proxyInflight) usizeMax := by
  simp only [queuedBytes, saturatingAdd]
  omega

/-- What the delivery loop gathers, and what it leaves elsewhere. -/
theorem gathered {conn : TcpConnection} (settled : Settled conn.reassembly)
    (newData : List Byte) :
    let result := (conn.appendInOrder newData).tryDeliverOooSegments
    result.recvBuf.length + result.oooSize ≤ newData.length + conn.oooSize ∧
      SameButReassembly conn result := by
  have appended : Booked (conn.appendInOrder newData).reassembly :=
    ⟨settled.size, settled.nonempty, settled.bounded, settled.limit⟩
  rcases tryDeliverOooSegments_advances appended with ⟨_, count, _, length_eq, spent, _⟩
  have drained : conn.recvBuf = [] := settled.drained
  have start : (conn.appendInOrder newData).recvBuf.length = newData.length := by
    simp [appendInOrder, drained]
  have same : (conn.appendInOrder newData).oooSize = conn.oooSize := rfl
  refine ⟨by omega, ?_⟩
  have frame := tryDeliverOooSegments_frame (conn.appendInOrder newData)
  unfold SameButReassembly at frame ⊢
  rw [frame]
  rfl

theorem spread_deliverToProxy {conn middle : TcpConnection} (frame : SameButReassembly conn middle)
    (accounted : Accounted conn 0) :
    let final := { middle with recvBuf := [] }.deliverToProxy middle.recvBuf
    Accounted final 0 ∧ final.config = conn.config ∧ final.oooSize = middle.oooSize ∧
      final.pendingData.length + final.proxyInflight ≤
        conn.pendingData.length + conn.proxyInflight + middle.recvBuf.length := by
  unfold SameButReassembly at frame
  have pending : middle.pendingData = conn.pendingData := by rw [frame]
  have inflight : middle.proxyInflight = conn.proxyInflight := by rw [frame]
  have config : middle.config = conn.config := by rw [frame]
  have links : middle.links = conn.links := by
    rw [frame]
    rfl
  have before : Accounted { middle with recvBuf := [] } 0 := by
    constructor
    · exact links ▸ accounted.links
    · change middle.proxyInflight = (middle.links.map ProxyLink.owed).sum + 0
      rw [inflight, links]
      exact accounted.counter
  have spread := inOrder_deliverToProxy { middle with recvBuf := [] } middle.recvBuf
  have kept := deliverToProxy_frame { middle with recvBuf := [] } middle.recvBuf
  have delivered := before.deliverToProxy middle.recvBuf
  unfold SameButHandOff at kept
  generalize { middle with recvBuf := [] }.deliverToProxy middle.recvBuf = final at *
  dsimp only at spread
  rw [pending, inflight] at spread
  refine ⟨delivered, ?_, ?_, spread⟩
  · rw [kept]
    exact config
  · rw [kept]

namespace Budgeted

variable {budget : Nat} {conn : TcpConnection}

/-- What `has_room_for` grants, counted over every queue. -/
theorem fits_of_hasRoomFor (holds : Budgeted budget conn) {len : Nat}
    (room : conn.hasRoomFor len = true) :
    min (conn.pendingData.length + conn.oooSize + conn.proxyInflight + len) usizeMax ≤ budget := by
  have empty : conn.recvBuf = [] := holds.settled.drained
  have room : saturatingAdd conn.queuedBytes len ≤ conn.config.maxRecvBuffer := by
    simpa [hasRoomFor] using (Bool.and_eq_true_iff.mp room).2
  rw [holds.limit, queuedBytes_eq, empty, saturatingAdd] at room
  simp only [List.length_nil, Nat.zero_add] at room
  omega

theorem acceptData (holds : Budgeted budget conn) {newData : List Byte}
    (room : conn.hasRoomFor newData.length = true) :
    Budgeted budget (conn.acceptData newData) ∧
      (conn.acceptData newData).queuedBytes ≤ budget := by
  have settled := holds.settled.acceptData newData
  have drained : (conn.acceptData newData).recvBuf = [] := settled.drained
  have fits := holds.fits_of_hasRoomFor room
  rcases gathered holds.settled newData with ⟨moved, frame⟩
  rcases spread_deliverToProxy frame holds.accounted with ⟨accounted, config, oooSize, spread⟩
  rw [acceptData_eq] at settled drained ⊢
  dsimp only at settled drained accounted config oooSize spread ⊢
  generalize (conn.appendInOrder newData).tryDeliverOooSegments = middle at *
  generalize { middle with recvBuf := [] }.deliverToProxy middle.recvBuf = final at *
  have drained : final.recvBuf = [] := drained
  constructor
  · refine ⟨settled, ⟨accounted.links, accounted.counter⟩, ?_, ?_⟩
    · change final.config.maxRecvBuffer = budget
      rw [config]
      exact holds.limit
    · change min (final.pendingData.length + final.proxyInflight) usizeMax ≤ budget
      omega
  · change final.queuedBytes ≤ budget
    rw [queuedBytes_eq, drained, List.length_nil]
    omega

theorem of_receiveSide (holds : Budgeted budget conn) {result : TcpConnection}
    (next : SeqNum) (same : result.receiveSide = { conn.receiveSide with rcvNxt := next }) :
    Budgeted budget result := by
  have links : result.links = conn.links := by
    simp only [receiveSide, ReceiveSide.mk.injEq] at same
    simp only [links, same]
  have inflight : result.proxyInflight = conn.proxyInflight :=
    congrArg ReceiveSide.proxyInflight same
  have pending : result.pendingData = conn.pendingData := congrArg ReceiveSide.pendingData same
  have settled := holds.settled
  refine ⟨?_, ⟨links ▸ holds.accounted.links, ?_⟩,
    (congrArg ReceiveSide.maxRecvBuffer same).trans holds.limit, ?_⟩
  · unfold TcpConnection.reassembly
    rw [same]
    exact ⟨⟨settled.size, settled.nonempty, settled.bounded, settled.limit⟩, settled.drained⟩
  · rw [inflight, links]
    exact holds.accounted.counter
  · rw [inflight, pending]
    exact holds.inOrder

theorem outcome (holds : Budgeted budget conn) {seq : SeqNum} {data : List Byte}
    {mid : TcpConnection} (outcome : conn.Outcome seq data mid) : Budgeted budget mid := by
  have settled := holds.settled.outcome outcome
  rcases outcome with ⟨newData, accept, start, same, _, rfl⟩ | ⟨_, _, _, same⟩ |
    ⟨_, _, _, same⟩
  · have room := (accepted_eq_some accept).2.2.2.2
    rw [← hasRoomFor_congr same] at room
    exact ((holds.of_receiveSide conn.rcvNxt same).acceptData room).1
  · have links : mid.links = conn.links := by
      simp only [receiveSide, ReceiveSide.mk.injEq] at same
      simp only [TcpConnection.links, same, storeSegment]
    refine ⟨settled, ⟨links ▸ holds.accounted.links, ?_⟩,
      (congrArg ReceiveSide.maxRecvBuffer same).trans holds.limit, ?_⟩
    · rw [links]
      exact (congrArg ReceiveSide.proxyInflight same).trans holds.accounted.counter
    · have inflight : mid.proxyInflight = conn.proxyInflight :=
        congrArg ReceiveSide.proxyInflight same
      have pending : mid.pendingData = conn.pendingData := congrArg ReceiveSide.pendingData same
      rw [inflight, pending]
      exact holds.inOrder
  · exact holds.of_receiveSide conn.rcvNxt same

/-- A step of a writer only gives bytes back. -/
theorem writerStep (holds : Budgeted budget conn) {result : TcpConnection}
    (same : SameButProxy conn result) (accounted : Accounted result 0)
    (less : result.proxyInflight ≤ conn.proxyInflight) : Budgeted budget result := by
  have inOrder := holds.inOrder
  unfold SameButProxy at same
  have settled : Settled result.reassembly := by
    rw [same]
    exact holds.settled
  have config : result.config = conn.config := by rw [same]
  have pending : result.pendingData = conn.pendingData := by rw [same]
  refine ⟨settled, accounted, ?_, ?_⟩
  · rw [config]
    exact holds.limit
  · rw [pending]
    omega

theorem setProxyTx (holds : Budgeted budget conn) (receiverAlive : Bool) :
    Budgeted budget (conn.setProxyTx receiverAlive) := by
  have inOrder := holds.inOrder
  have moved := inOrder_setProxyTx conn receiverAlive
  have accounted := holds.accounted.setProxyTx receiverAlive
  have frame := conn.setProxyTx_frame receiverAlive
  unfold SameButHandOff at frame
  generalize conn.setProxyTx receiverAlive = result at *
  have settled : Settled result.reassembly := by
    rw [frame]
    exact holds.settled
  have config : result.config = conn.config := by rw [frame]
  refine ⟨settled, accounted, ?_, by omega⟩
  rw [config]
  exact holds.limit

theorem perform (holds : Budgeted budget conn) (op : Op) :
    Budgeted budget (conn.perform op) := by
  cases op with
  | process now seg payload =>
      rcases conn.process_receiveSide now seg payload with ⟨mid, next, origin, same⟩
      have middle : Budgeted budget mid := by
        rcases origin with same | outcome
        · exact holds.of_receiveSide conn.rcvNxt same
        · exact holds.outcome outcome
      exact middle.of_receiveSide next same
  | processData seq data => exact holds.outcome (conn.processData_outcome seq data)
  | setProxyTx receiverAlive => exact holds.setProxyTx receiverAlive
  | setWebsocket isWs =>
      have settled := holds.settled.perform (.setWebsocket isWs)
      cases isWs with
      | true => exact ⟨settled, ⟨holds.accounted.links, holds.accounted.counter⟩, holds.limit,
          holds.inOrder⟩
      | false => exact ⟨settled, ⟨holds.accounted.links, holds.accounted.counter⟩, holds.limit,
          holds.inOrder⟩
  | advanceSndNxt len => exact holds.of_receiveSide conn.rcvNxt rfl
  | send data => exact holds.of_receiveSide conn.rcvNxt rfl
  | getSendData => exact holds.of_receiveSide conn.rcvNxt conn.receiveSide_getSendData
  | close => exact holds.of_receiveSide conn.rcvNxt conn.receiveSide_close
  | receive index =>
      exact holds.writerStep (conn.receive_frame index) (holds.accounted.receive index)
        (conn.proxyInflight_modifyLink index _).le
  | take index =>
      exact holds.writerStep (conn.take_frame index) (holds.accounted.take index)
        (conn.proxyInflight_modifyLink index _).le
  | written index =>
      apply holds.writerStep (conn.written_frame index) (holds.accounted.written index)
      unfold written
      split
      · exact inflight_releaseHeld holds.accounted index
      · exact le_rfl
  | dropWriter index =>
      apply holds.writerStep (conn.dropWriter_frame index)
        (holds.accounted.dropWriter index)
      unfold dropWriter
      split
      · rw [proxyInflight_modifyLink]
        exact inflight_releaseHeld holds.accounted index
      · exact le_rfl
  | dropReceiver index =>
      exact holds.writerStep (conn.dropReceiver_frame index)
        (holds.accounted.dropReceiver index) (conn.proxyInflight_modifyLink index _).le

theorem opened (opening : Opening) :
    Budgeted opening.config.maxRecvBuffer (TcpConnection.opened opening) where
  settled := Settled.opened opening
  accounted := ⟨by simp [links, TcpConnection.opened, newPassive], rfl⟩
  limit := rfl
  inOrder := Nat.zero_le _

theorem after (opening : Opening) (ops : List Op) :
    Budgeted opening.config.maxRecvBuffer (TcpConnection.after opening ops) :=
  run_invariant (Budgeted opening.config.maxRecvBuffer) (fun _ op holds => holds.perform op)
    (opened opening) ops

end Budgeted

/-- In every reachable state, what was accepted in order stays within
`max_recv_buffer` and what is put aside within `max_ooo_size`, so the whole
queue stays within their sum; and a segment accepted in order leaves the whole
queue within `max_recv_buffer`. -/
theorem queue_bounded (opening : Opening) (ops : List Op) :
    let conn := after opening ops
    let budget := opening.config.maxRecvBuffer
    conn.config.maxRecvBuffer = budget ∧
      conn.inOrderBytes ≤ budget ∧
      conn.oooSize ≤ conn.maxOooSize ∧
      conn.queuedBytes ≤ budget + conn.maxOooSize ∧
      ∀ seq data, (conn.accepted seq data).isSome = true →
        (conn.processData seq data).1.queuedBytes ≤ budget := by
  have holds := Budgeted.after opening ops
  generalize after opening ops = conn at holds ⊢
  have empty : conn.recvBuf = [] := holds.settled.drained
  have bounded : conn.oooSize ≤ conn.maxOooSize := holds.settled.bounded
  have inOrder := holds.inOrder
  refine ⟨holds.limit, ?_, bounded, ?_, ?_⟩
  · simp only [inOrderBytes, saturatingAdd, empty, List.length_nil, Nat.zero_add]
    omega
  · rw [queuedBytes_eq, empty, List.length_nil]
    omega
  · intro seq data accept
    rcases conn.processData_outcome seq data with
      ⟨newData, accept, start, same, _, result⟩ | ⟨refused, _⟩ | ⟨refused, _⟩
    · have room := (accepted_eq_some accept).2.2.2.2
      rw [← hasRoomFor_congr same] at room
      rw [result]
      exact ((holds.of_receiveSide conn.rcvNxt same).acceptData room).2
    · simp [refused] at accept
    · simp [refused] at accept

/-- Two bytes behind a gap, under a budget of one byte: the reassembly buffer
takes them and the queue exceeds the budget. -/
theorem reassembly_exceeds_budget :
    let conn := after (.sample 100 { maxRecvBuffer := 1 }) [.processData 103 [3, 4]]
    conn.config.maxRecvBuffer = 1 ∧ conn.queuedBytes = 2 ∧
      ¬ conn.queuedBytes ≤ conn.config.maxRecvBuffer := by
  decide

end Corduit.Netstack.Tcp
