import Corduit.Netstack.Tcp.Schedule

/-!
# The books of the reassembly buffer

Every operation of a schedule has one of four effects on the reassembly
fields: it keeps them, it consumes a FIN outside `Established`, it brings in a
data segment, or it brings in a data segment whose FIN is consumed with it.
From that, and whatever the peer sends and whatever becomes of the proxy: the
reassembly size is the sum of what is buffered and stays within its limit, no
buffered segment is empty, and the receive buffer is empty between operations.
-/

namespace Corduit.Netstack.Tcp

open Collection Transition Word TcpConnection

/-- The fields that reassembly works on. -/
structure Reassembly where
  rcvNxt : SeqNum
  recvBuf : List Byte
  oooSegments : OrderedMap SeqNum (List Byte)
  maxOooSize : Nat
  oooSize : Nat

/-- The reassembly fields of a receive side. -/
def ReceiveSide.reassembly (side : ReceiveSide) : Reassembly where
  rcvNxt := side.rcvNxt
  recvBuf := side.recvBuf
  oooSegments := side.oooSegments
  maxOooSize := side.maxOooSize
  oooSize := side.oooSize

/-- The reassembly fields of a connection. -/
def TcpConnection.reassembly (conn : TcpConnection) : Reassembly :=
  conn.receiveSide.reassembly

theorem acceptData_frame (conn : TcpConnection) (newData : List Byte) :
    (conn.acceptData newData).state = conn.state ∧
    (conn.acceptData newData).reassembly =
      { (conn.appendInOrder newData).tryDeliverOooSegments.reassembly with recvBuf := [] } := by
  have gathered := tryDeliverOooSegments_frame (conn.appendInOrder newData)
  have delivered := deliverToProxy_frame
    { (conn.appendInOrder newData).tryDeliverOooSegments with recvBuf := [] }
    (conn.appendInOrder newData).tryDeliverOooSegments.recvBuf
  unfold SameButReassembly at gathered
  unfold SameButHandOff at delivered
  rw [acceptData_eq]
  dsimp only
  rw [delivered]
  refine ⟨?_, rfl⟩
  change (conn.appendInOrder newData).tryDeliverOooSegments.state = conn.state
  rw [gathered]
  rfl

theorem Outcome.receiving {conn mid : TcpConnection} {seq : SeqNum} {data : List Byte}
    (outcome : conn.Outcome seq data mid) (receiving : mid.state.receiving = true) :
    conn.state.receiving = true := by
  rcases outcome with ⟨newData, _, start, _, state_eq, rfl⟩ | ⟨_, _, state_eq, _⟩ |
    ⟨_, _, state_eq | closed, _⟩
  · rwa [(acceptData_frame start newData).1, state_eq] at receiving
  · rwa [state_eq] at receiving
  · rwa [state_eq] at receiving
  · simp [closed, TcpState.receiving] at receiving

/-- The operation runs `process_data` on this segment. -/
def Carries (conn : TcpConnection) (seq : SeqNum) (data : List Byte) : Op → Prop
  | .process _ seg payload =>
      conn.state = .established ∧ seg.flags.rst = false ∧ seg.seq = seq ∧ payload = data
  | .processData seq' data' => seq' = seq ∧ data' = data
  | _ => False

/-- The operation does not run `process_data`. -/
def Idle (conn : TcpConnection) (op : Op) : Prop :=
  ∀ seq data, ¬ Carries conn seq data op

/-- What one operation can do to the reassembly fields. -/
inductive Effect (conn : TcpConnection) (op : Op) (result : TcpConnection) : Prop where
  | keeps (idle : Idle conn op) (limit : Nat)
      (same : result.reassembly = { conn.reassembly with maxOooSize := limit })
      (limited : limit = conn.maxOooSize ∨ limit = 1024 * 1024)
      (receiving : result.state.receiving → conn.state.receiving)
  | finWait (idle : Idle conn op) (waiting : conn.state.receiving) (left : result.state.receiving = false)
      (same : result.reassembly = { conn.reassembly with rcvNxt := conn.rcvNxt + 1 })
  | data (seq : SeqNum) (bytes : List Byte) (carries : Carries conn seq bytes op)
      (mid : TcpConnection) (outcome : conn.Outcome seq bytes mid)
      (same : result.reassembly = mid.reassembly)
      (receiving : result.state.receiving → conn.state.receiving)
  | dataFin (seq : SeqNum) (bytes : List Byte) (carries : Carries conn seq bytes op)
      (mid : TcpConnection) (outcome : conn.Outcome seq bytes mid)
      (left : result.state.receiving = false)
      (same : result.reassembly = { mid.reassembly with rcvNxt := mid.rcvNxt + 1 })

namespace Effect

variable {conn result : TcpConnection} {op : Op}

theorem of_receiveSide (idle : Idle conn op) (same : result.receiveSide = conn.receiveSide)
    (receiving : result.state.receiving → conn.state.receiving) : Effect conn op result :=
  .keeps idle conn.maxOooSize (congrArg ReceiveSide.reassembly same) (Or.inl rfl) receiving

theorem of_writer (idle : Idle conn op) (same : SameButProxy conn result) : Effect conn op result := by
  unfold SameButProxy at same
  rw [same]
  exact .keeps idle conn.maxOooSize rfl (Or.inl rfl) id

theorem of_handOff (idle : Idle conn op) (same : SameButHandOff conn result) : Effect conn op result := by
  unfold SameButHandOff at same
  rw [same]
  exact .keeps idle conn.maxOooSize rfl (Or.inl rfl) id

theorem process (conn : TcpConnection) (now : Nat) (seg : TcpInfo) (payload : List Byte) :
    Effect conn (.process now seg payload) (conn.process now seg payload).1 := by
  by_cases outside : conn.state ≠ .established ∨ seg.flags.rst = true
  · have idle : Idle conn (.process now seg payload) := by
      rintro seq data ⟨established, noReset, _⟩
      simp [established, noReset] at outside
    rcases process_ignores_payload now payload outside with
      ⟨same, receiving⟩ | ⟨waiting, _, left, same⟩
    · exact .of_receiveSide idle same receiving
    · refine .finWait idle ?_ ?_ (congrArg ReceiveSide.reassembly same)
      · rcases waiting with waiting | waiting <;> simp [waiting, TcpState.receiving]
      · rcases left with left | left <;> simp [left, TcpState.receiving]
  · obtain ⟨established, noReset⟩ : conn.state = .established ∧ seg.flags.rst = false := by
      simpa using outside
    have outcome := ((conn.acknowledged now seg).processData_outcome seg.seq payload).congr
      (receiveSide_acknowledged conn now seg) (state_acknowledged conn now seg)
    have step := process_established now payload established noReset
    cases fin : seg.flags.fin with
    | false =>
        rcases step.1 fin with ⟨same, _⟩
        exact .data seg.seq payload ⟨established, noReset, rfl, rfl⟩ _ outcome
          (congrArg ReceiveSide.reassembly same)
          fun _ => by simp [established, TcpState.receiving]
    | true =>
        rcases step.2 fin with ⟨same, left⟩
        exact .dataFin seg.seq payload ⟨established, noReset, rfl, rfl⟩ _ outcome
          (by simp [left, TcpState.receiving]) (congrArg ReceiveSide.reassembly same)

theorem perform (conn : TcpConnection) (op : Op) : Effect conn op (conn.perform op) := by
  cases op with
  | process now seg payload => exact Effect.process conn now seg payload
  | processData seq data =>
      have outcome := conn.processData_outcome seq data
      exact .data seq data ⟨rfl, rfl⟩ _ outcome rfl (Outcome.receiving outcome)
  | setProxyTx receiverAlive => exact .of_handOff (fun _ _ => id) (conn.setProxyTx_frame receiverAlive)
  | setWebsocket isWs =>
      refine .keeps (fun _ _ => id) (if isWs then 1024 * 1024 else conn.maxOooSize)
        (congrArg ReceiveSide.reassembly (conn.receiveSide_setWebsocket isWs)) ?_ ?_
      · cases isWs
        · exact Or.inl rfl
        · exact Or.inr rfl
      · cases isWs <;> exact id
  | advanceSndNxt len => exact .of_receiveSide (fun _ _ => id) rfl id
  | send data => exact .of_receiveSide (fun _ _ => id) rfl id
  | getSendData =>
      apply Effect.of_receiveSide (fun _ _ => id) (receiveSide_getSendData conn)
      simp
  | close =>
      exact .of_receiveSide (fun _ _ => id) (receiveSide_close conn) conn.receiving_of_close
  | receive index => exact .of_writer (fun _ _ => id) (conn.receive_frame index)
  | take index => exact .of_writer (fun _ _ => id) (conn.take_frame index)
  | written index => exact .of_writer (fun _ _ => id) (conn.written_frame index)
  | dropWriter index => exact .of_writer (fun _ _ => id) (conn.dropWriter_frame index)
  | dropReceiver index => exact .of_writer (fun _ _ => id) (conn.dropReceiver_frame index)

end Effect

/-- The reassembly buffer and its size agree. -/
structure Booked (side : Reassembly) : Prop where
  size : side.oooSize = OrderedMap.weight List.length side.oooSegments
  nonempty : ∀ entry ∈ side.oooSegments.entries, entry.2 ≠ []
  bounded : side.oooSize ≤ side.maxOooSize
  limit : side.maxOooSize ≤ 1024 * 1024

namespace Booked

variable {conn : TcpConnection}

theorem remove (holds : Booked conn.reassembly) {segSeq : SeqNum} {data : List Byte}
    (member : (segSeq, data) ∈ conn.oooSegments.entries) :
    Booked (conn.removeSegment segSeq data).reassembly := by
  rcases oooSize_removeSegment holds.size member with ⟨size, split⟩
  have bounded : conn.oooSize ≤ conn.maxOooSize := holds.bounded
  refine ⟨size, ?_, ?_, holds.limit⟩
  · exact fun entry kept => holds.nonempty entry (OrderedMap.mem_erase.mp kept).1
  · change (conn.removeSegment segSeq data).oooSize ≤ conn.maxOooSize
    omega

theorem deliverNext (holds : Booked conn.reassembly) {conn' : TcpConnection}
    (turn : TcpConnection.deliverNext conn = some conn') : Booked conn'.reassembly := by
  rcases deliverNext_eq_some turn with ⟨segSeq, data, member, _, _, rfl⟩
  have removed := holds.remove member
  exact ⟨removed.size, removed.nonempty, removed.bounded, removed.limit⟩

theorem buffer (holds : Booked conn.reassembly) {seq : SeqNum} {data : List Byte}
    (buffer : conn.buffers seq data = true) :
    Booked (conn.storeSegment seq data).reassembly := by
  rcases buffers_eq_true buffer with ⟨admitted, _, fits, vacant⟩
  have size : conn.oooSize = OrderedMap.weight List.length conn.oooSegments := holds.size
  have inserted := OrderedMap.weight_insert List.length vacant data
  refine ⟨?_, ?_, fits, holds.limit⟩
  · change conn.oooSize + data.length =
      OrderedMap.weight List.length (conn.oooSegments.insert seq data)
    omega
  · intro entry member
    rcases (OrderedMap.mem_insert_of_vacant vacant data).mp member with rfl | member
    · exact (admits_eq_true admitted).1
    · exact holds.nonempty entry member

end Booked

/-- The loop advances `rcv_nxt` by at most what was buffered, and by nothing
only when it takes nothing. -/
theorem tryDeliverOooSegments_advances {conn : TcpConnection}
    (holds : Booked conn.reassembly) :
    Booked conn.tryDeliverOooSegments.reassembly ∧
    ∃ count, conn.tryDeliverOooSegments.rcvNxt = conn.rcvNxt + BitVec.ofNat 32 count ∧
      conn.tryDeliverOooSegments.recvBuf.length = conn.recvBuf.length + count ∧
      count + conn.tryDeliverOooSegments.oooSize ≤ conn.oooSize ∧
      (count = 0 → conn.tryDeliverOooSegments = conn) := by
  refine drain_invariant (fun conn' : TcpConnection =>
    Booked conn'.reassembly ∧ ∃ count,
      conn'.rcvNxt = conn.rcvNxt + BitVec.ofNat 32 count ∧
      conn'.recvBuf.length = conn.recvBuf.length + count ∧
      count + conn'.oooSize ≤ conn.oooSize ∧ (count = 0 → conn' = conn))
    ?_ _ ⟨holds, 0, by simp, by simp, by simp, fun _ => rfl⟩
  rintro first second turn ⟨booked, count, next, gathered, spent, _⟩
  refine ⟨booked.deliverNext turn, ?_⟩
  rcases deliverNext_eq_some turn with ⟨segSeq, data, member, covers, _, rfl⟩
  have split := (oooSize_removeSegment booked.size member).2
  have contributes := (Covers.overlaps covers (booked.nonempty _ member)).2
  have taken : (data.drop (first.rcvNxt - segSeq).toNat).length =
      data.length - (first.rcvNxt - segSeq).toNat := List.length_drop
  dsimp only at contributes
  refine ⟨count + (data.length - (first.rcvNxt - segSeq).toNat), ?_, ?_, ?_, ?_⟩
  · change first.rcvNxt + BitVec.ofNat 32 _ = _
    rw [taken, next, BitVec.ofNat_add]
    ring
  · change (first.recvBuf ++ data.drop (first.rcvNxt - segSeq).toNat).length = _
    rw [List.length_append, taken]
    omega
  · change _ + (first.removeSegment segSeq data).oooSize ≤ _
    omega
  · intro zero
    omega

theorem add_drop_length {rcvNxt seq : SeqNum} {data : List Byte}
    (reaches : (rcvNxt - seq).toNat < data.length) :
    rcvNxt + BitVec.ofNat 32 (data.drop (rcvNxt - seq).toNat).length =
      seq + BitVec.ofNat 32 data.length := by
  rcases Nat.exists_eq_add_of_le reaches.le with ⟨rest, length_eq⟩
  rw [List.length_drop, length_eq, Nat.add_sub_cancel_left, BitVec.ofNat_add,
    BitVec.ofNat_toNat, BitVec.setWidth_eq]
  ring

/-- After accepting data at a frontier, `rcv_nxt` stays at the frontier exactly
when no buffered segment covers it. -/
theorem rcvNxt_acceptData_eq_iff {conn : TcpConnection} (holds : Booked conn.reassembly)
    {newData : List Byte} {frontier : SeqNum}
    (reached : conn.rcvNxt + BitVec.ofNat 32 newData.length = frontier) :
    (conn.acceptData newData).rcvNxt = frontier ↔
      ∀ entry ∈ conn.oooSegments.entries, ¬ Covers entry frontier := by
  have appended : Booked (conn.appendInOrder newData).reassembly :=
    ⟨holds.size, holds.nonempty, holds.bounded, holds.limit⟩
  have result : (conn.acceptData newData).rcvNxt =
      (conn.appendInOrder newData).tryDeliverOooSegments.rcvNxt :=
    congrArg Reassembly.rcvNxt (acceptData_frame conn newData).2
  have atFrontier : (conn.appendInOrder newData).rcvNxt = frontier := reached
  rw [result]
  constructor
  · intro stays
    rcases tryDeliverOooSegments_advances appended with ⟨_, count, next, _, spent, unmoved⟩
    have bounded : conn.oooSize ≤ 1024 * 1024 := holds.bounded.trans holds.limit
    have spent : count ≤ conn.oooSize := (Nat.le_add_right _ _).trans spent
    have zero : count = 0 := by
      have residue : BitVec.ofNat 32 count = 0 := by
        rw [stays, atFrontier] at next
        exact left_eq_add.mp next
      have value := congrArg BitVec.toNat residue
      rw [BitVec.toNat_ofNat, Nat.mod_eq_of_lt (by omega)] at value
      exact value
    have stops := tryDeliverOooSegments_stops (conn.appendInOrder newData)
    rw [unmoved zero, atFrontier] at stops
    exact stops
  · intro uncovered
    have stopped : deliverNext (conn.appendInOrder newData) = none := by
      rw [deliverNext_eq_none_iff, atFrontier]
      exact uncovered
    unfold tryDeliverOooSegments
    rw [drain_of_none stopped, atFrontier]

/-- Between two operations the books are right and the receive buffer is
empty. -/
structure Settled (side : Reassembly) : Prop extends Booked side where
  drained : side.recvBuf = []

namespace Settled

variable {conn : TcpConnection}

theorem acceptData (holds : Settled conn.reassembly) (newData : List Byte) :
    Settled (conn.acceptData newData).reassembly := by
  have appended : Booked (conn.appendInOrder newData).reassembly :=
    ⟨holds.size, holds.nonempty, holds.bounded, holds.limit⟩
  have delivered := (tryDeliverOooSegments_advances appended).1
  rw [(acceptData_frame conn newData).2]
  exact ⟨⟨delivered.size, delivered.nonempty, delivered.bounded, delivered.limit⟩, rfl⟩

theorem outcome (holds : Settled conn.reassembly) {seq : SeqNum} {data : List Byte}
    {mid : TcpConnection} (outcome : conn.Outcome seq data mid) : Settled mid.reassembly := by
  rcases outcome with ⟨newData, _, start, same, _, rfl⟩ | ⟨_, buffer, _, same⟩ |
    ⟨_, _, _, same⟩
  · refine Settled.acceptData ?_ newData
    unfold TcpConnection.reassembly
    rwa [same]
  · unfold TcpConnection.reassembly
    rw [same]
    exact ⟨holds.toBooked.buffer buffer, holds.drained⟩
  · unfold TcpConnection.reassembly
    rwa [same]

theorem perform (holds : Settled conn.reassembly) (op : Op) :
    Settled (conn.perform op).reassembly := by
  have bounded : conn.oooSize ≤ conn.maxOooSize := holds.bounded
  have limit : conn.maxOooSize ≤ 1024 * 1024 := holds.limit
  rcases Effect.perform conn op with
    ⟨_, limit', same, limited, _⟩ | ⟨_, _, _, same⟩ | ⟨seq, data, _, mid, outcome, same, _⟩ |
    ⟨seq, data, _, mid, outcome, _, same⟩
  · rw [same]
    refine ⟨⟨holds.size, holds.nonempty, ?_, ?_⟩, holds.drained⟩
    · change conn.oooSize ≤ limit'
      omega
    · change limit' ≤ 1024 * 1024
      omega
  · rw [same]
    exact ⟨⟨holds.size, holds.nonempty, holds.bounded, holds.limit⟩, holds.drained⟩
  · rw [same]
    exact holds.outcome outcome
  · rw [same]
    have settled := holds.outcome outcome
    exact ⟨⟨settled.size, settled.nonempty, settled.bounded, settled.limit⟩, settled.drained⟩

theorem opened (opening : Opening) : Settled (TcpConnection.opened opening).reassembly where
  size := rfl
  nonempty := by simp [TcpConnection.opened, newPassive, TcpConnection.reassembly, receiveSide,
    ReceiveSide.reassembly]
  bounded := Nat.zero_le _
  limit := show 512 * 1024 ≤ 1024 * 1024 by decide
  drained := rfl

theorem after (opening : Opening) (ops : List Op) :
    Settled (TcpConnection.after opening ops).reassembly :=
  run_invariant (fun conn : TcpConnection => Settled conn.reassembly)
    (fun _ op holds => holds.perform op) (opened opening) ops

end Settled

/-!
# The peer's FIN

`on_established` looks at the FIN flag after `process_data` has run, whatever
`process_data` made of the payload.  The FIN is consumed in order exactly when
the segment ends where the receive side then stands: either it brings nothing
new and already ended there, or its payload is accepted and no buffered
segment carries `rcv_nxt` past its end.
-/

/-- The segment with its FIN flag cleared. -/
def withoutFin (seg : TcpInfo) : TcpInfo :=
  { seg with flags := { seg.flags with fin := false } }

/-- Where the FIN of a segment stands in the peer's sequence space. -/
def finSeq (seg : TcpInfo) (payload : List Byte) : SeqNum :=
  seg.seq + BitVec.ofNat 32 payload.length

/-- If `process` moves `rcv_nxt` or the state beyond what the payload alone
does, then the payload has brought `rcv_nxt` to the FIN. -/
def FinInOrder (conn : TcpConnection) (now : Nat) (seg : TcpInfo) (payload : List Byte) :
    Prop :=
  let mid := (conn.process now (withoutFin seg) payload).1
  let result := (conn.process now seg payload).1
  result.rcvNxt ≠ mid.rcvNxt ∨ result.state ≠ mid.state → mid.rcvNxt = finSeq seg payload

/-- The payload brings `rcv_nxt` to the FIN: nothing is missing before it and
nothing that is buffered reaches past it. -/
def FinReady (conn : TcpConnection) (seg : TcpInfo) (payload : List Byte) : Prop :=
  seg.flags.rst = true ∨ conn.rcvNxt = finSeq seg payload ∨
    ((conn.accepted seg.seq payload).isSome ∧
      ∀ entry ∈ conn.oooSegments.entries, ¬ Covers entry (finSeq seg payload))

theorem rcvNxt_outcome_iff {conn mid : TcpConnection} {seq : SeqNum} {data : List Byte}
    (settled : Settled conn.reassembly) (outcome : conn.Outcome seq data mid) :
    mid.rcvNxt = seq + BitVec.ofNat 32 data.length ↔
      conn.rcvNxt = seq + BitVec.ofNat 32 data.length ∨
        ((conn.accepted seq data).isSome ∧ ∀ entry ∈ conn.oooSegments.entries,
          ¬ Covers entry (seq + BitVec.ofNat 32 data.length)) := by
  rcases outcome with ⟨newData, accept, start, same, _, rfl⟩ | ⟨refused, _, _, same⟩ |
    ⟨refused, _, _, same⟩
  · rcases accepted_eq_some accept with ⟨admitted, _, reaches, rfl, _⟩
    have next : start.rcvNxt = conn.rcvNxt := congrArg ReceiveSide.rcvNxt same
    have segments : start.oooSegments = conn.oooSegments :=
      congrArg ReceiveSide.oooSegments same
    have booked : Booked start.reassembly := by
      unfold TcpConnection.reassembly
      rw [same]
      exact settled.toBooked
    have ahead : conn.rcvNxt ≠ seq + BitVec.ofNat 32 data.length := by
      intro equal
      have after := (admits_eq_true admitted).2.2
      simp [equal, seqAfter, Serial.after] at after
    rw [rcvNxt_acceptData_eq_iff booked (by rw [next]; exact add_drop_length reaches), segments]
    simp [ahead, accept]
  · have next : mid.rcvNxt = conn.rcvNxt := congrArg ReceiveSide.rcvNxt same
    simp [next, refused]
  · have next : mid.rcvNxt = conn.rcvNxt := congrArg ReceiveSide.rcvNxt same
    simp [next, refused]

/-- In every reachable established connection, a segment's FIN is consumed in
order exactly when the connection is ready for it. -/
theorem finInOrder_iff_finReady (opening : Opening) (ops : List Op)
    (established : (after opening ops).state = .established) (now : Nat) (seg : TcpInfo)
    (fin : seg.flags.fin = true) (payload : List Byte) :
    FinInOrder (after opening ops) now seg payload ↔
      FinReady (after opening ops) seg payload := by
  have settled := Settled.after opening ops
  generalize after opening ops = conn at established settled ⊢
  unfold FinInOrder FinReady
  cases reset : seg.flags.rst with
  | true => simp [process, withoutFin, reset]
  | false =>
      have withFin := (process_established now payload established reset).2 fin
      have resetToo : (withoutFin seg).flags.rst = false := reset
      have without := (process_established now payload established resetToo).1 rfl
      have outcome := ((conn.acknowledged now seg).processData_outcome seg.seq payload).congr
        (receiveSide_acknowledged conn now seg) (state_acknowledged conn now seg)
      have midNext : (conn.process now (withoutFin seg) payload).1.rcvNxt =
          ((conn.acknowledged now seg).processData seg.seq payload).1.rcvNxt :=
        congrArg ReceiveSide.rcvNxt without.1
      have resultNext : (conn.process now seg payload).1.rcvNxt =
          ((conn.acknowledged now seg).processData seg.seq payload).1.rcvNxt + 1 :=
        congrArg ReceiveSide.rcvNxt withFin.1
      have moved : (conn.process now seg payload).1.rcvNxt ≠
          (conn.process now (withoutFin seg) payload).1.rcvNxt := by
        rw [midNext, resultNext]
        exact fun equal => absurd (add_eq_left.mp equal) (by decide)
      dsimp only
      rw [imp_iff_right (Or.inl moved), midNext, or_iff_right (by decide)]
      exact rcvNxt_outcome_iff settled outcome

/-- A FIN whose payload is the next data is consumed in order. -/
theorem finInOrder_next_segment :
    (after (.sample 100 {}) establishedSchedule).state = .established ∧
      FinInOrder (after (.sample 100 {}) establishedSchedule) 2 (sampleSegment 101 .finAck)
        [1, 2] :=
  ⟨by decide, (finInOrder_iff_finReady (.sample 100 {}) establishedSchedule (by decide) 2
    (sampleSegment 101 .finAck) (by decide) [1, 2]).mpr (Or.inr (Or.inr (by decide)))⟩

/-- A FIN behind a gap is consumed: the segment is buffered, the ten bytes
before it are missing, and `rcv_nxt` still moves over the first of them. -/
theorem fin_behind_gap_consumed :
    let conn := after (.sample 100 {}) establishedSchedule
    let seg := sampleSegment 111 .finAck
    conn.state = .established ∧ conn.rcvNxt = 101 ∧
      (conn.process 2 (withoutFin seg) [1, 2]).1.rcvNxt = 101 ∧
      (conn.process 2 seg [1, 2]).1.rcvNxt = 102 ∧
      (conn.process 2 seg [1, 2]).1.state = .closeWait ∧
      ¬ FinInOrder conn 2 seg [1, 2] := by
  unfold FinInOrder
  decide

end Corduit.Netstack.Tcp
