import Corduit.Netstack.Tcp.Schedule

/-!
# Integrity of the received stream

The peer sends slices of one byte stream, in any order and with any overlaps.
At every point the connection has consumed a prefix of that stream: `rcv_nxt`
names its length, and the chunks sent to the proxy followed by what is still
pending spell it out.  Buffered segments are slices of the same stream, so the
delivery loop can only extend the prefix.
-/

namespace Corduit.Netstack.Tcp

open Collection Transition Word Word.Serial

/-- Everything sent on the channels of a receive side, in order. -/
def ReceiveSide.sentBytes (side : ReceiveSide) : List Byte :=
  ((side.oldLinks ++ side.proxyTx.toList).flatMap ProxyLink.sent).flatten

/-- Everything sent on the channels of a connection, in order. -/
def TcpConnection.sentBytes (conn : TcpConnection) : List Byte :=
  (conn.links.flatMap ProxyLink.sent).flatten

/-- `data` is the slice of `stream` that starts where `seq` says. -/
def IsSlice (irs : SeqNum) (stream : List Byte) (seq : SeqNum) (data : List Byte) : Prop :=
  ∃ offset, seq = place (irs + 1) offset ∧ offset + data.length ≤ stream.length ∧
    data = (stream.drop offset).take data.length

/-- The receive side has consumed exactly the first `position` bytes. -/
structure StreamAt (irs : SeqNum) (stream : List Byte) (position : Nat)
    (side : ReceiveSide) : Prop where
  within : position ≤ stream.length
  next : side.rcvNxt = place (irs + 1) position
  consumed : side.sentBytes ++ side.pendingData ++ side.recvBuf = stream.take position
  segments : ∀ entry ∈ side.oooSegments.entries,
    IsSlice irs stream entry.1 entry.2 ∧ entry.2 ≠ []
  size : side.oooSize = OrderedMap.weight List.length side.oooSegments
  alive : side.proxyDead = false ∧ ∀ link ∈ side.proxyTx, link.receiverAlive = true
  flushed : side.proxyTx.isSome = true → side.pendingData = []

variable {irs : SeqNum} {stream : List Byte}

theorem take_append_drop_slice {offset position length : Nat}
    (starts : offset ≤ position) (reaches : position ≤ offset + length) :
    stream.take position ++ ((stream.drop offset).take length).drop (position - offset) =
      stream.take (offset + length) := by
  rw [List.drop_take, List.drop_drop, Nat.add_sub_cancel' starts, ← List.take_add]
  congr 1
  omega

namespace StreamAt

variable {position : Nat} {conn : TcpConnection}

variable {seq : SeqNum} {data : List Byte}

theorem append (short : stream.length < 2 ^ 31)
    (holds : StreamAt irs stream position conn.receiveSide) (slice : IsSlice irs stream seq data)
    (starts : TcpConnection.seqBeforeOrEq seq conn.rcvNxt = true)
    (reaches : (conn.rcvNxt - seq).toNat < data.length) :
    ∃ position', StreamAt irs stream position'
      (conn.appendInOrder (data.drop (conn.rcvNxt - seq).toNat)).receiveSide := by
  rcases slice with ⟨offset, rfl, fits, data_eq⟩
  have within := holds.within
  have next : conn.rcvNxt = place (irs + 1) position := holds.next
  have ordered : offset ≤ position := by
    rw [next] at starts
    exact (beforeOrEq_place _ (by omega) (by omega)).mp starts
  have skip : (conn.rcvNxt - place (irs + 1) offset).toNat = position - offset := by
    rw [next, place_sub_place_toNat _ ordered (by omega)]
  rw [skip] at reaches ⊢
  refine ⟨offset + data.length, fits, ?_, ?_, holds.segments, holds.size, holds.alive,
    holds.flushed⟩
  · change conn.rcvNxt + BitVec.ofNat 32 (data.drop (position - offset)).length = _
    rw [next, ← place_add, List.length_drop]
    congr 1
    omega
  · change _ ++ (conn.recvBuf ++ data.drop (position - offset)) = _
    rw [← List.append_assoc]
    apply (congrArg (· ++ _) holds.consumed).trans
    rw [data_eq, List.length_take, List.length_drop,
      Nat.min_eq_left (by omega : data.length ≤ stream.length - offset)]
    exact take_append_drop_slice ordered (by omega)

theorem remove (holds : StreamAt irs stream position conn.receiveSide) {segSeq : SeqNum}
    (member : (segSeq, data) ∈ conn.oooSegments.entries) :
    StreamAt irs stream position (conn.removeSegment segSeq data).receiveSide where
  within := holds.within
  next := holds.next
  consumed := holds.consumed
  segments entry kept := holds.segments entry (OrderedMap.mem_erase.mp kept).1
  size := (TcpConnection.oooSize_removeSegment holds.size member).1
  alive := holds.alive
  flushed := holds.flushed

section

variable (short : stream.length < 2 ^ 31) (holds : StreamAt irs stream position conn.receiveSide)

include short holds

theorem deliverNext {conn' : TcpConnection} (turn : TcpConnection.deliverNext conn = some conn') :
    ∃ position', StreamAt irs stream position' conn'.receiveSide := by
  rcases TcpConnection.deliverNext_eq_some turn with ⟨segSeq, data, member, covers, _, rfl⟩
  rcases holds.segments (segSeq, data) member with ⟨slice, nonempty⟩
  rcases TcpConnection.Covers.overlaps covers nonempty with ⟨starts, reaches⟩
  exact (holds.remove member).append short slice starts reaches

theorem tryDeliverOooSegments :
    ∃ position', StreamAt irs stream position' conn.tryDeliverOooSegments.receiveSide := by
  refine drain_invariant (fun conn : TcpConnection =>
    ∃ position, StreamAt irs stream position conn.receiveSide) ?_ _ ⟨position, holds⟩
  rintro first second turn ⟨position, holds⟩
  exact holds.deliverNext short turn

end

theorem deliver (holds : StreamAt irs stream position conn.receiveSide) :
    StreamAt irs stream position
      ({ conn with recvBuf := [] }.deliverToProxy conn.recvBuf).receiveSide ∧
    ({ conn with recvBuf := [] }.deliverToProxy conn.recvBuf).recvBuf = [] := by
  unfold TcpConnection.deliverToProxy
  split
  · rename_i empty
    have empty : conn.recvBuf = [] := by simpa using empty
    refine ⟨⟨holds.within, holds.next, ?_, holds.segments, holds.size, holds.alive,
      holds.flushed⟩, rfl⟩
    have consumed := holds.consumed
    simpa [TcpConnection.receiveSide, ReceiveSide.sentBytes, empty] using consumed
  · split
    · rename_i unattached
      refine ⟨⟨holds.within, holds.next, ?_, holds.segments, holds.size, holds.alive, ?_⟩, rfl⟩
      · have consumed := holds.consumed
        simpa [TcpConnection.receiveSide, ReceiveSide.sentBytes] using consumed
      · intro attached
        simp [TcpConnection.receiveSide, show conn.proxyTx = none from unattached] at attached
    · rename_i link attached
      have receiver : link.receiverAlive = true := holds.alive.2 link attached
      have flushed : conn.pendingData = [] :=
        holds.flushed (by simp [TcpConnection.receiveSide, show conn.proxyTx = _ from attached])
      rw [TcpConnection.handOff_of_alive attached receiver]
      refine ⟨⟨holds.within, holds.next, ?_, holds.segments, holds.size, ?_, ?_⟩, rfl⟩
      · have consumed := holds.consumed
        simpa [TcpConnection.receiveSide, ReceiveSide.sentBytes, flushed,
          show conn.proxyTx = _ from attached] using consumed
      · exact ⟨holds.alive.1, by simpa [TcpConnection.receiveSide] using receiver⟩
      · exact fun _ => flushed

theorem acceptData (short : stream.length < 2 ^ 31)
    (holds : StreamAt irs stream position conn.receiveSide) (slice : IsSlice irs stream seq data)
    (starts : TcpConnection.seqBeforeOrEq seq conn.rcvNxt = true)
    (reaches : (conn.rcvNxt - seq).toNat < data.length) :
    (∃ position', StreamAt irs stream position'
      (conn.acceptData (data.drop (conn.rcvNxt - seq).toNat)).receiveSide) ∧
    (conn.acceptData (data.drop (conn.rcvNxt - seq).toNat)).recvBuf = [] := by
  rcases holds.append short slice starts reaches with ⟨_, appended⟩
  rcases appended.tryDeliverOooSegments short with ⟨position', delivered⟩
  rcases delivered.deliver with ⟨final, empty⟩
  rw [TcpConnection.acceptData_eq]
  exact ⟨⟨position', final⟩, empty⟩

variable (holds : StreamAt irs stream position conn.receiveSide)

include holds

theorem buffer (slice : IsSlice irs stream seq data) (nonempty : data ≠ [])
    (vacant : conn.oooSegments.get? seq = none) :
    StreamAt irs stream position (conn.storeSegment seq data).receiveSide where
  within := holds.within
  next := holds.next
  consumed := holds.consumed
  segments entry member := by
    rcases (OrderedMap.mem_insert_of_vacant vacant data).mp member with rfl | member
    · exact ⟨slice, nonempty⟩
    · exact holds.segments entry member
  size := by
    have size : conn.oooSize = OrderedMap.weight List.length conn.oooSegments := holds.size
    have inserted := OrderedMap.weight_insert List.length vacant data
    change conn.oooSize + data.length =
      OrderedMap.weight List.length (conn.oooSegments.insert seq data)
    omega
  alive := holds.alive
  flushed := holds.flushed

theorem setProxyTx :
    StreamAt irs stream position (conn.setProxyTx true).receiveSide ∧
      (conn.setProxyTx true).recvBuf = conn.recvBuf := by
  have consumed := holds.consumed
  unfold TcpConnection.setProxyTx TcpConnection.flushPending
  split
  · rename_i empty
    have empty : conn.pendingData = [] := by simpa [TcpConnection.attach] using empty
    refine ⟨⟨holds.within, holds.next, ?_, holds.segments, holds.size, ?_, fun _ => empty⟩, rfl⟩
    · simpa [TcpConnection.receiveSide, TcpConnection.attach, ReceiveSide.sentBytes,
        ProxyLink.fresh] using consumed
    · exact ⟨holds.alive.1, by simp [TcpConnection.receiveSide, TcpConnection.attach,
        ProxyLink.fresh]⟩
  · have attached : { conn.attach true with pendingData := [] }.proxyTx =
        some (ProxyLink.fresh true) := rfl
    rw [TcpConnection.handOff_of_alive attached rfl]
    refine ⟨⟨holds.within, holds.next, ?_, holds.segments, holds.size, ?_, fun _ => rfl⟩, rfl⟩
    · simpa [TcpConnection.receiveSide, TcpConnection.attach, ReceiveSide.sentBytes,
        ProxyLink.fresh] using consumed
    · exact ⟨holds.alive.1, by simp [TcpConnection.receiveSide, TcpConnection.attach,
        ProxyLink.fresh]⟩

/-- A writer step that neither sends nor drops the receiver keeps the stream. -/
theorem modifyLink {update : ProxyLink → ProxyLink} (sent : ∀ link, (update link).sent = link.sent)
    (receiver : ∀ link, (update link).receiverAlive = link.receiverAlive) (index : Nat) :
    StreamAt irs stream position (conn.modifyLink index update).receiveSide := by
  have links : (conn.modifyLink index update).sentBytes = conn.sentBytes := by
    simp only [TcpConnection.sentBytes, TcpConnection.links_modifyLink, List.flatMap_def,
      map_modify_of_same fun link _ => sent link]
  rw [(conn.modifyLink_frame index update).receiveSide_eq]
  refine ⟨holds.within, holds.next, ?_, holds.segments, holds.size, ⟨holds.alive.1, ?_⟩, ?_⟩
  · exact (congrArg (· ++ conn.pendingData ++ conn.recvBuf) links).trans holds.consumed
  · intro link attached
    rcases conn.proxyTx_modifyLink index update with same | updated
    · exact holds.alive.2 link (same.symm.trans attached)
    · rcases Option.map_eq_some_iff.mp (updated.symm.trans attached) with ⟨old, wasAttached, rfl⟩
      rw [receiver]
      exact holds.alive.2 old wasAttached
  · intro attached
    change (conn.modifyLink index update).proxyTx.isSome = true at attached
    apply holds.flushed
    change conn.proxyTx.isSome = true
    rcases conn.proxyTx_modifyLink index update with same | updated
    · simpa [same] using attached
    · simpa [updated] using attached

theorem receive (index : Nat) :
    StreamAt irs stream position (conn.receive index).receiveSide := by
  refine holds.modifyLink ?_ ?_ index
  · intro link
    unfold ProxyLink.receiveNext
    split <;> rfl
  · intro link
    unfold ProxyLink.receiveNext
    split <;> rfl

theorem take (index : Nat) :
    StreamAt irs stream position (conn.take index).receiveSide := by
  refine holds.modifyLink ?_ ?_ index
  · intro link
    unfold ProxyLink.takeNext
    split
    · rfl
    · split <;> rfl
  · intro link
    unfold ProxyLink.takeNext
    split
    · rfl
    · split <;> rfl

theorem releaseHeld (index : Nat) :
    StreamAt irs stream position (conn.releaseHeld index).receiveSide := by
  unfold TcpConnection.releaseHeld
  split
  · exact holds
  · split
    · refine StreamAt.modifyLink ?_ ?_ ?_ index
      · exact ⟨holds.within, holds.next, holds.consumed, holds.segments, holds.size,
          holds.alive, holds.flushed⟩
      · exact fun _ => rfl
      · exact fun _ => rfl
    · exact holds

end StreamAt

/-- Between two operations the receive side has consumed some prefix of the
stream and the receive buffer is empty. -/
structure Streaming (irs : SeqNum) (stream : List Byte) (side : ReceiveSide) : Prop where
  position : ∃ position, StreamAt irs stream position side
  drained : side.recvBuf = []

/-- The operations of a peer that sends slices of `stream`, and of a proxy
whose receiver and writer stay alive. -/
def StreamOp (irs : SeqNum) (stream : List Byte) : Op → Prop
  | .process _ seg payload =>
      seg.flags.rst = false ∧ seg.flags.fin = false ∧ IsSlice irs stream seg.seq payload
  | .processData seq data => IsSlice irs stream seq data
  | .setProxyTx receiverAlive => receiverAlive = true
  | .dropWriter _ => False
  | .dropReceiver _ => False
  | _ => True

namespace Streaming

variable {conn : TcpConnection}

theorem processData (short : stream.length < 2 ^ 31)
    (holds : Streaming irs stream conn.receiveSide) {seq : SeqNum} {data : List Byte}
    (slice : IsSlice irs stream seq data) :
    Streaming irs stream (conn.processData seq data).1.receiveSide := by
  rcases holds.position with ⟨position, at_⟩
  rcases conn.processData_outcome seq data with
    ⟨newData, accept, start, same, _, result⟩ | ⟨_, buffer, _, result⟩ | ⟨_, _, _, result⟩
  · rcases TcpConnection.accepted_eq_some accept with ⟨_, starts, reaches, rfl, _⟩
    have next : start.rcvNxt = conn.rcvNxt := congrArg ReceiveSide.rcvNxt same
    rw [← next] at starts reaches result
    rw [← same] at at_
    rcases at_.acceptData short slice starts reaches with ⟨advanced, drained⟩
    rw [result]
    exact ⟨advanced, drained⟩
  · rcases TcpConnection.buffers_eq_true buffer with ⟨admitted, _, _, vacant⟩
    have nonempty := (TcpConnection.admits_eq_true admitted).1
    rw [result]
    exact ⟨⟨position, at_.buffer slice nonempty vacant⟩, holds.drained⟩
  · rw [result]
    exact holds

theorem process (short : stream.length < 2 ^ 31)
    (holds : Streaming irs stream conn.receiveSide) (now : Nat) {seg : TcpInfo}
    {payload : List Byte} (noReset : seg.flags.rst = false) (noFin : seg.flags.fin = false)
    (slice : IsSlice irs stream seg.seq payload) :
    Streaming irs stream (conn.process now seg payload).1.receiveSide := by
  by_cases established : conn.state = .established
  · have step := TcpConnection.process_established now payload established noReset
    rw [(step.1 noFin).1]
    refine Streaming.processData short ?_ slice
    rwa [TcpConnection.receiveSide_acknowledged]
  · rcases TcpConnection.process_ignores_payload now payload (Or.inl established) with
      ⟨same, _⟩ | ⟨_, fin, _⟩
    · rwa [same]
    · simp [noFin] at fin

theorem writerStep {conn' : TcpConnection} {position : Nat}
    (holds : Streaming irs stream conn.receiveSide)
    (same : TcpConnection.SameButProxy conn conn')
    (at_ : StreamAt irs stream position conn'.receiveSide) :
    Streaming irs stream conn'.receiveSide where
  position := ⟨position, at_⟩
  drained := (congrArg ReceiveSide.recvBuf same.receiveSide_eq).trans holds.drained

theorem perform (short : stream.length < 2 ^ 31)
    (holds : Streaming irs stream conn.receiveSide) {op : Op}
    (admissible : StreamOp irs stream op) :
    Streaming irs stream (conn.perform op).receiveSide := by
  rcases holds.position with ⟨position, at_⟩
  have drained : conn.recvBuf = [] := holds.drained
  cases op with
  | process now seg payload =>
      exact holds.process short now admissible.1 admissible.2.1 admissible.2.2
  | processData seq data => exact holds.processData short admissible
  | setProxyTx receiverAlive =>
      obtain rfl : receiverAlive = true := admissible
      exact ⟨⟨position, at_.setProxyTx.1⟩, at_.setProxyTx.2.trans drained⟩
  | setWebsocket isWs =>
      change Streaming irs stream (conn.setWebsocket isWs).receiveSide
      rw [TcpConnection.receiveSide_setWebsocket]
      exact ⟨⟨position, at_.within, at_.next, at_.consumed, at_.segments, at_.size, at_.alive,
        at_.flushed⟩, drained⟩
  | advanceSndNxt len => exact holds
  | send data => exact holds
  | getSendData =>
      change Streaming irs stream conn.getSendData.1.receiveSide
      rwa [TcpConnection.receiveSide_getSendData]
  | close =>
      change Streaming irs stream conn.close.1.receiveSide
      rwa [TcpConnection.receiveSide_close]
  | receive index =>
      exact holds.writerStep (conn.receive_frame index) (at_.receive index)
  | take index =>
      exact holds.writerStep (conn.take_frame index) (at_.take index)
  | written index =>
      change Streaming irs stream (conn.written index).receiveSide
      unfold TcpConnection.written
      split
      · exact holds.writerStep (conn.releaseHeld_frame index) (at_.releaseHeld index)
      · exact holds
  | dropWriter index => exact absurd admissible id
  | dropReceiver index => exact absurd admissible id

theorem opened (opening : TcpConnection.Opening) (stream : List Byte) :
    Streaming opening.theirSeq stream (TcpConnection.opened opening).receiveSide where
  position := ⟨0, Nat.zero_le _, by simp [TcpConnection.opened, TcpConnection.newPassive,
    TcpConnection.receiveSide], rfl, by simp [TcpConnection.opened, TcpConnection.newPassive,
    TcpConnection.receiveSide], rfl, ⟨rfl, by simp [TcpConnection.opened,
    TcpConnection.newPassive, TcpConnection.receiveSide]⟩, fun _ => rfl⟩
  drained := rfl

end Streaming

/-- The chunks sent to the proxy followed by the pending bytes are exactly the
part of the peer's stream that `rcv_nxt` acknowledges.  The receive buffer is
empty between operations and the reassembly size is the sum of what is
buffered. -/
theorem stream_integrity (opening : TcpConnection.Opening) (stream : List Byte)
    (short : stream.length < 2 ^ 31) (ops : List Op)
    (admissible : ∀ op ∈ ops, StreamOp opening.theirSeq stream op) :
    let conn := TcpConnection.after opening ops
    let position := (conn.rcvNxt - (opening.theirSeq + 1)).toNat
    position ≤ stream.length ∧
      conn.sentBytes ++ conn.pendingData = stream.take position ∧
      conn.recvBuf = [] ∧
      conn.oooSize = OrderedMap.weight List.length conn.oooSegments := by
  have holds : Streaming opening.theirSeq stream
      (TcpConnection.after opening ops).receiveSide :=
    run_invariant_of_meets
      (fun conn : TcpConnection => Streaming opening.theirSeq stream conn.receiveSide)
      (fun _ _ holds admissible => holds.perform short admissible)
      (Streaming.opened opening stream) (runMeets_of_forall admissible _)
  rcases holds with ⟨⟨position, at_⟩, drained⟩
  have next : (TcpConnection.after opening ops).rcvNxt =
      place (opening.theirSeq + 1) position := at_.next
  have offset : ((TcpConnection.after opening ops).rcvNxt - (opening.theirSeq + 1)).toNat =
      position := by
    have within := at_.within
    have distance := place_sub_place_toNat (opening.theirSeq + 1) (Nat.zero_le position)
      (by omega)
    rw [next]
    simpa using distance
  dsimp only
  rw [offset]
  refine ⟨at_.within, ?_, drained, at_.size⟩
  have consumed := at_.consumed
  rw [drained, List.append_nil] at consumed
  exact consumed

/-- Reordered and overlapping slices of a six-byte stream whose sequence
numbers wrap after two bytes, with the proxy attached halfway. -/
def wrappingSchedule : List Op :=
  [.process 1 (TcpConnection.sampleSegment 0xFFFFFFFE .ackOnly) [],
    .process 2 (TcpConnection.sampleSegment 0 .pshAck) [3, 4],
    .process 3 (TcpConnection.sampleSegment 0xFFFFFFFE .pshAck) [1],
    .setProxyTx true,
    .receive 0, .take 0, .written 0,
    .process 4 (TcpConnection.sampleSegment 0xFFFFFFFE .pshAck) [1, 2, 3],
    .process 5 (TcpConnection.sampleSegment 1 .pshAck) [4, 5, 6]]

theorem stream_integrity_wrapping :
    let conn := TcpConnection.after (.sample 0xFFFFFFFD {}) wrappingSchedule
    let position := (conn.rcvNxt - (0xFFFFFFFD + 1)).toNat
    (position ≤ 6 ∧ conn.sentBytes ++ conn.pendingData = [1, 2, 3, 4, 5, 6].take position ∧
      conn.recvBuf = [] ∧
      conn.oooSize = OrderedMap.weight List.length conn.oooSegments) ∧
    conn.state = .established ∧ position = 6 := by
  refine ⟨stream_integrity (.sample 0xFFFFFFFD {}) [1, 2, 3, 4, 5, 6] (by decide)
    wrappingSchedule ?_, by decide, by decide⟩
  simp only [wrappingSchedule, List.forall_mem_cons, StreamOp, List.not_mem_nil,
    IsEmpty.forall_iff, implies_true, and_true, true_and]
  refine ⟨⟨rfl, rfl, 0, ?_⟩, ⟨rfl, rfl, 2, ?_⟩, ⟨rfl, rfl, 0, ?_⟩, ⟨rfl, rfl, 0, ?_⟩,
    ⟨rfl, rfl, 3, ?_⟩⟩ <;> decide

end Corduit.Netstack.Tcp
