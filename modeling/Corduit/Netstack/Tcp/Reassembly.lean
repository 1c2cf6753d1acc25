import Corduit.Netstack.Tcp.Core

/-!
# What one data segment does to a connection

`process_data` either accepts new bytes at `rcv_nxt`, or puts the whole
segment into the reassembly buffer, or leaves the receive side alone.  Which of
the three happens is a function of the state before the call (`accepted`,
`buffers`); `processData_cases` says so once, and every invariant of the
receive side is derived from it and from the description of one turn of the
delivery loop.
-/

namespace Corduit.Netstack.Tcp

open Collection Transition Word

/-- The fields of a connection that carry received data. -/
structure ReceiveSide where
  rcvNxt : SeqNum
  recvBuf : List Byte
  pendingData : List Byte
  oooSegments : OrderedMap SeqNum (List Byte)
  maxOooSize : Nat
  oooSize : Nat
  bytesRx : Nat
  proxyTx : Option ProxyLink
  oldLinks : List ProxyLink
  proxyInflight : Nat
  proxyAlive : Bool
  proxyDead : Bool
  maxRecvBuffer : Nat

namespace TcpConnection

/-- The receive side of a connection. -/
def receiveSide (conn : TcpConnection) : ReceiveSide where
  rcvNxt := conn.rcvNxt
  recvBuf := conn.recvBuf
  pendingData := conn.pendingData
  oooSegments := conn.oooSegments
  maxOooSize := conn.maxOooSize
  oooSize := conn.oooSize
  bytesRx := conn.bytesRx
  proxyTx := conn.proxyTx
  oldLinks := conn.oldLinks
  proxyInflight := conn.proxyInflight
  proxyAlive := conn.proxyAlive
  proxyDead := conn.proxyDead
  maxRecvBuffer := conn.config.maxRecvBuffer

@[simp]
theorem receiveSide_updateRecvWindow (conn : TcpConnection) :
    conn.updateRecvWindow.receiveSide = conn.receiveSide :=
  rfl

@[simp]
theorem receiveSide_processAck (conn : TcpConnection) (ack : SeqNum) :
    (conn.processAck ack).receiveSide = conn.receiveSide := by
  unfold processAck
  split <;> rfl

theorem SameButProxy.receiveSide_eq {conn conn' : TcpConnection}
    (same : SameButProxy conn conn') :
    conn'.receiveSide = { conn.receiveSide with
      oldLinks := conn'.oldLinks
      proxyTx := conn'.proxyTx
      proxyInflight := conn'.proxyInflight
      proxyAlive := conn'.proxyAlive } := by
  unfold SameButProxy at same
  rw [same]
  rfl

/-- Where a buffered segment ends. -/
def segmentEnd (entry : SeqNum × List Byte) : SeqNum :=
  entry.1 + BitVec.ofNat 32 entry.2.length

/-- The delivery loop can take this segment when it stands at `rcvNxt`. -/
def Covers (entry : SeqNum × List Byte) (rcvNxt : SeqNum) : Prop :=
  entry.1 = rcvNxt ∨
    (seqBeforeOrEq entry.1 rcvNxt = true ∧ seqAfter (segmentEnd entry) rcvNxt = true ∧
      (rcvNxt - entry.1).toNat < entry.2.length)

instance (entry : SeqNum × List Byte) (rcvNxt : SeqNum) : Decidable (Covers entry rcvNxt) :=
  inferInstanceAs (Decidable (_ ∨ _))

/-- A segment that the delivery loop can take starts at or before `rcv_nxt` and
contributes at least one byte. -/
theorem Covers.overlaps {entry : SeqNum × List Byte} {rcvNxt : SeqNum}
    (covers : Covers entry rcvNxt) (nonempty : entry.2 ≠ []) :
    seqBeforeOrEq entry.1 rcvNxt = true ∧ (rcvNxt - entry.1).toNat < entry.2.length := by
  rcases covers with exact | ⟨starts, _, reaches⟩
  · constructor
    · simp [seqBeforeOrEq, Serial.beforeOrEq, exact]
    · simpa [exact] using List.length_pos_of_ne_nil nonempty
  · exact ⟨starts, reaches⟩

section

variable {segments : OrderedMap SeqNum (List Byte)}

theorem findStraddling_eq_some {rcvNxt segSeq : SeqNum} {skip : Nat}
    (found : findStraddling segments rcvNxt = some (segSeq, skip)) :
    ∃ data, (segSeq, data) ∈ segments.entries ∧ skip = (rcvNxt - segSeq).toNat ∧
      Covers (segSeq, data) rcvNxt := by
  rcases List.exists_of_findSome?_eq_some found with ⟨⟨key, data⟩, member, matched⟩
  simp only at matched
  split at matched
  · rename_i straddles
    split at matched
    · rename_i short
      obtain ⟨rfl, rfl⟩ : key = segSeq ∧ (rcvNxt - key).toNat = skip := by
        simpa using matched
      have comparisons := Bool.and_eq_true_iff.mp straddles
      exact ⟨data, member, rfl, Or.inr ⟨comparisons.1, comparisons.2, short⟩⟩
    · contradiction
  · contradiction

theorem findStraddling_eq_none {rcvNxt : SeqNum} (absent : findStraddling segments rcvNxt = none)
    {entry : SeqNum × List Byte} (member : entry ∈ segments.entries) :
    ¬ (seqBeforeOrEq entry.1 rcvNxt = true ∧ seqAfter (segmentEnd entry) rcvNxt = true ∧
      (rcvNxt - entry.1).toNat < entry.2.length) := by
  rintro ⟨starts, ends, short⟩
  have skipped := List.findSome?_eq_none_iff.mp absent entry member
  change (if _ then if _ then _ else _ else _) = none at skipped
  rw [if_pos (by simpa [segmentEnd] using And.intro starts ends), if_pos short] at skipped
  contradiction

/-- The segment the loop takes is in the buffer, covers `rcvNxt`, and loses
exactly the bytes that precede it. -/
theorem nextSegment_eq_some {rcvNxt segSeq : SeqNum} {data : List Byte} {skip : Nat}
    (found : nextSegment segments rcvNxt = some (segSeq, data, skip)) :
    (segSeq, data) ∈ segments.entries ∧ skip = (rcvNxt - segSeq).toNat ∧
      Covers (segSeq, data) rcvNxt := by
  unfold nextSegment at found
  cases exact : segments.get? rcvNxt with
  | some present =>
      rw [exact] at found
      obtain ⟨rfl, rfl, rfl⟩ : rcvNxt = segSeq ∧ present = data ∧ 0 = skip := by
        simpa using found
      exact ⟨OrderedMap.mem_of_get? exact, by simp, Or.inl rfl⟩
  | none =>
      rw [exact] at found
      cases straddling : findStraddling segments rcvNxt with
      | none => simp [straddling] at found
      | some hit =>
          rcases hit with ⟨key, skipped⟩
          simp only [straddling, Option.map_eq_some_iff, Prod.mk.injEq] at found
          rcases found with ⟨stored, lookup, rfl, rfl, rfl⟩
          rcases findStraddling_eq_some straddling with ⟨other, member, skip_eq, covers⟩
          have same : other = stored :=
            OrderedMap.value_unique member (OrderedMap.mem_of_get? lookup)
          subst other
          exact ⟨member, skip_eq, covers⟩

/-- The loop stops exactly when no buffered segment covers `rcvNxt`. -/
theorem nextSegment_eq_none_iff {rcvNxt : SeqNum} :
    nextSegment segments rcvNxt = none ↔
      ∀ entry ∈ segments.entries, ¬ Covers entry rcvNxt := by
  constructor
  · intro stopped entry member covers
    unfold nextSegment at stopped
    cases exact : segments.get? rcvNxt with
    | some present => simp [exact] at stopped
    | none =>
        have different := OrderedMap.get?_eq_none_iff.mp exact entry member
        have straddles := covers.resolve_left different
        simp only [exact] at stopped
        cases straddling : findStraddling segments rcvNxt with
        | none => exact findStraddling_eq_none straddling member straddles
        | some hit =>
            rcases hit with ⟨key, skip⟩
            rcases findStraddling_eq_some straddling with ⟨data, hitMember, _⟩
            rw [straddling] at stopped
            simp [OrderedMap.get?_eq_some_iff.mpr hitMember] at stopped
  · intro uncovered
    cases found : nextSegment segments rcvNxt with
    | none => rfl
    | some hit =>
        rcases hit with ⟨key, data, skip⟩
        rcases nextSegment_eq_some found with ⟨member, _, covers⟩
        exact absurd covers (uncovered (key, data) member)

end

/-- One turn of the delivery loop takes one covering segment. -/
theorem deliverNext_eq_some {conn conn' : TcpConnection}
    (turn : deliverNext conn = some conn') :
    ∃ segSeq data, (segSeq, data) ∈ conn.oooSegments.entries ∧
      Covers (segSeq, data) conn.rcvNxt ∧
      nextSegment conn.oooSegments conn.rcvNxt =
        some (segSeq, data, (conn.rcvNxt - segSeq).toNat) ∧
      conn' = (conn.removeSegment segSeq data).appendInOrder
        (data.drop (conn.rcvNxt - segSeq).toNat) := by
  rcases Option.map_eq_some_iff.mp turn with ⟨⟨segSeq, data, skip⟩, found, rfl⟩
  rcases nextSegment_eq_some found with ⟨member, rfl, covers⟩
  exact ⟨segSeq, data, member, covers, found, rfl⟩

variable {conn : TcpConnection} {data : List Byte}

theorem deliverNext_eq_none_iff :
    deliverNext conn = none ↔
      ∀ entry ∈ conn.oooSegments.entries, ¬ Covers entry conn.rcvNxt := by
  rw [← nextSegment_eq_none_iff]
  exact Option.map_eq_none_iff

theorem tryDeliverOooSegments_stops (conn : TcpConnection) :
    ∀ entry ∈ conn.tryDeliverOooSegments.oooSegments.entries,
      ¬ Covers entry conn.tryDeliverOooSegments.rcvNxt := by
  rw [← deliverNext_eq_none_iff]
  refine drain_terminal (fun conn => conn.oooSegments.entries.length) ?_ _ le_rfl
  intro conn conn' turn
  rcases deliverNext_eq_some turn with ⟨segSeq, data, member, _, _, rfl⟩
  exact conn.oooSegments.length_erase_lt member

/-- The size stays exact when a stored segment is removed, and its subtraction
does not wrap. -/
theorem oooSize_removeSegment {segSeq : SeqNum}
    (size : conn.oooSize = OrderedMap.weight List.length conn.oooSegments)
    (member : (segSeq, data) ∈ conn.oooSegments.entries) :
    (conn.removeSegment segSeq data).oooSize =
        OrderedMap.weight List.length (conn.oooSegments.erase segSeq) ∧
      conn.oooSize = data.length + (conn.removeSegment segSeq data).oooSize := by
  have split := OrderedMap.weight_erase List.length conn.oooSegments member
  change wrappingSub conn.oooSize data.length = _ ∧
    conn.oooSize = data.length + wrappingSub conn.oooSize data.length
  rw [wrappingSub_of_le (by omega)]
  omega

/-- Nothing but the reassembly fields differs. -/
def SameButReassembly (conn conn' : TcpConnection) : Prop :=
  conn' = { conn with
    oooSegments := conn'.oooSegments
    oooSize := conn'.oooSize
    recvBuf := conn'.recvBuf
    rcvNxt := conn'.rcvNxt
    bytesRx := conn'.bytesRx }

theorem tryDeliverOooSegments_frame (conn : TcpConnection) :
    SameButReassembly conn conn.tryDeliverOooSegments := by
  refine drain_invariant (SameButReassembly conn) ?_ _ rfl
  intro first second turn same
  rcases deliverNext_eq_some turn with ⟨segSeq, data, _, _, _, rfl⟩
  unfold SameButReassembly at same ⊢
  rw [same]
  rfl

theorem acceptData_eq (conn : TcpConnection) (newData : List Byte) :
    conn.acceptData newData =
      let gathered := (conn.appendInOrder newData).tryDeliverOooSegments
      ({ gathered with recvBuf := [] }.deliverToProxy gathered.recvBuf).updateRecvWindow := by
  simp only [acceptData, deliverToProxy]
  split <;> rfl

theorem handOff_of_alive {link : ProxyLink} (attached : conn.proxyTx = some link)
    (alive : link.receiverAlive = true) (data : List Byte) :
    conn.handOff data = { conn with
      proxyTx := some { link with sent := link.sent ++ [data] }
      proxyInflight := conn.proxyInflight + data.length } := by
  simp [handOff, reserve, channelSend, attached, alive]

/-- On a channel without a receiver the count is taken back, which restores it,
and the proxy is marked dead. -/
theorem handOff_of_gone (gone : ∀ link, conn.proxyTx = some link → link.receiverAlive = false)
    (data : List Byte) :
    conn.handOff data = { conn with proxyDead := true } := by
  have restored : wrappingSub (conn.proxyInflight + data.length) data.length =
      conn.proxyInflight := by
    rw [wrappingSub_of_le (Nat.le_add_left _ _)]
    omega
  cases attached : conn.proxyTx with
  | none => simp [handOff, reserve, channelSend, rollback, attached, restored]
  | some link =>
      simp [handOff, reserve, channelSend, rollback, attached, gone link attached, restored]

/-- Nothing but the fields of the hand-off to the proxy differs. -/
def SameButHandOff (conn conn' : TcpConnection) : Prop :=
  conn' = { conn with
    pendingData := conn'.pendingData
    oldLinks := conn'.oldLinks
    proxyTx := conn'.proxyTx
    proxyInflight := conn'.proxyInflight
    proxyAlive := conn'.proxyAlive
    proxyDead := conn'.proxyDead }

theorem handOff_frame (conn : TcpConnection) (data : List Byte) :
    SameButHandOff conn (conn.handOff data) := by
  by_cases live : ∃ link, conn.proxyTx = some link ∧ link.receiverAlive = true
  · rcases live with ⟨link, attached, alive⟩
    rw [handOff_of_alive attached alive]
    rfl
  · rw [handOff_of_gone (by simpa using live)]
    rfl

theorem deliverToProxy_frame (conn : TcpConnection) (data : List Byte) :
    SameButHandOff conn (conn.deliverToProxy data) := by
  unfold deliverToProxy
  split
  · rfl
  · split
    · rfl
    · exact conn.handOff_frame data

theorem SameButHandOff.trans {first second third : TcpConnection}
    (before : SameButHandOff first second) (after : SameButHandOff second third) :
    SameButHandOff first third := by
  unfold SameButHandOff at before after ⊢
  rw [after, before]

theorem flushPending_frame (conn : TcpConnection) :
    SameButHandOff conn conn.flushPending := by
  unfold flushPending
  split
  · rfl
  · refine SameButHandOff.trans ?_ (handOff_frame _ _)
    rfl

theorem setProxyTx_frame (conn : TcpConnection) (receiverAlive : Bool) :
    SameButHandOff conn (conn.setProxyTx receiverAlive) := by
  have attached : SameButHandOff conn (conn.attach receiverAlive) := rfl
  apply (attached.trans (flushPending_frame _)).trans
  rfl

/-- The segment is neither empty, nor refused because the proxy is gone, nor a
complete retransmission. -/
def admits (conn : TcpConnection) (seq : SeqNum) (data : List Byte) : Bool :=
  !data.isEmpty && !conn.proxyIsGone &&
    !seqBeforeOrEq (seq + BitVec.ofNat 32 data.length) conn.rcvNxt

/-- The new bytes that a segment contributes at `rcvNxt`, if it is accepted. -/
def accepted (conn : TcpConnection) (seq : SeqNum) (data : List Byte) :
    Option (List Byte) :=
  if !conn.admits seq data then
    none
  else if seq = conn.rcvNxt then
    if conn.hasRoomFor data.length then some data else none
  else if seqBefore seq conn.rcvNxt &&
      seqAfter (seq + BitVec.ofNat 32 data.length) conn.rcvNxt then
    let skip := (conn.rcvNxt - seq).toNat
    if skip < data.length ∧ conn.hasRoomFor (data.drop skip).length then
      some (data.drop skip)
    else
      none
  else
    none

/-- The segment lies in the future and fits into the reassembly buffer. -/
def buffers (conn : TcpConnection) (seq : SeqNum) (data : List Byte) : Bool :=
  conn.admits seq data && seqAfter seq conn.rcvNxt &&
    decide (conn.oooSize + data.length ≤ conn.maxOooSize) &&
    (conn.oooSegments.get? seq).isNone

/-- The call accepted `newData` on top of the receive side it started from. -/
def AcceptedBy (conn : TcpConnection) (newData : List Byte) (result : TcpConnection) :
    Prop :=
  ∃ start : TcpConnection, start.receiveSide = conn.receiveSide ∧
    start.state = conn.state ∧ result = start.acceptData newData

/-- The call put the whole segment into the reassembly buffer. -/
def BufferedBy (conn : TcpConnection) (seq : SeqNum) (data : List Byte)
    (result : TcpConnection) : Prop :=
  result.state = conn.state ∧ result.receiveSide = (conn.storeSegment seq data).receiveSide

/-- The call left the receive side alone; it may have closed the connection. -/
def UnchangedBy (conn result : TcpConnection) : Prop :=
  (result.state = conn.state ∨ result.state = .closed) ∧
    result.receiveSide = conn.receiveSide

@[simp]
theorem rcvNxt_updateRecvWindow (conn : TcpConnection) :
    conn.updateRecvWindow.rcvNxt = conn.rcvNxt :=
  rfl

@[simp]
theorem hasRoomFor_updateRecvWindow (conn : TcpConnection) (len : Nat) :
    conn.updateRecvWindow.hasRoomFor len = conn.hasRoomFor len :=
  rfl

theorem seqAfter_eq_not (first second : SeqNum) :
    seqAfter first second = !seqBeforeOrEq first second :=
  Serial.after_eq_not_beforeOrEq first second

theorem processData_of_not_admits {seq : SeqNum} (refused : conn.admits seq data = false) :
    conn.UnchangedBy (conn.processData seq data).1 := by
  unfold processData
  split
  · exact ⟨Or.inl rfl, rfl⟩
  · split
    · exact ⟨Or.inr rfl, rfl⟩
    · rename_i nonempty present
      have old : seqBeforeOrEq (seq + BitVec.ofNat 32 data.length) conn.rcvNxt = true := by
        simpa [admits, nonempty, present] using refused
      simp only [rcvNxt_updateRecvWindow, old, if_true]
      exact ⟨Or.inl rfl, rfl⟩

theorem processData_of_admits {seq : SeqNum} (admitted : conn.admits seq data = true) :
    conn.processData seq data =
      if seq = conn.rcvNxt then
        if !conn.hasRoomFor data.length then
          (conn.updateRecvWindow, .sendAck)
        else
          ({ conn.updateRecvWindow with dupAckCount := 0 }.acceptData data, .sendAck)
      else if seqBefore seq conn.rcvNxt &&
          seqAfter (seq + BitVec.ofNat 32 data.length) conn.rcvNxt then
        if (conn.rcvNxt - seq).toNat < data.length then
          if !conn.hasRoomFor (data.drop (conn.rcvNxt - seq).toNat).length then
            (conn.updateRecvWindow, .sendAck)
          else
            (conn.updateRecvWindow.acceptData (data.drop (conn.rcvNxt - seq).toNat), .sendAck)
        else
          (conn.updateRecvWindow, .sendAck)
      else if seqAfter seq conn.rcvNxt then
        if conn.oooSize + data.length ≤ conn.maxOooSize then
          match conn.oooSegments.get? seq with
          | none =>
              ({ conn.updateRecvWindow with
                 dupAckCount := conn.dupAckCount + 1 }.storeSegment seq data, .sendAck)
          | some _ =>
              ({ conn.updateRecvWindow with dupAckCount := conn.dupAckCount + 1 }, .sendAck)
        else
          ({ conn.updateRecvWindow with dupAckCount := conn.dupAckCount + 1 }, .sendAck)
      else
        (conn.updateRecvWindow, .sendAck) := by
  simp only [admits, Bool.and_eq_true, Bool.not_eq_true'] at admitted
  rcases admitted with ⟨⟨nonempty, present⟩, fresh⟩
  simp only [processData, nonempty, present, rcvNxt_updateRecvWindow, fresh,
    Bool.false_eq_true, if_false, hasRoomFor_updateRecvWindow]
  rfl

/-- The three outcomes of a data segment, each with the condition on the state
before the call that selects it. -/
def Outcome (conn : TcpConnection) (seq : SeqNum) (data : List Byte)
    (result : TcpConnection) : Prop :=
  (∃ newData, conn.accepted seq data = some newData ∧ conn.AcceptedBy newData result) ∨
  (conn.accepted seq data = none ∧ conn.buffers seq data = true ∧
    conn.BufferedBy seq data result) ∨
  (conn.accepted seq data = none ∧ conn.buffers seq data = false ∧ conn.UnchangedBy result)

private theorem processData_inOrder (admitted : conn.admits conn.rcvNxt data = true) :
    conn.Outcome conn.rcvNxt data (conn.processData conn.rcvNxt data).1 := by
  have notAfter : seqAfter conn.rcvNxt conn.rcvNxt = false := by
    simp [seqAfter_eq_not, seqBeforeOrEq, Serial.beforeOrEq]
  rw [processData_of_admits admitted, if_pos rfl]
  cases room : conn.hasRoomFor data.length with
  | true =>
      exact Or.inl ⟨data, by simp [accepted, admitted, room],
        { conn.updateRecvWindow with dupAckCount := 0 }, rfl, rfl, rfl⟩
  | false =>
      exact Or.inr (Or.inr ⟨by simp [accepted, admitted, room], by simp [buffers, notAfter],
        Or.inl rfl, rfl⟩)

section

variable {conn : TcpConnection} {seq : SeqNum} {data : List Byte}
  (admitted : conn.admits seq data = true) (notNext : seq ≠ conn.rcvNxt)

include admitted notNext

private theorem processData_partial
    (overlaps : (seqBefore seq conn.rcvNxt &&
      seqAfter (seq + BitVec.ofNat 32 data.length) conn.rcvNxt) = true) :
    conn.Outcome seq data (conn.processData seq data).1 := by
  have notAfter : seqAfter seq conn.rcvNxt = false := by
    have before := (Bool.and_eq_true_iff.mp overlaps).1
    simp only [seqBefore] at before
    simp [seqAfter_eq_not, seqBeforeOrEq, Serial.beforeOrEq, before]
  rw [processData_of_admits admitted, if_neg notNext, if_pos overlaps]
  by_cases short : (conn.rcvNxt - seq).toNat < data.length
  · rw [if_pos short]
    cases room : conn.hasRoomFor (data.drop (conn.rcvNxt - seq).toNat).length with
    | true =>
        refine Or.inl ⟨data.drop (conn.rcvNxt - seq).toNat, ?_,
          conn.updateRecvWindow, rfl, rfl, rfl⟩
        simp only [accepted, admitted, notNext, overlaps, short, room]
        rfl
    | false =>
        refine Or.inr (Or.inr ⟨?_, by simp [buffers, notAfter], Or.inl rfl, rfl⟩)
        simp only [accepted, admitted, notNext, overlaps, short, room]
        rfl
  · rw [if_neg short]
    refine Or.inr (Or.inr ⟨?_, by simp [buffers, notAfter], Or.inl rfl, rfl⟩)
    simp only [accepted, admitted, notNext, overlaps, short]
    rfl

private theorem processData_future
    (apart : ¬ (seqBefore seq conn.rcvNxt &&
      seqAfter (seq + BitVec.ofNat 32 data.length) conn.rcvNxt) = true) :
    conn.Outcome seq data (conn.processData seq data).1 := by
  have refused : conn.accepted seq data = none := by
    simp only [accepted, admitted, notNext, apart]
    rfl
  rw [processData_of_admits admitted, if_neg notNext, if_neg apart]
  by_cases future : seqAfter seq conn.rcvNxt = true
  · rw [if_pos future]
    by_cases fits : conn.oooSize + data.length ≤ conn.maxOooSize
    · rw [if_pos fits]
      cases stored : conn.oooSegments.get? seq with
      | none =>
          exact Or.inr (Or.inl ⟨refused, by simp [buffers, admitted, future, fits, stored],
            rfl, rfl⟩)
      | some present =>
          exact Or.inr (Or.inr ⟨refused, by simp [buffers, stored], Or.inl rfl, rfl⟩)
    · rw [if_neg fits]
      exact Or.inr (Or.inr ⟨refused, by simp [buffers, fits], Or.inl rfl, rfl⟩)
  · rw [if_neg future]
    exact Or.inr (Or.inr ⟨refused, by simp [buffers, future], Or.inl rfl, rfl⟩)

end

theorem processData_outcome (conn : TcpConnection) (seq : SeqNum) (data : List Byte) :
    conn.Outcome seq data (conn.processData seq data).1 := by
  cases admitted : conn.admits seq data with
  | false =>
      exact Or.inr (Or.inr ⟨by simp [accepted, admitted], by simp [buffers, admitted],
        processData_of_not_admits admitted⟩)
  | true =>
      by_cases inOrder : seq = conn.rcvNxt
      · subst inOrder
        exact processData_inOrder admitted
      · by_cases overlaps : (seqBefore seq conn.rcvNxt &&
            seqAfter (seq + BitVec.ofNat 32 data.length) conn.rcvNxt) = true
        · exact processData_partial admitted inOrder overlaps
        · exact processData_future admitted inOrder overlaps

section

variable {conn : TcpConnection} {seq : SeqNum}

/-- What acceptance says about the segment: it starts no later than `rcvNxt`,
reaches past it, and the bytes past it fit. -/
theorem accepted_eq_some {data newData : List Byte}
    (accept : conn.accepted seq data = some newData) :
    conn.admits seq data = true ∧ seqBeforeOrEq seq conn.rcvNxt = true ∧
      (conn.rcvNxt - seq).toNat < data.length ∧
      newData = data.drop (conn.rcvNxt - seq).toNat ∧
      conn.hasRoomFor newData.length = true := by
  unfold accepted at accept
  split at accept
  · contradiction
  · rename_i admitted
    have admitted : conn.admits seq data = true := by simpa using admitted
    have nonempty : data ≠ [] := by
      simp only [admits, Bool.and_eq_true] at admitted
      simpa using admitted.1.1
    split at accept
    · rename_i inOrder
      subst inOrder
      split at accept
      · rename_i room
        obtain rfl := Option.some.inj accept
        exact ⟨admitted, by simp [seqBeforeOrEq, Serial.beforeOrEq],
          by simpa using List.length_pos_of_ne_nil nonempty, by simp, room⟩
      · contradiction
    · split at accept
      · rename_i overlaps
        have before := (Bool.and_eq_true_iff.mp overlaps).1
        dsimp only at accept
        split at accept
        · rename_i fits
          obtain rfl := Option.some.inj accept
          refine ⟨admitted, ?_, fits.1, rfl, fits.2⟩
          simp only [seqBefore] at before
          simp [seqBeforeOrEq, Serial.beforeOrEq, before]
        · contradiction
      · contradiction

theorem buffers_eq_true {data : List Byte} (buffer : conn.buffers seq data = true) :
    conn.admits seq data = true ∧ seqAfter seq conn.rcvNxt = true ∧
      conn.oooSize + data.length ≤ conn.maxOooSize ∧ conn.oooSegments.get? seq = none := by
  simpa [buffers, and_assoc] using buffer

theorem admits_eq_true {data : List Byte} (admitted : conn.admits seq data = true) :
    data ≠ [] ∧ conn.proxyIsGone = false ∧
      seqAfter (seq + BitVec.ofNat 32 data.length) conn.rcvNxt = true := by
  simp only [admits, Bool.and_eq_true, Bool.not_eq_true'] at admitted
  exact ⟨by simpa using admitted.1.1, admitted.1.2, by simp [seqAfter_eq_not, admitted.2]⟩

end

/-! The conditions that select the outcome read the receive side only. -/

section Congr

variable {first second : TcpConnection}

section

variable (same : first.receiveSide = second.receiveSide)

include same

theorem proxyIsGone_congr :
    first.proxyIsGone = second.proxyIsGone := by
  simp only [receiveSide, ReceiveSide.mk.injEq] at same
  simp only [proxyIsGone, same]

theorem queuedBytes_congr :
    first.queuedBytes = second.queuedBytes := by
  simp only [receiveSide, ReceiveSide.mk.injEq] at same
  simp only [queuedBytes, same]

theorem hasRoomFor_congr (len : Nat) :
    first.hasRoomFor len = second.hasRoomFor len := by
  have budget : first.config.maxRecvBuffer = second.config.maxRecvBuffer :=
    congrArg ReceiveSide.maxRecvBuffer same
  simp only [hasRoomFor, proxyIsGone_congr same, queuedBytes_congr same, budget]

end

section

variable (same : first.receiveSide = second.receiveSide) (seq : SeqNum) (data : List Byte)

include same

theorem admits_congr : first.admits seq data = second.admits seq data := by
  have next : first.rcvNxt = second.rcvNxt := congrArg ReceiveSide.rcvNxt same
  simp only [admits, proxyIsGone_congr same, next]

theorem accepted_congr : first.accepted seq data = second.accepted seq data := by
  have next : first.rcvNxt = second.rcvNxt := congrArg ReceiveSide.rcvNxt same
  simp only [accepted, admits_congr same, hasRoomFor_congr same, next]

theorem buffers_congr : first.buffers seq data = second.buffers seq data := by
  have admitted := admits_congr same seq data
  simp only [receiveSide, ReceiveSide.mk.injEq] at same
  simp only [buffers, admitted, same]

theorem receiveSide_storeSegment_congr :
    (first.storeSegment seq data).receiveSide = (second.storeSegment seq data).receiveSide := by
  simp only [receiveSide, ReceiveSide.mk.injEq] at same
  simp only [storeSegment, receiveSide, same]

end

theorem Outcome.congr {seq : SeqNum} {data : List Byte} {result : TcpConnection}
    (outcome : first.Outcome seq data result) (same : first.receiveSide = second.receiveSide)
    (state_eq : first.state = second.state) : second.Outcome seq data result := by
  unfold Outcome AcceptedBy BufferedBy UnchangedBy at outcome ⊢
  rwa [← same, ← state_eq, ← accepted_congr same, ← buffers_congr same,
    ← receiveSide_storeSegment_congr same]

end Congr

end TcpConnection

end Corduit.Netstack.Tcp
