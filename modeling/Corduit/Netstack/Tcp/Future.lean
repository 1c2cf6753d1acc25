import Corduit.Netstack.Tcp.Buffers

/-!
# Overtaken segments

The delivery loop removes a buffered segment only when it covers `rcv_nxt`.  A
segment that ends at or before the point `rcv_nxt` has reached covers nothing
any more, stays in the buffer and stays charged to it.  Such a segment is
avoided exactly when, at the end of the accepted data and at the end of each
segment delivered after it, every segment still buffered ends later.

Buffered segments, and every point that `rcv_nxt` passes within one call, lie
within half a circle of where `rcv_nxt` stood before the call.  `Windowed`
records that, and turns the wrapped comparisons into comparisons of offsets.
-/

namespace Corduit.Netstack.Tcp

open Collection Transition Word Word.Serial TcpConnection

/-- Every buffered segment ends strictly after `rcv_nxt`. -/
def FutureOnly (conn : TcpConnection) : Prop :=
  ∀ entry ∈ conn.oooSegments.entries, seqAfter (segmentEnd entry) conn.rcvNxt = true

/-- Every buffered segment starts strictly after `rcv_nxt`. -/
def StartsAhead (conn : TcpConnection) : Prop :=
  ∀ entry ∈ conn.oooSegments.entries, seqAfter entry.1 conn.rcvNxt = true

/-- With the frontier here, and then at the end of each segment that is
delivered in turn, every segment still buffered ends later. -/
inductive Orderly : OrderedMap SeqNum (List Byte) → SeqNum → Prop where
  | stop {segments : OrderedMap SeqNum (List Byte)} {frontier : SeqNum}
      (ahead : ∀ entry ∈ segments.entries, seqAfter (segmentEnd entry) frontier = true)
      (uncovered : nextSegment segments frontier = none) : Orderly segments frontier
  | deliver {segments : OrderedMap SeqNum (List Byte)} {frontier segSeq : SeqNum}
      {data : List Byte} {skip : Nat}
      (ahead : ∀ entry ∈ segments.entries, seqAfter (segmentEnd entry) frontier = true)
      (found : nextSegment segments frontier = some (segSeq, data, skip))
      (rest : Orderly (segments.erase segSeq) (segmentEnd (segSeq, data))) :
      Orderly segments frontier

theorem Orderly.ahead {segments : OrderedMap SeqNum (List Byte)} {frontier : SeqNum}
    (orderly : Orderly segments frontier) :
    ∀ entry ∈ segments.entries, seqAfter (segmentEnd entry) frontier = true := by
  cases orderly with
  | stop ahead _ => exact ahead
  | deliver ahead _ _ => exact ahead

/-- The frontier and all buffered segments lie within half a circle of `base`. -/
structure Windowed (base : SeqNum) (conn : TcpConnection) : Prop where
  frontier : ∃ position, conn.rcvNxt = place base position ∧ position < 2 ^ 31
  segments : ∀ entry ∈ conn.oooSegments.entries, entry.2 ≠ [] ∧
    ∃ offset, entry.1 = place base offset ∧ offset + entry.2.length < 2 ^ 31

section Offsets

variable {base : SeqNum} {offset position : Nat} {data : List Byte}

theorem segmentEnd_place (data : List Byte) : segmentEnd (place base offset, data) =
    place base (offset + data.length) :=
  (place_add base offset data.length).symm

theorem ends_after_iff (base : SeqNum) (inside : offset + data.length < 2 ^ 31)
    (near : position ≤ 2 ^ 31) :
    seqAfter (segmentEnd (place base offset, data)) (place base position) = true ↔
      position < offset + data.length := by
  rw [segmentEnd_place]
  exact after_place base (by omega) (by omega)

theorem starts_after_iff (inside : offset + data.length < 2 ^ 31) (near : position ≤ 2 ^ 31) :
    seqAfter (place base offset) (place base position) = true ↔ position < offset :=
  after_place base (by omega) (by omega)

theorem covers_place_iff (nonempty : data ≠ []) (inside : offset + data.length < 2 ^ 31)
    (near : position < 2 ^ 31) :
    Covers (place base offset, data) (place base position) ↔
      offset ≤ position ∧ position < offset + data.length := by
  have length := List.length_pos_of_ne_nil nonempty
  have ends := ends_after_iff base inside near.le
  have starts : seqBeforeOrEq (place base offset) (place base position) = true ↔
      offset ≤ position := beforeOrEq_place base (by omega) (by omega)
  constructor
  · rintro (exact | ⟨before, after, _⟩)
    · have equal := (place_inj base (by omega) (by omega)).mp exact
      omega
    · exact ⟨starts.mp before, ends.mp after⟩
  · rintro ⟨before, after⟩
    refine Or.inr ⟨starts.mpr before, ends.mpr after, ?_⟩
    dsimp only
    rw [place_sub_place_toNat base before (by omega)]
    omega

end Offsets

namespace Windowed

variable {base : SeqNum} {conn conn' : TcpConnection}

theorem deliverNext_eq (holds : Windowed base conn) (turn : deliverNext conn = some conn') :
    ∃ segSeq data skip, (segSeq, data) ∈ conn.oooSegments.entries ∧
      nextSegment conn.oooSegments conn.rcvNxt = some (segSeq, data, skip) ∧
      Covers (segSeq, data) conn.rcvNxt ∧
      conn'.oooSegments = conn.oooSegments.erase segSeq ∧
      conn'.rcvNxt = segmentEnd (segSeq, data) := by
  rcases deliverNext_eq_some turn with ⟨segSeq, data, member, covers, found, rfl⟩
  have reaches := (TcpConnection.Covers.overlaps covers (holds.segments _ member).1).2
  exact ⟨segSeq, data, _, member, found, covers, rfl, add_drop_length reaches⟩

theorem deliverNext (holds : Windowed base conn) (turn : TcpConnection.deliverNext conn = some conn') :
    Windowed base conn' := by
  rcases holds.deliverNext_eq turn with ⟨segSeq, data, _, member, _, _, segments, next⟩
  rcases holds.segments _ member with ⟨_, offset, rfl, inside⟩
  refine ⟨⟨offset + data.length, by rw [next, segmentEnd_place], inside⟩, ?_⟩
  intro entry kept
  rw [segments] at kept
  exact holds.segments entry (OrderedMap.mem_erase.mp kept).1

/-- A segment that has been overtaken is never taken by a later turn. -/
theorem overtaken_deliverNext (holds : Windowed base conn)
    (turn : TcpConnection.deliverNext conn = some conn') (overtaken : ¬ FutureOnly conn) :
    ¬ FutureOnly conn' := by
  rcases holds.frontier with ⟨position, frontier, near⟩
  rcases holds.deliverNext_eq turn with ⟨segSeq, data, _, member, _, covers, segments, next⟩
  rcases holds.segments _ member with ⟨nonempty, offset, rfl, inside⟩
  obtain ⟨⟨key, stale⟩, staleMember, ended⟩ : ∃ entry ∈ conn.oooSegments.entries,
      ¬ seqAfter (segmentEnd entry) conn.rcvNxt = true := by
    simpa [FutureOnly] using overtaken
  rcases holds.segments _ staleMember with ⟨_, staleOffset, rfl, staleInside⟩
  dsimp only at nonempty inside staleInside
  rw [frontier] at covers ended
  rw [covers_place_iff nonempty inside near] at covers
  rw [ends_after_iff base staleInside near.le] at ended
  have different : place base staleOffset ≠ place base offset := by
    intro same
    rw [same] at staleMember
    have data_eq : stale = data := OrderedMap.value_unique staleMember member
    have offset_eq := (place_inj base (by omega) (by omega)).mp same
    subst data_eq
    omega
  intro future
  have later := future (place base staleOffset, stale)
    (by rw [segments]; exact OrderedMap.mem_erase.mpr ⟨staleMember, different⟩)
  rw [next, segmentEnd_place data, ends_after_iff base staleInside inside.le] at later
  omega

theorem futureOnly_of_drain (bound : Nat) (holds : Windowed base conn)
    (future : FutureOnly (drain TcpConnection.deliverNext bound conn)) : FutureOnly conn := by
  by_contra overtaken
  refine absurd future (drain_invariant
    (fun conn : TcpConnection => Windowed base conn ∧ ¬ FutureOnly conn) ?_ bound
    ⟨holds, overtaken⟩).2
  rintro first second turn ⟨windowed, overtaken⟩
  exact ⟨windowed.deliverNext turn, windowed.overtaken_deliverNext turn overtaken⟩

/-- The loop leaves only future segments exactly when it runs orderly. -/
theorem drain_iff (bound : Nat) (holds : Windowed base conn)
    (enough : conn.oooSegments.entries.length ≤ bound) :
    FutureOnly (drain TcpConnection.deliverNext bound conn) ↔
      Orderly conn.oooSegments conn.rcvNxt := by
  induction bound generalizing conn with
  | zero =>
      have empty : conn.oooSegments.entries = [] := List.length_eq_zero_iff.mp (by omega)
      have vacuous : ∀ entry ∈ conn.oooSegments.entries,
          seqAfter (segmentEnd entry) conn.rcvNxt = true := by simp [empty]
      exact iff_of_true vacuous (.stop vacuous (nextSegment_eq_none_iff.mpr (by simp [empty])))
  | succ bound ih =>
      cases turn : TcpConnection.deliverNext conn with
      | none =>
          rw [drain_of_none turn]
          exact ⟨fun future => .stop future (Option.map_eq_none_iff.mp turn),
            fun orderly => orderly.ahead⟩
      | some conn' =>
          obtain ⟨segSeq, data, skip, member, found, _, segments, next⟩ :=
            holds.deliverNext_eq turn
          have shorter := conn.oooSegments.length_erase_lt member
          have rest := ih (holds.deliverNext turn) (by rw [segments]; omega)
          rw [segments, next] at rest
          rw [drain_of_some turn]
          constructor
          · intro future
            refine .deliver ?_ found (rest.mp future)
            exact futureOnly_of_drain (bound + 1) holds (by rwa [drain_of_some turn])
          · intro orderly
            cases orderly with
            | stop _ uncovered => simp [uncovered] at found
            | deliver _ found' rest' =>
                rw [found] at found'
                obtain ⟨rfl, rfl, rfl⟩ := by simpa using found'
                exact rest.mpr rest'

theorem tryDeliverOooSegments (holds : Windowed base conn) :
    Windowed base conn.tryDeliverOooSegments :=
  drain_invariant (Windowed base) (fun _ _ turn windowed => windowed.deliverNext turn) _ holds

theorem startsAhead_of_stops (holds : Windowed base conn) (future : FutureOnly conn)
    (stops : ∀ entry ∈ conn.oooSegments.entries, ¬ Covers entry conn.rcvNxt) :
    StartsAhead conn := by
  rcases holds.frontier with ⟨position, frontier, near⟩
  rintro ⟨key, data⟩ member
  rcases holds.segments _ member with ⟨nonempty, offset, rfl, inside⟩
  have ends := future _ member
  have uncovered := stops _ member
  dsimp only at nonempty inside
  rw [frontier, ends_after_iff base inside near.le] at ends
  rw [frontier, covers_place_iff nonempty inside near] at uncovered
  rw [frontier, starts_after_iff inside near.le]
  omega

/-- One step past a frontier where the buffer is future, it is future still,
since no segment is a single byte standing at the frontier. -/
theorem futureOnly_succ_iff (holds : Windowed base conn) 
    (stops : ∀ entry ∈ conn.oooSegments.entries, ¬ Covers entry conn.rcvNxt) :
    (∀ entry ∈ conn.oooSegments.entries,
      seqAfter (segmentEnd entry) (conn.rcvNxt + 1) = true) ↔ FutureOnly conn := by
  rcases holds.frontier with ⟨position, frontier, near⟩
  have succ : conn.rcvNxt + 1 = place base (position + 1) := by
    rw [frontier, place_add]
    rfl
  apply forall₂_congr
  rintro ⟨key, data⟩ member
  rcases holds.segments _ member with ⟨nonempty, offset, rfl, inside⟩
  have uncovered := stops _ member
  have length := List.length_pos_of_ne_nil nonempty
  dsimp only at nonempty inside length
  rw [frontier, covers_place_iff nonempty inside near] at uncovered
  rw [succ, frontier, ends_after_iff base inside (by omega),
    ends_after_iff base inside near.le]
  omega

end Windowed

/-- Whenever the operation's segment is accepted, the loop runs orderly from
its end. -/
def Clean (conn : TcpConnection) (op : Op) : Prop :=
  ∀ seq data, Carries conn seq data op → (conn.accepted seq data).isSome = true →
    Orderly conn.oooSegments (seq + BitVec.ofNat 32 data.length)

/-- The operation is one that the stack performs: data comes in through
`process`. -/
def Op.viaStack : Op → Prop
  | .processData _ _ => False
  | _ => True

section Carries

variable {conn : TcpConnection} {seq : SeqNum} {data : List Byte} {op : Op}

theorem Carries.unique (carries : Carries conn seq data op) {seq' : SeqNum}
    {data' : List Byte} (carries' : Carries conn seq' data' op) : seq = seq' ∧ data = data' := by
  cases op with
  | process now seg payload =>
      rcases carries with ⟨_, _, rfl, rfl⟩
      exact ⟨carries'.2.2.1, carries'.2.2.2⟩
  | processData key bytes =>
      rcases carries with ⟨rfl, rfl⟩
      exact carries'
  | _ => exact carries.elim

theorem Carries.receiving (carries : Carries conn seq data op) (viaStack : op.viaStack) :
    conn.state.receiving = true := by
  cases op with
  | process now seg payload => simp [carries.1, TcpState.receiving]
  | processData key bytes => exact viaStack.elim
  | _ => exact carries.elim

end Carries

/-- The buffer holds future data; until the peer's FIN is consumed, all of it
starts in the future as well. -/
structure Ahead (conn : TcpConnection) : Prop where
  settled : Settled conn.reassembly
  future : FutureOnly conn
  starts : conn.state.receiving = true → StartsAhead conn

namespace Ahead

variable {conn mid : TcpConnection} {seq : SeqNum} {data : List Byte}

/-- A segment of the buffer that starts and ends ahead has its two ends in
order on the line that begins at `rcv_nxt`. -/
theorem offsets {frontier : SeqNum} {entry : SeqNum × List Byte}
    (starts : seqAfter entry.1 frontier = true)
    (ends : seqAfter (segmentEnd entry) frontier = true)
    (short : entry.2.length ≤ 1024 * 1024) :
    ∃ offset, 0 < offset ∧ entry.1 = place frontier offset ∧
      offset + entry.2.length < 2 ^ 31 := by
  rcases (after_iff _ _).mp starts with ⟨positive, near⟩
  have far := ((after_iff _ _).mp ends).2
  have end_eq : segmentEnd entry - frontier =
      BitVec.ofNat 32 ((entry.1 - frontier).toNat + entry.2.length) := by
    rw [BitVec.ofNat_add, BitVec.ofNat_toNat, BitVec.setWidth_eq]
    unfold segmentEnd
    ring
  rw [end_eq, BitVec.toNat_ofNat, Nat.mod_eq_of_lt (by omega)] at far
  exact ⟨_, positive, (place_sub_toNat frontier entry.1).symm, by omega⟩

theorem windowed (settled : Settled conn.reassembly) (future : FutureOnly conn)
    (starts : StartsAhead conn) : Windowed conn.rcvNxt conn := by
  refine ⟨⟨0, (place_zero _).symm, by omega⟩, ?_⟩
  intro entry member
  have short : entry.2.length ≤ 1024 * 1024 := by
    have stored := OrderedMap.le_weight List.length conn.oooSegments member
    have size : conn.oooSize = OrderedMap.weight List.length conn.oooSegments := settled.size
    have bounded : conn.oooSize ≤ 1024 * 1024 := settled.bounded.trans settled.limit
    omega
  rcases offsets (starts entry member) (future entry member) short with ⟨offset, _, start, inside⟩
  exact ⟨settled.nonempty entry member, offset, start, inside⟩

theorem stops (starts : StartsAhead conn) :
    ∀ entry ∈ conn.oooSegments.entries, ¬ Covers entry conn.rcvNxt := by
  intro entry member covers
  have ahead := starts entry member
  rw [seqAfter_eq_not] at ahead
  rcases covers with exact | ⟨before, _⟩
  · simp [exact, seqBeforeOrEq, beforeOrEq] at ahead
  · simp [before] at ahead

/-- The buffer after a data segment: where it lies, that the loop has run to
its end, and when all of it is future data. -/
structure After (conn : TcpConnection) (seq : SeqNum) (data : List Byte) (mid : TcpConnection) :
    Prop where
  windowed : Windowed conn.rcvNxt mid
  stops : ∀ entry ∈ mid.oooSegments.entries, ¬ Covers entry mid.rcvNxt
  future_iff : FutureOnly mid ↔ ((conn.accepted seq data).isSome = true →
    Orderly conn.oooSegments (seq + BitVec.ofNat 32 data.length))

theorem After.of_refused (refused : conn.accepted seq data = none)
    (next : mid.rcvNxt = conn.rcvNxt) (settled : Settled mid.reassembly)
    (future : FutureOnly mid) (starts : StartsAhead mid) : After conn seq data mid where
  windowed := next ▸ Ahead.windowed settled future starts
  stops := Ahead.stops starts
  future_iff := iff_of_true future (by simp [refused])

theorem After.of_accepted (holds : Ahead conn) (starts : StartsAhead conn)
    {newData : List Byte} (accept : conn.accepted seq data = some newData)
    {start : TcpConnection} (same : start.receiveSide = conn.receiveSide) :
    After conn seq data (start.acceptData newData) := by
  rcases accepted_eq_some accept with ⟨admitted, _, reaches, rfl, _⟩
  have next : start.rcvNxt = conn.rcvNxt := congrArg ReceiveSide.rcvNxt same
  have segments : start.oooSegments = conn.oooSegments := congrArg ReceiveSide.oooSegments same
  have near := ((after_iff _ _).mp (admits_eq_true admitted).2.2).2
  generalize appended_eq : start.appendInOrder (data.drop (conn.rcvNxt - seq).toNat) = appended
  have atEnd : appended.rcvNxt = seq + BitVec.ofNat 32 data.length := by
    rw [← appended_eq, ← add_drop_length reaches, ← next]
    rfl
  have sameSegments : appended.oooSegments = conn.oooSegments := by
    rw [← appended_eq]
    exact segments
  have windowed : Windowed conn.rcvNxt appended := by
    refine ⟨⟨_, (atEnd.trans (place_sub_toNat conn.rcvNxt _).symm), by omega⟩, ?_⟩
    rw [sameSegments]
    exact (Ahead.windowed holds.settled holds.future starts).segments
  have result := (acceptData_frame start (data.drop (conn.rcvNxt - seq).toNat)).2
  rw [appended_eq] at result
  have resultNext : (start.acceptData (data.drop (conn.rcvNxt - seq).toNat)).rcvNxt =
      appended.tryDeliverOooSegments.rcvNxt := congrArg Reassembly.rcvNxt result
  have resultSegments : (start.acceptData (data.drop (conn.rcvNxt - seq).toNat)).oooSegments =
      appended.tryDeliverOooSegments.oooSegments := congrArg Reassembly.oooSegments result
  have gathered := windowed.tryDeliverOooSegments
  refine ⟨⟨by rw [resultNext]; exact gathered.frontier,
    by rw [resultSegments]; exact gathered.segments⟩, ?_, ?_⟩
  · rw [resultNext, resultSegments]
    exact tryDeliverOooSegments_stops appended
  · have loop : FutureOnly appended.tryDeliverOooSegments ↔
        Orderly appended.oooSegments appended.rcvNxt := windowed.drain_iff _ le_rfl
    rw [atEnd, sameSegments] at loop
    unfold FutureOnly
    rw [resultNext, resultSegments, accept, Option.isSome_some, imp_iff_right rfl]
    exact loop

theorem outcome (holds : Ahead conn) (starts : StartsAhead conn)
    (outcome : conn.Outcome seq data mid) : After conn seq data mid := by
  have settled := holds.settled.outcome outcome
  rcases outcome with ⟨newData, accept, start, same, _, rfl⟩ | ⟨refused, buffer, _, same⟩ |
    ⟨refused, _, _, same⟩
  · exact .of_accepted holds starts accept same
  · have next : mid.rcvNxt = conn.rcvNxt := congrArg ReceiveSide.rcvNxt same
    have segments : mid.oooSegments = conn.oooSegments.insert seq data :=
      congrArg ReceiveSide.oooSegments same
    rcases buffers_eq_true buffer with ⟨admitted, startsAfter, _, vacant⟩
    apply After.of_refused refused next settled
    · intro entry member
      rw [segments] at member
      rw [next]
      rcases (OrderedMap.mem_insert_of_vacant vacant data).mp member with rfl | member
      · exact (admits_eq_true admitted).2.2
      · exact holds.future entry member
    · intro entry member
      rw [segments] at member
      rw [next]
      rcases (OrderedMap.mem_insert_of_vacant vacant data).mp member with rfl | member
      · exact startsAfter
      · exact starts entry member
  · have next : mid.rcvNxt = conn.rcvNxt := congrArg ReceiveSide.rcvNxt same
    have segments : mid.oooSegments = conn.oooSegments :=
      congrArg ReceiveSide.oooSegments same
    apply After.of_refused refused next settled
    · unfold FutureOnly
      rw [next, segments]
      exact holds.future
    · unfold StartsAhead
      rw [next, segments]
      exact starts

theorem clean_of_idle {op : Op} (idle : Idle conn op) : Clean conn op :=
  fun seq data carries => absurd carries (idle seq data)

theorem clean_iff {op : Op} (carries : Carries conn seq data op) :
    Clean conn op ↔ ((conn.accepted seq data).isSome = true →
      Orderly conn.oooSegments (seq + BitVec.ofNat 32 data.length)) := by
  constructor
  · exact fun clean => clean seq data carries
  · intro orderly seq' data' carries'
    rcases carries.unique carries' with ⟨rfl, rfl⟩
    exact orderly

/-- After an operation of the stack the buffer is future data exactly when the
operation was clean, and then the invariant holds again. -/
theorem perform (holds : Ahead conn) {op : Op} (viaStack : op.viaStack) :
    (FutureOnly (conn.perform op) ↔ Clean conn op) ∧
      (Clean conn op → Ahead (conn.perform op)) := by
  have settled := holds.settled.perform op
  rcases Effect.perform conn op with
    ⟨idle, limit, same, _, receiving⟩ | ⟨idle, waiting, left, same⟩ |
    ⟨seq, data, carries, mid, outcome, same, receiving⟩ |
    ⟨seq, data, carries, mid, outcome, left, same⟩
  · have next : (conn.perform op).rcvNxt = conn.rcvNxt := congrArg Reassembly.rcvNxt same
    have segments : (conn.perform op).oooSegments = conn.oooSegments :=
      congrArg Reassembly.oooSegments same
    have future : FutureOnly (conn.perform op) := by
      unfold FutureOnly
      rw [next, segments]
      exact holds.future
    refine ⟨iff_of_true future (clean_of_idle idle), fun _ => ⟨settled, future, ?_⟩⟩
    intro stillReceiving
    unfold StartsAhead
    rw [next, segments]
    exact holds.starts (receiving stillReceiving)
  · have next : (conn.perform op).rcvNxt = conn.rcvNxt + 1 := congrArg Reassembly.rcvNxt same
    have segments : (conn.perform op).oooSegments = conn.oooSegments :=
      congrArg Reassembly.oooSegments same
    have starts := holds.starts waiting
    have future : FutureOnly (conn.perform op) := by
      unfold FutureOnly
      rw [next, segments]
      exact ((windowed holds.settled holds.future starts).futureOnly_succ_iff
        (stops starts)).mpr holds.future
    refine ⟨iff_of_true future (clean_of_idle idle), fun _ => ⟨settled, future, ?_⟩⟩
    simp [left]
  · have after := holds.outcome (holds.starts (carries.receiving viaStack)) outcome
    have next : (conn.perform op).rcvNxt = mid.rcvNxt := congrArg Reassembly.rcvNxt same
    have segments : (conn.perform op).oooSegments = mid.oooSegments :=
      congrArg Reassembly.oooSegments same
    have future : FutureOnly (conn.perform op) ↔ FutureOnly mid := by
      unfold FutureOnly
      rw [next, segments]
    rw [clean_iff carries, future]
    refine ⟨after.future_iff, fun orderly => ⟨settled, ?_, fun _ => ?_⟩⟩
    · exact future.mpr (after.future_iff.mpr orderly)
    · unfold StartsAhead
      rw [next, segments]
      exact after.windowed.startsAhead_of_stops (after.future_iff.mpr orderly) after.stops
  · have after := holds.outcome (holds.starts (carries.receiving viaStack)) outcome
    have next : (conn.perform op).rcvNxt = mid.rcvNxt + 1 := congrArg Reassembly.rcvNxt same
    have segments : (conn.perform op).oooSegments = mid.oooSegments :=
      congrArg Reassembly.oooSegments same
    have future : FutureOnly (conn.perform op) ↔ FutureOnly mid := by
      rw [← after.windowed.futureOnly_succ_iff after.stops]
      unfold FutureOnly
      rw [next, segments]
    rw [clean_iff carries, future]
    refine ⟨after.future_iff, fun orderly => ⟨settled, ?_, ?_⟩⟩
    · exact future.mpr (after.future_iff.mpr orderly)
    · simp [left]

theorem opened (opening : Opening) : Ahead (TcpConnection.opened opening) where
  settled := Settled.opened opening
  future := by simp [FutureOnly, TcpConnection.opened, newPassive]
  starts := by simp [StartsAhead, TcpConnection.opened, newPassive]

end Ahead

/-- Along every schedule of the stack, the buffer holds only future data in
every state exactly when every operation is clean. -/
theorem futureOnly_always_iff_clean (opening : Opening) (ops : List Op)
    (viaStack : ∀ op ∈ ops, op.viaStack) :
    RunAlways perform FutureOnly (opened opening) ops ↔
      RunMeets perform Clean (opened opening) ops :=
  runAlways_iff_next.trans ((and_iff_right (Ahead.opened opening).future).trans
    (runMeets_iff_of_allowed Ahead (fun _ _ holds allowed => (Ahead.perform holds allowed).1)
      (fun _ _ holds allowed => (Ahead.perform holds allowed).2) (Ahead.opened opening) viaStack))

/-- A byte behind a gap of two, and then the two bytes of the gap. -/
def refillSchedule : List Op :=
  establishedSchedule ++ [.process 2 (sampleSegment 103 .pshAck) [3],
    .process 3 (sampleSegment 101 .pshAck) [1, 2]]

theorem futureOnly_always_refill :
    RunAlways perform FutureOnly (opened (.sample 100 {})) refillSchedule := by
  refine (futureOnly_always_iff_clean (.sample 100 {}) refillSchedule
    (by simp [refillSchedule, establishedSchedule, Op.viaStack])).mpr ⟨?_, ?_, ?_, trivial⟩
  · rintro seq data ⟨established, _⟩
    exact absurd established (by decide)
  · rintro seq data ⟨_, _, rfl, rfl⟩ accept
    exact absurd accept (by decide)
  · rintro seq data ⟨_, _, rfl, rfl⟩ _
    refine @Orderly.deliver _ _ 103 [3] 0 ?_ ?_ (.stop ?_ ?_) <;> decide

/-- The same byte behind the gap, and then a segment that covers it. -/
def overtakingSchedule : List Op :=
  establishedSchedule ++ [.process 2 (sampleSegment 103 .pshAck) [3],
    .process 3 (sampleSegment 101 .pshAck) [1, 2, 3, 4]]

/-- The covered byte is neither delivered again nor released: it ends before
`rcv_nxt` and is still charged. -/
theorem overtaken_segment_stays :
    let conn := after (.sample 100 {}) overtakingSchedule
    conn.rcvNxt = 105 ∧ conn.oooSegments.entries = [(103, [3])] ∧ conn.oooSize = 1 ∧
      conn.queuedBytes = 5 ∧ ¬ FutureOnly conn := by
  unfold FutureOnly
  decide

end Corduit.Netstack.Tcp
