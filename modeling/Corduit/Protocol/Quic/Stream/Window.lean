import Corduit.Protocol.Quic.Stream.Core

/-!
# Receive windows

The endpoint advertises how far the server may send on each stream, and refuses
what goes beyond the limit that it keeps for the stream.  The two agree for a
stream that a frame of the server made known.  They part in two places: a stream
that the client opens is kept with the limit zero, and a stream that was dropped
from the table comes back with the first limit.  The bound on buffered bytes is
another matter: limits grow as bytes arrive, not as the application reads them.
-/

namespace Corduit.Protocol.Quic

open Collection Transition Word

namespace ConnState

variable {conn conn' conn'' : ConnState} {id : Nat} {stream stream' : StreamState}

/-- The limit that the endpoint enforces on a stream. -/
def enforced (conn : ConnState) (id : Nat) : Nat :=
  match conn.streams.lookup id with
  | some stream => stream.peerSendLimit
  | none => recvWindowFor conn id

theorem enforced_of_lookup (found : conn.streams.lookup id = some stream) :
    conn.enforced id = stream.peerSendLimit := by
  rw [enforced, found]

/-- The streams stay, and their limits stay or grow.  A limit of zero stays, and
a limit that is queued is the one that is kept. -/
structure Adjusts (conn conn' : ConnState) : Prop where
  windows : ∀ id, recvWindowFor conn' id = recvWindowFor conn id
  absent : ∀ id, conn'.streams.lookup id = none ↔ conn.streams.lookup id = none
  grows : ∀ id stream stream', conn.streams.lookup id = some stream →
    conn'.streams.lookup id = some stream' →
    stream.peerSendLimit ≤ stream'.peerSendLimit ∧
      (stream.peerSendLimit = 0 → stream'.peerSendLimit = 0)
  queued : ∀ id limit, (id, limit) ∈ conn'.pendingMaxStreamData →
    (id, limit) ∈ conn.pendingMaxStreamData ∨
      ∃ stream', conn'.streams.lookup id = some stream' ∧ limit ≤ stream'.peerSendLimit

namespace Adjusts

theorem refl (conn : ConnState) : conn.Adjusts conn where
  windows := fun _ => rfl
  absent := fun _ => Iff.rfl
  grows := by
    intro id stream stream' found found'
    rw [Option.some.inj (found.symm.trans found')]
    exact ⟨Nat.le_refl _, fun zero => zero⟩
  queued := fun _ _ => Or.inl

theorem trans (first : conn.Adjusts conn') (second : conn'.Adjusts conn'') :
    conn.Adjusts conn'' where
  windows := fun id => (second.windows id).trans (first.windows id)
  absent := fun id => (second.absent id).trans (first.absent id)
  grows := by
    intro id stream stream'' found found''
    cases found' : conn'.streams.lookup id with
    | none =>
        rw [(first.absent id).mp found'] at found
        cases found
    | some stream' =>
        rcases first.grows id stream stream' found found' with ⟨grown, zero⟩
        rcases second.grows id stream' stream'' found' found'' with ⟨grown', zero'⟩
        exact ⟨Nat.le_trans grown grown', fun none_ => zero' (zero none_)⟩
  queued := by
    intro id limit member
    rcases second.queued id limit member with earlier | kept
    · rcases first.queued id limit earlier with earlier | ⟨stream', found', atMost⟩
      · exact Or.inl earlier
      · right
        cases found'' : conn''.streams.lookup id with
        | none =>
            rw [(second.absent id).mp found''] at found'
            cases found'
        | some stream'' =>
            exact ⟨stream'', rfl,
              Nat.le_trans atMost (second.grows id stream' stream'' found' found'').1⟩
    · exact Or.inr kept

theorem replace (found : conn.streams.lookup id = some stream)
    (same : stream'.peerSendLimit = stream.peerSendLimit) (totalRecv : Nat) :
    conn.Adjusts { conn with
      streams := conn.streams.insert id stream'
      totalRecv := totalRecv } where
  windows := fun _ => rfl
  absent := fun _ => ⟨Table.lookup_eq_none_of_insert, Table.lookup_insert_eq_none found⟩
  grows := by
    intro other before after found' foundAfter
    dsimp only at foundAfter
    rw [Table.lookup_insert_eq] at foundAfter
    by_cases here : other = id
    · rw [if_pos here] at foundAfter
      rw [here, found] at found'
      rw [← Option.some.inj foundAfter, ← Option.some.inj found', same]
      exact ⟨Nat.le_refl _, fun zero => zero⟩
    · rw [if_neg here] at foundAfter
      rw [Option.some.inj (found'.symm.trans foundAfter)]
      exact ⟨Nat.le_refl _, fun zero => zero⟩
  queued := fun _ _ => Or.inl

variable (conn : ConnState)

theorem drainPending : conn.Adjusts conn.drainPending :=
  ⟨fun _ => rfl, fun _ => Iff.rfl, (refl conn).grows, fun _ _ member => by cases member⟩

theorem bumpRecvCredit (id : Nat) : conn.Adjusts (conn.bumpRecvCredit id) := by
  unfold ConnState.bumpRecvCredit
  cases found : conn.streams.lookup id with
  | none => exact refl conn
  | some stream =>
      have connection : ∀ middle : ConnState, conn.Adjusts middle → conn.Adjusts
          (if middle.totalRecv + middle.maxDataAdvertised / 2 > middle.maxDataAdvertised then
            { middle with
              maxDataAdvertised := middle.maxDataAdvertised + middle.maxDataAdvertised / 2
              pendingMaxData := middle.pendingMaxData ++
                [middle.maxDataAdvertised + middle.maxDataAdvertised / 2] }
          else
            middle) := by
        intro middle adjusts
        split
        · exact ⟨adjusts.windows, adjusts.absent, adjusts.grows, adjusts.queued⟩
        · exact adjusts
      apply connection
      split
      · rename_i raises
        have positive : 0 < stream.peerSendLimit := by
          simp only [Bool.and_eq_true, decide_eq_true_eq] at raises
          exact raises.1
        refine ⟨fun _ => rfl,
          fun _ => ⟨Table.lookup_eq_none_of_insert, Table.lookup_insert_eq_none found⟩, ?_, ?_⟩
        · intro other before after found' foundAfter
          dsimp only at foundAfter
          rw [Table.lookup_insert_eq] at foundAfter
          by_cases here : other = id
          · rw [if_pos here] at foundAfter
            rw [here, found] at found'
            rw [← Option.some.inj foundAfter, ← Option.some.inj found']
            exact ⟨Nat.le_add_right _ _, fun zero => by omega⟩
          · rw [if_neg here] at foundAfter
            rw [Option.some.inj (found'.symm.trans foundAfter)]
            exact ⟨Nat.le_refl _, fun zero => zero⟩
        · intro other limit member
          rcases List.mem_append.mp member with earlier | last
          · exact Or.inl earlier
          · obtain ⟨rfl, rfl⟩ := Prod.mk.inj (List.mem_singleton.mp last)
            exact Or.inr ⟨_, AList.lookup_insert _, Nat.le_refl _⟩
      · exact refl conn

theorem recvInto (id size : Nat) :
    conn.Adjusts (conn.recvInto id size).2.2 := by
  unfold ConnState.recvInto
  cases found : conn.streams.lookup id with
  | none => exact refl conn
  | some stream =>
      dsimp only
      cases stream.resetRecv with
      | some code => exact refl conn
      | none =>
          dsimp only
          split
          · exact trans (replace found (by rfl) conn.totalRecv) (bumpRecvCredit _ id)
          · split <;> exact refl conn

theorem onResetStream (id appErrorCode : Nat) :
    conn.Adjusts (conn.onResetStream id appErrorCode) := by
  unfold ConnState.onResetStream
  cases found : conn.streams.lookup id with
  | none => exact refl conn
  | some stream => exact replace found (by rfl) conn.totalRecv

theorem onFinAcked (id : Nat) : conn.Adjusts (conn.onFinAcked id) := by
  unfold ConnState.onFinAcked
  cases found : conn.streams.lookup id with
  | none => exact refl conn
  | some stream => exact replace found (by rfl) conn.totalRecv

end Adjusts

/-- Streams may disappear, and one may come in with the first limit. -/
structure Sweeps (conn conn' : ConnState) (id : Nat) : Prop where
  windows : ∀ other, recvWindowFor conn' other = recvWindowFor conn other
  queued : conn'.pendingMaxStreamData = conn.pendingMaxStreamData
  others : ∀ other, other ≠ id →
    conn'.streams.lookup other = conn.streams.lookup other ∨ conn'.streams.lookup other = none
  here : conn'.streams.lookup id = conn.streams.lookup id ∨
    (conn.streams.lookup id = none ∧
      conn'.streams.lookup id = some { peerSendLimit := recvWindowFor conn id })

theorem sweeps_add {swept : ConnState} (absent : conn.streams.lookup id = none)
    (windows : ∀ other, recvWindowFor swept other = recvWindowFor conn other)
    (queued : swept.pendingMaxStreamData = conn.pendingMaxStreamData)
    (lookups : ∀ other, swept.streams.lookup other = conn.streams.lookup other ∨
      swept.streams.lookup other = none) {error : QuicError} :
    conn.Sweeps (Prod.snd (α := Except QuicError Unit)
      (if swept.streams.size ≥ MAX_TRACKED_STREAMS then
        (.error error, swept)
      else
        (.ok (), { swept with
          streams := swept.streams.insert id { peerSendLimit := recvWindowFor conn id } }))) id := by
  split
  · refine ⟨windows, queued, fun other _ => lookups other, Or.inl ?_⟩
    rcases lookups id with same | none_
    · exact same
    · rw [absent]
      exact none_
  · refine ⟨windows, queued, fun other different => ?_, Or.inr ⟨absent, AList.lookup_insert _⟩⟩
    dsimp only
    rw [AList.lookup_insert_ne different]
    exact lookups other

theorem sweeps_trackStream (conn : ConnState) (id : Nat) :
    conn.Sweeps (conn.trackStream id).2 id := by
  unfold trackStream
  dsimp only
  by_cases tracked : (conn.streams.lookup id).isSome = true
  · rw [if_pos tracked]
    exact ⟨fun _ => rfl, rfl, fun _ _ => Or.inl rfl, Or.inl rfl⟩
  · rw [if_neg tracked]
    have absent : conn.streams.lookup id = none := by simpa using tracked
    by_cases large : conn.streams.size ≥ STREAM_TABLE_SWEEP_THRESHOLD
    · rw [if_pos large]
      refine sweeps_add absent ?_ ?_ fun other => ?_
      · exact fun _ => rfl
      · rfl
      dsimp only
      rw [Table.lookup_eraseAll]
      by_cases closed : other ∈ conn.streams.keysWhere streamFullyClosed
      · exact Or.inr (if_pos closed)
      · exact Or.inl (if_neg closed)
    · rw [if_neg large]
      exact sweeps_add absent (fun _ => rfl) rfl (fun _ => Or.inl rfl)

end ConnState

namespace StreamState

variable {stream stream' : StreamState} {offset : Nat} {data : List Byte}

theorem peerSendLimit_promoteGaps (stream : StreamState) :
    stream.promoteGaps.peerSendLimit = stream.peerSendLimit := by
  unfold promoteGaps
  apply drain_invariant fun after : StreamState => after.peerSendLimit = stream.peerSendLimit
  · intro before after turned same
    unfold promoteNext at turned
    split at turned
    · split at turned
      · rw [← Option.some.inj turned]
        exact same
      · cases turned
    · cases turned
  · rfl

theorem peerSendLimit_placeData (placed : stream.placeData offset data = some stream') :
    stream'.peerSendLimit = stream.peerSendLimit := by
  unfold placeData at placed
  by_cases reached : offset ≤ stream.prefixEnd
  · rw [if_pos reached] at placed
    rw [← Option.some.inj placed, peerSendLimit_promoteGaps, extendPrefix]
    split <;> rfl
  · rw [if_neg reached] at placed
    rcases Option.bind_eq_some_iff.mp placed with ⟨gaps, _, taken⟩
    rw [← Option.some.inj taken, takeContiguous]
    split
    · rw [peerSendLimit_promoteGaps]
    · rfl

end StreamState

namespace ConnState

variable {conn conn' : ConnState} {id offset : Nat} {data : List Byte} {fin : Bool}

/-- A limit grows with every call but `open_stream`, and what is queued is
kept. -/
structure Evolves (conn conn' : ConnState) : Prop where
  windows : ∀ id, recvWindowFor conn' id = recvWindowFor conn id
  kept : ∀ id stream', conn'.streams.lookup id = some stream' →
    conn.enforced id ≤ stream'.peerSendLimit ∧
      ∀ stream, conn.streams.lookup id = some stream → stream.peerSendLimit = 0 →
        stream'.peerSendLimit = 0
  queued : ∀ id limit, (id, limit) ∈ conn'.pendingMaxStreamData →
    (id, limit) ∈ conn.pendingMaxStreamData ∨
      ∃ stream', conn'.streams.lookup id = some stream' ∧ limit ≤ stream'.peerSendLimit

theorem Sweeps.evolves (sweeps : conn.Sweeps conn' id) : conn.Evolves conn' where
  windows := sweeps.windows
  kept := by
    intro other stream' found'
    have same : conn'.streams.lookup other = conn.streams.lookup other →
        conn.enforced other ≤ stream'.peerSendLimit ∧
          ∀ stream, conn.streams.lookup other = some stream → stream.peerSendLimit = 0 →
            stream'.peerSendLimit = 0 := by
      intro equal
      rw [found'] at equal
      refine ⟨by rw [enforced, ← equal], fun stream found zero => ?_⟩
      rw [Option.some.inj (equal.trans found)]
      exact zero
    by_cases here : other = id
    · subst here
      rcases sweeps.here with equal | ⟨absent, added⟩
      · exact same equal
      · rw [← Option.some.inj (added.symm.trans found'), enforced, absent]
        exact ⟨Nat.le_refl _, fun _ found => by cases found⟩
    · rcases sweeps.others other here with equal | none_
      · exact same equal
      · rw [none_] at found'
        cases found'
  queued := by
    intro other limit member
    rw [sweeps.queued] at member
    exact Or.inl member

theorem Evolves.adjust {conn'' : ConnState} (evolves : conn.Evolves conn')
    (adjusts : conn'.Adjusts conn'') : conn.Evolves conn'' where
  windows := fun id => (adjusts.windows id).trans (evolves.windows id)
  kept := by
    intro id stream'' found''
    cases found' : conn'.streams.lookup id with
    | none =>
        rw [(adjusts.absent id).mpr found'] at found''
        cases found''
    | some stream' =>
        rcases evolves.kept id stream' found' with ⟨atLeast, zero⟩
        rcases adjusts.grows id stream' stream'' found' found'' with ⟨grown, zero'⟩
        exact ⟨Nat.le_trans atLeast grown,
          fun stream found none_ => zero' (zero stream found none_)⟩
  queued := by
    intro id limit member
    rcases adjusts.queued id limit member with earlier | kept
    · rcases evolves.queued id limit earlier with earlier | ⟨stream', found', atMost⟩
      · exact Or.inl earlier
      · right
        cases found'' : conn''.streams.lookup id with
        | none =>
            rw [(adjusts.absent id).mp found''] at found'
            cases found'
        | some stream'' =>
            exact ⟨stream'', rfl,
              Nat.le_trans atMost (adjusts.grows id stream' stream'' found' found'').1⟩
    · exact Or.inr kept

theorem Adjusts.evolves (adjusts : conn.Adjusts conn') : conn.Evolves conn' :=
  Evolves.adjust
    (@Sweeps.evolves _ _ 0 ⟨fun _ => rfl, rfl, fun _ _ => Or.inl rfl, Or.inl rfl⟩) adjusts

/-- However a frame is answered, limits only grow. -/
theorem evolves_onStream {result : Except QuicError Unit}
    (arrived : conn.onStream id offset data fin = some (result, conn')) : conn.Evolves conn' := by
  have sweeps := conn.sweeps_trackStream id
  unfold onStream at arrived
  rcases tracked : conn.trackStream id with ⟨answer, middle⟩
  rw [tracked] at sweeps arrived
  cases answer with
  | error error =>
      rw [← (Prod.mk.inj (Option.some.inj arrived)).2]
      exact sweeps.evolves
  | ok _ =>
      dsimp only at arrived sweeps
      cases found : middle.streams.lookup id with
      | none =>
          rw [found] at arrived
          rw [← (Prod.mk.inj (Option.some.inj arrived)).2]
          exact sweeps.evolves
      | some stream =>
          rw [found] at arrived
          dsimp only at arrived
          cases checked : stream.checkFrame offset data with
          | error error =>
              rw [checked] at arrived
              rw [← (Prod.mk.inj (Option.some.inj arrived)).2]
              exact sweeps.evolves
          | ok _ =>
              rw [checked] at arrived
              rcases Option.bind_eq_some_iff.mp arrived with ⟨stream', placed, done⟩
              rw [← (Prod.mk.inj (Option.some.inj done)).2]
              have limit_eq : stream'.peerSendLimit = stream.peerSendLimit := by
                rw [StreamState.peerSendLimit_placeData placed, StreamState.noteFin]
                split <;> rfl
              exact sweeps.evolves.adjust
                (Adjusts.trans (Adjusts.replace found limit_eq _) (Adjusts.bumpRecvCredit _ id))

/-- The bytes that wait to be read on a stream. -/
def buffered (conn : ConnState) (id : Nat) : Nat :=
  match conn.streams.lookup id with
  | some stream => stream.bufferedRecv
  | none => 0

theorem isSome_lookup_trackStream (tracked : (conn.trackStream id).1 = .ok ()) :
    ((conn.trackStream id).2.streams.lookup id).isSome = true := by
  unfold trackStream at tracked ⊢
  dsimp only at tracked ⊢
  by_cases known : (conn.streams.lookup id).isSome = true
  · rwa [if_pos known]
  · rw [if_neg known] at tracked ⊢
    generalize (if conn.streams.size ≥ STREAM_TABLE_SWEEP_THRESHOLD then
      { conn with streams := conn.streams.eraseAll (conn.streams.keysWhere streamFullyClosed) }
      else conn) = swept at tracked ⊢
    by_cases full : swept.streams.size ≥ MAX_TRACKED_STREAMS
    · rw [if_pos full] at tracked
      cases tracked
    · rw [if_neg full]
      simp

theorem lookup_trackStream (tracked : (conn.trackStream id).1 = .ok ()) :
    ∃ stream, (conn.trackStream id).2.streams.lookup id = some stream ∧
      stream.peerSendLimit = conn.enforced id ∧ stream.bufferedRecv = conn.buffered id := by
  rcases Option.isSome_iff_exists.mp (isSome_lookup_trackStream tracked) with ⟨stream, found⟩
  refine ⟨stream, found, ?_⟩
  rcases (conn.sweeps_trackStream id).here with same | ⟨absent, added⟩
  · rw [enforced, buffered, ← same, found]
    exact ⟨rfl, rfl⟩
  · rw [← Option.some.inj (added.symm.trans found), enforced, buffered, absent]
    exact ⟨rfl, rfl⟩

/-- The frame is refused neither for the limit nor for the buffer. -/
def Tolerates (conn : ConnState) (id offset : Nat) (data : List Byte) (fin : Bool) : Prop :=
  ∀ error conn', conn.onStream id offset data fin = some (.error error, conn') →
    error ≠ .protocol "stream flow-control violation" ∧
      error ≠ .protocol "receive buffer overflow"

theorem tolerates_of_not_tracked {error : QuicError} {middle : ConnState}
    (refused : conn.trackStream id = (.error error, middle)) :
    conn.Tolerates id offset data fin := by
  intro error' conn' arrived
  have texts : error = .protocol "peer stream table limit reached" := by
    unfold trackStream at refused
    dsimp only at refused
    by_cases known : (conn.streams.lookup id).isSome = true
    · rw [if_pos known] at refused
      cases refused
    · rw [if_neg known] at refused
      split at refused
      · split at refused
        · exact (Except.error.inj (Prod.mk.inj refused).1).symm
        · cases refused
      · split at refused
        · exact (Except.error.inj (Prod.mk.inj refused).1).symm
        · cases refused
  rw [onStream, refused] at arrived
  rw [← Except.error.inj (Prod.mk.inj (Option.some.inj arrived)).1, texts]
  exact ⟨by decide, by decide⟩

/-- A frame on a tracked stream is refused exactly for the limit or the buffer. -/
theorem tolerates_iff (tracked : (conn.trackStream id).1 = .ok ()) :
    conn.Tolerates id offset data fin ↔
      offset + data.length ≤ conn.enforced id ∧
        conn.buffered id + data.length ≤ MAX_RECV_BUFFER := by
  rcases lookup_trackStream tracked with ⟨stream, found, limit_eq, buffered_eq⟩
  rcases answer : conn.trackStream id with ⟨result, middle⟩
  rw [answer] at tracked found
  obtain rfl : result = .ok () := tracked
  have refused : ∀ error, stream.checkFrame offset data = .error error →
      conn.onStream id offset data fin = some (.error error, middle) := by
    intro error checked
    simp only [onStream, answer, found, checked]
  have passed : stream.checkFrame offset data = .ok () → conn.Tolerates id offset data fin := by
    intro checked error conn' arrived
    simp only [onStream, answer, found, checked] at arrived
    rcases Option.bind_eq_some_iff.mp arrived with ⟨_, _, done⟩
    cases (Prod.mk.inj (Option.some.inj done)).1
  rw [StreamState.checkFrame, limit_eq, buffered_eq] at refused passed
  by_cases beyond : offset + data.length > conn.enforced id
  · rw [if_pos beyond] at refused
    refine iff_of_false (fun tolerates => ?_) (fun fits => absurd fits.1 (Nat.not_le.mpr beyond))
    exact (tolerates _ _ (refused _ rfl)).1 rfl
  · rw [if_neg beyond] at refused passed
    by_cases tooMuch : conn.buffered id + data.length > MAX_RECV_BUFFER
    · rw [if_pos tooMuch] at refused
      refine iff_of_false (fun tolerates => ?_) (fun fits => absurd fits.2 (Nat.not_le.mpr tooMuch))
      exact (tolerates _ _ (refused _ rfl)).2 rfl
    · rw [if_neg tooMuch] at passed
      exact iff_of_true (passed rfl) ⟨Nat.not_lt.mp beyond, Nat.not_lt.mp tooMuch⟩

end ConnState

/-- The receive side of a connection, with the largest limits that were
advertised for each stream and for the connection, how far the server has sent
each stream, the streams whose entry `open_stream` made, and the streams that
were dropped from the table. -/
structure WindowSession where
  conn : ConnState
  advertised : Nat → Nat
  advertisedData : Nat
  reached : Table Nat Nat := ∅
  openedHere : Nat → Bool := fun _ => false
  dropped : Nat → Bool := fun _ => false

/-- What can happen to the receive side of a connection. -/
inductive WindowOp where
  | openStream (id : Nat)
  | frame (id offset : Nat) (data : List Byte) (fin : Bool)
  | read (id size : Nat)
  | resetStream (id appErrorCode : Nat)
  | finAcked (id : Nat)
  | drainPending

/-- The limits that are queued for a stream. -/
def queuedLimits (pending : List (Nat × Nat)) (id : Nat) : List Nat :=
  (pending.filter fun entry => entry.1 = id).map Prod.snd

namespace WindowSession

/-- The session when the server has sent a stream up to `stop`. -/
def note (session : WindowSession) (id stop : Nat) : WindowSession :=
  { session with
    reached := session.reached.insert id (max ((session.reached.lookup id).getD 0) stop) }

/-- The bytes that count for the limit of the connection. -/
def totalReached (session : WindowSession) : Nat :=
  session.reached.total fun _ stop => stop

/-- The session after a call that left the connection in the state `conn`. -/
def observe (session : WindowSession) (conn : ConnState) : WindowSession where
  conn := conn
  advertised := fun id => (queuedLimits conn.pendingMaxStreamData id).foldr max (session.advertised id)
  advertisedData := conn.pendingMaxData.foldr max session.advertisedData
  reached := session.reached
  openedHere := fun id => session.openedHere id && (conn.streams.lookup id).isSome
  dropped := fun id => session.dropped id ||
    ((session.conn.streams.lookup id).isSome && (conn.streams.lookup id).isNone)

/-- The session after one call; `none` after a panic. -/
def step (session : WindowSession) : WindowOp → Option WindowSession
  | .openStream id => some { session with
      conn := session.conn.openStream id
      openedHere := Function.update session.openedHere id true }
  | .frame id offset data fin =>
      (session.conn.onStream id offset data fin).map fun (_, conn) =>
        (session.note id (offset + data.length)).observe conn
  | .read id size => some (session.observe (session.conn.recvInto id size).2.2)
  | .resetStream id appErrorCode =>
      some (session.observe (session.conn.onResetStream id appErrorCode))
  | .finAcked id => some (session.observe (session.conn.onFinAcked id))
  | .drainPending => some (session.observe session.conn.drainPending)

/-- Calls one after the other; nothing follows a panic. -/
def advance (state : Option WindowSession) (op : WindowOp) : Option WindowSession :=
  state.bind fun session => session.step op

/-- The frame ends within what was advertised for its stream, and the server
stays within what was advertised for the connection. -/
def WithinLimits : Option WindowSession → WindowOp → Prop
  | some session, .frame id offset data _ =>
      offset + data.length ≤ session.advertised id ∧
        (session.note id (offset + data.length)).totalReached ≤ session.advertisedData
  | _, _ => True

/-- The frame is refused neither for the limit nor for the buffer. -/
def IsTolerated : Option WindowSession → WindowOp → Prop
  | some session, .frame id offset data fin => session.conn.Tolerates id offset data fin
  | _, _ => True

/-- A frame that finds or gets an entry in the table carries nothing for a stream
whose entry `open_stream` made, ends within the limit that is left for a stream
that was dropped, and finds room in the buffer. -/
def HasRoom : Option WindowSession → WindowOp → Prop
  | some session, .frame id offset data _ => (session.conn.trackStream id).1 = .ok () →
      (session.openedHere id = true → offset + data.length = 0) ∧
      (session.dropped id = true → offset + data.length ≤ session.conn.enforced id) ∧
      session.conn.buffered id + data.length ≤ MAX_RECV_BUFFER
  | _, _ => True

/-- What holds in every state of a run. -/
structure Agrees (session : WindowSession) : Prop where
  opened : ∀ id, session.openedHere id = true →
    ∃ stream, session.conn.streams.lookup id = some stream ∧ stream.peerSendLimit = 0
  limits : ∀ id, session.openedHere id = false → session.dropped id = false →
    session.advertised id ≤ session.conn.enforced id
  queued : ∀ id, ∀ limit ∈ queuedLimits session.conn.pendingMaxStreamData id,
    limit ≤ session.advertised id

theorem foldr_max_le_iff {limits : List Nat} {first bound : Nat} :
    limits.foldr max first ≤ bound ↔ first ≤ bound ∧ ∀ limit ∈ limits, limit ≤ bound := by
  induction limits with
  | nil => simp
  | cons limit limits ih =>
      rw [List.foldr_cons, Nat.max_le, ih, List.forall_mem_cons]
      exact and_left_comm

theorem mem_queuedLimits {pending : List (Nat × Nat)} {id limit : Nat} :
    limit ∈ queuedLimits pending id ↔ (id, limit) ∈ pending := by
  simp [queuedLimits]

namespace Agrees

variable {session : WindowSession} {conn : ConnState} {id offset : Nat} {data : List Byte}

variable (agrees : session.Agrees)

include agrees

theorem observe (evolves : session.conn.Evolves conn) :
    (session.observe conn).Agrees where
  opened := by
    intro id opened
    have split : session.openedHere id = true ∧ (conn.streams.lookup id).isSome = true := by
      simpa [WindowSession.observe] using opened
    rcases Option.isSome_iff_exists.mp split.2 with ⟨stream', found'⟩
    rcases agrees.opened id split.1 with ⟨stream, found, zero⟩
    exact ⟨stream', found', (evolves.kept id stream' found').2 stream found zero⟩
  limits := by
    intro id notOpened notDropped
    have kept : session.dropped id = false ∧
        ((session.conn.streams.lookup id).isSome = true → (conn.streams.lookup id).isSome = true) := by
      simpa [WindowSession.observe, ← Option.isSome_eq_false_iff] using notDropped
    have foreign : session.openedHere id = false := by
      cases opened : session.openedHere id with
      | false => rfl
      | true =>
          rcases agrees.opened id opened with ⟨stream, found, _⟩
          have tracked := kept.2 (by rw [found]; rfl)
          simp [WindowSession.observe, opened, tracked] at notOpened
    have before := agrees.limits id foreign kept.1
    -- The enforced limit has not shrunk.
    have grown : session.conn.enforced id ≤ conn.enforced id := by
      cases found' : conn.streams.lookup id with
      | some stream' =>
          rw [ConnState.enforced_of_lookup found']
          exact (evolves.kept id stream' found').1
      | none =>
          have absent : session.conn.streams.lookup id = none := by
            cases found : session.conn.streams.lookup id with
            | none => rfl
            | some stream =>
                have tracked := kept.2 (by rw [found]; rfl)
                rw [found'] at tracked
                cases tracked
          rw [ConnState.enforced, ConnState.enforced, absent, found']
          exact Nat.le_of_eq (evolves.windows id).symm
    change (queuedLimits conn.pendingMaxStreamData id).foldr max (session.advertised id) ≤
      conn.enforced id
    refine foldr_max_le_iff.mpr ⟨Nat.le_trans before grown, fun limit member => ?_⟩
    rcases evolves.queued id limit (mem_queuedLimits.mp member) with earlier | ⟨stream', found', atMost⟩
    · exact Nat.le_trans (agrees.queued id limit (mem_queuedLimits.mpr earlier))
        (Nat.le_trans before grown)
    · rwa [ConnState.enforced_of_lookup found']
  queued := fun id limit member => (foldr_max_le_iff.mp (Nat.le_refl _)).2 limit member

theorem note (id stop : Nat) : (session.note id stop).Agrees :=
  ⟨agrees.opened, agrees.limits, agrees.queued⟩

theorem openStream (id : Nat) :
    { session with
      conn := session.conn.openStream id
      openedHere := Function.update session.openedHere id true }.Agrees where
  opened := by
    intro other opened
    by_cases same : other = id
    · subst same
      exact ⟨_, AList.lookup_insert _, rfl⟩
    · dsimp only at opened
      rw [Function.update_of_ne same] at opened
      rcases agrees.opened other opened with ⟨stream, found, zero⟩
      exact ⟨stream, (AList.lookup_insert_ne same).trans found, zero⟩
  limits := by
    intro other notOpened notDropped
    by_cases same : other = id
    · subst same
      dsimp only at notOpened
      rw [Function.update_self] at notOpened
      cases notOpened
    · dsimp only at notOpened
      rw [Function.update_of_ne same] at notOpened
      have before := agrees.limits other notOpened notDropped
      have kept : (session.conn.openStream id).streams.lookup other =
          session.conn.streams.lookup other := AList.lookup_insert_ne same
      change session.advertised other ≤ (session.conn.openStream id).enforced other
      rw [ConnState.enforced, kept]
      exact before
  queued := agrees.queued

/-- Every call keeps the agreement. -/
theorem step (op : WindowOp) {session' : WindowSession}
    (stepped : session.step op = some session') :
    session'.Agrees := by
  cases op with
  | openStream id =>
      rw [← Option.some.inj stepped]
      exact agrees.openStream id
  | frame id offset data fin =>
      rcases Option.map_eq_some_iff.mp stepped with ⟨⟨result, conn⟩, arrived, rfl⟩
      exact (agrees.note id (offset + data.length)).observe (ConnState.evolves_onStream arrived)
  | read id size =>
      rw [← Option.some.inj stepped]
      exact agrees.observe (ConnState.Adjusts.recvInto _ id size).evolves
  | resetStream id appErrorCode =>
      rw [← Option.some.inj stepped]
      exact agrees.observe (ConnState.Adjusts.onResetStream _ id appErrorCode).evolves
  | finAcked id =>
      rw [← Option.some.inj stepped]
      exact agrees.observe (ConnState.Adjusts.onFinAcked _ id).evolves
  | drainPending =>
      rw [← Option.some.inj stepped]
      exact agrees.observe (ConnState.Adjusts.drainPending _).evolves

/-- A frame within the advertised limits is tolerated exactly when it has room. -/
theorem isTolerated_iff (op : WindowOp) (within : WithinLimits (some session) op) :
    IsTolerated (some session) op ↔ HasRoom (some session) op := by
  cases op with
  | frame id offset data fin =>
      cases answer : (session.conn.trackStream id).1 with
      | error error =>
          refine iff_of_true ?_ fun tracked => ?_
          · exact ConnState.tolerates_of_not_tracked (Prod.ext answer rfl)
          · rw [answer] at tracked
            cases tracked
      | ok _ =>
          have within : offset + data.length ≤ session.advertised id := within.1
          have limit : offset + data.length ≤ session.conn.enforced id ↔
              (session.openedHere id = true → offset + data.length = 0) ∧
                (session.dropped id = true → offset + data.length ≤ session.conn.enforced id) := by
            constructor
            · refine fun fits => ⟨fun opened => ?_, fun _ => fits⟩
              rcases agrees.opened id opened with ⟨stream, found, zero⟩
              rw [ConnState.enforced_of_lookup found] at fits
              omega
            · rintro ⟨nothing, left⟩
              cases opened : session.openedHere id with
              | true =>
                  rw [nothing opened]
                  exact Nat.zero_le _
              | false =>
                  cases gone : session.dropped id with
                  | true => exact left gone
                  | false => exact Nat.le_trans within (agrees.limits id opened gone)
          constructor
          · intro tolerated _
            rcases (ConnState.tolerates_iff answer).mp tolerated with ⟨fits, room⟩
            exact ⟨(limit.mp fits).1, (limit.mp fits).2, room⟩
          · intro has
            rcases has answer with ⟨nothing, left, room⟩
            exact (ConnState.tolerates_iff answer).mpr ⟨limit.mpr ⟨nothing, left⟩, room⟩
  | _ => exact Iff.rfl

end Agrees

/-- No call panicked, and the limits agree. -/
def IsAgreed (state : Option WindowSession) : Prop :=
  ∀ session, state = some session → session.Agrees

end WindowSession

/-- The limit that the transport parameters grant the server on a stream.  It
has none on a unidirectional stream of the client. -/
def initialLimit (conn : ConnState) (id : Nat) : Nat :=
  if id % 4 = 2 then 0 else recvWindowFor conn id

/-- A connection that has advertised its transport parameters. -/
def WindowSession.start (initialMaxData initialMaxStreamData : Nat) : Option WindowSession :=
  some {
    conn := .start initialMaxData initialMaxStreamData
    advertised := initialLimit (.start initialMaxData initialMaxStreamData)
    advertisedData := initialMaxData }

/-- In every run, frames within the advertised limits are refused neither for
the limit nor for the buffer exactly when each of them has room: its stream is
not one that the client has opened, or it carries nothing; it ends within what
is left for a stream that was dropped; and the buffer holds it. -/
theorem advertised_limits_tolerated_iff (initialMaxData initialMaxStreamData : Nat)
    (ops : List WindowOp) :
    RunMeets WindowSession.advance
        (fun state op => WindowSession.WithinLimits state op → WindowSession.IsTolerated state op)
        (WindowSession.start initialMaxData initialMaxStreamData) ops ↔
      RunMeets WindowSession.advance
        (fun state op => WindowSession.WithinLimits state op → WindowSession.HasRoom state op)
        (WindowSession.start initialMaxData initialMaxStreamData) ops := by
  refine runMeets_iff WindowSession.IsAgreed (fun state op agreed => ?_)
    (fun state op agreed _ => ?_) ?_
  · cases state with
    | none => exact Iff.rfl
    | some session => exact forall_congr' fun within => (agreed session rfl).isTolerated_iff op within
  · intro session' stepped
    cases state with
    | none => cases stepped
    | some session => exact (agreed session rfl).step op stepped
  · intro session same
    obtain rfl := Option.some.inj same
    refine ⟨fun _ opened => (by cases opened), fun id _ _ => ?_,
      fun _ _ member => (by cases member)⟩
    change initialLimit _ id ≤ recvWindowFor _ id
    unfold initialLimit
    split
    · exact Nat.zero_le _
    · exact Nat.le_refl _

/-- The client opens a stream, and the server answers with one byte. -/
def answeredStream : List WindowOp :=
  [.openStream 0, .frame 0 0 [1] false]

/-- One byte, within a limit of a thousand on the stream and on the connection,
is refused for the limit. -/
theorem first_byte_refused :
    WindowSession.WithinLimits
        (run WindowSession.advance (WindowSession.start 1000 1000) [.openStream 0])
        (.frame 0 0 [1] false) ∧
      (∃ conn, ((ConnState.start 1000 1000).openStream 0).onStream 0 0 [1] false =
        some (.error (.protocol "stream flow-control violation"), conn)) ∧
      ¬ RunMeets WindowSession.advance
        (fun state op => WindowSession.WithinLimits state op → WindowSession.IsTolerated state op)
        (WindowSession.start 1000 1000) answeredStream := by
  have within : WindowSession.WithinLimits
      (run WindowSession.advance (WindowSession.start 1000 1000) [.openStream 0])
      (.frame 0 0 [1] false) := by
    refine ⟨?_, ?_⟩
    · decide
    · decide
  have refused : ∃ conn, ((ConnState.start 1000 1000).openStream 0).onStream 0 0 [1] false =
      some (.error (.protocol "stream flow-control violation"), conn) := ⟨_, rfl⟩
  refine ⟨within, refused, fun tolerated => ?_⟩
  rcases refused with ⟨conn, answer⟩
  exact (tolerated.2.1 within _ conn answer).1 rfl

end Corduit.Protocol.Quic
