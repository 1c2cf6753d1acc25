import Mathlib.Data.List.Nodup
import Corduit.Protocol.Quic.Stream.Delivery
import Corduit.Protocol.Quic.Stream.Window

/-!
# Streams that were swept

The sweep drops a stream that has finished in both directions, and with it the
position up to which it was read.  A frame that arrives late finds no stream
and begins a new one, whose bytes are handed to the application again.  Every
byte is handed out once as long as no such frame carries data.
-/

namespace Corduit.Protocol.Quic

open Collection Transition Word

/-- The read position is where it was, and the segments that wait are spread
out. -/
structure Held.Keeps (contig : Nat) (held : Held) : Prop where
  contig_eq : held.contig = contig
  spread : Segment.SpreadOut held.gaps.entries

/-- No byte is held. -/
structure Held.Blank (held : Held) : Prop where
  ready : held.ready = []
  waiting : ∀ position, ¬Segment.CoveredBy held.gaps.entries position

theorem Held.blank_empty : Held.Blank {} :=
  ⟨rfl, fun _ covered => by simp [Segment.CoveredBy] at covered⟩

theorem Held.Blank.eq_nil {held : Held} (blank : held.Blank) {stored : Segment Byte}
    (member : stored ∈ held.gaps.entries) : stored.2 = [] := by
  apply List.eq_nil_of_length_eq_zero
  apply Nat.eq_zero_of_not_pos
  intro positive
  exact blank.waiting stored.1 ⟨stored, member, Nat.le_refl _, Nat.lt_add_of_pos_right positive⟩

namespace StreamState

variable {stream : StreamState} {offset : Nat} {data : List Byte} {property : Held → Prop}

section

variable
  (promotes : ∀ held segment, (held.stop, segment) ∈ held.gaps.entries →
      property held → property
        { held with ready := held.ready ++ segment, gaps := held.gaps.erase held.stop })

include promotes

theorem promoteGaps_rule (initially : property stream.held) : property stream.promoteGaps.held := by
  refine drain_invariant (fun stream : StreamState => property stream.held) ?_ _ initially
  intro before after turn holds
  rcases promoteNext_eq_some turn with ⟨segment, member, rfl⟩
  exact promotes _ segment member holds

/-- What promoting a segment preserves holds after bytes are placed, when it holds
after they were appended or inserted. -/
theorem placeData_rule
    (extends_ : offset ≤ stream.prefixEnd → property { stream.held with
      ready := stream.recvPrefix ++ data.drop (stream.prefixEnd - offset) })
    (inserts : ∀ gaps, Inserted stream.recvGaps (offset, data) gaps →
      property { stream.held with gaps := gaps })
    (spread : Segment.SpreadOut stream.recvGaps.entries) :
    ∃ stream', stream.placeData offset data = some stream' ∧ property stream'.held := by
  unfold placeData
  by_cases reached : offset ≤ stream.prefixEnd
  · rw [if_pos reached]
    refine ⟨_, rfl, promoteGaps_rule promotes ?_⟩
    rw [held_extendPrefix]
    exact extends_ reached
  · rw [if_neg reached]
    rcases insertGap_eq spread offset data with ⟨gaps, inserted, grown⟩
    refine ⟨_, by rw [inserted]; rfl, ?_⟩
    have waits := inserts gaps grown
    unfold takeContiguous
    split
    · rename_i segment located
      exact promoteGaps_rule promotes (promotes _ segment (OrderedMap.mem_of_get? located) waits)
    · exact waits

end

/-- Placing bytes leaves the read position alone, and placing none keeps a stream
without bytes without bytes. -/
theorem placeData_keeps (spread : Segment.SpreadOut stream.recvGaps.entries) (offset : Nat)
    (data : List Byte) :
    ∃ stream', stream.placeData offset data = some stream' ∧
      stream'.held.Keeps stream.recvContig ∧
      (data = [] → stream.held.Blank → stream'.held.Blank) := by
  have placed := @placeData_rule stream offset data (fun held => held.Keeps stream.recvContig ∧
    (data = [] ∧ stream.held.Blank → held.Blank)) ?_ ?_ ?_ spread
  · rcases placed with ⟨stream', placed, keeps, blank⟩
    exact ⟨stream', placed, keeps, fun empty was => blank ⟨empty, was⟩⟩
  · rintro held segment member ⟨keeps, blank⟩
    refine ⟨⟨keeps.contig_eq, keeps.spread.subset fun _ inRest =>
      (OrderedMap.mem_erase.mp inRest).1⟩, fun quiet => ?_⟩
    have nothing : segment = [] := (blank quiet).eq_nil member
    refine ⟨by rw [(blank quiet).ready, nothing]; rfl, ?_⟩
    rintro position ⟨stored, inRest, covers⟩
    exact (blank quiet).waiting position ⟨stored, (OrderedMap.mem_erase.mp inRest).1, covers⟩
  · intro _
    refine ⟨⟨rfl, spread⟩, fun quiet => ⟨?_, quiet.2.waiting⟩⟩
    rw [quiet.1, List.drop_nil, List.append_nil]
    exact quiet.2.ready
  · intro gaps grown
    refine ⟨⟨rfl, grown.spread⟩, fun quiet => ⟨quiet.2.ready, ?_⟩⟩
    intro position covered
    rcases (grown.covers position).mp covered with ⟨start, stop⟩ | waited
    · rw [Segment.stop, quiet.1] at stop
      exact absurd stop (Nat.not_lt.mpr start)
    · exact quiet.2.waiting position waited

end StreamState

namespace ConnState

variable {conn conn' : ConnState} {id other offset size : Nat} {data : List Byte} {fin : Bool}

theorem held_congr (same : conn'.streams.lookup id = conn.streams.lookup id) :
    conn'.held id = conn.held id := by
  rw [held, held, same]

theorem held_eq_empty (absent : conn.streams.lookup id = none) : conn.held id = {} := by
  rw [held, absent]
  rfl

theorem held_bumpRecvCredit_all (conn : ConnState) (id other : Nat) :
    (conn.bumpRecvCredit id).held other = conn.held other := by
  by_cases same : other = id
  · rw [same]
    exact conn.held_bumpRecvCredit id
  apply held_congr
  unfold bumpRecvCredit
  cases located : conn.streams.lookup id with
  | none => rfl
  | some stream =>
      dsimp only
      split <;> split <;> simp only [AList.lookup_insert_ne same]

theorem held_onStream_of_ne {result : Except QuicError Unit}
    (arrived : conn.onStream id offset data fin = some (result, conn')) (different : other ≠ id) :
    conn'.held other = conn.held other ∨ conn'.held other = {} := by
  have swept := (conn.sweeps_trackStream id).others other different
  have tracked : (conn.trackStream id).2.held other = conn.held other ∨
      (conn.trackStream id).2.held other = {} := swept.imp held_congr held_eq_empty
  unfold onStream at arrived
  rcases answer : conn.trackStream id with ⟨outcome, middle⟩
  rw [answer] at arrived tracked
  cases outcome with
  | error error =>
      cases arrived
      exact tracked
  | ok _ =>
      dsimp only at arrived
      cases located : middle.streams.lookup id with
      | none =>
          rw [located] at arrived
          cases arrived
          exact tracked
      | some stream =>
          rw [located] at arrived
          dsimp only at arrived
          cases checked : stream.checkFrame offset data with
          | error error =>
              rw [checked] at arrived
              cases arrived
              exact tracked
          | ok _ =>
              rw [checked] at arrived
              rcases Option.bind_eq_some_iff.mp arrived with ⟨stream', _, arrived⟩
              cases arrived
              rw [held_bumpRecvCredit_all, @held_congr middle _ other
                (AList.lookup_insert_ne different)]
              exact tracked

theorem held_recvInto_of_ne (conn : ConnState) (size : Nat) (different : other ≠ id) :
    (conn.recvInto id size).2.2.held other = conn.held other := by
  unfold recvInto
  cases conn.streams.lookup id with
  | none => rfl
  | some stream =>
      dsimp only
      cases stream.resetRecv with
      | some code => rfl
      | none =>
          dsimp only
          split
          · dsimp only
            rw [held_bumpRecvCredit_all]
            exact held_congr (AList.lookup_insert_ne different)
          · split
            · rfl
            · rfl

theorem held_replace {stream stream' : StreamState} (found : conn.streams.lookup id = some stream)
    (same : stream'.held = stream.held) (other : Nat) :
    ConnState.held { conn with streams := conn.streams.insert id stream' } other =
      conn.held other := by
  by_cases here : other = id
  · rw [here, held_of_lookup found, ← same]
    exact held_of_lookup (AList.lookup_insert _)
  · exact held_congr (AList.lookup_insert_ne here)

theorem held_onResetStream (conn : ConnState) (id appErrorCode other : Nat) :
    (conn.onResetStream id appErrorCode).held other = conn.held other := by
  unfold onResetStream
  cases found : conn.streams.lookup id with
  | none => rfl
  | some stream =>
      refine held_replace found ?_ other
      rfl

theorem held_onFinAcked (conn : ConnState) (id other : Nat) :
    (conn.onFinAcked id).held other = conn.held other := by
  unfold onFinAcked
  cases found : conn.streams.lookup id with
  | none => rfl
  | some stream =>
      refine held_replace found ?_ other
      rfl

theorem held_openStream (conn : ConnState) (id other : Nat) :
    (conn.openStream id).held other = if other = id then {} else conn.held other := by
  unfold openStream
  by_cases here : other = id
  · rw [if_pos here, here, held, AList.lookup_insert]
    rfl
  · rw [if_neg here]
    exact held_congr (AList.lookup_insert_ne here)

end ConnState

namespace ConnState

variable {conn : ConnState} {id other : Nat} {data : List Byte} {fin : Bool}

/-- The table when a stream comes in: finished streams are gone when it was
large. -/
def makeRoom (conn : ConnState) : ConnState :=
  if conn.streams.size ≥ STREAM_TABLE_SWEEP_THRESHOLD then
    { conn with streams := conn.streams.eraseAll (conn.streams.keysWhere streamFullyClosed) }
  else
    conn

theorem lookup_makeRoom_of_absent (absent : conn.streams.lookup id = none) :
    conn.makeRoom.streams.lookup id = none := by
  unfold makeRoom
  split
  · dsimp only
    rw [Table.lookup_eraseAll, absent]
    exact ite_self none
  · exact absent

theorem trackStream_of_absent (absent : conn.streams.lookup id = none)
    (room : conn.makeRoom.streams.size < MAX_TRACKED_STREAMS) :
    conn.trackStream id = (.ok (), { conn.makeRoom with
      streams := conn.makeRoom.streams.insert id { peerSendLimit := recvWindowFor conn id } }) := by
  unfold trackStream
  rw [absent]
  exact if_neg (Nat.not_le.mpr room)

/-- A stream whose first frame holds its beginning. -/
def firstStream (window : Nat) (data : List Byte) (fin : Bool) : StreamState :=
  { StreamState.noteFin { peerSendLimit := window } 0 data fin with recvPrefix := data }

theorem placeData_first (window : Nat) (data : List Byte) (fin : Bool) :
    (StreamState.noteFin { peerSendLimit := window } 0 data fin).placeData 0 data =
      some (firstStream window data fin) := by
  have extended : (StreamState.noteFin { peerSendLimit := window } 0 data fin).extendPrefix 0 data =
      firstStream window data fin := by
    unfold StreamState.extendPrefix firstStream
    cases data with
    | nil => cases fin <;> rfl
    | cons first rest => cases fin <;> rfl
  rw [StreamState.placeData, if_pos (Nat.zero_le _), extended]
  cases fin <;> rfl

/-- A stream comes into the table beside the others. -/
structure Admits (conn conn' : ConnState) (id : Nat) (stream : StreamState) : Prop where
  here : ∃ limit, conn'.streams.lookup id = some { stream with peerSendLimit := limit }
  others : ∀ other, other ≠ id → conn'.streams.lookup other = conn.streams.lookup other
  size : conn'.streams.size = conn.streams.size + 1
  windows : ∀ other, recvWindowFor conn' other = recvWindowFor conn other

theorem Admits.bumpRecvCredit {conn' : ConnState} {stream : StreamState}
    (admits : conn.Admits conn' id stream) : conn.Admits (conn'.bumpRecvCredit id) id stream := by
  rcases admits.here with ⟨limit, found⟩
  unfold ConnState.bumpRecvCredit
  rw [found]
  have raised : ∀ limit', conn.Admits { conn' with
      streams := conn'.streams.insert id { stream with peerSendLimit := limit' } } id stream := by
    intro limit'
    refine ⟨⟨limit', AList.lookup_insert _⟩, fun other different => ?_, ?_, admits.windows⟩
    · exact (AList.lookup_insert_ne different).trans (admits.others other different)
    · rw [← admits.size]
      exact Table.size_insert_of_present found _
  dsimp only
  split
  · have holds := raised (limit + limit / 2)
    split
    · exact ⟨holds.here, holds.others, holds.size, holds.windows⟩
    · exact ⟨holds.here, holds.others, holds.size, holds.windows⟩
  · split
    · exact ⟨admits.here, admits.others, admits.size, admits.windows⟩
    · exact admits

theorem onStream_first (fin : Bool) (absent : conn.streams.lookup id = none)
    (room : conn.makeRoom.streams.size < MAX_TRACKED_STREAMS)
    (window : data.length ≤ recvWindowFor conn id) (small : data.length ≤ MAX_RECV_BUFFER) :
    ∃ conn', conn.onStream id 0 data fin = some (.ok (), conn') ∧
      conn.makeRoom.Admits conn' id (firstStream (recvWindowFor conn id) data fin) := by
  have checked : StreamState.checkFrame { peerSendLimit := recvWindowFor conn id } 0 data =
      .ok () := by
    unfold StreamState.checkFrame
    rw [if_neg (by simpa using window), if_neg]
    change ¬0 + 0 + data.length > MAX_RECV_BUFFER
    omega
  unfold onStream
  rw [trackStream_of_absent absent room]
  dsimp only
  rw [AList.lookup_insert]
  dsimp only
  rw [checked]
  dsimp only
  rw [placeData_first]
  refine ⟨_, rfl, Admits.bumpRecvCredit ⟨⟨_, AList.lookup_insert _⟩, fun other different => ?_, ?_,
    fun _ => rfl⟩⟩
  · exact (AList.lookup_insert_ne different).trans (AList.lookup_insert_ne different)
  · exact (Table.size_insert_of_present (AList.lookup_insert _) _).trans
      (Table.size_insert_of_absent (lookup_makeRoom_of_absent absent) _)

theorem bounds_of_accepts (absent : conn.streams.lookup id = none)
    (accepted : conn.accepts id 0 data = true) :
    conn.makeRoom.streams.size < MAX_TRACKED_STREAMS ∧ data.length ≤ recvWindowFor conn id ∧
      data.length ≤ MAX_RECV_BUFFER := by
  by_cases full : conn.makeRoom.streams.size ≥ MAX_TRACKED_STREAMS
  · have refused : conn.trackStream id =
        (.error (.protocol "peer stream table limit reached"), conn.makeRoom) := by
      unfold trackStream
      rw [absent]
      exact if_pos full
    rw [accepts, refused] at accepted
    cases accepted
  · have room := Nat.not_le.mp full
    rw [accepts, trackStream_of_absent absent room] at accepted
    dsimp only at accepted
    rw [AList.lookup_insert] at accepted
    unfold StreamState.checkFrame at accepted
    dsimp only at accepted
    by_cases beyond : 0 + data.length > recvWindowFor conn id
    · rw [if_pos beyond] at accepted
      cases accepted
    · rw [if_neg beyond] at accepted
      by_cases tooMuch : (StreamState.bufferedRecv { peerSendLimit := recvWindowFor conn id }) +
          data.length > MAX_RECV_BUFFER
      · rw [if_pos tooMuch] at accepted
        cases accepted
      · exact ⟨room, by omega, (Nat.le_add_left _ _).trans (Nat.not_lt.mp tooMuch)⟩

theorem recvInto_first {limit window : Nat} (found : conn.streams.lookup id =
      some { firstStream window data fin with peerSendLimit := limit }) (nonempty : data ≠ [])
    (size : Nat) :
    (conn.recvInto id size).2.1 = data.take (min size data.length) ∧ (conn.held id).contig = 0 := by
  have unread : (firstStream window data fin).resetRecv = none ∧
      (firstStream window data fin).recvContig = 0 := by cases fin <;> exact ⟨rfl, rfl⟩
  constructor
  · unfold recvInto
    rw [found]
    dsimp only
    rw [unread.1]
    dsimp only
    rw [if_pos (by simpa [firstStream] using nonempty)]
    rfl
  · rw [held_of_lookup found]
    exact unread.2

end ConnState

/-- The receive side of a connection with the stream positions that were handed to
the application. -/
structure ReadSession where
  conn : ConnState
  handed : List (Nat × Nat) := []

namespace ReadSession

/-- The session after one call; `none` after a panic. -/
def step (session : ReadSession) : WindowOp → Option ReadSession
  | .openStream id => some { session with conn := session.conn.openStream id }
  | .frame id offset data fin =>
      (session.conn.onStream id offset data fin).map fun (_, conn) => { session with conn := conn }
  | .read id size =>
      let (_, bytes, conn) := session.conn.recvInto id size
      some {
        conn := conn
        handed := session.handed ++ (List.range bytes.length).map fun position =>
          (id, (session.conn.held id).contig + position) }
  | .resetStream id appErrorCode =>
      some { session with conn := session.conn.onResetStream id appErrorCode }
  | .finAcked id => some { session with conn := session.conn.onFinAcked id }
  | .drainPending => some { session with conn := session.conn.drainPending }

/-- Calls one after the other; nothing follows a panic. -/
def advance (state : Option ReadSession) (op : WindowOp) : Option ReadSession :=
  state.bind fun session => session.step op

/-- No byte of a stream has been handed out twice. -/
def HandedOnce (state : Option ReadSession) : Prop :=
  ∀ session, state = some session → session.handed.Nodup

/-- A frame with data that is accepted finds what was read of its stream: every
position that was handed out lies before the read position, which is zero for a
stream that is not in the table. -/
def Remembers : Option ReadSession → WindowOp → Prop
  | some session, .frame id offset data _ => data ≠ [] →
      session.conn.accepts id offset data = true →
        ∀ position, (id, position) ∈ session.handed → position < (session.conn.held id).contig
  | _, _ => True

/-- What is known of a stream: its read position lies behind what was handed out,
or no byte of it is there to be read. -/
structure Known (session : ReadSession) (id : Nat) : Prop where
  spread : Segment.SpreadOut (session.conn.held id).gaps.entries
  position : (∀ position, (id, position) ∈ session.handed →
    position < (session.conn.held id).contig) ∨ (session.conn.held id).Blank

/-- What holds in every state of a run. -/
structure Careful (session : ReadSession) : Prop where
  known : ∀ id, session.Known id
  once : session.handed.Nodup

variable {session session' : ReadSession} {id : Nat}

theorem Known.congr {conn : ConnState} (known : session.Known id)
    (same : conn.held id = session.conn.held id ∨ conn.held id = {}) :
    Known { session with conn := conn } id := by
  rcases same with same | empty
  · exact ⟨by rw [same]; exact known.spread, by rw [same]; exact known.position⟩
  · refine ⟨?_, Or.inr ?_⟩
    · dsimp only
      rw [empty]
      intro first member
      cases member
    · dsimp only
      rw [empty]
      exact Held.blank_empty

theorem Careful.congr {conn : ConnState} (careful : session.Careful)
    (same : ∀ id, conn.held id = session.conn.held id ∨ conn.held id = {}) :
    Careful { session with conn := conn } :=
  ⟨fun id => (careful.known id).congr (same id), careful.once⟩

theorem Careful.frame (careful : session.Careful) (offset : Nat) (data : List Byte) (fin : Bool)
    (remembers : Remembers (some session) (.frame id offset data fin)) :
    ∃ session', session.step (.frame id offset data fin) = some session' ∧ session'.Careful := by
  have known := careful.known id
  rcases session.conn.onStream_cases id offset data fin with
    ⟨_, error, conn, arrived, same⟩ | ⟨accepted, stream, same, placed⟩
  · refine ⟨{ session with conn := conn }, by simp [step, arrived], careful.congr fun other => ?_⟩
    by_cases here : other = id
    · exact Or.inl (here ▸ same)
    · exact ConnState.held_onStream_of_ne arrived here
  · have noted : (stream.noteFin offset data fin).held = session.conn.held id := by
      rw [StreamState.held_noteFin, same]
    have spread : Segment.SpreadOut (stream.noteFin offset data fin).recvGaps.entries := by
      have holds := known.spread
      rwa [← noted] at holds
    rcases StreamState.placeData_keeps spread offset data with ⟨stream', put, keeps, blank⟩
    rcases placed stream' put with ⟨conn, arrived, holds⟩
    have contig_eq : (conn.held id).contig = (session.conn.held id).contig := by
      rw [holds, keeps.contig_eq, ← noted]
      rfl
    refine ⟨{ session with conn := conn }, by simp [step, arrived], ?_, careful.once⟩
    intro other
    by_cases here : other = id
    · subst here
      refine ⟨by rw [holds]; exact keeps.spread, ?_⟩
      dsimp only
      rw [contig_eq]
      by_cases empty : data = []
      · refine known.position.imp (fun before => before) fun was => ?_
        rw [holds]
        exact blank empty (noted ▸ was)
      · exact Or.inl (remembers empty accepted)
    · exact (careful.known other).congr (ConnState.held_onStream_of_ne arrived here)

theorem Careful.read (careful : session.Careful) (id size : Nat) :
    ∃ session', session.step (.read id size) = some session' ∧ session'.Careful := by
  rcases session.conn.recvInto_eq id size with ⟨count, available, copied, holds⟩
  have length_eq : (session.conn.recvInto id size).2.1.length = count := by
    rw [copied, List.length_take_of_le available]
  have fresh : ∀ entry ∈ (List.range count).map fun position =>
      (id, (session.conn.held id).contig + position), entry ∉ session.handed := by
    intro entry member before
    rcases List.mem_map.mp member with ⟨position, inRange, rfl⟩
    rcases (careful.known id).position with behind | blank
    · have bound := behind _ before
      omega
    · rw [blank.ready] at available
      rw [Nat.le_zero.mp available] at inRange
      cases inRange
  refine ⟨{
    conn := (session.conn.recvInto id size).2.2
    handed := session.handed ++ (List.range (session.conn.recvInto id size).2.1.length).map
      fun position => (id, (session.conn.held id).contig + position) }, rfl, ?_, ?_⟩
  · intro other
    by_cases here : other = id
    · subst here
      refine ⟨?_, ?_⟩
      · dsimp only
        rw [holds]
        exact (careful.known other).spread
      · dsimp only
        rw [holds, length_eq]
        refine (careful.known other).position.imp (fun behind position member => ?_)
          fun blank => ⟨?_, blank.waiting⟩
        · rcases List.mem_append.mp member with before | new
          · exact Nat.lt_add_right count (behind position before)
          · rcases List.mem_map.mp new with ⟨place, inRange, same⟩
            have bound := List.mem_range.mp inRange
            rw [← (Prod.mk.inj same).2]
            dsimp only
            omega
        · dsimp only
          rw [blank.ready, List.drop_nil]
    · have same := session.conn.held_recvInto_of_ne size here
      refine ⟨by dsimp only; rw [same]; exact (careful.known other).spread, ?_⟩
      dsimp only
      rw [same]
      refine (careful.known other).position.imp (fun behind position member => ?_) fun blank => blank
      rcases List.mem_append.mp member with before | new
      · exact behind position before
      · rcases List.mem_map.mp new with ⟨place, _, same⟩
        exact absurd (Prod.mk.inj same).1.symm here
  · dsimp only
    rw [length_eq]
    refine careful.once.append ?_ fun entry before new => fresh entry new before
    exact List.Nodup.map (fun first second same => by
      have positions := (Prod.mk.inj same).2
      omega) List.nodup_range

theorem Careful.advance {op : WindowOp} (careful : session.Careful)
    (remembers : Remembers (some session) op) :
    ∃ session', advance (some session) op = some session' ∧ session'.Careful := by
  cases op with
  | openStream id =>
      refine ⟨_, rfl, careful.congr fun other => ?_⟩
      rw [ConnState.held_openStream]
      split
      · exact Or.inr rfl
      · exact Or.inl rfl
  | frame id offset data fin => exact careful.frame offset data fin remembers
  | read id size => exact careful.read id size
  | resetStream id appErrorCode =>
      exact ⟨_, rfl, careful.congr fun other =>
        Or.inl (session.conn.held_onResetStream id appErrorCode other)⟩
  | finAcked id =>
      exact ⟨_, rfl, careful.congr fun other => Or.inl (session.conn.held_onFinAcked id other)⟩
  | drainPending => exact ⟨_, rfl, careful.congr fun _ => Or.inl rfl⟩

/-- A session that begins. -/
def start (initialMaxData initialMaxStreamData : Nat) : ReadSession where
  conn := .start initialMaxData initialMaxStreamData

theorem careful_start (initialMaxData initialMaxStreamData : Nat) :
    Careful (start initialMaxData initialMaxStreamData) where
  known := fun id => by
    have nothing : (start initialMaxData initialMaxStreamData).conn.held id = {} :=
      ConnState.held_eq_empty rfl
    refine ⟨?_, Or.inr ?_⟩
    · rw [nothing]
      intro first member
      cases member
    · rw [nothing]
      exact Held.blank_empty
  once := List.nodup_nil

section

variable {size : Nat} {data : List Byte} (fin : Bool)
  (absent : session.conn.streams.lookup id = none)
  (free : session.conn.makeRoom.streams.size < MAX_TRACKED_STREAMS)
  (window : data.length ≤ recvWindowFor session.conn id) (small : data.length ≤ MAX_RECV_BUFFER)
  (nonempty : data ≠ []) (room : 0 < size)

include absent free window small nonempty room

/-- The first frame of a stream that is not in the table makes a read hand out
its first byte. -/
theorem handed_first :
    ∃ session', run advance (some session) [.frame id 0 data fin, .read id size] = some session' ∧
      ∃ more, session'.handed = session.handed ++ more ∧ (id, 0) ∈ more := by
  rcases ConnState.onStream_first fin absent free window small with ⟨conn', arrived, admits⟩
  rcases admits.here with ⟨limit, found⟩
  rcases ConnState.recvInto_first found nonempty size with ⟨copied, contig_eq⟩
  have framed : session.step (.frame id 0 data fin) = some { session with conn := conn' } := by
    rw [step, arrived]
    rfl
  have positive : 0 < (conn'.recvInto id size).2.1.length := by
    have bytes := List.length_pos_of_ne_nil nonempty
    rw [copied, List.length_take]
    omega
  refine ⟨_, by rw [run_cons, advance, Option.bind_some, framed]; rfl, _, rfl, ?_⟩
  exact List.mem_map.mpr ⟨0, List.mem_range.mpr positive, by dsimp only; rw [contig_eq]⟩

theorem not_handedOnce_of_first (before : (id, 0) ∈ session.handed) :
    ¬HandedOnce (run advance (some session) [.frame id 0 data fin, .read id size]) := by
  rcases handed_first fin absent free window small nonempty room with
    ⟨session', reached, more, handed, again⟩
  intro once
  have distinct := once session' reached
  rw [handed] at distinct
  exact List.disjoint_of_nodup_append distinct before again

end

/-- Every byte of a stream is handed out at most once in every run whose accepted
frames with data find what was read of their stream; and the first byte of a
stream that was read, and is no longer in the table, is handed out again as soon
as a frame that begins the stream is accepted and read. -/
theorem handedOnce_of_remembers (initialMaxData initialMaxStreamData : Nat)
    (ops : List WindowOp) :
    (RunMeets advance Remembers (some (start initialMaxData initialMaxStreamData)) ops →
        RunAlways advance HandedOnce (some (start initialMaxData initialMaxStreamData)) ops) ∧
      ∀ (session : ReadSession) (id size : Nat) (data : List Byte) (fin : Bool),
        session.conn.streams.lookup id = none → session.conn.accepts id 0 data = true →
          data ≠ [] → 0 < size → (id, 0) ∈ session.handed →
            ¬HandedOnce (run advance (some session) [.frame id 0 data fin, .read id size]) := by
  constructor
  · intro meets
    refine runAlways_of_invariant
      (fun state => ∃ session, state = some session ∧ session.Careful) ?_ ?_
      ⟨_, rfl, careful_start initialMaxData initialMaxStreamData⟩ meets
    · rintro _ ⟨session, rfl, careful⟩ other same
      rw [← Option.some.inj same]
      exact careful.once
    · rintro _ op ⟨session, rfl, careful⟩ remembers
      exact careful.advance remembers
  · intro session id size data fin absent accepted nonempty room before
    rcases ConnState.bounds_of_accepts absent accepted with ⟨free, window, small⟩
    exact not_handedOnce_of_first fin absent free window small nonempty room before

/-- A stream that is read in parts, with frames that overlap and that come again
when they were read. -/
def retransmitted : List WindowOp :=
  [.frame 3 2 [3, 4] true, .frame 3 0 [1, 2, 3] false, .read 3 2, .frame 3 0 [1, 2, 3] false,
    .read 3 8, .frame 3 2 [3, 4] true, .frame 3 0 [1] false, .read 3 8]

theorem handedOnce_of_remembers_retransmitted :
    RunAlways advance HandedOnce (some (start 1000 1000)) retransmitted ∧
      (run advance (some (start 1000 1000)) retransmitted).map (·.handed) =
        some [(3, 0), (3, 1), (3, 2), (3, 3)] := by
  have remembers : ∀ {session : ReadSession} {id offset : Nat} {data : List Byte} {fin : Bool},
      (∀ place ∈ session.handed, place.1 = id → place.2 < (session.conn.held id).contig) →
      Remembers (some session) (.frame id offset data fin) :=
    fun below _ _ position member => below _ member rfl
  refine ⟨(handedOnce_of_remembers 1000 1000 retransmitted).1 ?_, by decide +kernel⟩
  exact ⟨remembers (by decide +kernel), remembers (by decide +kernel), trivial,
    remembers (by decide +kernel), trivial, remembers (by decide +kernel),
    remembers (by decide +kernel), trivial, trivial⟩

/-- An empty frame for one of the streams behind the first one of the server. -/
def crowdFrame (number : Nat) : WindowOp :=
  .frame (4 * number + 7) 0 [] false

/-- The first stream of the server has been read to its end, and others came
behind it. -/
structure Crowded (session : ReadSession) (count : Nat) : Prop where
  handed : (3, 0) ∈ session.handed
  size : session.conn.streams.size = count + 1
  closed : 3 ∈ session.conn.streams.keysWhere streamFullyClosed
  later : ∀ number, count ≤ number → session.conn.streams.lookup (4 * number + 7) = none
  window : recvWindowFor session.conn 3 = 1000

theorem step_crowdFrame {number : Nat}
    (absent : session.conn.streams.lookup (4 * number + 7) = none)
    (room : session.conn.makeRoom.streams.size < MAX_TRACKED_STREAMS) :
    ∃ conn' stream, advance (some session) (crowdFrame number) =
        some { session with conn := conn' } ∧
      session.conn.makeRoom.Admits conn' (4 * number + 7) stream := by
  rcases @ConnState.onStream_first session.conn (4 * number + 7) [] false absent room
    (Nat.zero_le _) (Nat.zero_le _) with ⟨conn', arrived, admits⟩
  refine ⟨conn', _, ?_, admits⟩
  rw [advance, Option.bind_some, crowdFrame, step, arrived]
  rfl

theorem Crowded.succ {count : Nat} (crowded : session.Crowded count) (few : count < 767) :
    ∃ session', advance (some session) (crowdFrame count) = some session' ∧
      session'.Crowded (count + 1) := by
  have size := crowded.size
  have noSweep : session.conn.makeRoom = session.conn :=
    if_neg (by unfold STREAM_TABLE_SWEEP_THRESHOLD; omega)
  have room : session.conn.makeRoom.streams.size < MAX_TRACKED_STREAMS := by
    rw [noSweep]
    unfold MAX_TRACKED_STREAMS
    omega
  rcases step_crowdFrame (crowded.later count (Nat.le_refl count)) room with
    ⟨conn', stream, arrived, admits⟩
  rw [noSweep] at admits
  refine ⟨_, arrived, crowded.handed, by rw [admits.size, size], ?_, ?_, ?_⟩
  · rcases (Table.mem_keysWhere_iff _ _).mp crowded.closed with ⟨first, found, done⟩
    refine (Table.mem_keysWhere_iff _ _).mpr ⟨first, ?_, done⟩
    exact (admits.others 3 (by omega)).trans found
  · intro number behind
    exact (admits.others _ (by omega)).trans (crowded.later number (by omega))
  · exact (admits.windows 3).trans crowded.window

theorem Crowded.run (crowded : session.Crowded 0) {count : Nat} (few : count ≤ 767) :
    ∃ session', Transition.run advance (some session) ((List.range count).map crowdFrame) =
      some session' ∧ session'.Crowded count := by
  induction count with
  | zero => exact ⟨session, rfl, crowded⟩
  | succ count ih =>
      rcases ih (by omega) with ⟨middle, reached, holds⟩
      rcases holds.succ (by omega) with ⟨session', stepped, holds'⟩
      refine ⟨session', ?_, holds'⟩
      rw [List.range_succ, List.map_append, run_append, reached]
      exact stepped

/-- A stream of one byte is read to its end; 768 streams later its only frame
arrives a second time and is read again. -/
def sweptThenRepeated : List WindowOp :=
  [.frame 3 0 [42] true, .read 3 8] ++ (List.range 768).map crowdFrame ++
    [.frame 3 0 [42] true, .read 3 8]

theorem swept_stream_handed_again :
    ¬RunAlways advance HandedOnce (some (start 1000 1000)) sweptThenRepeated := by
  intro always
  have once := run_of_runAlways always
  have first : ∃ session, Transition.run advance (some (start 1000 1000))
      [.frame 3 0 [42] true, .read 3 8] = some session ∧ session.Crowded 0 := by
    refine ⟨_, rfl, ?_, rfl, ?_, ?_, rfl⟩
    · decide
    · decide
    · intro number _
      refine AList.lookup_eq_none.mpr fun member => ?_
      have key : 4 * number + 7 ∈ [3] := member
      have same := List.mem_singleton.mp key
      omega
  rcases first with ⟨session, reached, crowded⟩
  rcases crowded.run (Nat.le_refl 767) with ⟨middle, reached', crowded'⟩
  have size := crowded'.size
  have sweeps : middle.conn.makeRoom = { middle.conn with
      streams := middle.conn.streams.eraseAll (middle.conn.streams.keysWhere streamFullyClosed) } :=
    if_pos (by unfold STREAM_TABLE_SWEEP_THRESHOLD; omega)
  have smaller : middle.conn.makeRoom.streams.size ≤ 768 := by
    rw [sweeps]
    exact (Table.size_eraseAll_le _ _).trans size.le
  rcases step_crowdFrame (crowded'.later 767 (Nat.le_refl 767))
    (Nat.lt_of_le_of_lt smaller (by decide)) with ⟨conn', stream, arrived, admits⟩
  have gone : conn'.streams.lookup 3 = none := by
    rw [admits.others 3 (by decide), sweeps, Table.lookup_eraseAll, if_pos crowded'.closed]
  have free : conn'.makeRoom.streams.size < MAX_TRACKED_STREAMS := by
    refine Nat.lt_of_le_of_lt ?_ (by decide : 769 < MAX_TRACKED_STREAMS)
    have grown := admits.size
    unfold ConnState.makeRoom
    split
    · exact (Table.size_eraseAll_le _ _).trans (by omega)
    · omega
  have window : recvWindowFor conn' 3 = 1000 := by
    rw [admits.windows, sweeps]
    exact crowded'.window
  have again := @not_handedOnce_of_first { middle with conn := conn' } 3 8 [42] true gone free
    (by dsimp only; rw [window]; decide) (by decide) (by decide) (by decide) crowded'.handed
  refine again ?_
  rw [sweptThenRepeated, run_append, run_append, reached, List.range_succ, List.map_append,
    run_append, reached'] at once
  have last : Transition.run advance (some middle) ([767].map crowdFrame) =
      some { middle with conn := conn' } := arrived
  rwa [last] at once

end ReadSession

end Corduit.Protocol.Quic
