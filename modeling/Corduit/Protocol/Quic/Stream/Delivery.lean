import Corduit.Protocol.Quic.Stream.Gaps

/-!
# Delivery of stream bytes

Only three fields of a stream hold received bytes.  What a frame and a read do
to them is stated once for the connection as a whole; the bytes that were
delivered, followed by the prefix, are then the beginning of the byte stream
that the frames were cut from, whatever order they arrive in.
-/

namespace Corduit.Protocol.Quic

open Collection Transition Word

/-- The received bytes that a stream holds. -/
@[ext]
structure Held where
  contig : Nat := 0
  ready : List Byte := []
  gaps : OrderedMap Nat (List Byte) := .empty

/-- Where the contiguous bytes end. -/
def Held.stop (held : Held) : Nat :=
  held.contig + held.ready.length

/-- What is held of the stream. -/
def StreamState.held (stream : StreamState) : Held :=
  ⟨stream.recvContig, stream.recvPrefix, stream.recvGaps⟩

/-- What the connection holds for a stream; a stream that is not tracked holds
nothing. -/
def ConnState.held (conn : ConnState) (streamId : Nat) : Held :=
  ((conn.streams.lookup streamId).map StreamState.held).getD {}

theorem ConnState.held_of_lookup {conn : ConnState} {streamId : Nat} {stream : StreamState}
    (located : conn.streams.lookup streamId = some stream) : conn.held streamId = stream.held := by
  simp [ConnState.held, located]

@[simp]
theorem StreamState.stop_held (stream : StreamState) : stream.held.stop = stream.prefixEnd :=
  rfl

theorem ConnState.held_bumpRecvCredit (conn : ConnState) (streamId : Nat) :
    (conn.bumpRecvCredit streamId).held streamId = conn.held streamId := by
  unfold bumpRecvCredit
  cases located : conn.streams.lookup streamId with
  | none => rfl
  | some stream =>
      have same : ∀ limit, ((conn.streams.insert streamId
          { stream with peerSendLimit := limit }).lookup streamId).map StreamState.held =
          (conn.streams.lookup streamId).map StreamState.held := by
        intro limit
        rw [AList.lookup_insert, located]
        rfl
      dsimp only
      split <;> split <;> simp only [held, same]

namespace ConnState

variable {conn : ConnState} {streamId offset size : Nat} {data : List Byte} {fin : Bool}

/-- The frame passes the checks that come before its bytes are placed. -/
def accepts (conn : ConnState) (streamId offset : Nat) (data : List Byte) : Bool :=
  match conn.trackStream streamId with
  | (.error _, _) => false
  | (.ok (), conn) =>
      match conn.streams.lookup streamId with
      | none => false
      | some stream => (stream.checkFrame offset data).toBool

theorem held_trackStream (conn : ConnState) (streamId : Nat) :
    (conn.trackStream streamId).2.held streamId = conn.held streamId := by
  unfold trackStream
  dsimp only
  split
  · rfl
  · rename_i untracked
    have absent : conn.streams.lookup streamId = none := by simpa using untracked
    have swept : (conn.streams.eraseAll (conn.streams.keysWhere streamFullyClosed)).lookup
        streamId = none := by
      rw [Table.lookup_eraseAll, absent]
      exact ite_self none
    have fresh : ∀ limit, ({ peerSendLimit := limit } : StreamState).held = {} := fun _ => rfl
    split
    · split <;> simp [held, absent, swept, fresh]
    · split <;> simp [held, absent, fresh]

/-- A frame is rejected and changes nothing that is held, or its bytes are
placed in the stream. -/
theorem onStream_cases (conn : ConnState) (streamId offset : Nat) (data : List Byte) (fin : Bool) :
    (conn.accepts streamId offset data = false ∧ ∃ error conn',
      conn.onStream streamId offset data fin = some (.error error, conn') ∧
      conn'.held streamId = conn.held streamId) ∨
    (conn.accepts streamId offset data = true ∧ ∃ stream : StreamState, stream.held = conn.held streamId ∧
      ∀ stream', (stream.noteFin offset data fin).placeData offset data = some stream' →
        ∃ conn', conn.onStream streamId offset data fin = some (.ok (), conn') ∧
          conn'.held streamId = stream'.held) := by
  have kept := conn.held_trackStream streamId
  unfold accepts onStream
  rcases tracked : conn.trackStream streamId with ⟨result, middle⟩
  rw [tracked] at kept
  cases result with
  | error error => exact Or.inl ⟨rfl, error, middle, rfl, kept⟩
  | ok _ =>
      cases located : middle.streams.lookup streamId with
      | none =>
          dsimp only
          rw [located]
          exact Or.inl ⟨rfl, _, middle, rfl, kept⟩
      | some stream =>
          dsimp only
          rw [located]
          dsimp only
          cases checked : stream.checkFrame offset data with
          | error error => exact Or.inl ⟨rfl, error, middle, rfl, kept⟩
          | ok _ =>
              refine Or.inr ⟨rfl, stream, (held_of_lookup located).symm.trans kept, ?_⟩
              intro stream' placed
              refine ⟨_, by rw [placed]; rfl, ?_⟩
              rw [held_bumpRecvCredit]
              exact held_of_lookup (AList.lookup_insert _)

theorem recvInto_eq (conn : ConnState) (streamId size : Nat) :
    ∃ count ≤ (conn.held streamId).ready.length,
      (conn.recvInto streamId size).2.1 = (conn.held streamId).ready.take count ∧
      (conn.recvInto streamId size).2.2.held streamId =
        { conn.held streamId with
          contig := (conn.held streamId).contig + count
          ready := (conn.held streamId).ready.drop count } := by
  have nothing : ∃ count ≤ (conn.held streamId).ready.length,
      ([] : List Byte) = (conn.held streamId).ready.take count ∧
      conn.held streamId = { conn.held streamId with
        contig := (conn.held streamId).contig + count
        ready := (conn.held streamId).ready.drop count } :=
    ⟨0, Nat.zero_le _, rfl, rfl⟩
  unfold recvInto
  cases located : conn.streams.lookup streamId with
  | none => exact nothing
  | some stream =>
      dsimp only
      cases stream.resetRecv with
      | some code => exact nothing
      | none =>
          dsimp only
          split
          · have holds := held_of_lookup located
            refine ⟨min size stream.recvPrefix.length, ?_, ?_, ?_⟩
            · rw [holds]
              exact Nat.min_le_right _ _
            · rw [holds]
              rfl
            · dsimp only
              rw [held_bumpRecvCredit, holds]
              simp only [held, AList.lookup_insert]
              rfl
          · split
            · exact nothing
            · exact nothing

end ConnState

namespace StreamState

variable {stream stream' : StreamState} {offset : Nat} {data : List Byte} {fin : Bool}

theorem promoteNext_eq_some (turn : promoteNext stream = some stream') :
    ∃ segment, (stream.prefixEnd, segment) ∈ stream.recvGaps.entries ∧
      stream' = { stream with
        recvGaps := stream.recvGaps.erase stream.prefixEnd
        recvPrefix := stream.recvPrefix ++ segment } := by
  unfold promoteNext at turn
  split at turn
  · rename_i key segment first
    split at turn
    · rename_i here
      subst here
      exact ⟨segment, List.mem_of_head? first, (Option.some.inj turn).symm⟩
    · cases turn
  · cases turn

@[simp]
theorem held_noteFin (stream : StreamState) (offset : Nat) (data : List Byte) (fin : Bool) :
    (stream.noteFin offset data fin).held = stream.held := by
  unfold noteFin
  split <;> rfl

theorem held_extendPrefix (stream : StreamState) (offset : Nat) (data : List Byte) :
    (stream.extendPrefix offset data).held = { stream.held with
      ready := stream.recvPrefix ++ data.drop (stream.prefixEnd - offset) } := by
  unfold extendPrefix
  dsimp only
  split
  · rfl
  · rename_i nothing
    rw [List.drop_eq_nil_of_le (Nat.le_of_not_lt nothing), List.append_nil]
    rfl

end StreamState

/-- What a stream holds was cut from `source`, and continues what it has
delivered. -/
structure Intact (source delivered : List Byte) (held : Held) : Prop where
  contig : held.contig = delivered.length
  prefixed : SliceOf source 0 (delivered ++ held.ready)
  sliced : ∀ stored ∈ held.gaps.entries, SliceOf source stored.1 stored.2
  spread : Segment.SpreadOut held.gaps.entries

namespace Intact

variable {source delivered data : List Byte} {held : Held} {stream : StreamState} {offset : Nat}

theorem extend (intact : Intact source delivered held) (next : SliceOf source held.stop data) :
    Intact source delivered { held with ready := held.ready ++ data } where
  contig := intact.contig
  prefixed := by
    rw [← List.append_assoc]
    apply intact.prefixed.append
    rwa [List.length_append, Nat.zero_add, ← intact.contig]
  sliced := intact.sliced
  spread := intact.spread

theorem erase (intact : Intact source delivered held) (key : Nat) :
    Intact source delivered { held with gaps := held.gaps.erase key } where
  contig := intact.contig
  prefixed := intact.prefixed
  sliced stored member := intact.sliced stored (OrderedMap.mem_erase.mp member).1
  spread := intact.spread.subset fun _ member => (OrderedMap.mem_erase.mp member).1

theorem promote (intact : Intact source delivered held)
    (member : (held.stop, data) ∈ held.gaps.entries) :
    Intact source delivered
      { held with ready := held.ready ++ data, gaps := held.gaps.erase held.stop } :=
  (intact.extend (intact.sliced _ member)).erase held.stop

theorem promoteGaps (intact : Intact source delivered stream.held) :
    Intact source delivered stream.promoteGaps.held := by
  refine drain_invariant (fun stream : StreamState => Intact source delivered stream.held) ?_ _ intact
  intro first second turn holds
  rcases StreamState.promoteNext_eq_some turn with ⟨segment, member, rfl⟩
  exact holds.promote member

theorem takeContiguous (intact : Intact source delivered stream.held) :
    Intact source delivered stream.takeContiguous.held := by
  unfold StreamState.takeContiguous
  cases located : stream.recvGaps.get? stream.prefixEnd with
  | none => exact intact
  | some segment =>
      apply Intact.promoteGaps
      exact intact.promote (OrderedMap.mem_of_get? located)

theorem slice_behind {position : Nat} (slice : SliceOf source offset data)
    (reached : offset ≤ position) (inside : position ≤ source.length) :
    SliceOf source position (data.drop (position - offset)) := by
  by_cases short : position - offset ≤ data.length
  · have behind := slice.drop short
    rwa [Nat.add_sub_cancel' reached] at behind
  · rw [List.drop_eq_nil_of_le (by omega)]
    exact SliceOf.nil inside

theorem placeData (intact : Intact source delivered stream.held)
    (slice : SliceOf source offset data) :
    ∃ stream', stream.placeData offset data = some stream' ∧
      Intact source delivered stream'.held := by
  unfold StreamState.placeData
  by_cases reached : offset ≤ stream.prefixEnd
  · rw [if_pos reached]
    refine ⟨_, rfl, Intact.promoteGaps ?_⟩
    rw [StreamState.held_extendPrefix]
    apply intact.extend
    apply slice_behind slice reached
    have inside := intact.prefixed.inside
    rwa [List.length_append, Nat.zero_add, ← intact.contig] at inside
  · rw [if_neg reached]
    rcases @insertGap_eq stream.recvGaps intact.spread offset data with ⟨gaps, inserted, grown⟩
    refine ⟨_, by rw [inserted]; rfl, Intact.takeContiguous ?_⟩
    exact ⟨intact.contig, intact.prefixed, grown.sliced source slice intact.sliced, grown.spread⟩

theorem read (intact : Intact source delivered held) {count : Nat}
    (available : count ≤ held.ready.length) :
    Intact source (delivered ++ held.ready.take count)
      { held with contig := held.contig + count, ready := held.ready.drop count } where
  contig := by rw [List.length_append, List.length_take_of_le available, intact.contig]
  prefixed := by
    rw [List.append_assoc, List.take_append_drop]
    exact intact.prefixed
  sliced := intact.sliced
  spread := intact.spread

end Intact

/-- A connection with the frames of one stream that were accepted and the bytes
that the application has read from it. -/
structure Session where
  conn : ConnState
  received : List (Segment Byte) := []
  delivered : List Byte := []

/-- A frame of the stream arrives, or the application reads from it. -/
inductive StreamOp where
  | frame (offset : Nat) (data : List Byte) (fin : Bool)
  | recv (size : Nat)

namespace Session

/-- The session after one call; `none` after a panic. -/
def step (streamId : Nat) (session : Session) : StreamOp → Option Session
  | .frame offset data fin =>
      (session.conn.onStream streamId offset data fin).map fun (result, conn) =>
        { session with
          conn := conn
          received := if result.toBool then session.received ++ [(offset, data)]
            else session.received }
  | .recv size =>
      let (_, bytes, conn) := session.conn.recvInto streamId size
      some { session with conn := conn, delivered := session.delivered ++ bytes }

/-- Calls one after the other; nothing follows a panic. -/
def advance (streamId : Nat) (state : Option Session) (op : StreamOp) : Option Session :=
  state.bind fun session => session.step streamId op

variable {session : Session} {streamId : Nat} {source : List Byte}

/-- What the session holds is intact. -/
def IsIntact (source : List Byte) (streamId : Nat) (state : Option Session) : Prop :=
  ∃ session, state = some session ∧
    Intact source session.delivered (session.conn.held streamId)

/-- Every frame of the schedule is a slice of the source. -/
def CutFrom (source : List Byte) : StreamOp → Prop
  | .frame offset data _ => SliceOf source offset data
  | .recv _ => True

theorem advance_intact {state : Option Session} {op : StreamOp}
    (intact : IsIntact source streamId state) (cut : CutFrom source op) :
    IsIntact source streamId (advance streamId state op) := by
  rcases intact with ⟨session, rfl, intact⟩
  cases op with
  | frame offset data fin =>
      rcases session.conn.onStream_cases streamId offset data fin with
        ⟨_, error, conn, arrived, same⟩ | ⟨_, stream, same, placed⟩
      · refine ⟨{ session with conn := conn }, ?_, ?_⟩
        · simp [advance, step, arrived, Except.toBool]
        · rw [same]
          exact intact
      · rw [← same] at intact
        have noted : Intact source session.delivered (stream.noteFin offset data fin).held := by
          rwa [StreamState.held_noteFin]
        rcases noted.placeData cut with ⟨stream', put, intact'⟩
        rcases placed stream' put with ⟨conn, arrived, holds⟩
        refine ⟨_, by simp [advance, step, arrived]; rfl, ?_⟩
        rw [holds]
        exact intact'
  | recv size =>
      rcases session.conn.recvInto_eq streamId size with ⟨count, available, copied, holds⟩
      refine ⟨{ session with
        conn := (session.conn.recvInto streamId size).2.2
        delivered := session.delivered ++ (session.conn.recvInto streamId size).2.1 }, rfl, ?_⟩
      dsimp only
      rw [copied, holds]
      exact intact.read available

end Session

/-- A connection holds nothing yet for a stream: it does not track it, or has
just opened it. -/
def ConnState.Unused (conn : ConnState) (streamId : Nat) : Prop :=
  conn.held streamId = {}

/-- However frames that were cut from `source` arrive, and however they are
interleaved with reads, no call panics; what was delivered followed by the
prefix is the beginning of the source, and the segments that wait are slices of
the source that neither overlap nor touch. -/
theorem delivered_exactly (conn : ConnState) (streamId : Nat) (unused : conn.Unused streamId)
    (source : List Byte) (ops : List StreamOp)
    (cut : ∀ op ∈ ops, Session.CutFrom source op) :
    ∃ session, run (Session.advance streamId) (some { conn := conn }) ops = some session ∧
      session.delivered ++ (session.conn.held streamId).ready <+: source ∧
      (∀ stored ∈ (session.conn.held streamId).gaps.entries,
        SliceOf source stored.1 stored.2) ∧
      (session.conn.held streamId).gaps.entries.Pairwise fun first second =>
        first.1 + first.2.length < second.1 := by
  have initially : Session.IsIntact source streamId (some { conn := conn }) := by
    refine ⟨_, rfl, ?_⟩
    dsimp only
    rw [unused]
    exact ⟨rfl, SliceOf.nil (Nat.zero_le _), by simp, by simp [Segment.SpreadOut]⟩
  obtain ⟨session, ran, intact⟩ := run_invariant_of_meets (Session.IsIntact source streamId)
    (fun _ _ intact cut => Session.advance_intact intact cut) initially
    (runMeets_of_forall cut _)
  exact ⟨session, ran, SliceOf.zero_iff.mp intact.prefixed, intact.sliced,
    intact.spread.pairwise (session.conn.held streamId).gaps.sorted⟩

/-- A connection that tracks no stream yet. -/
def ConnState.idle : ConnState where
  streams := ∅
  myMaxStreamDataBidiLocal := 1000
  myMaxStreamDataBidiRemote := 1000
  myMaxStreamDataUni := 1000
  maxDataAdvertised := 1000
  totalRecv := 0
  pendingMaxData := []
  pendingMaxStreamData := []

/-- Three overlapping frames, the last one first, and a read. -/
theorem delivered_exactly_three_frames :
    ∃ session, run (Session.advance 3) (some { conn := ConnState.idle })
        [.frame 4 [5, 6] false, .frame 2 [3, 4, 5] false, .frame 0 [1, 2] true, .recv 4] =
        some session ∧
      session.delivered ++ (session.conn.held 3).ready <+: [1, 2, 3, 4, 5, 6] ∧
      (∀ stored ∈ (session.conn.held 3).gaps.entries,
        SliceOf [1, 2, 3, 4, 5, 6] stored.1 stored.2) ∧
      (session.conn.held 3).gaps.entries.Pairwise fun first second =>
        first.1 + first.2.length < second.1 := by
  apply delivered_exactly ConnState.idle 3 rfl
  intro op member
  simp only [List.mem_cons, List.not_mem_nil, or_false] at member
  rcases member with rfl | rfl | rfl | rfl
  · exact ⟨by decide, by decide⟩
  · exact ⟨by decide, by decide⟩
  · exact ⟨by decide, by decide⟩
  · trivial

end Corduit.Protocol.Quic
