import Corduit.Protocol.Quic.Stream.Delivery

/-!
# Contiguous data that is withheld

The end of the prefix should be the length of the longest covered prefix of the
stream.  Promotion compares the first segment with the end of the prefix for
equality: a frame that carries the prefix past the beginning of a segment that
waits leaves the segment behind for good.  Every other frame keeps the prefix
as long as it can be.
-/

namespace Corduit.Protocol.Quic

open Collection Transition Word

variable {received : List (Segment Byte)} {held : Held} {stream : StreamState}
  {segment : Segment Byte} {offset : Nat} {data : List Byte}

theorem coveredBy_concat {position : Nat} :
    Segment.CoveredBy (received ++ [segment]) position ↔
      Segment.CoveredBy received position ∨ segment.Covers position := by
  simp [Segment.CoveredBy, or_and_right, exists_or]

/-- The frames that were received cover the prefix and the segments that wait,
none of which begins before the end of the prefix. -/
structure Reaches (received : List (Segment Byte)) (held : Held) : Prop where
  spread : Segment.SpreadOut held.gaps.entries
  atLeast : ∀ stored ∈ held.gaps.entries, held.stop ≤ stored.1
  covers : ∀ position, Segment.CoveredBy received position ↔
    position < held.stop ∨ Segment.CoveredBy held.gaps.entries position

/-- Every segment that waits begins behind the end of the prefix. -/
def Ahead (held : Held) : Prop :=
  ∀ stored ∈ held.gaps.entries, held.stop < stored.1

namespace Reaches

theorem promote (reaches : Reaches received held)
    (member : (held.stop, data) ∈ held.gaps.entries) :
    Reaches received
      { held with ready := held.ready ++ data, gaps := held.gaps.erase held.stop } := by
  have stop_eq : Held.stop
      { held with ready := held.ready ++ data, gaps := held.gaps.erase held.stop } =
      Segment.stop (held.stop, data) := by
    simp only [Held.stop, Segment.stop, List.length_append]
    omega
  refine ⟨?_, ?_, ?_⟩
  · exact reaches.spread.subset fun _ inRest => (OrderedMap.mem_erase.mp inRest).1
  · intro stored inRest
    rcases OrderedMap.mem_erase.mp inRest with ⟨inGaps, different⟩
    have below : held.stop < stored.1 :=
      Nat.lt_of_le_of_ne (reaches.atLeast stored inGaps) (Ne.symm different)
    rw [stop_eq]
    exact (reaches.spread _ member stored inGaps below).le
  · intro position
    rw [reaches.covers, stop_eq]
    constructor
    · rintro (inPrefix | ⟨stored, inGaps, covers⟩)
      · exact Or.inl (inPrefix.trans_le (Segment.start_le_stop (held.stop, data)))
      · by_cases same : stored.1 = held.stop
        · obtain rfl : stored = (held.stop, data) := Prod.ext same
            (OrderedMap.value_unique (same ▸ inGaps : (held.stop, stored.2) ∈ _) member)
          exact Or.inl covers.2
        · exact Or.inr ⟨stored, OrderedMap.mem_erase.mpr ⟨inGaps, same⟩, covers⟩
    · rintro (inside | ⟨stored, inRest, covers⟩)
      · by_cases old : position < held.stop
        · exact Or.inl old
        · exact Or.inr ⟨_, member, Nat.le_of_not_lt old, inside⟩
      · exact Or.inr ⟨stored, (OrderedMap.mem_erase.mp inRest).1, covers⟩

/-- The promotion loop stops with every segment ahead of the prefix. -/
theorem promoteGaps (reaches : Reaches received stream.held) :
    Reaches received stream.promoteGaps.held ∧ Ahead stream.promoteGaps.held := by
  have kept : Reaches received stream.promoteGaps.held := by
    refine drain_invariant (fun stream : StreamState => Reaches received stream.held) ?_ _ reaches
    intro first second turn holds
    rcases StreamState.promoteNext_eq_some turn with ⟨segment, member, rfl⟩
    exact holds.promote member
  refine ⟨kept, ?_⟩
  have stopped : StreamState.promoteNext stream.promoteGaps = none := by
    refine drain_terminal (fun stream => stream.recvGaps.entries.length) ?_ _ le_rfl
    intro first second turn
    rcases StreamState.promoteNext_eq_some turn with ⟨segment, member, rfl⟩
    exact first.recvGaps.length_erase_lt member
  generalize stream.promoteGaps = final at kept stopped
  intro stored member
  apply Nat.lt_of_le_of_ne (kept.atLeast stored member)
  intro here
  cases entries : final.recvGaps.entries with
  | nil =>
      change stored ∈ final.recvGaps.entries at member
      simp [entries] at member
  | cons first rest =>
      have firstMem : first ∈ final.recvGaps.entries := by simp [entries]
      have different : first.1 ≠ final.prefixEnd := by
        intro same
        simp [StreamState.promoteNext, entries, same] at stopped
      have sorted := final.recvGaps.sorted
      rw [entries] at sorted
      have firstLe : first.1 ≤ stored.1 := by
        change stored ∈ final.recvGaps.entries at member
        rw [entries] at member
        rcases List.mem_cons.mp member with rfl | later
        · exact le_rfl
        · exact (List.rel_of_pairwise_cons sorted later).le
      have atLeast := kept.atLeast first firstMem
      rw [StreamState.stop_held] at atLeast here
      exact different (Nat.le_antisymm (here ▸ firstLe) atLeast)

theorem stop_extendPrefix (reached : offset ≤ stream.prefixEnd) :
    (stream.extendPrefix offset data).prefixEnd = max stream.prefixEnd (offset + data.length) := by
  have stop_eq := congrArg Held.stop (stream.held_extendPrefix offset data)
  rw [StreamState.stop_held] at stop_eq
  rw [stop_eq]
  simp only [Held.stop, List.length_append, List.length_drop, StreamState.held]
  simp only [StreamState.prefixEnd] at reached ⊢
  omega

theorem gaps_extendPrefix (stream : StreamState) (offset : Nat) (data : List Byte) :
    (stream.extendPrefix offset data).recvGaps = stream.recvGaps :=
  congrArg Held.gaps (stream.held_extendPrefix offset data)

variable (reaches : Reaches received stream.held)

include reaches

theorem extendPrefix (reached : offset ≤ stream.prefixEnd)
    (clear : ∀ stored ∈ stream.recvGaps.entries, offset + data.length ≤ stored.1) :
    Reaches (received ++ [(offset, data)]) (stream.extendPrefix offset data).held where
  spread := by
    change Segment.SpreadOut (stream.extendPrefix offset data).recvGaps.entries
    rw [gaps_extendPrefix]
    exact reaches.spread
  atLeast := by
    intro stored member
    change stored ∈ (stream.extendPrefix offset data).recvGaps.entries at member
    rw [gaps_extendPrefix] at member
    rw [StreamState.stop_held, stop_extendPrefix reached]
    exact max_le (reaches.atLeast stored member) (clear stored member)
  covers position := by
    change _ ↔ _ ∨ Segment.CoveredBy (stream.extendPrefix offset data).recvGaps.entries position
    rw [coveredBy_concat, reaches.covers, StreamState.stop_held, StreamState.stop_held,
      stop_extendPrefix reached, gaps_extendPrefix, lt_max_iff]
    constructor
    · rintro ((inPrefix | inGaps) | new)
      · exact Or.inl (Or.inl inPrefix)
      · exact Or.inr inGaps
      · exact Or.inl (Or.inr new.2)
    · rintro ((inPrefix | new) | inGaps)
      · exact Or.inl (Or.inl inPrefix)
      · by_cases old : position < stream.prefixEnd
        · exact Or.inl (Or.inl old)
        · exact Or.inr ⟨reached.trans (Nat.le_of_not_lt old), new⟩
      · exact Or.inl (Or.inr inGaps)

theorem insertGap (ahead : Ahead stream.held) (future : stream.prefixEnd < offset)
    {gaps : OrderedMap Nat (List Byte)} (inserted : Inserted stream.recvGaps (offset, data) gaps) :
    Reaches (received ++ [(offset, data)]) { stream with recvGaps := gaps }.held ∧
      Ahead { stream with recvGaps := gaps }.held := by
  have above : ∀ stored ∈ gaps.entries, stream.prefixEnd < stored.1 :=
    inserted.above _ future ahead
  refine ⟨⟨inserted.spread, fun stored member => (above stored member).le, fun position => ?_⟩,
    above⟩
  change _ ↔ position < stream.prefixEnd ∨ Segment.CoveredBy gaps.entries position
  rw [coveredBy_concat, reaches.covers, inserted.covers, StreamState.stop_held, or_assoc,
    or_comm (b := Segment.Covers _ _)]
  rfl

/-- A frame either keeps everything that waits ahead of the prefix, or carries
the prefix past the beginning of a segment that is never promoted. -/
theorem placeData (ahead : Ahead stream.held) :
    ∃ stream', stream.placeData offset data = some stream' ∧
      ((offset ≤ stream.prefixEnd →
          ∀ stored ∈ stream.recvGaps.entries, offset + data.length ≤ stored.1) →
        Reaches (received ++ [(offset, data)]) stream'.held ∧ Ahead stream'.held) ∧
      (Ahead stream'.held → offset ≤ stream.prefixEnd →
        ∀ stored ∈ stream.recvGaps.entries, offset + data.length ≤ stored.1) := by
  unfold StreamState.placeData
  by_cases reached : offset ≤ stream.prefixEnd
  · rw [if_pos reached]
    refine ⟨_, rfl, fun clear => (reaches.extendPrefix reached (clear reached)).promoteGaps, ?_⟩
    intro stillAhead _ stored member
    apply Nat.le_of_not_lt
    intro past
    have gaps_eq := gaps_extendPrefix stream offset data
    have beyond : ∀ first ∈ stream.recvGaps.entries.head?,
        first.1 ≠ (stream.extendPrefix offset data).prefixEnd := by
      intro first isFirst
      have sorted := stream.recvGaps.sorted
      rcases List.head?_eq_some_iff.mp isFirst with ⟨rest, entries⟩
      rw [entries] at sorted member
      have firstLe : first.1 ≤ stored.1 := by
        rcases List.mem_cons.mp member with rfl | later
        · exact le_rfl
        · exact (List.rel_of_pairwise_cons sorted later).le
      rw [stop_extendPrefix reached]
      exact Nat.ne_of_lt ((firstLe.trans_lt past).trans_le (le_max_right _ _))
    have stopped : StreamState.promoteNext (stream.extendPrefix offset data) = none := by
      unfold StreamState.promoteNext
      rw [gaps_eq]
      cases first : stream.recvGaps.entries.head? with
      | none => rfl
      | some first' => exact if_neg (beyond first' first)
    have same : (stream.extendPrefix offset data).promoteGaps = stream.extendPrefix offset data :=
      drain_of_none stopped _
    rw [same] at stillAhead
    have behind := stillAhead stored (by
      change stored ∈ (stream.extendPrefix offset data).recvGaps.entries
      rwa [gaps_eq])
    rw [StreamState.stop_held, stop_extendPrefix reached] at behind
    exact absurd ((le_max_right _ _).trans_lt behind) (Nat.not_lt.mpr past.le)
  · rw [if_neg reached]
    rcases @insertGap_eq stream.recvGaps reaches.spread offset data with ⟨gaps, put, inserted⟩
    have future := Nat.lt_of_not_le reached
    rcases reaches.insertGap ahead future inserted with ⟨reaches', ahead'⟩
    have vacant : gaps.get? { stream with recvGaps := gaps }.prefixEnd = none := by
      apply OrderedMap.get?_eq_none_iff.mpr
      intro stored member
      exact Nat.ne_of_gt (ahead' stored member)
    have same : { stream with recvGaps := gaps }.takeContiguous = { stream with recvGaps := gaps } := by
      simp only [StreamState.takeContiguous, vacant]
    refine ⟨_, by rw [put]; rfl, ?_, fun _ early => absurd early reached⟩
    intro _
    rw [same]
    exact ⟨reaches', ahead'⟩

end Reaches

namespace Session

variable {session : Session} {streamId : Nat} {state : Option Session} {op : StreamOp}

/-- The end of the prefix is the length of the longest prefix that the accepted
frames cover, and every segment that waits begins behind it. -/
structure Contiguous (streamId : Nat) (session : Session) : Prop where
  covered : ∀ position < (session.conn.held streamId).stop,
    Segment.CoveredBy session.received position
  longest : ¬ Segment.CoveredBy session.received (session.conn.held streamId).stop
  ahead : Ahead (session.conn.held streamId)

/-- No call panicked, and the session withholds nothing. -/
def IsContiguous (streamId : Nat) (state : Option Session) : Prop :=
  ∃ session, state = some session ∧ session.Contiguous streamId

/-- An accepted frame that begins at or before the end of the prefix ends at or
before every segment that waits. -/
def StopsBeforeGaps (streamId : Nat) : Option Session → StreamOp → Prop
  | some session, .frame offset data _ =>
      session.conn.accepts streamId offset data = true →
        offset ≤ (session.conn.held streamId).stop →
        ∀ stored ∈ (session.conn.held streamId).gaps.entries, offset + data.length ≤ stored.1
  | _, _ => True

/-- What holds in the states of a run that withholds nothing. -/
def Tracks (streamId : Nat) (state : Option Session) : Prop :=
  ∃ session, state = some session ∧
    Reaches session.received (session.conn.held streamId) ∧ Ahead (session.conn.held streamId)

theorem Tracks.isContiguous (tracks : Tracks streamId state) : IsContiguous streamId state := by
  rcases tracks with ⟨session, rfl, reaches, ahead⟩
  refine ⟨session, rfl, ?_, ?_, ahead⟩
  · intro position inside
    exact (reaches.covers position).mpr (Or.inl inside)
  · intro covered
    rcases (reaches.covers _).mp covered with inside | ⟨stored, member, covers⟩
    · exact Nat.lt_irrefl _ inside
    · exact Nat.not_le.mpr (ahead stored member) covers.1

/-- A step keeps the session tracked if its frame stops before the gaps, and
withholds data otherwise. -/
theorem Tracks.advance (tracks : Tracks streamId state) (op : StreamOp) :
    (StopsBeforeGaps streamId state op → Tracks streamId (Session.advance streamId state op)) ∧
      (IsContiguous streamId (Session.advance streamId state op) →
        StopsBeforeGaps streamId state op) := by
  rcases tracks with ⟨session, rfl, reaches, ahead⟩
  cases op with
  | frame offset data fin =>
      rcases session.conn.onStream_cases streamId offset data fin with
        ⟨refused, error, conn, arrived, same⟩ | ⟨accepted, stream, same, placed⟩
      · refine ⟨fun _ => ⟨{ session with conn := conn }, ?_, ?_⟩, ?_⟩
        · simp [Session.advance, step, arrived, Except.toBool]
        · rw [same]
          exact ⟨reaches, ahead⟩
        · intro _ accepted
          rw [refused] at accepted
          cases accepted
      · rw [← same] at reaches ahead
        have noted := stream.held_noteFin offset data fin
        rw [← noted] at reaches ahead
        obtain ⟨stream', put, keeps, withholds⟩ := @Reaches.placeData _ _ offset data reaches ahead
        rcases placed stream' put with ⟨conn, arrived, holds⟩
        have stop_eq : (stream.noteFin offset data fin).prefixEnd =
            (session.conn.held streamId).stop := by
          rw [← same, ← noted]
          rfl
        have gaps_eq : (stream.noteFin offset data fin).recvGaps =
            (session.conn.held streamId).gaps := by
          rw [← same, ← noted]
          rfl
        rw [stop_eq, gaps_eq] at keeps withholds
        have next : Session.advance streamId (some session) (.frame offset data fin) =
            some { session with conn := conn, received := session.received ++ [(offset, data)] } := by
          simp [Session.advance, step, arrived, Except.toBool]
        rw [next]
        constructor
        · intro clear
          refine ⟨_, rfl, ?_⟩
          dsimp only
          rw [holds]
          exact keeps (clear accepted)
        · rintro ⟨after, equal, contiguous⟩ _
          obtain rfl := Option.some.inj equal
          apply withholds
          have stillAhead := contiguous.ahead
          rwa [holds] at stillAhead
  | recv size =>
      refine ⟨fun _ => ?_, fun _ => trivial⟩
      rcases session.conn.recvInto_eq streamId size with ⟨count, available, copied, holds⟩
      refine ⟨{ session with
        conn := (session.conn.recvInto streamId size).2.2
        delivered := session.delivered ++ (session.conn.recvInto streamId size).2.1 }, rfl, ?_⟩
      dsimp only
      rw [holds]
      have stop_eq : Held.stop { session.conn.held streamId with
          contig := (session.conn.held streamId).contig + count
          ready := (session.conn.held streamId).ready.drop count } =
          (session.conn.held streamId).stop := by
        simp only [Held.stop, List.length_drop]
        omega
      refine ⟨⟨reaches.spread, ?_, ?_⟩, ?_⟩
      · rw [stop_eq]
        exact reaches.atLeast
      · rw [stop_eq]
        exact reaches.covers
      · unfold Ahead
        rw [stop_eq]
        exact ahead

end Session

/-- In every run over a stream, the prefix is as long as the accepted frames
allow in every state exactly when no accepted frame carries it past the
beginning of a segment that waits. -/
theorem contiguous_always_iff (conn : ConnState) (streamId : Nat) (unused : conn.Unused streamId)
    (ops : List StreamOp) :
    RunAlways (Session.advance streamId) (Session.IsContiguous streamId) (some { conn := conn })
        ops ↔
      RunMeets (Session.advance streamId) (Session.StopsBeforeGaps streamId)
        (some { conn := conn }) ops := by
  refine runAlways_iff_runMeets (Session.Tracks streamId) (fun _ tracks => tracks.isContiguous)
    (fun _ op tracks => ⟨(tracks.advance op).2, fun clear =>
      ((tracks.advance op).1 clear).isContiguous⟩)
    (fun _ op tracks clear => (tracks.advance op).1 clear) ?_
  refine ⟨_, rfl, ?_⟩
  dsimp only
  rw [unused]
  refine ⟨⟨by simp [Segment.SpreadOut], by simp, fun position => ?_⟩, by simp [Ahead]⟩
  simp [Segment.CoveredBy, Held.stop]

/-- A frame that fills a gap exactly. -/
theorem contiguous_always_when_filled :
    RunAlways (Session.advance 3) (Session.IsContiguous 3) (some { conn := ConnState.idle })
      [.frame 2 [3, 4] false, .frame 0 [1, 2] false, .recv 3] := by
  apply (contiguous_always_iff ConnState.idle 3 rfl _).mpr
  refine ⟨?_, ?_, trivial, trivial⟩
  · intro _ early
    exact absurd early (by decide)
  · intro _ _ stored member
    obtain rfl : stored = (2, [3, 4]) := List.mem_singleton.mp member
    decide

/-- The second frame overlaps the segment that waits: seven bytes are
contiguous for the program, eight have been received. -/
theorem overlapped_gap_withheld :
    ∃ session, run (Session.advance 3) (some { conn := ConnState.idle })
        [.frame 5 [6, 7, 8] false, .frame 0 [1, 2, 3, 4, 5, 6, 7] false] = some session ∧
      (session.conn.held 3).stop = 7 ∧
      (session.conn.held 3).gaps.entries = [(5, [6, 7, 8])] ∧
      Segment.CoveredBy session.received 7 ∧ ¬ session.Contiguous 3 := by
  refine ⟨_, rfl, rfl, rfl, ⟨(5, [6, 7, 8]), List.mem_cons_self, by decide, by decide⟩, ?_⟩
  intro contiguous
  exact absurd (contiguous.ahead (5, [6, 7, 8]) List.mem_cons_self) (by decide)

end Corduit.Protocol.Quic
