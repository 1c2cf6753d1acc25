import Corduit.Protocol.Quic.Send.Session

/-!
# Connection credit

Bytes that are sent again must not be charged to the connection again.  A
stream records how far it has been sent, and a turn charges what goes beyond
that.  The program records the send position of every turn, also of one that
sends again after a loss; a turn that stops short of the old record lowers it,
and the bytes between are charged a second time.
-/

namespace Corduit.Protocol.Quic

open Collection Transition Word

/-- What the application, the path and the peer can do to a stream without
anything being sent. -/
structure SendStream.Keeps (stream stream' : SendStream) : Prop where
  high : stream'.sentHigh = stream.sentHigh
  through : stream'.sentThrough ≤ stream.sentThrough
  write : stream.writePos ≤ stream'.writePos

/-- A step that sends nothing changes one stream or adds one. -/
structure SendState.Quiet (state state' : SendState) : Prop where
  total : state'.totalSent = state.totalSent
  data : state.peerMaxData ≤ state'.peerMaxData
  upcoming : state'.Upcoming
  streams : state'.streams = state.streams ∨
    (∃ id stream stream', state.streams.lookup id = some stream ∧
      state'.streams = state.streams.insert id stream' ∧ stream.Keeps stream') ∨
    ∃ id peerLimit, state.streams.lookup id = none ∧
      state'.streams = state.streams.insert id { peerLimit := peerLimit }

namespace SendState.Quiet

variable {state : SendState} {id : Nat} {stream stream' : SendStream}

theorem refl (upcoming : state.Upcoming) : state.Quiet state :=
  ⟨rfl, Nat.le_refl _, upcoming, Or.inl rfl⟩

theorem replace (upcoming : state.Upcoming) (found : state.streams.lookup id = some stream)
    (keeps : stream.Keeps stream') (totalAcked : Nat) :
    state.Quiet { state with
      streams := state.streams.insert id stream'
      totalAcked := totalAcked } where
  total := rfl
  data := Nat.le_refl _
  upcoming :=
    upcoming.congr rfl rfl fun _ absent => Table.lookup_insert_eq_none found absent
  streams := Or.inr (Or.inl ⟨id, stream, stream', found, rfl, keeps⟩)

theorem acked (upcoming : state.Upcoming) (offset : Option Nat) (data : List Byte) (fin : Bool) :
    state.Quiet (state.onAckedStream id offset data fin) := by
  rw [onAckedStream]
  cases found : state.streams.lookup id with
  | none => exact refl upcoming
  | some stream =>
      refine replace upcoming found ⟨?_, ?_, ?_⟩ _ <;>
        simp only [SendStream.acknowledge] <;> split <;> rfl

theorem lost (upcoming : state.Upcoming) (offset : Option Nat) (fin : Bool) :
    state.Quiet (state.onLostStream id offset fin) := by
  rw [onLostStream]
  cases found : state.streams.lookup id with
  | none => exact refl upcoming
  | some stream =>
      refine replace upcoming found ⟨?_, ?_, ?_⟩ _ <;> simp only [SendStream.rewind] <;> split
      · rfl
      · rfl
      · rename_i moves
        exact Nat.le_of_lt moves
      · exact Nat.le_refl _
      · exact Nat.le_refl _
      · exact Nat.le_refl _

/-- A step that sends nothing keeps every record. -/
theorem lookup {state' : SendState} (quiet : state.Quiet state')
    (found : state.streams.lookup id = some stream) :
    ∃ stream', state'.streams.lookup id = some stream' ∧ stream.sentHigh ≤ stream'.sentHigh := by
  rcases quiet.streams with same | ⟨other, old, new, present, same, keeps⟩ | ⟨other, limit, absent, same⟩
  · exact ⟨stream, by rw [same, found], Nat.le_refl _⟩
  · rw [same]
    by_cases here : id = other
    · subst here
      obtain rfl := Option.some.inj (found.symm.trans present)
      exact ⟨new, AList.lookup_insert _, Nat.le_of_eq keeps.high.symm⟩
    · exact ⟨stream, (AList.lookup_insert_ne here).trans found, Nat.le_refl _⟩
  · rw [same]
    have different : id ≠ other := by
      rintro rfl
      rw [found] at absent
      cases absent
    exact ⟨stream, (AList.lookup_insert_ne different).trans found, Nat.le_refl _⟩

end SendState.Quiet

namespace SendSession

variable {session session' : SendSession}

theorem step_quiet (upcoming : session.state.Upcoming) {op : SendOp}
    (notCollect : ∀ ids maxDatagram, op ≠ .collect ids maxDatagram)
    (stepped : session.step op = some session') : session.state.Quiet session'.state := by
  cases op with
  | openStream uni =>
      rw [← Option.some.inj stepped]
      rcases upcoming.openStream uni with
        refused | ⟨id, peerLimit, absent, streams_eq, total_eq, data_eq, upcoming'⟩
      · dsimp only
        rw [refused]
        exact .refl upcoming
      · exact ⟨total_eq, Nat.le_of_eq data_eq.symm, upcoming',
          Or.inr (Or.inr ⟨id, peerLimit, absent, streams_eq⟩)⟩
  | peerOpened streamId =>
      rw [step] at stepped
      by_cases opens : (streamId % 2 = 1 && (session.state.streams.lookup streamId).isNone) = true
      · rw [if_pos opens] at stepped
        rw [← Option.some.inj stepped]
        simp only [Bool.and_eq_true, decide_eq_true_eq, Option.isNone_iff_eq_none] at opens
        exact ⟨rfl, Nat.le_refl _, upcoming.peerOpened opens.1 _,
          Or.inr (Or.inr ⟨streamId, 0, opens.2, rfl⟩)⟩
      · rw [if_neg opens] at stepped
        rw [← Option.some.inj stepped]
        exact .refl upcoming
  | sendData streamId data =>
      rw [step] at stepped
      rcases session.state.sendData_cases streamId data with
        ⟨error, refused⟩ | ⟨stream, count, found, _, accepted⟩ | ⟨_, _, _, panicked⟩
      · rw [refused] at stepped
        rw [← Option.some.inj stepped]
        exact .refl upcoming
      · rw [accepted] at stepped
        rw [← Option.some.inj stepped]
        exact .replace upcoming found (by exact ⟨rfl, Nat.le_refl _, Nat.le_add_right _ _⟩) _
      · rw [panicked] at stepped
        cases stepped
  | finStream streamId =>
      rw [← Option.some.inj stepped]
      dsimp only
      rw [SendState.finStream]
      cases found : session.state.streams.lookup streamId with
      | none => exact .refl upcoming
      | some stream =>
          exact .replace upcoming found (by exact ⟨rfl, Nat.le_refl _, Nat.le_refl _⟩) _
  | collect ids maxDatagram => exact absurd rfl (notCollect ids maxDatagram)
  | acked frame =>
      cases frame with
      | stream streamId offset data length fin =>
          rw [step] at stepped
          split at stepped
          · rw [← Option.some.inj stepped]
            exact .acked upcoming offset data fin
          · rw [← Option.some.inj stepped]
            exact .refl upcoming
      | _ =>
          rw [← Option.some.inj stepped]
          exact .refl upcoming
  | lost frame =>
      cases frame with
      | stream streamId offset data length fin =>
          rw [step] at stepped
          split at stepped
          · rw [← Option.some.inj stepped]
            exact .lost upcoming offset fin
          · rw [← Option.some.inj stepped]
            exact .refl upcoming
      | _ =>
          rw [← Option.some.inj stepped]
          exact .refl upcoming
  | maxData max =>
      rw [← Option.some.inj stepped]
      dsimp only
      rw [SendState.onMaxData]
      split
      · rename_i raises
        exact ⟨rfl, Nat.le_of_lt raises, upcoming.congr rfl rfl fun _ => id, Or.inl rfl⟩
      · exact .refl upcoming
  | maxStreamData streamId max =>
      rw [← Option.some.inj stepped]
      dsimp only
      rw [SendState.onMaxStreamData]
      cases found : session.state.streams.lookup streamId with
      | none => exact .refl upcoming
      | some stream =>
          dsimp only
          split
          · exact .replace upcoming found (by exact ⟨rfl, Nat.le_refl _, Nat.le_refl _⟩) _
          · exact .refl upcoming
  | maxStreams unidirectional max =>
      rw [← Option.some.inj stepped]
      dsimp only
      rw [SendState.onMaxStreams]
      split <;> split <;>
        exact ⟨rfl, Nat.le_refl _, upcoming.congr rfl rfl fun _ => id, Or.inl rfl⟩

end SendSession

/-- The credit and the space in the packet that are left for a stream. -/
def Filling.room (packet : Filling) (id : Nat) (stream : SendStream) : Nat :=
  min (packet.state.avail id stream) packet.budget

/-- A turn that sends has room up to where the stream was sent before. -/
def Filling.ReachesHigh : Option Filling → Nat → Prop
  | some packet, id => ∀ stream, packet.state.streams.lookup id = some stream →
      16 ≤ packet.budget → stream.resetSent = none → stream.sentThrough < stream.writePos →
      0 < packet.room id stream → stream.sentHigh ≤ stream.sentThrough + packet.room id stream
  | none, _ => True

/-- The record of a stream is its highest send position. -/
structure SendStream.Meters (peak : Nat) (stream : SendStream) : Prop where
  high : max peak stream.sentThrough = stream.sentHigh
  inside : stream.sentHigh ≤ stream.writePos

/-- The highest send positions, the records and the total agree. -/
structure SendState.Meters (peak : Nat → Nat) (state : SendState) : Prop where
  streams : ∀ id stream, state.streams.lookup id = some stream → stream.Meters (peak id)
  vacant : ∀ id, state.streams.lookup id = none → peak id = 0
  total : state.totalSent = state.streams.total fun _ stream => stream.sentHigh
  credit : state.totalSent ≤ state.peerMaxData
  upcoming : state.Upcoming

namespace SendState.Meters

variable {peak : Nat → Nat} {state state' : SendState} {packet packet' : Filling} {id : Nat}
  {ids : List Nat} {stream : SendStream}

theorem quiet (meters : state.Meters peak) (quiet : state.Quiet state')
    (recorded : ∀ id stream, state.streams.lookup id = some stream → stream.sentHigh = peak id) :
    state'.Meters peak := by
  rcases quiet with ⟨total_eq, data_le, upcoming', streams⟩
  have credit : state'.totalSent ≤ state'.peerMaxData := by
    rw [total_eq]
    exact Nat.le_trans meters.credit data_le
  rcases streams with same | ⟨id, stream, stream', found, same, keeps⟩ | ⟨id, limit, absent, same⟩
  · refine ⟨?_, ?_, ?_, credit, upcoming'⟩
    · rw [same]
      exact meters.streams
    · rw [same]
      exact meters.vacant
    · rw [total_eq, same]
      exact meters.total
  · have known := meters.streams id stream found
    refine ⟨?_, ?_, ?_, credit, upcoming'⟩
    · rw [same]
      refine Table.forall_lookup_insert ⟨?_, ?_⟩ meters.streams
      · have record := recorded id stream found
        have high := known.high
        have through := keeps.through
        rw [keeps.high]
        omega
      · rw [keeps.high]
        exact Nat.le_trans known.inside keeps.write
    · rw [same]
      exact fun other absent => meters.vacant other (Table.lookup_eq_none_of_insert absent)
    · have sum := Table.total_insert_of_present (fun _ stream => stream.sentHigh) found stream'
      rw [total_eq, meters.total, same]
      rw [keeps.high] at sum
      exact (Nat.add_right_cancel sum).symm
  · refine ⟨?_, ?_, ?_, credit, upcoming'⟩
    · rw [same]
      refine Table.forall_lookup_insert ⟨?_, Nat.le_refl _⟩ meters.streams
      rw [meters.vacant id absent]
      rfl
    · rw [same]
      exact fun other missing => meters.vacant other (Table.lookup_eq_none_of_insert missing)
    · rw [total_eq, meters.total, same, Table.total_insert_of_absent _ absent]
      exact (Nat.zero_add _).symm

theorem turn (meters : packet.state.Meters peak) (reaches : Filling.ReachesHigh (some packet) id)
    (turned : packet.turn id = some packet') : packet'.state.Meters peak := by
  rcases packet.turn_cases id with
    ⟨passed, _⟩ | ⟨stream, fin, finSent, found, budget, reset, sends, sent⟩ |
      ⟨stream, found, _, ended⟩ | ⟨_, _, _, panicked⟩
  · rw [passed] at turned
    rwa [← Option.some.inj turned]
  · rw [sent] at turned
    rw [← Option.some.inj turned]
    have known := meters.streams id stream found
    have high := known.high
    have inside := known.inside
    have share_eq : packet.share id stream =
        min (packet.room id stream) (stream.writePos - stream.sentThrough) := rfl
    have reached := reaches stream found budget reset (by omega) (by omega)
    have charged : packet.share id stream ≤
        packet.state.peerMaxData - packet.state.totalSent :=
      calc packet.share id stream ≤ packet.state.avail id stream :=
            Nat.le_trans (Nat.min_le_left _ _) (Nat.min_le_left _ _)
        _ ≤ packet.state.peerMaxData - packet.state.totalSent := Nat.min_le_right _ _
    refine ⟨Table.forall_lookup_insert ⟨?_, ?_⟩ meters.streams,
      fun other absent => meters.vacant other (Table.lookup_eq_none_of_insert absent), ?_, ?_,
      meters.upcoming.congr rfl rfl fun _ absent => Table.lookup_insert_eq_none found absent⟩
    · dsimp only
      omega
    · dsimp only
      omega
    · have sum := Table.total_insert_of_present (fun _ stream => stream.sentHigh) found
        { stream with
          sentHigh := stream.sentThrough + packet.share id stream
          sentThrough := stream.sentThrough + packet.share id stream
          finSent := finSent }
      have total := meters.total
      dsimp only at sum ⊢
      omega
    · have credit := meters.credit
      dsimp only
      omega
  · rw [ended] at turned
    rw [← Option.some.inj turned]
    have known := meters.streams id stream found
    refine ⟨Table.forall_lookup_insert ⟨known.high, known.inside⟩ meters.streams,
      fun other absent => meters.vacant other (Table.lookup_eq_none_of_insert absent), ?_,
      meters.credit,
      meters.upcoming.congr rfl rfl fun _ absent => Table.lookup_insert_eq_none found absent⟩
    have sum := Table.total_insert_of_present (fun _ stream => stream.sentHigh) found
      { stream with finSent := true }
    have total := meters.total
    dsimp only at sum ⊢
    omega
  · rw [panicked] at turned
    cases turned

end SendState.Meters

namespace Filling

variable {peak : Nat → Nat} {packet packet' : Filling} {id other : Nat} {ids : List Nat}

theorem run_advance_none (ids : List Nat) : run advance none ids = none := by
  induction ids with
  | nil => rfl
  | cons id ids ih => exact ih

theorem lookup_turn_of_ne (turned : packet.turn id = some packet') (different : other ≠ id) :
    packet'.state.streams.lookup other = packet.state.streams.lookup other := by
  rcases packet.turn_cases id with
    ⟨passed, _⟩ | ⟨_, _, _, _, _, _, _, sent⟩ | ⟨_, _, _, ended⟩ | ⟨_, _, _, panicked⟩
  · rw [passed] at turned
    rw [← Option.some.inj turned]
  · rw [sent] at turned
    rw [← Option.some.inj turned]
    exact AList.lookup_insert_ne different
  · rw [ended] at turned
    rw [← Option.some.inj turned]
    exact AList.lookup_insert_ne different
  · rw [panicked] at turned
    cases turned

theorem lookup_run_of_notMem (ran : run advance (some packet) ids = some packet')
    (notListed : id ∉ ids) :
    packet'.state.streams.lookup id = packet.state.streams.lookup id := by
  induction ids generalizing packet with
  | nil => rw [Option.some.inj ran]
  | cons first ids ih =>
      rw [List.mem_cons, not_or] at notListed
      rcases notListed with ⟨different, notLater⟩
      change run advance (packet.turn first) ids = some packet' at ran
      cases turned : packet.turn first with
      | none =>
          rw [turned, run_advance_none] at ran
          cases ran
      | some next =>
          rw [turned] at ran
          rw [ih ran notLater, lookup_turn_of_ne turned different]

theorem isSome_lookup_turn (turned : packet.turn id = some packet')
    (present : (packet.state.streams.lookup other).isSome = true) :
    (packet'.state.streams.lookup other).isSome = true := by
  by_cases same : other = id
  · subst same
    rcases packet.turn_cases other with
      ⟨passed, _⟩ | ⟨_, _, _, _, _, _, _, sent⟩ | ⟨_, _, _, ended⟩ | ⟨_, _, _, panicked⟩
    · rw [passed] at turned
      rwa [← Option.some.inj turned]
    · rw [sent] at turned
      rw [← Option.some.inj turned]
      simp
    · rw [ended] at turned
      rw [← Option.some.inj turned]
      simp
    · rw [panicked] at turned
      cases turned
  · rwa [lookup_turn_of_ne turned same]

theorem meters_run (meters : packet.state.Meters peak)
    (reaches : RunMeets advance ReachesHigh (some packet) ids)
    (ran : run advance (some packet) ids = some packet') :
    packet'.state.Meters peak ∧
      ∀ other, (packet.state.streams.lookup other).isSome = true →
        (packet'.state.streams.lookup other).isSome = true := by
  induction ids generalizing packet with
  | nil =>
      rw [← Option.some.inj ran]
      exact ⟨meters, fun _ => id⟩
  | cons first ids ih =>
      rcases reaches with ⟨here, later⟩
      change RunMeets advance ReachesHigh (packet.turn first) ids at later
      change run advance (packet.turn first) ids = some packet' at ran
      cases turned : packet.turn first with
      | none =>
          rw [turned, run_advance_none] at ran
          cases ran
      | some next =>
          rw [turned] at ran later
          rcases ih (meters.turn here turned) later ran with ⟨meters', stays⟩
          exact ⟨meters', fun other present => stays other (isSome_lookup_turn turned present)⟩

theorem reaches_of_grows (distinct : ids.Nodup) (meters : packet.state.Meters peak)
    (ran : run advance (some packet) ids = some packet')
    (grows : ∀ id ∈ ids, ∀ stream stream', packet.state.streams.lookup id = some stream →
      packet'.state.streams.lookup id = some stream' → stream.sentHigh ≤ stream'.sentHigh) :
    RunMeets advance ReachesHigh (some packet) ids := by
  induction ids generalizing packet with
  | nil => trivial
  | cons first ids ih =>
      rcases List.nodup_cons.mp distinct with ⟨notLater, distinct⟩
      change run advance (packet.turn first) ids = some packet' at ran
      cases turned : packet.turn first with
      | none =>
          rw [turned, run_advance_none] at ran
          cases ran
      | some next =>
          rw [turned] at ran
          have here : ReachesHigh (some packet) first := by
            intro stream found budget reset unsent room
            have share_eq : packet.share first stream =
                min (packet.room first stream) (stream.writePos - stream.sentThrough) := rfl
            have stays := lookup_run_of_notMem ran notLater
            rcases packet.turn_cases first with
              ⟨_, idle⟩ | ⟨stream', fin, finSent, found', _, _, _, sent⟩ |
                ⟨stream', found', idle, _⟩ | ⟨_, _, _, panicked⟩
            · have := idle stream found budget reset
              omega
            · obtain rfl := Option.some.inj (found.symm.trans found')
              rw [sent] at turned
              rw [← Option.some.inj turned] at stays
              have higher := grows first List.mem_cons_self stream _ found
                (stays.trans (AList.lookup_insert _))
              dsimp only at higher
              omega
            · obtain rfl := Option.some.inj (found.symm.trans found')
              omega
            · rw [panicked] at turned
              cases turned
          refine ⟨here, ?_⟩
          change RunMeets advance ReachesHigh (packet.turn first) ids
          rw [turned]
          apply ih distinct (meters.turn here turned) ran
          intro id member stream stream' found found'
          have different : id ≠ first := by
            rintro rfl
            exact notLater member
          rw [lookup_turn_of_ne turned different] at found
          exact grows id (List.mem_cons_of_mem first member) stream stream' found found'

end Filling

/-- A session with the highest send position that each stream has had. -/
structure Metered where
  session : SendSession
  peak : Nat → Nat := fun _ => 0

namespace Metered

/-- The highest send positions after a step. -/
def raise (peak : Nat → Nat) (state : SendState) (id : Nat) : Nat :=
  match state.streams.lookup id with
  | some stream => max (peak id) stream.sentThrough
  | none => peak id

/-- A metered session begins without streams, with some limits of the peer. -/
def withLimits (bidiLimit uniLimit maxData maxStreamDataBidi maxStreamDataUni : Nat) :
    Option Metered :=
  (SendSession.withLimits bidiLimit uniLimit maxData maxStreamDataBidi maxStreamDataUni).map
    fun session => { session := session }

/-- Operations one after the other; nothing follows a panic. -/
def advance (state : Option Metered) (op : SendOp) : Option Metered :=
  state.bind fun metered => (metered.session.step op).map fun session =>
    { session := session, peak := raise metered.peak session.state }

/-- The connection is charged with the highest offset of every stream, and not
beyond its credit. -/
def IsCharged : Option Metered → Prop
  | some metered =>
      metered.session.state.totalSent =
        (metered.session.state.streams.total fun id _ => metered.peak id) ∧
      metered.session.state.totalSent ≤ metered.session.state.peerMaxData
  | none => True

/-- No step lowers the record of a stream. -/
def HighGrows (state : Option Metered) (op : SendOp) : Prop :=
  ∀ metered metered', state = some metered → advance state op = some metered' →
    ∀ id stream, metered.session.state.streams.lookup id = some stream →
      ∃ stream', metered'.session.state.streams.lookup id = some stream' ∧
        stream.sentHigh ≤ stream'.sentHigh

/-- While a packet is filled, every stream that is sent has room up to where it
was sent before. -/
def ReachesHigh : Option Metered → SendOp → Prop
  | some metered, .collect ids maxDatagram =>
      ids.Perm metered.session.state.sendingIds →
      (metered.session.state.collectStreams ids maxDatagram).isSome = true →
      RunMeets Filling.advance Filling.ReachesHigh
        (some { state := metered.session.state, budget := maxDatagram - 50, frames := [] }) ids
  | _, _ => True

/-- What holds in the states of a run that charges every byte once. -/
def Tracks : Option Metered → Prop
  | some metered => metered.session.state.Meters metered.peak ∧
      ∀ id stream, metered.session.state.streams.lookup id = some stream →
        stream.sentHigh = metered.peak id
  | none => True

namespace Tracks

variable {peak : Nat → Nat} {metered : Metered} {session : SendSession}

/-- After a step the records are the highest send positions again. -/
theorem of_meters (meters : session.state.Meters peak) :
    Tracks (some { session := session, peak := raise peak session.state }) := by
  have record : ∀ id stream, session.state.streams.lookup id = some stream →
      stream.sentHigh = raise peak session.state id := by
    intro id stream found
    rw [raise, found]
    exact (meters.streams id stream found).high.symm
  refine ⟨⟨?_, ?_, meters.total, meters.credit, meters.upcoming⟩, record⟩
  · intro id stream found
    have known := meters.streams id stream found
    have high := known.high
    refine ⟨?_, known.inside⟩
    dsimp only
    rw [← record id stream found]
    omega
  · intro id absent
    dsimp only at absent ⊢
    rw [raise, absent]
    exact meters.vacant id absent

theorem isCharged {state : Option Metered} (tracks : Tracks state) : IsCharged state := by
  cases state with
  | none => trivial
  | some metered =>
      rcases tracks with ⟨meters, record⟩
      refine ⟨meters.total.trans (Table.total_congr fun entry member => ?_), meters.credit⟩
      exact record entry.1 entry.2 (AList.mem_lookup_iff.mpr member)

theorem quiet (tracks : Tracks (some metered)) {op : SendOp}
    (notCollect : ∀ ids maxDatagram, op ≠ .collect ids maxDatagram) :
    Tracks (advance (some metered) op) ∧ HighGrows (some metered) op := by
  rcases tracks with ⟨meters, record⟩
  have advanced : advance (some metered) op = (metered.session.step op).map fun session =>
      { session := session, peak := raise metered.peak session.state } := rfl
  cases stepped : metered.session.step op with
  | none =>
      rw [stepped] at advanced
      refine ⟨by rw [advanced]; trivial, fun _ after _ ran => ?_⟩
      rw [advanced] at ran
      cases ran
  | some session =>
      rw [stepped] at advanced
      have quiet := metered.session.step_quiet meters.upcoming notCollect stepped
      refine ⟨by rw [advanced]; exact of_meters (meters.quiet quiet record), ?_⟩
      intro before after same ran id stream found
      obtain rfl := Option.some.inj same
      rw [advanced] at ran
      rw [← Option.some.inj ran]
      exact quiet.lookup found

theorem collect (tracks : Tracks (some metered)) (ids : List Nat) (maxDatagram : Nat) :
    (ReachesHigh (some metered) (.collect ids maxDatagram) →
        Tracks (advance (some metered) (.collect ids maxDatagram))) ∧
      (HighGrows (some metered) (.collect ids maxDatagram) ↔
        ReachesHigh (some metered) (.collect ids maxDatagram)) := by
  rcases tracks with ⟨meters, record⟩
  by_cases listed : ids.Perm metered.session.state.sendingIds
  · cases collected : metered.session.state.collectStreams ids maxDatagram with
    | none =>
        have panicked : advance (some metered) (.collect ids maxDatagram) = none := by
          simp [advance, SendSession.step, listed, collected]
        refine ⟨fun _ => by rw [panicked]; trivial, iff_of_true ?_ ?_⟩
        · intro _ after _ ran
          rw [panicked] at ran
          cases ran
        · intro _ filled
          rw [collected] at filled
          cases filled
    | some packet =>
        have advanced : advance (some metered) (.collect ids maxDatagram) = some
            { session := { metered.session with
                state := packet.state
                emitted := metered.session.emitted ++ packet.frames }
              peak := raise metered.peak packet.state } := by
          simp [advance, SendSession.step, listed, collected]
        refine ⟨fun reaches => ?_, fun grows => ?_, fun reaches => ?_⟩
        · rw [advanced]
          have turned := reaches listed (by rw [collected]; rfl)
          exact of_meters (Filling.meters_run meters turned collected).1
        · intro _ _
          have distinct : ids.Nodup :=
            listed.nodup_iff.mpr (metered.session.state.streams.nodup_keysWhere _)
          refine Filling.reaches_of_grows distinct meters collected ?_
          intro id _ stream stream' found found'
          rcases grows metered _ rfl advanced id stream found with ⟨after, found'', higher⟩
          obtain rfl := Option.some.inj (found'.symm.trans found'')
          exact higher
        · intro before after same ran id stream found
          obtain rfl := Option.some.inj same
          rw [advanced] at ran
          rw [← Option.some.inj ran]
          have turned := reaches listed (by rw [collected]; rfl)
          rcases Filling.meters_run meters turned collected with ⟨meters', stays⟩
          rcases Option.isSome_iff_exists.mp (stays id (by rw [found]; rfl)) with ⟨after, found'⟩
          refine ⟨after, found', ?_⟩
          have high := (meters'.streams id after found').high
          have recorded := record id stream found
          omega
  · have advanced : advance (some metered) (.collect ids maxDatagram) =
        some { metered with peak := raise metered.peak metered.session.state } := by
      simp [advance, SendSession.step, listed]
    refine ⟨fun _ => by rw [advanced]; exact of_meters meters, iff_of_true ?_ ?_⟩
    · intro before after same ran id stream found
      obtain rfl := Option.some.inj same
      rw [advanced] at ran
      rw [← Option.some.inj ran]
      exact ⟨stream, found, Nat.le_refl _⟩
    · exact fun perm => absurd perm listed

/-- A step keeps the account if it reaches the old records, and lowers a record
otherwise. -/
theorem advance {state : Option Metered} (tracks : Tracks state) (op : SendOp) :
    (ReachesHigh state op → Tracks (Metered.advance state op)) ∧
      (HighGrows state op ↔ ReachesHigh state op) := by
  cases state with
  | none => exact ⟨fun _ => trivial, iff_of_true (fun _ _ same => by cases same) trivial⟩
  | some metered =>
      by_cases filled : ∃ ids maxDatagram, op = .collect ids maxDatagram
      · rcases filled with ⟨ids, maxDatagram, rfl⟩
        exact collect tracks ids maxDatagram
      · have notCollect : ∀ ids maxDatagram, op ≠ .collect ids maxDatagram :=
          fun ids maxDatagram same => filled ⟨ids, maxDatagram, same⟩
        rcases quiet tracks notCollect with ⟨tracks', grows⟩
        refine ⟨fun _ => tracks', iff_of_true grows ?_⟩
        cases op with
        | collect ids maxDatagram => exact absurd rfl (notCollect ids maxDatagram)
        | _ => trivial

end Tracks

end Metered

/-- In every run of the send side, whatever the limits of the peer, the total is
the sum of the highest offsets and within the credit in every state, and no
record is lowered, exactly when every stream that is sent has room up to where
it was sent before. -/
theorem credit_charged_once_iff
    (bidiLimit uniLimit maxData maxStreamDataBidi maxStreamDataUni : Nat) (ops : List SendOp) :
    (RunAlways Metered.advance Metered.IsCharged
        (Metered.withLimits bidiLimit uniLimit maxData maxStreamDataBidi maxStreamDataUni) ops ∧
      RunMeets Metered.advance Metered.HighGrows
        (Metered.withLimits bidiLimit uniLimit maxData maxStreamDataBidi maxStreamDataUni) ops) ↔
      RunMeets Metered.advance Metered.ReachesHigh
        (Metered.withLimits bidiLimit uniLimit maxData maxStreamDataBidi maxStreamDataUni) ops := by
  have initially : Metered.Tracks
      (Metered.withLimits bidiLimit uniLimit maxData maxStreamDataBidi maxStreamDataUni) := by
    refine ⟨⟨?_, fun _ _ => rfl, rfl, Nat.zero_le _, rfl, rfl, fun _ _ _ => rfl, fun _ _ _ => rfl⟩,
      ?_⟩
    · intro id stream found
      exact absurd found (by simp [SendState.withLimits, SendState.start])
    · intro id stream found
      exact absurd found (by simp [SendState.withLimits, SendState.start])
  have grows : RunMeets Metered.advance Metered.HighGrows
        (Metered.withLimits bidiLimit uniLimit maxData maxStreamDataBidi maxStreamDataUni) ops ↔
      RunMeets Metered.advance Metered.ReachesHigh
        (Metered.withLimits bidiLimit uniLimit maxData maxStreamDataBidi maxStreamDataUni) ops :=
    runMeets_iff Metered.Tracks (fun _ op tracks => (tracks.advance op).2)
      (fun _ op tracks reaches => (tracks.advance op).1 reaches) initially
  constructor
  · rintro ⟨_, growing⟩
    exact grows.mp growing
  · intro reaches
    exact ⟨runAlways_of_invariant Metered.Tracks (fun _ tracks => tracks.isCharged)
      (fun _ op tracks reaches => (tracks.advance op).1 reaches) initially reaches,
      grows.mpr reaches⟩

/-- Four bytes are sent and lost; the peer has credit for one more byte, so they
are sent again byte by byte. -/
def lostOnce : List SendOp :=
  [.openStream false, .sendData 0 [1, 2, 3, 4], .collect [0] 1200,
    .lost (.stream 0 (some 0) [1, 2, 3, 4] none false), .collect [0] 1200, .collect [0] 1200]

/-- The connection is charged with five bytes, though the stream was never sent
beyond its fourth byte; no credit is left to send it again. -/
theorem retransmission_charged_twice :
    (∃ metered, run Metered.advance (Metered.withLimits 1 0 5 100 0) lostOnce = some metered ∧
      metered.session.state.totalSent = 5 ∧ metered.peak 0 = 4 ∧
      (metered.session.state.streams.total fun id _ => metered.peak id) = 4) ∧
      ¬ RunAlways Metered.advance Metered.IsCharged (Metered.withLimits 1 0 5 100 0) lostOnce := by
  refine ⟨⟨_, rfl, by decide, by decide, by decide⟩, ?_⟩
  rintro ⟨_, _, _, _, _, _, charged⟩
  exact absurd charged.1 (by decide)

end Corduit.Protocol.Quic
