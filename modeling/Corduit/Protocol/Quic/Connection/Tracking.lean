import Corduit.Protocol.Quic.Connection.Packing
import Corduit.Protocol.Quic.Connection.Session

/-!
# What is sent is tracked

Frames are collected first: streams move their position, and credit leaves its
queue.  The packet is made afterwards, which can fail, and it is retained only
when it asks for an acknowledgement, which credit alone does not.  What is
marked as sent stays in the table of sent packets as long as no packet fails
with frames in it and no packet carries nothing but credit.
-/

namespace Corduit.Protocol.Quic

open Collection Transition Word

variable {κ ξ : Type}

namespace Connection

/-- Some retained packet has such a frame. -/
def Tracks (conn : Connection κ ξ) (test : Frame → Prop) : Prop :=
  ∃ packet ∈ (conn.spaces .application).sent, ∃ frame ∈ packet.frames, test frame

/-- What became sent, or left the queues of credit, is in a retained packet. -/
structure Accounts (before after : Connection κ ξ) : Prop where
  retains : ∀ packet ∈ (before.spaces .application).sent,
    packet ∈ (after.spaces .application).sent
  acked : ∀ id stream', after.send.streams.lookup id = some stream' →
    ∃ stream, before.send.streams.lookup id = some stream ∧ stream.ackPos = stream'.ackPos ∧
      stream.finAcked = stream'.finAcked
  bytes : ∀ id stream', after.send.streams.lookup id = some stream' →
    ∀ offset < stream'.sentThrough,
      (∃ stream, before.send.streams.lookup id = some stream ∧ offset < stream.sentThrough) ∨
        after.Tracks (Frame.covers id offset)
  fins : ∀ id stream', after.send.streams.lookup id = some stream' → stream'.finSent = true →
    (∃ stream, before.send.streams.lookup id = some stream ∧ stream.finSent = true) ∨
      after.Tracks (Frame.ends id)
  maxData : ∀ max ∈ before.recv.pendingMaxData,
    max ∈ after.recv.pendingMaxData ∨ after.Tracks (· = .maxData max)
  maxStreamData : ∀ limit ∈ before.recv.pendingMaxStreamData,
    limit ∈ after.recv.pendingMaxStreamData ∨
      after.Tracks (· = .maxStreamData limit.1 limit.2)

namespace Accounts

variable {conn conn' conn'' : Connection κ ξ}

theorem tracks (accounts : conn.Accounts conn') {test : Frame → Prop} (tracks : conn.Tracks test) :
    conn'.Tracks test := by
  rcases tracks with ⟨packet, member, frame⟩
  exact ⟨packet, accounts.retains packet member, frame⟩

/-- The account of steps that touch neither the streams nor the credit. -/
theorem of_eq (send : conn'.send = conn.send) (recv : conn'.recv = conn.recv)
    (retains : ∀ packet ∈ (conn.spaces .application).sent,
      packet ∈ (conn'.spaces .application).sent) : conn.Accounts conn' where
  retains := retains
  acked := fun _ stream' found => ⟨stream', send ▸ found, rfl, rfl⟩
  bytes := fun _ stream' found _ below => Or.inl ⟨stream', send ▸ found, below⟩
  fins := fun _ stream' found ended => Or.inl ⟨stream', send ▸ found, ended⟩
  maxData := fun _ member => Or.inl (recv ▸ member)
  maxStreamData := fun _ member => Or.inl (recv ▸ member)

theorem refl (conn : Connection κ ξ) : conn.Accounts conn :=
  of_eq rfl rfl fun _ member => member

theorem trans (first : conn.Accounts conn') (second : conn'.Accounts conn'') :
    conn.Accounts conn'' where
  retains := fun packet member => second.retains packet (first.retains packet member)
  acked := by
    intro id stream'' found
    rcases second.acked id stream'' found with ⟨stream', found', ack', fin'⟩
    rcases first.acked id stream' found' with ⟨stream, found, ack, fin⟩
    exact ⟨stream, found, ack.trans ack', fin.trans fin'⟩
  bytes := by
    intro id stream'' found offset below
    rcases second.bytes id stream'' found offset below with ⟨stream', found', below'⟩ | tracked
    · exact (first.bytes id stream' found' offset below').imp_right second.tracks
    · exact Or.inr tracked
  fins := by
    intro id stream'' found ended
    rcases second.fins id stream'' found ended with ⟨stream', found', ended'⟩ | tracked
    · exact (first.fins id stream' found' ended').imp_right second.tracks
    · exact Or.inr tracked
  maxData := by
    intro max member
    rcases first.maxData max member with member' | tracked
    · exact second.maxData max member'
    · exact Or.inr (second.tracks tracked)
  maxStreamData := by
    intro limit member
    rcases first.maxStreamData limit member with member' | tracked
    · exact second.maxStreamData limit member'
    · exact Or.inr (second.tracks tracked)

end Accounts

/-- A packet of the frames gets its header, is sealed, fits into a datagram and
gets its header protected. -/
def canSend (packets : PacketLibrary κ) (conn : Connection κ ξ) (space : PnSpace)
    (frames : List Frame) (maxDatagram : Nat) : Bool :=
  match conn.buildPacketHeader packets space, (conn.spaces space).writeKey with
  | some (header, pnOffset, long), some key =>
      match packets.sealPayload key (conn.spaces space).nextPn header
          (frames.flatMap packets.encodeFrame) with
      | some sealedPayload =>
          (header ++ sealedPayload).length ≤ maxDatagram &&
            (packets.protectHeader key (header ++ sealedPayload) pnOffset long).isSome
      | none => false
  | _, _ => false

/-- Only the header is missing when a packet number is not used up. -/
def Keyed (packets : PacketLibrary κ) (conn : Connection κ ξ) (space : PnSpace) : Prop :=
  (conn.spaces space).writeKey = none → conn.buildPacketHeader packets space = none

variable {packets : PacketLibrary κ} {clock : Clock} {conn conn' : Connection κ ξ}
  {space : PnSpace} {frames : List Frame} {ackEliciting : Bool} {maxDatagram : Nat}

theorem sendOne_of_canSend (can : conn.canSend packets space frames maxDatagram = true) :
    ∃ datagram : List Byte, conn.sendOne packets clock space frames ackEliciting maxDatagram =
      (some datagram, conn.noteSent clock space frames ackEliciting datagram.length) := by
  unfold canSend at can
  unfold sendOne
  cases built : conn.buildPacketHeader packets space with
  | none =>
      rw [built] at can
      cases can
  | some found =>
      rcases found with ⟨header, pnOffset, long⟩
      cases keyed : (conn.spaces space).writeKey with
      | none =>
          rw [built, keyed] at can
          cases can
      | some key =>
          rw [built, keyed] at can
          dsimp only at can ⊢
          cases closed : packets.sealPayload key (conn.spaces space).nextPn header
              (frames.flatMap packets.encodeFrame) with
          | none =>
              rw [closed] at can
              cases can
          | some sealedPayload =>
              rw [closed] at can
              simp only [Bool.and_eq_true, decide_eq_true_eq] at can
              dsimp only
              rw [if_neg (Nat.not_lt.mpr can.1)]
              rcases Option.isSome_iff_exists.mp can.2 with ⟨datagram, protected_⟩
              rw [protected_]
              exact ⟨datagram, rfl⟩

theorem sendOne_of_not_canSend (cannot : conn.canSend packets space frames maxDatagram = false) :
    (conn.Keyed packets space ∧
        conn.sendOne packets clock space frames ackEliciting maxDatagram = (none, conn)) ∨
      (¬ conn.Keyed packets space ∧
        conn.sendOne packets clock space frames ackEliciting maxDatagram =
          (none, conn.updateSpace space fun before => { before with nextPn := before.nextPn + 1 })) := by
  unfold canSend at cannot
  unfold sendOne Keyed
  cases built : conn.buildPacketHeader packets space with
  | none => exact Or.inl ⟨fun _ => rfl, rfl⟩
  | some found =>
      rcases found with ⟨header, pnOffset, long⟩
      cases keyed : (conn.spaces space).writeKey with
      | none => exact Or.inr ⟨fun keyless => (by cases keyless rfl), rfl⟩
      | some key =>
          refine Or.inl ⟨fun keyless => (by cases keyless), ?_⟩
          rw [built, keyed] at cannot
          dsimp only at cannot ⊢
          cases closed : packets.sealPayload key (conn.spaces space).nextPn header
              (frames.flatMap packets.encodeFrame) with
          | none => rfl
          | some sealedPayload =>
              rw [closed] at cannot
              dsimp only at cannot ⊢
              by_cases large : (header ++ sealedPayload).length > maxDatagram
              · exact if_pos large
              · rw [if_neg large]
                cases hidden : packets.protectHeader key (header ++ sealedPayload) pnOffset long with
                | none => rfl
                | some datagram =>
                    simp only [hidden, Option.isSome_some, Bool.and_true, decide_eq_false_iff_not,
                      Nat.not_le] at cannot
                    exact absurd cannot large

variable {order : Order}

/-- Something leaves the state of the connection for the next packet. -/
def Collects (order : Order) (conn : Connection κ ξ) (space : PnSpace) (maxDatagram : Nat) : Prop :=
  conn.pingPending = true ∨
    (space = .application ∧ (conn.limitFrames ≠ [] ∨ conn.turns order maxDatagram ≠ []))

/-- What the frames of the next packet have to do with the connection before and
after they are collected. -/
structure Gathered (order : Order) (conn : Connection κ ξ) (space : PnSpace) (maxDatagram : Nat)
    (frames : List Frame) (ackEliciting : Bool) (conn' : Connection κ ξ) : Prop where
  changes : ∃ send recv ping,
    conn' = { conn with send := send, recv := recv, pingPending := ping }
  same_iff : conn' = conn ↔ ¬ conn.Collects order space maxDatagram
  empty : frames = [] → ¬ conn.Collects order space maxDatagram
  others : space ≠ .application → conn'.send = conn.send ∧ conn'.recv = conn.recv
  holds : conn'.send.Holds
  marks : space = .application → conn.send.Marks conn'.send frames
  limits : space = .application → ∀ frame ∈ conn.limitFrames, frame ∈ frames
  drained : space = .application → conn'.recv.pendingMaxData = [] ∧
    conn'.recv.pendingMaxStreamData = []
  still : space = .application → conn.turns order maxDatagram = [] → conn'.send = conn.send
  quiet : ackEliciting = false → conn.pingPending = false ∧
    (space = .application → conn.turns order maxDatagram = [])
  asks : ackEliciting = true → space = .application → conn.pingPending = false →
    conn.turns order maxDatagram = [] → conn.limitFrames = []

theorem limitFrames_eq_nil_iff :
    conn.limitFrames = [] ↔ conn.recv.pendingMaxData = [] ∧ conn.recv.pendingMaxStreamData = [] := by
  simp [limitFrames, List.append_eq_nil_iff]

theorem drainPending_eq_iff (recv : ConnState) :
    recv.drainPending = recv ↔ recv.pendingMaxData = [] ∧ recv.pendingMaxStreamData = [] := by
  cases recv
  simp [ConnState.drainPending, eq_comm]

theorem marks_mono {before after : SendState} {frames more : List Frame}
    (marks : before.Marks after frames) (included : ∀ frame ∈ frames, frame ∈ more) :
    before.Marks after more where
  bytes := fun id stream' found offset below =>
    (marks.bytes id stream' found offset below).imp_right fun ⟨frame, member, covers⟩ =>
      ⟨frame, included frame member, covers⟩
  fins := fun id stream' found ended =>
    (marks.fins id stream' found ended).imp_right fun ⟨frame, member, ends⟩ =>
      ⟨frame, included frame member, ends⟩
  acked := marks.acked

theorem gathered_of_collectStreamFrames (holds : conn.send.Holds)
    {filling : Filling}
    (filled : conn.send.collectStreams (order.arrange conn.send.sendingIds) maxDatagram =
      some filling)
    {pings : List Frame}
    (gathers : (conn.pingPending = true ∧ pings ≠ [] ∧ ackEliciting = true) ∨
      (conn.pingPending = false ∧ ((pings ≠ [] ∧ ackEliciting = true ∧
        conn.limitFrames = [] ∧ filling.frames = []) ∨
        (pings = [] ∧ ackEliciting = !filling.frames.isEmpty)))) :
    conn.Gathered order .application maxDatagram (conn.limitFrames ++ (filling.frames ++ pings))
      ackEliciting
      { conn with send := filling.state, recv := conn.recv.drainPending, pingPending := false } := by
  have distinct : (order.arrange conn.send.sendingIds).Nodup :=
    (order.perm _).nodup_iff.mpr (conn.send.streams.nodup_keysWhere _)
  have ⟨held, marks⟩ := SendState.marks_collectStreams holds filled
  have state_iff : filling.state = conn.send ↔ conn.turns order maxDatagram = [] :=
    SendState.collectStreams_eq_iff distinct filled
  have each : List.Forall₂ conn.send.SendsFrame (conn.turns order maxDatagram) filling.frames :=
    SendState.collectStreams_spec distinct filled
  have frames_iff : filling.frames = [] ↔ conn.turns order maxDatagram = [] := by
    rw [← List.length_eq_zero_iff, ← each.length_eq, List.length_eq_zero_iff]
  constructor
  · exact ⟨_, _, _, rfl⟩
  · constructor
    · rintro same (pending | ⟨_, limits | turns⟩)
      · have kept := congrArg pingPending same
        rw [pending] at kept
        cases kept
      · exact limits (limitFrames_eq_nil_iff.mpr
          ((drainPending_eq_iff conn.recv).mp (congrArg recv same)))
      · exact turns (state_iff.mp (congrArg Connection.send same))
    · intro nothing
      have pending : conn.pingPending = false := Bool.eq_false_iff.mpr fun due => nothing (Or.inl due)
      have limits : conn.limitFrames = [] := by
        by_contra some_
        exact nothing (Or.inr ⟨rfl, Or.inl some_⟩)
      have turns : conn.turns order maxDatagram = [] := by
        by_contra some_
        exact nothing (Or.inr ⟨rfl, Or.inr some_⟩)
      rw [state_iff.mpr turns, (drainPending_eq_iff conn.recv).mpr (limitFrames_eq_nil_iff.mp limits),
        ← pending]
  · intro none_
    simp only [List.append_eq_nil_iff] at none_
    rcases none_ with ⟨noLimits, noFrames, noPings⟩
    rintro (pending | ⟨_, limits | turns⟩)
    · rcases gathers with ⟨_, some_, _⟩ | ⟨none_, _⟩
      · exact some_ noPings
      · rw [none_] at pending
        cases pending
    · exact limits noLimits
    · exact turns (frames_iff.mp noFrames)
  · exact fun early => absurd rfl early
  · exact held
  · exact fun _ => marks_mono marks fun frame member =>
      List.mem_append_right _ (List.mem_append_left _ member)
  · exact fun _ frame member => List.mem_append_left _ member
  · exact fun _ => ⟨rfl, rfl⟩
  · exact fun _ turns => state_iff.mpr turns
  · intro silent
    rcases gathers with ⟨_, _, asks⟩ | ⟨pending, ⟨_, asks, _⟩ | ⟨_, asks⟩⟩
    · rw [silent] at asks
      cases asks
    · rw [silent] at asks
      cases asks
    · rw [silent, eq_comm, Bool.not_eq_false', List.isEmpty_iff] at asks
      exact ⟨pending, fun _ => frames_iff.mp asks⟩
  · intro asking _ pending turns
    rcases gathers with ⟨due, _⟩ | ⟨_, ⟨_, _, limits, _⟩ | ⟨_, asks⟩⟩
    · rw [pending] at due
      cases due
    · exact limits
    · rw [asking, frames_iff.mpr turns] at asks
      cases asks

theorem gathered_of_nextFrames (holds : conn.send.Holds)
    (handed : conn.nextFrames order space maxDatagram = .ok (frames, ackEliciting, conn')) :
    conn.Gathered order space maxDatagram frames ackEliciting conn' := by
  rcases bind_eq_ok_iff.mp handed with ⟨⟨gathered, eliciting, middle⟩, collected, added⟩
  have added := pure_eq_ok_iff.mp added
  unfold gatherFrames at collected
  by_cases last : space = .application
  · subst last
    rw [if_pos rfl] at collected
    unfold collectStreamFrames at collected
    dsimp only at collected
    cases filled : conn.send.collectStreams (order.arrange conn.send.sendingIds) maxDatagram with
    | none =>
        rw [filled] at collected
        cases collected
    | some filling =>
        rw [filled] at collected
        cases collected
        unfold addPings at added
        dsimp only at added
        cases pending : conn.pingPending with
        | true =>
            rw [pending, if_pos rfl] at added
            cases added
            rw [List.append_assoc]
            exact gathered_of_collectStreamFrames holds filled
              (Or.inl ⟨pending, List.cons_ne_nil _ _, rfl⟩)
        | false =>
            rw [pending, if_neg Bool.false_ne_true] at added
            split at added
            · rename_i probe
              cases added
              simp only [Bool.and_eq_true, List.isEmpty_iff, List.append_eq_nil_iff] at probe
              rcases probe.2 with ⟨limits, nothing⟩
              have none_ : conn.limitFrames = [] := List.append_eq_nil_iff.mpr limits
              have gathers := @gathered_of_collectStreamFrames κ ξ conn true maxDatagram order holds
                filling filled [.ping] (Or.inr ⟨pending,
                  Or.inl ⟨List.cons_ne_nil _ _, rfl, none_, nothing⟩⟩)
              rwa [none_, nothing] at gathers
            · cases added
              have gathers := @gathered_of_collectStreamFrames κ ξ conn
                (!filling.frames.isEmpty) maxDatagram order holds filling filled []
                (Or.inr ⟨pending, Or.inr ⟨rfl, rfl⟩⟩)
              rwa [List.append_nil] at gathers
  · rw [if_neg last] at collected
    rcases bind_eq_ok_iff.mp collected with ⟨crypto, made, collected⟩
    cases collected
    have collects_iff : conn.Collects order space maxDatagram ↔ conn.pingPending = true :=
      ⟨fun collects => collects.resolve_right fun late => last late.1, Or.inl⟩
    unfold addPings at added
    cases pending : conn.pingPending with
    | true =>
        rw [pending, if_pos rfl] at added
        cases added
        refine ⟨⟨_, _, _, rfl⟩, ?_, ?_, fun _ => ⟨rfl, rfl⟩, holds, fun late => absurd late last,
          fun late => absurd late last, fun late => absurd late last, fun late => absurd late last,
          ?_, fun _ late => absurd late last⟩
        · rw [collects_iff, pending]
          refine iff_of_false (fun same => ?_) (not_not.mpr rfl)
          have kept := congrArg pingPending same
          rw [pending] at kept
          cases kept
        · simp
        · exact fun silent => by cases silent
    | false =>
        rw [pending, if_neg Bool.false_ne_true, if_neg (by simp [last])] at added
        cases added
        have calm : ¬ conn.Collects order space maxDatagram := by
          rw [collects_iff, pending]
          exact Bool.false_ne_true
        exact ⟨⟨_, _, _, rfl⟩, iff_of_true rfl calm, fun _ => calm, fun _ => ⟨rfl, rfl⟩, holds,
          fun late => absurd late last, fun late => absurd late last, fun late => absurd late last,
          fun late => absurd late last, fun _ => ⟨pending, fun late => absurd late last⟩,
          fun _ late => absurd late last⟩

theorem Gathered.canSend_eq (gathered : conn.Gathered order space maxDatagram frames ackEliciting conn')
    (handed : List Frame) :
    conn'.canSend packets space handed maxDatagram = conn.canSend packets space handed maxDatagram := by
  rcases gathered.changes with ⟨_, _, _, rfl⟩
  unfold canSend buildPacketHeader
  cases space <;> rfl

theorem Gathered.keyed_iff (gathered : conn.Gathered order space maxDatagram frames ackEliciting conn') :
    conn'.Keyed packets space ↔ conn.Keyed packets space := by
  rcases gathered.changes with ⟨_, _, _, rfl⟩
  unfold Keyed buildPacketHeader
  cases space <;> exact Iff.rfl

/-- Credit goes out with something that asks for an acknowledgement, or is
tracked already. -/
def CreditKept (order : Order) (conn : Connection κ ξ) (maxDatagram : Nat) : Prop :=
  conn.pingPending = false → conn.turns order maxDatagram = [] →
    ∀ frame ∈ conn.limitFrames, conn.Tracks (· = frame)

variable {size : Nat}

theorem mem_sent_noteSent {packet : SentPacket}
    (member : packet ∈ (conn.spaces .application).sent) :
    packet ∈ ((conn.noteSent clock space frames ackEliciting size).spaces .application).sent := by
  unfold noteSent
  by_cases last : PnSpace.application = space
  · subst last
    dsimp only
    rw [spaces_updateSpace_self]
    cases ackEliciting with
    | false => exact member
    | true => exact List.mem_append_left _ member
  · dsimp only
    rw [spaces_updateSpace_of_ne last]
    exact member

theorem tracks_noteSent {test : Frame → Prop} {frame : Frame} (member : frame ∈ frames)
    (has : test frame) : (conn.noteSent clock .application frames true size).Tracks test := by
  unfold noteSent Tracks
  dsimp only
  rw [spaces_updateSpace_self]
  exact ⟨_, List.mem_append_right _ List.mem_cons_self, frame, member, has⟩

theorem tracks_noteSent_quiet {test : Frame → Prop} :
    (conn.noteSent clock .application frames false size).Tracks test ↔ conn.Tracks test := by
  unfold noteSent Tracks
  dsimp only
  rw [spaces_updateSpace_self]
  exact Iff.rfl

/-- A packet that goes out keeps the account exactly when its credit is kept. -/
theorem Gathered.accounts_iff
    (gathered : conn.Gathered order space maxDatagram frames ackEliciting conn') (size : Nat) :
    conn.Accounts (conn'.noteSent clock space frames ackEliciting size) ↔
      (space = .application → conn.CreditKept order maxDatagram) := by
  have sends : (conn'.noteSent clock space frames ackEliciting size).send = conn'.send := rfl
  have recvs : (conn'.noteSent clock space frames ackEliciting size).recv = conn'.recv := rfl
  have spaces : conn'.spaces = conn.spaces := by
    rcases gathered.changes with ⟨_, _, _, rfl⟩
    rfl
  have retains : ∀ packet ∈ (conn.spaces .application).sent, packet ∈
      ((conn'.noteSent clock space frames ackEliciting size).spaces .application).sent :=
    fun packet member => mem_sent_noteSent (spaces ▸ member)
  by_cases last : space = .application
  case neg =>
    have ⟨send, recv⟩ := gathered.others last
    exact iff_of_true (.of_eq (sends.trans send) (recvs.trans recv) retains) fun late =>
      absurd late last
  subst last
  rw [forall_prop_of_true rfl]
  have marks := gathered.marks rfl
  cases ackEliciting with
  | true =>
      have noted : ∀ {test : Frame → Prop}, (∃ frame ∈ frames, test frame) →
          (conn'.noteSent clock .application frames true size).Tracks test :=
        fun ⟨_, member, has⟩ => tracks_noteSent member has
      refine iff_of_true ⟨retains, marks.acked, ?_, ?_, ?_, ?_⟩ ?_
      · exact fun id stream' found offset below =>
          (marks.bytes id stream' found offset below).imp_right noted
      · exact fun id stream' found ended => (marks.fins id stream' found ended).imp_right noted
      · intro max member
        have frame := gathered.limits rfl (.maxData max)
          (List.mem_append_left _ (List.mem_map_of_mem member))
        exact Or.inr (noted ⟨_, frame, rfl⟩)
      · intro limit member
        have frame := gathered.limits rfl (.maxStreamData limit.1 limit.2)
          (List.mem_append_right _ (List.mem_map.mpr ⟨limit, member, rfl⟩))
        exact Or.inr (noted ⟨_, frame, rfl⟩)
      · intro pending turns frame member
        rw [gathered.asks rfl rfl pending turns] at member
        cases member
  | false =>
      have ⟨pending, turns⟩ := gathered.quiet rfl
      have send := gathered.still rfl (turns rfl)
      have ⟨noData, noStreamData⟩ := gathered.drained rfl
      have tracks_iff : ∀ {test : Frame → Prop},
          (conn'.noteSent clock .application frames false size).Tracks test ↔ conn.Tracks test := by
        intro test
        rw [tracks_noteSent_quiet, Tracks, spaces]
        rfl
      constructor
      · intro accounts _ _ frame member
        rcases List.mem_append.mp member with member | member
        · rcases List.mem_map.mp member with ⟨max, listed, rfl⟩
          rcases accounts.maxData max listed with left | tracked
          · rw [recvs, noData] at left
            cases left
          · exact tracks_iff.mp tracked
        · rcases List.mem_map.mp member with ⟨limit, listed, rfl⟩
          rcases accounts.maxStreamData limit listed with left | tracked
          · rw [recvs, noStreamData] at left
            cases left
          · exact tracks_iff.mp tracked
      · intro kept
        have all := kept pending (turns rfl)
        refine ⟨retains, marks.acked, ?_, ?_, ?_, ?_⟩
        · exact fun id stream' found offset below =>
            Or.inl ⟨stream', send ▸ found, below⟩
        · exact fun id stream' found ended => Or.inl ⟨stream', send ▸ found, ended⟩
        · intro max member
          exact Or.inr (tracks_iff.mpr (all (.maxData max)
            (List.mem_append_left _ (List.mem_map_of_mem member))))
        · intro limit member
          exact Or.inr (tracks_iff.mpr (all (.maxStreamData limit.1 limit.2)
            (List.mem_append_right _ (List.mem_map.mpr ⟨limit, member, rfl⟩))))

end Connection

namespace Outbound

variable {packets : PacketLibrary κ} {clock : Clock} {order : Order} {space : PnSpace}
  {maxDatagram : Nat} {building next : Outbound κ ξ}

/-- A step tracks what it marks as sent, and without a packet it changes nothing. -/
structure Keeps (building next : Outbound κ ξ) : Prop where
  accounts : building.conn.Accounts next.conn
  rollsBack : next.out = building.out → next.conn = building.conn

/-- An acknowledgement that is due can be sent. -/
def AckSafe (packets : PacketLibrary κ) (space : PnSpace) (maxDatagram : Nat)
    (building : Outbound κ ξ) : Prop :=
  (building.conn.spaces space).ackPending = true → ∀ ack,
    buildAck (building.conn.spaces space).ackQueue = some ack →
      building.conn.canSend packets space [ack] maxDatagram = true

/-- The packet of a round can be made and its credit is kept, or nothing was
collected for it. -/
def RoundSafe (packets : PacketLibrary κ) (order : Order) (space : PnSpace) (maxDatagram : Nat)
    (building : Outbound κ ξ) : Prop :=
  40 ≤ building.conn.cwnd - building.conn.bytesInFlight →
    (∀ datagram conn', building.conn.popDatagramTx space maxDatagram = some (datagram, conn') →
      building.conn.canSend packets space [.datagram datagram none] maxDatagram = true) ∧
    (building.conn.popDatagramTx space maxDatagram = none → ∀ frames ackEliciting conn',
      building.conn.nextFrames order space maxDatagram = .ok (frames, ackEliciting, conn') →
      frames ≠ [] →
        if building.conn.canSend packets space frames maxDatagram then
          space = .application → building.conn.CreditKept order maxDatagram
        else
          ¬ building.conn.Collects order space maxDatagram ∧ building.conn.Keyed packets space)

/-- The steps of a call track what they mark, and change nothing without a packet. -/
def keeping (packets : PacketLibrary κ) (clock : Clock) (order : Order) : StepCondition κ ξ where
  ack := fun space maxDatagram building =>
    building.Keeps (building.sendAck packets clock space maxDatagram)
  round := fun space maxDatagram building => ∀ more next,
    building.round packets clock order space maxDatagram = .ok (more, next) → building.Keeps next

/-- The conditions of the steps. -/
def safe (packets : PacketLibrary κ) (order : Order) : StepCondition κ ξ where
  ack := AckSafe packets
  round := RoundSafe packets order

theorem Keeps.refl (building : Outbound κ ξ) : building.Keeps building :=
  ⟨.refl _, fun _ => rfl⟩

variable {conn : Connection κ ξ}

theorem keeps_push_some_iff {datagram : List Byte} :
    building.Keeps (building.push (some datagram, conn)) ↔ building.conn.Accounts conn := by
  constructor
  · exact fun keeps => keeps.accounts
  · refine fun accounts => ⟨accounts, fun same => ?_⟩
    have longer := congrArg List.length same
    simp [push] at longer

theorem keeps_push_none_iff :
    building.Keeps (building.push (none, conn)) ↔ conn = building.conn := by
  constructor
  · exact fun keeps => keeps.rollsBack (List.append_nil _)
  · rintro rfl
    exact ⟨.refl _, fun _ => rfl⟩

theorem keeps_sendAck_iff :
    building.Keeps (building.sendAck packets clock space maxDatagram) ↔
      AckSafe packets space maxDatagram building := by
  unfold sendAck AckSafe
  dsimp only
  by_cases pending : (building.conn.spaces space).ackPending = true
  case neg =>
    rw [if_neg pending]
    exact iff_of_true (.refl _) fun due => absurd due pending
  rw [if_pos pending]
  cases built : buildAck (building.conn.spaces space).ackQueue with
  | none => exact iff_of_true (.refl _) fun _ _ some_ => by cases some_
  | some ack =>
      dsimp only
      generalize conn_eq : building.conn.updateSpace space
        (fun before => { before with ackPending := false }) = conn
      have can_eq : conn.canSend packets space [ack] maxDatagram =
          building.conn.canSend packets space [ack] maxDatagram := by
        rw [← conn_eq]
        cases space <;> rfl
      have open_ : (conn.spaces space).ackPending = false := by
        rw [← conn_eq, Connection.spaces_updateSpace_self]
      have same_iff : (∀ ack', some ack = some ack' →
          building.conn.canSend packets space [ack'] maxDatagram = true) ↔
            conn.canSend packets space [ack] maxDatagram = true := by
        rw [can_eq]
        exact ⟨fun all => all ack rfl, fun can other same => Option.some.inj same ▸ can⟩
      rw [forall_prop_of_true pending, same_iff]
      cases can : conn.canSend packets space [ack] maxDatagram with
      | true =>
          rcases @Connection.sendOne_of_canSend κ ξ packets clock conn space [ack] false maxDatagram
            can with ⟨datagram, sent⟩
          rw [sent, keeps_push_some_iff]
          refine iff_of_true (.of_eq ?_ ?_ fun packet member =>
            Connection.mem_sent_noteSent ?_) rfl
          · rw [← conn_eq]
            rfl
          · rw [← conn_eq]
            rfl
          · rw [← conn_eq]
            by_cases last : PnSpace.application = space
            · subst last
              rw [Connection.spaces_updateSpace_self]
              exact member
            · rw [Connection.spaces_updateSpace_of_ne last]
              exact member
      | false =>
          refine iff_of_false (fun keeps => ?_) Bool.false_ne_true
          rcases @Connection.sendOne_of_not_canSend κ ξ packets clock conn space [ack] false maxDatagram
            can with ⟨_, sent⟩ | ⟨_, sent⟩
          · rw [sent, keeps_push_none_iff] at keeps
            rw [keeps, pending] at open_
            cases open_
          · rw [sent, keeps_push_none_iff] at keeps
            have flag := congrArg (fun conn => (conn.spaces space).ackPending) keeps
            rw [Connection.spaces_updateSpace_self] at flag
            change (conn.spaces space).ackPending = _ at flag
            rw [open_, pending] at flag
            cases flag

theorem keeps_datagram_iff {datagram : List Byte}
    (popped : building.conn.popDatagramTx space maxDatagram = some (datagram, conn)) :
    building.Keeps (building.push (conn.sendOne packets clock space [.datagram datagram none] false
        maxDatagram)) ↔
      building.conn.canSend packets space [.datagram datagram none] maxDatagram = true := by
  unfold Connection.popDatagramTx at popped
  split at popped
  case h_2 => cases popped
  case h_1 first rest queue =>
    split at popped
    · cases popped
    cases popped
    generalize conn_eq : { building.conn with datagramTx := rest } = conn
    have can_eq : conn.canSend packets .application [.datagram datagram none] maxDatagram =
        building.conn.canSend packets .application [.datagram datagram none] maxDatagram := by
      rw [← conn_eq]
      rfl
    have taken : conn.datagramTx = rest := by rw [← conn_eq]
    rw [← can_eq]
    cases can : conn.canSend packets .application [.datagram datagram none] maxDatagram with
    | true =>
        rcases @Connection.sendOne_of_canSend κ ξ packets clock conn .application
          [.datagram datagram none] false maxDatagram can with ⟨sealed_, sent⟩
        rw [sent, keeps_push_some_iff]
        refine iff_of_true (.of_eq ?_ ?_ fun packet member =>
          Connection.mem_sent_noteSent ?_) rfl
        · rw [← conn_eq]
          rfl
        · rw [← conn_eq]
          rfl
        · rw [← conn_eq]
          exact member
    | false =>
        have lost : ∀ conn' : Connection κ ξ, conn'.datagramTx = rest → conn' ≠ building.conn := by
          rintro conn' left rfl
          rw [queue] at left
          exact List.cons_ne_self _ _ left
        refine iff_of_false (fun keeps => ?_) Bool.false_ne_true
        rcases @Connection.sendOne_of_not_canSend κ ξ packets clock conn .application
          [.datagram datagram none] false maxDatagram can with ⟨_, sent⟩ | ⟨_, sent⟩
        · rw [sent, keeps_push_none_iff] at keeps
          exact lost conn taken keeps
        · rw [sent, keeps_push_none_iff] at keeps
          refine absurd keeps (lost _ ?_)
          exact taken

theorem keeps_frames_iff {frames : List Frame} {ackEliciting : Bool}
    (gathered : building.conn.Gathered order space maxDatagram frames ackEliciting conn) :
    building.Keeps (building.push (conn.sendOne packets clock space frames ackEliciting
        maxDatagram)) ↔
      if building.conn.canSend packets space frames maxDatagram then
        space = .application → building.conn.CreditKept order maxDatagram
      else
        ¬ building.conn.Collects order space maxDatagram ∧ building.conn.Keyed packets space := by
  have can_eq : conn.canSend packets space frames maxDatagram =
      building.conn.canSend packets space frames maxDatagram := gathered.canSend_eq frames
  cases can : building.conn.canSend packets space frames maxDatagram with
  | true =>
      rw [can] at can_eq
      rcases @Connection.sendOne_of_canSend κ ξ packets clock conn space frames ackEliciting
        maxDatagram can_eq with ⟨datagram, sent⟩
      rw [sent, keeps_push_some_iff, gathered.accounts_iff, if_pos rfl]
  | false =>
      rw [can] at can_eq
      rw [if_neg Bool.false_ne_true, ← gathered.same_iff, ← gathered.keyed_iff]
      rcases @Connection.sendOne_of_not_canSend κ ξ packets clock conn space frames ackEliciting
        maxDatagram can_eq with ⟨keyed, sent⟩ | ⟨keyless, sent⟩
      · rw [sent, keeps_push_none_iff]
        exact (and_iff_left keyed).symm
      · rw [sent, keeps_push_none_iff]
        refine iff_of_false (fun same => ?_) fun both => keyless both.2
        rcases gathered.changes with ⟨_, _, _, rfl⟩
        have number := congrArg (fun conn => (conn.spaces space).nextPn) same
        rw [Connection.spaces_updateSpace_self] at number
        exact Nat.succ_ne_self _ number

theorem forall_ok_iff {flag : Bool} {property : Outbound κ ξ → Prop} :
    (∀ more after, (.ok (flag, next) : Except Fault (Bool × Outbound κ ξ)) = .ok (more, after) →
      property after) ↔ property next :=
  ⟨fun all => all flag next rfl, fun holds _ _ same => by cases same; exact holds⟩

theorem keeps_round_iff (holds : building.conn.send.Holds) :
    (∀ more next, building.round packets clock order space maxDatagram = .ok (more, next) →
      building.Keeps next) ↔ RoundSafe packets order space maxDatagram building := by
  unfold round RoundSafe
  by_cases full : building.conn.cwnd - building.conn.bytesInFlight < 40
  · rw [if_pos full, forall_ok_iff]
    exact iff_of_true (.refl _) fun room => absurd full (Nat.not_lt.mpr room)
  rw [if_neg full, forall_prop_of_true (Nat.not_lt.mp full)]
  cases popped : building.conn.popDatagramTx space maxDatagram with
  | some found =>
      rcases found with ⟨datagram, conn⟩
      dsimp only
      rw [forall_ok_iff, keeps_datagram_iff popped]
      constructor
      · exact fun can => ⟨fun _ _ same => by cases same; exact can, fun none_ => by cases none_⟩
      · exact fun both => both.1 datagram conn rfl
  | none =>
      dsimp only
      rw [forall_prop_of_true rfl]
      have vacuous : ∀ (datagram : List Byte) (conn' : Connection κ ξ),
          none = some (datagram, conn') →
          building.conn.canSend packets space [.datagram datagram none] maxDatagram = true :=
        fun _ _ impossible => by cases impossible
      rw [and_iff_right vacuous]
      cases handed : building.conn.nextFrames order space maxDatagram with
      | error fault =>
          exact iff_of_true (fun _ _ impossible => by cases impossible)
            fun _ _ _ impossible => by cases impossible
      | ok result =>
          rcases result with ⟨frames, ackEliciting, conn⟩
          have gathered := Connection.gathered_of_nextFrames holds handed
          dsimp only
          by_cases nothing : frames = []
          · subst nothing
            rw [if_pos List.isEmpty_nil, forall_ok_iff,
              gathered.same_iff.mpr (gathered.empty rfl)]
            exact iff_of_true (.refl _) fun _ _ _ same some_ => by cases same; exact absurd rfl some_
          · rw [if_neg (by simpa using nothing), forall_ok_iff, keeps_frames_iff gathered]
            constructor
            · exact fun keeps _ _ _ same _ => by cases same; exact keeps
            · exact fun all => all frames ackEliciting conn rfl nothing

theorem send_sendOne (conn : Connection κ ξ) (frames : List Frame) (ackEliciting : Bool) :
    (conn.sendOne packets clock space frames ackEliciting maxDatagram).2.send = conn.send := by
  rcases conn.sendOne_cases packets clock space frames ackEliciting maxDatagram with
    same | same | ⟨datagram, same⟩
  · rw [same]
  · rw [same]
    rfl
  · rw [same]
    rfl

theorem holds_sendAck (holds : building.conn.send.Holds) :
    (building.sendAck packets clock space maxDatagram).conn.send.Holds := by
  unfold sendAck
  dsimp only
  split
  · split
    · exact holds
    · rw [push, send_sendOne]
      exact holds
  · exact holds

theorem holds_round {more : Bool}
    (rounded : building.round packets clock order space maxDatagram = .ok (more, next))
    (holds : building.conn.send.Holds) : next.conn.send.Holds := by
  unfold round at rounded
  split at rounded
  · cases rounded
    exact holds
  split at rounded
  · rename_i datagram conn popped
    cases rounded
    rw [push, send_sendOne]
    unfold Connection.popDatagramTx at popped
    split at popped
    · split at popped
      · cases popped
      · cases popped
        exact holds
    · cases popped
  · split at rounded
    · cases rounded
    · rename_i frames ackEliciting conn handed
      have gathered := (Connection.gathered_of_nextFrames holds handed).holds
      split at rounded
      · cases rounded
        exact gathered
      · cases rounded
        rw [push, send_sendOne]
        exact gathered

end Outbound

/-- A call tracks what it marks as sent, and its failed packets change nothing,
exactly when every packet can be made or carries nothing, and no packet carries
credit alone. -/
theorem Connection.accounts_buildOutbound_iff (packets : PacketLibrary κ) (clock : Clock)
    (order : Order) (conn : Connection κ ξ) (building : Outbound κ ξ) (holds : conn.send.Holds)
    (built : conn.buildOutbound packets clock order = .ok building) :
    (conn.CallMeets packets clock order (Outbound.keeping packets clock order) ∧
        conn.Accounts building.conn) ↔
      conn.CallMeets packets clock order (Outbound.safe packets order) := by
  have agree : conn.CallMeets packets clock order (Outbound.keeping packets clock order) ↔
      conn.CallMeets packets clock order (Outbound.safe packets order) :=
    Outbound.callMeets_iff (fun building => building.conn.send.Holds)
      (fun _ _ _ holds => Outbound.holds_sendAck holds)
      (fun _ _ _ _ _ rounded holds => Outbound.holds_round rounded holds)
      (fun _ _ _ _ => Outbound.keeps_sendAck_iff) (fun _ _ _ holds => Outbound.keeps_round_iff holds)
      holds
  rw [← agree]
  refine and_iff_left_of_imp fun keeps => ?_
  refine Outbound.buildOutbound_of_callMeets (fun reached => conn.Accounts reached.conn) ?_ ?_ keeps
    built (.refl conn)
  · exact fun _ _ _ kept accounts => accounts.trans kept.accounts
  · exact fun _ _ _ more after kept rounded accounts =>
      accounts.trans (kept more after rounded).accounts

namespace Plain

/-- A connection that can only send in the last space. -/
def confirmed : Connection Unit (List Byte) :=
  { connection with
    spaces := fun space => if space = .application then { writeKey := some () } else {} }

/-- Nothing but credit to grant. -/
def creditOnly : Connection Unit (List Byte) :=
  { confirmed with recv := { connection.recv with pendingMaxData := [200] } }

/-- A stream that fills the packet, and more credit than fits beside it. -/
def overfull : Connection Unit (List Byte) :=
  { confirmed with
    send := { SendState.withLimits 2 0 4000 4000 0 with
      streams := (∅ : Table Nat SendStream).insert 0
        { sendBuf := List.replicate 2000 7, writePos := 2000, peerLimit := 4000 } }
    recv := { connection.recv with
      pendingMaxStreamData := List.replicate 3 (0, 2 ^ 40) } }

/-- What a call leaves of the credit, the table and the position of stream 0. -/
def remains (building : Outbound Unit (List Byte)) :
    List Nat × List (Nat × Nat) × List (List Frame) × Option Nat :=
  (building.conn.recv.pendingMaxData, building.conn.recv.pendingMaxStreamData,
    (building.conn.spaces .application).sent.map (·.frames),
    (building.conn.send.streams.lookup 0).map (·.sentThrough))

theorem exists_of_map_ok {ε α β : Type} {result : Except ε α} {f : α → β} {value : β}
    (mapped : result.map f = .ok value) : ∃ found, result = .ok found ∧ f found = value := by
  cases result with
  | error error => cases mapped
  | ok found =>
      cases mapped
      exact ⟨found, rfl, rfl⟩

theorem not_accounts_creditOnly {building : Outbound Unit (List Byte)}
    (left : remains building = ([], [], [], none)) : ¬ creditOnly.Accounts building.conn := by
  intro accounts
  simp only [remains, Prod.mk.injEq] at left
  rcases accounts.maxData 200 List.mem_cons_self with pending | ⟨packet, member, _⟩
  · rw [left.1] at pending
    cases pending
  · rw [List.map_eq_nil_iff.mp left.2.2.1] at member
    cases member

end Plain

namespace Connection

open Plain

theorem accounts_buildOutbound_iff_creditOnly :
    ¬ creditOnly.CallMeets wire ⟨0, 100, 0⟩ listed (Outbound.safe wire listed) := by
  have outcome : (creditOnly.buildOutbound wire ⟨0, 100, 0⟩ listed).map remains =
      .ok ([], [], [], none) := by
    decide +kernel
  rcases exists_of_map_ok outcome with ⟨building, built, left⟩
  have holds : creditOnly.send.Holds := by
    intro id stream found
    cases found
  rw [← accounts_buildOutbound_iff wire ⟨0, 100, 0⟩ listed creditOnly building holds built]
  exact fun both => not_accounts_creditOnly left both.2

/-- A packet with nothing but credit is not retained, and a packet that is too
large loses the bytes collected for it. -/
theorem sent_and_not_tracked :
    (∃ building, creditOnly.buildOutbound wire ⟨0, 100, 0⟩ listed = .ok building ∧
      ¬ creditOnly.Accounts building.conn) ∧
    ∃ building, overfull.buildOutbound wire ⟨0, 100, 0⟩ listed = .ok building ∧
      building.out = [] ∧ ¬ overfull.Accounts building.conn := by
  constructor
  · have outcome : (creditOnly.buildOutbound wire ⟨0, 100, 0⟩ listed).map remains =
        .ok ([], [], [], none) := by
      decide +kernel
    rcases exists_of_map_ok outcome with ⟨building, built, left⟩
    exact ⟨building, built, not_accounts_creditOnly left⟩
  · have outcome : (overfull.buildOutbound wire ⟨0, 100, 0⟩ listed).map remains =
        .ok ([], [], [], some 1150) := by
      decide +kernel
    have datagrams : (overfull.buildOutbound wire ⟨0, 100, 0⟩ listed).map (·.out.length) = .ok 0 := by
      decide +kernel
    rcases exists_of_map_ok outcome with ⟨building, built, left⟩
    rw [built] at datagrams
    simp only [remains, Prod.mk.injEq] at left
    refine ⟨building, built, List.length_eq_zero_iff.mp (Except.ok.inj datagrams),
      fun accounts => ?_⟩
    rcases Option.map_eq_some_iff.mp left.2.2.2 with ⟨stream, found, through⟩
    rcases accounts.bytes 0 stream found 0 (by omega) with ⟨before, same, sent⟩ |
      ⟨packet, member, _⟩
    · cases same
      cases sent
    · rw [List.map_eq_nil_iff.mp left.2.2.1] at member
      cases member

end Connection

end Corduit.Protocol.Quic
