import Corduit.Protocol.Quic.Connection.Effects

/-!
# Packet numbers that arrive again

A packet number should be processed once, at its first arrival.  The program
remembers the last 256 numbers of a space and drops what lies too far behind the
largest one.  A number that has left the queue is processed again when it comes
back, and the bound on the distance also drops the number zero of a new space.
-/

namespace Corduit.Protocol.Quic

open Collection Transition Word

/-- The numbers received in each space. -/
def Connection.marks {κ ξ : Type} (conn : Connection κ ξ) (space : PnSpace) :
    Nat × OrderedSet Nat :=
  ((conn.spaces space).largestRecvPn, (conn.spaces space).ackQueue)

namespace Connection

variable {κ ξ : Type} {library : TlsLibrary κ ξ} {packets : PacketLibrary κ} {clock : Clock}
  {space : PnSpace} {conn conn' : Connection κ ξ} {data : List Byte}

theorem Untouched.marks (untouched : conn.Untouched conn') : conn'.marks = conn.marks := by
  funext space
  unfold Connection.marks
  rw [(untouched.spaces space).largestRecvPn, (untouched.spaces space).ackQueue]

theorem marks_updateSpace {change : Space κ → Space κ}
    (largest : (change (conn.spaces space)).largestRecvPn = (conn.spaces space).largestRecvPn)
    (queue : (change (conn.spaces space)).ackQueue = (conn.spaces space).ackQueue) :
    (conn.updateSpace space change).marks = conn.marks := by
  funext other
  unfold marks
  by_cases same : other = space
  · rw [same, spaces_updateSpace_self, largest, queue]
  · rw [spaces_updateSpace_of_ne same]

theorem marks_onCrypto (conn : Connection κ ξ) (space : PnSpace) (offset : Nat)
    (data : List Byte) : (conn.onCrypto library space offset data).2.marks = conn.marks := by
  rcases @rekeys_onCrypto _ _ library conn space offset data with ⟨waiting, tls, rekeys⟩
  have waits : (conn.updateSpace space fun before =>
      { before with cryptoRecv := waiting }).marks = conn.marks := marks_updateSpace rfl rfl
  rw [← waits]
  funext other
  unfold marks
  rw [(rekeys.spaces other).largestRecvPn, (rekeys.spaces other).ackQueue]

theorem marks_processFrame {frame : Frame} {result : Except QuicError Unit}
    (processed : conn.processFrame library clock space frame = .ok (result, conn')) :
    conn'.marks = conn.marks := by
  rcases processFrame_cases processed with ⟨offset, data, _, handled⟩ | ⟨max, _, same⟩ |
    ⟨unidirectional, max, _, same⟩ | ⟨_, same⟩ | ⟨untouched, _⟩
  · have kept := @marks_onCrypto _ _ library conn space offset data
    rw [handled] at kept
    exact kept
  · rw [same]
    rfl
  · rw [same]
    rfl
  · rw [same]
    exact (marks_updateSpace rfl rfl).trans (marks_updateSpace rfl rfl)
  · exact untouched.marks

theorem marks_processFrames (bound : Nat) {plain : List Byte} {result : Except QuicError Unit}
    (processed : conn.processFrames library packets clock space bound plain =
      .ok (result, conn')) : conn'.marks = conn.marks := by
  induction bound generalizing plain conn with
  | zero =>
      cases processed
      rfl
  | succ bound ih =>
      rw [processFrames] at processed
      by_cases done : plain.isEmpty = true
      · rw [if_pos done] at processed
        cases processed
        rfl
      · rw [if_neg done] at processed
        cases decoded : packets.decodeFrame plain with
        | error message =>
            rw [decoded] at processed
            cases processed
            rfl
        | ok found =>
            rcases found with ⟨frame, used⟩
            rw [decoded] at processed
            dsimp only at processed
            cases first : conn.processFrame library clock space frame with
            | error fault =>
                rw [first] at processed
                cases processed
            | ok outcome =>
                rcases outcome with ⟨outcome, middle⟩
                have kept := marks_processFrame first
                rw [first] at processed
                cases outcome with
                | error error =>
                    cases processed
                    exact kept
                | ok =>
                    rw [ih processed, kept]

/-- The space and the number of a packet that authenticates. -/
def numbered (packets : PacketLibrary κ) (conn : Connection κ ξ) (data : List Byte) :
    Option (PnSpace × Nat) :=
  match conn.classify packets data with
  | .packet space pnOffset long => do
      let packet ← conn.unwrap packets data space pnOffset long
      let _ ← packets.openPayload packet.key packet.parsed.packetNumber packet.header packet.payload
      return (space, packet.parsed.packetNumber)
  | .dropped | .versionNegotiation | .retry => none

/-- The number of the packet whose frames a datagram brings to run. -/
def runsFrames (packets : PacketLibrary κ) (conn : Connection κ ξ) (data : List Byte) :
    Option (PnSpace × Nat) :=
  (conn.numbered packets data).filter fun arrival => !conn.stale arrival.1 arrival.2

theorem marks_processRetry (packets : PacketLibrary κ) (conn : Connection κ ξ) (data : List Byte) :
    (conn.processRetry packets data).2.marks = conn.marks ∨
      (conn.processRetry packets data).2.marks =
        Function.update conn.marks .initial (0, .empty) := by
  rcases processRetry_cases packets conn data with same | ⟨retry, fresh, tls, empty, same⟩
  · exact Or.inl (congrArg marks same)
  · right
    rw [same]
    funext other
    unfold marks restart
    by_cases initial : other = .initial
    · rw [initial, Function.update_self, ← empty.largestRecvPn, ← empty.ackQueue]
      rfl
    · rw [Function.update_of_ne initial]
      dsimp only
      rw [spaces_updateSpace_of_ne initial]

theorem marks_adoptScid (conn : Connection κ ξ) (parsed : ParsedPacket) :
    (conn.adoptScid parsed).marks = conn.marks := by
  rcases adoptScid_eq conn parsed with ⟨dcid, adopted⟩
  rw [adopted]
  rfl

end Connection

/-- A number that is noted joins the queue, from which the least numbers may
drop out. -/
theorem mem_trimAckQueue {queue : OrderedSet Nat} {pn : Nat}
    (member : pn ∈ (trimAckQueue queue).elements) : pn ∈ queue.elements := by
  have step : ∀ before after : OrderedSet Nat,
      (if before.elements.length > MAX_ACK_QUEUE then some before.dropLeast else none) =
        some after →
      (∀ pn ∈ before.elements, pn ∈ queue.elements) →
        ∀ pn ∈ after.elements, pn ∈ queue.elements := by
    intro before after step holds pn member
    by_cases long : before.elements.length > MAX_ACK_QUEUE
    · rw [if_pos long] at step
      cases step
      unfold OrderedSet.elements OrderedSet.dropLeast at member
      rw [List.map_tail] at member
      exact holds pn (List.mem_of_mem_tail member)
    · rw [if_neg long] at step
      cases step
  exact drain_invariant _ step queue.elements.length (fun _ member => member) pn member

/-- The marks of a space after a packet number was noted. -/
def noted (mark : Nat × OrderedSet Nat) (pn : Nat) : Nat × OrderedSet Nat :=
  (if pn > mark.1 then pn else mark.1, trimAckQueue (mark.2.add pn))

namespace Connection

variable {κ ξ : Type} {library : TlsLibrary κ ξ} {packets : PacketLibrary κ} {clock : Clock}
  {conn conn' : Connection κ ξ} {data : List Byte}

theorem marks_noteReceived (conn : Connection κ ξ) (space : PnSpace) (pn : Nat) :
    (conn.updateSpace space (·.noteReceived pn)).marks =
      Function.update conn.marks space (noted (conn.marks space) pn) := by
  funext other
  by_cases same : other = space
  · rw [same, Function.update_self, marks, spaces_updateSpace_self]
    rfl
  · rw [Function.update_of_ne same, marks, spaces_updateSpace_of_ne same, marks]

theorem marks_processFatal (conn : Connection κ ξ) (error : QuicError) :
    (conn.processFatal error).marks = conn.marks := by
  unfold marks
  rw [spaces_processFatal]

theorem marks_processPayload {space : PnSpace} {pn : Nat} {plain : List Byte}
    {result : Except QuicError Unit}
    (processed : conn.processPayload library packets clock space pn plain = .ok (result, conn')) :
    conn'.marks = conn.marks ∨
      conn'.marks = Function.update conn.marks space (noted (conn.marks space) pn) := by
  unfold processPayload at processed
  cases frames : conn.processFrames library packets clock space plain.length plain with
  | error fault =>
      rw [frames] at processed
      cases processed
  | ok outcome =>
      rcases outcome with ⟨outcome, middle⟩
      have kept := marks_processFrames plain.length frames
      rw [frames] at processed
      cases outcome with
      | error error =>
          cases processed
          exact Or.inl kept
      | ok =>
          cases processed
          by_cases isOpen : middle.closed.isNone = true
          · rw [if_pos isOpen, marks_noteReceived, kept]
            exact Or.inr rfl
          · rw [if_neg isOpen]
            exact Or.inl kept

/-- A packet whose frames do not run leaves the spaces alone. -/
theorem processPacket_of_none {space : PnSpace} {pnOffset : Nat} {long : Bool}
    (arrived : conn.classify packets data = .packet space pnOffset long)
    (skipped : conn.runsFrames packets data = none) :
    ∃ conn', conn.processPacket library packets clock data space pnOffset long =
      .ok (.ok (), conn') ∧ conn'.marks = conn.marks := by
  unfold runsFrames numbered at skipped
  rw [arrived] at skipped
  dsimp only at skipped
  unfold processPacket
  cases unwrapped : conn.unwrap packets data space pnOffset long with
  | none => exact ⟨conn, rfl, rfl⟩
  | some packet =>
      rw [unwrapped] at skipped
      dsimp only
      cases old : conn.stale space packet.parsed.packetNumber with
      | true => exact ⟨conn, rfl, rfl⟩
      | false =>
          rw [if_neg Bool.false_ne_true]
          cases opened : packets.openPayload packet.key packet.parsed.packetNumber packet.header
              packet.payload with
          | none => exact ⟨_, rfl, marks_adoptScid conn packet.parsed⟩
          | some plain => simp [opened, old] at skipped

/-- A packet whose frames run is opened under its number. -/
theorem processPacket_of_some {space : PnSpace} {pnOffset : Nat} {long : Bool}
    {arrival : PnSpace × Nat}
    (arrived : conn.classify packets data = .packet space pnOffset long)
    (runs : conn.runsFrames packets data = some arrival) :
    ∃ parsed plain, arrival.1 = space ∧
      conn.processPacket library packets clock data space pnOffset long =
        (conn.adoptScid parsed).processPayload library packets clock space arrival.2 plain := by
  unfold runsFrames numbered at runs
  rw [arrived] at runs
  dsimp only at runs
  unfold processPacket
  cases unwrapped : conn.unwrap packets data space pnOffset long with
  | none =>
      rw [unwrapped] at runs
      cases runs
  | some packet =>
      rw [unwrapped] at runs
      cases opened : packets.openPayload packet.key packet.parsed.packetNumber packet.header
          packet.payload with
      | none => simp [opened] at runs
      | some plain =>
          have both : (space, packet.parsed.packetNumber) = arrival ∧
              conn.stale arrival.1 arrival.2 = false := by simpa [opened] using runs
          rcases both with ⟨rfl, fresh⟩
          refine ⟨packet.parsed, plain, rfl, ?_⟩
          dsimp only at fresh ⊢
          rw [fresh, if_neg Bool.false_ne_true, opened]

/-- A datagram notes the number whose frames ran, or none; a Retry forgets the
numbers of the Initial space. -/
theorem marks_receive (received : conn.receive library packets clock data = .ok conn') :
    conn'.marks = conn.marks ∨
      (conn'.marks = Function.update conn.marks .initial (0, .empty) ∧
        conn.runsFrames packets data = none) ∨
      ∃ arrival, conn.runsFrames packets data = some arrival ∧
        conn'.marks = Function.update conn.marks arrival.1
          (noted (conn.marks arrival.1) arrival.2) := by
  unfold receive at received
  cases inbound : conn.processInbound library packets clock data with
  | error fault =>
      rw [inbound] at received
      cases received
  | ok outcome =>
      rcases outcome with ⟨outcome, middle⟩
      have settled : conn'.marks = middle.marks := by
        rw [inbound] at received
        cases outcome with
        | error error =>
            cases received
            exact marks_processFatal middle error
        | ok =>
            cases received
            rfl
      rw [settled]
      unfold processInbound at inbound
      cases arrived : conn.classify packets data with
      | dropped =>
          rw [arrived] at inbound
          cases inbound
          exact Or.inl rfl
      | versionNegotiation =>
          rw [arrived] at inbound
          cases inbound
          exact Or.inl rfl
      | retry =>
          rw [arrived] at inbound
          have same : conn.processRetry packets data = (outcome, middle) := Except.ok.inj inbound
          have skipped : conn.runsFrames packets data = none := by
            unfold runsFrames numbered
            rw [arrived]
            rfl
          have forgotten := marks_processRetry packets conn data
          rw [same] at forgotten
          exact forgotten.imp id fun emptied => Or.inl ⟨emptied, skipped⟩
      | packet space pnOffset long =>
          rw [arrived] at inbound
          dsimp only at inbound
          cases runs : conn.runsFrames packets data with
          | none =>
              rcases @processPacket_of_none _ _ library packets clock conn data _ _ _ arrived runs
                with ⟨after, processed, kept⟩
              rw [processed] at inbound
              cases inbound
              exact Or.inl kept
          | some arrival =>
              rcases @processPacket_of_some _ _ library packets clock conn data _ _ _ _ arrived runs
                with ⟨parsed, plain, here, processed⟩
              rw [processed] at inbound
              have noting := marks_processPayload inbound
              rw [marks_adoptScid, ← here] at noting
              exact noting.imp id fun noting => Or.inr ⟨arrival, rfl, noting⟩

end Connection

/-- A connection and the packet numbers whose frames have run. -/
structure Receiver (κ ξ : Type) where
  conn : Connection κ ξ
  log : List (PnSpace × Nat)

/-- A datagram arrives, or the application or a timer acts. -/
inductive WireOp where
  | datagram (clock : Clock) (data : List Byte)
  | act (op : LocalOp)

/-- The distance of two packet numbers is at most the limit. -/
def Within (pn largest : Nat) : Prop :=
  pn ≤ largest + REORDER_LIMIT ∧ largest ≤ pn + REORDER_LIMIT

namespace Receiver

variable {κ ξ : Type} (library : TlsLibrary κ ξ) (packets : PacketLibrary κ)

/-- The connection after one operation; nothing follows a panic. -/
def step (receiver : Receiver κ ξ) : WireOp → Except Fault (Receiver κ ξ)
  | .datagram clock data =>
      (receiver.conn.receive library packets clock data).map fun conn =>
        { conn := conn
          log := receiver.log ++ (receiver.conn.runsFrames packets data).toList }
  | .act op =>
      (receiver.conn.act packets op).map fun conn => { receiver with conn := conn }

/-- A step, unless the program has stopped. -/
def advance (state : Except Fault (Receiver κ ξ)) (op : WireOp) : Except Fault (Receiver κ ξ) :=
  state.bind fun receiver => receiver.step library packets op

/-- The frames of a packet that authenticates run only if they have not run yet,
and they do run then if its number is near the largest one. -/
def RunsOnce : Except Fault (Receiver κ ξ) → WireOp → Prop
  | .ok receiver, .datagram _ data =>
      ∀ space pn, receiver.conn.numbered packets data = some (space, pn) →
        (receiver.conn.runsFrames packets data = some (space, pn) →
          (space, pn) ∉ receiver.log) ∧
        ((space, pn) ∉ receiver.log →
          Within pn (receiver.conn.spaces space).largestRecvPn →
          receiver.conn.runsFrames packets data = some (space, pn))
  | _, _ => True

/-- A number that comes back is still in the queue or far behind, and a new one
that is near the largest is not taken for one that is far behind. -/
def Remembers : Except Fault (Receiver κ ξ) → WireOp → Prop
  | .ok receiver, .datagram _ data =>
      ∀ space pn, receiver.conn.numbered packets data = some (space, pn) →
        ((space, pn) ∈ receiver.log →
          pn ∈ (receiver.conn.spaces space).ackQueue.elements ∨
            pn ≤ (receiver.conn.spaces space).largestRecvPn - REORDER_LIMIT) ∧
        ((space, pn) ∉ receiver.log →
          Within pn (receiver.conn.spaces space).largestRecvPn →
          (receiver.conn.spaces space).largestRecvPn - REORDER_LIMIT < pn)
  | _, _ => True

/-- Numbers in a queue have been processed, and are not above the largest. -/
def Marked (receiver : Receiver κ ξ) : Prop :=
  ∀ space pn, pn ∈ (receiver.conn.marks space).2.elements →
    (space, pn) ∈ receiver.log ∧ pn ≤ (receiver.conn.marks space).1

/-- The invariant, unless the program has stopped. -/
def IsMarked : Except Fault (Receiver κ ξ) → Prop
  | .ok receiver => receiver.Marked
  | .error _ => True

variable {library packets} {receiver receiver' : Receiver κ ξ}

theorem Marked.noted (marked : receiver.Marked) (arrival : PnSpace × Nat)
    (log : List (PnSpace × Nat)) (logged : arrival ∈ log) (kept : ∀ entry ∈ receiver.log, entry ∈ log)
    {conn : Connection κ ξ} (noting : conn.marks = Function.update receiver.conn.marks arrival.1
      (noted (receiver.conn.marks arrival.1) arrival.2)) :
    Marked { conn := conn, log := log } := by
  intro space pn member
  dsimp only at member ⊢
  rw [noting] at member ⊢
  by_cases same : space = arrival.1
  · rw [same, Function.update_self] at member ⊢
    unfold Quic.noted at member ⊢
    dsimp only at member ⊢
    rcases OrderedSet.mem_add.mp (mem_trimAckQueue member) with here | before
    · rw [here]
      refine ⟨logged, ?_⟩
      split <;> omega
    · rcases marked arrival.1 pn before with ⟨processed, atMost⟩
      refine ⟨kept _ processed, ?_⟩
      split <;> omega
  · rw [Function.update_of_ne same] at member ⊢
    rcases marked space pn member with ⟨processed, atMost⟩
    exact ⟨kept _ processed, atMost⟩

theorem Marked.step (marked : receiver.Marked) {op : WireOp}
    (stepped : receiver.step library packets op = .ok receiver') : receiver'.Marked := by
  cases op with
  | act op =>
      unfold Receiver.step at stepped
      dsimp only at stepped
      cases acted : receiver.conn.act packets op with
      | error fault =>
          rw [acted] at stepped
          cases stepped
      | ok conn =>
          rw [acted] at stepped
          cases stepped
          intro space pn member
          dsimp only at member ⊢
          rw [(Connection.Untouched.act acted).marks] at member ⊢
          exact marked space pn member
  | datagram clock data =>
      unfold Receiver.step at stepped
      dsimp only at stepped
      cases received : receiver.conn.receive library packets clock data with
      | error fault =>
          rw [received] at stepped
          cases stepped
      | ok conn =>
          rw [received] at stepped
          cases stepped
          rcases Connection.marks_receive received with same | ⟨emptied, _⟩ |
            ⟨arrival, runs, noting⟩
          · intro space pn member
            dsimp only at member ⊢
            rw [same] at member ⊢
            rcases marked space pn member with ⟨processed, atMost⟩
            exact ⟨List.mem_append_left _ processed, atMost⟩
          · intro space pn member
            dsimp only at member ⊢
            rw [emptied] at member ⊢
            by_cases first : space = .initial
            · rw [first, Function.update_self] at member
              cases member
            · rw [Function.update_of_ne first] at member ⊢
              rcases marked space pn member with ⟨processed, atMost⟩
              exact ⟨List.mem_append_left _ processed, atMost⟩
          · refine marked.noted arrival _ ?_ (fun _ => List.mem_append_left _) noting
            rw [runs]
            exact List.mem_append_right _ List.mem_cons_self

/-- With the queue marked, what is remembered decides what runs. -/
theorem runsOnce_iff_remembers (marked : receiver.Marked) (op : WireOp) :
    RunsOnce packets (.ok receiver) op ↔ Remembers packets (.ok receiver) op := by
  cases op with
  | act op => exact Iff.rfl
  | datagram clock data =>
      refine forall_congr' fun space => forall_congr' fun pn => imp_congr_right fun arrived => ?_
      have runs : receiver.conn.runsFrames packets data = some (space, pn) ↔
          receiver.conn.stale space pn = false := by
        unfold Connection.runsFrames
        rw [arrived]
        simp
      have old : receiver.conn.stale space pn = true ↔
          pn ∈ (receiver.conn.spaces space).ackQueue.elements ∨
            pn ≤ (receiver.conn.spaces space).largestRecvPn - REORDER_LIMIT := by
        have queued := fun member => (marked space pn member).2
        unfold Connection.marks at queued
        simp only [Connection.stale, Bool.or_eq_true, Bool.and_eq_true, decide_eq_true_eq,
          OrderedSet.contains_iff]
        exact or_congr_left (and_iff_right_of_imp queued)
      have fresh : (space, pn) ∉ receiver.log →
          pn ∉ (receiver.conn.spaces space).ackQueue.elements :=
        fun new member => new (marked space pn member).1
      rw [runs, ← Bool.not_eq_true, old]
      refine and_congr ?_ ?_
      · exact ⟨fun once member => by_contra fun kept => once kept member,
          fun kept runs member => runs (kept member)⟩
      · refine forall_congr' fun new => forall_congr' fun near => ?_
        rw [not_or, Nat.not_le]
        exact and_iff_right (fresh new)

/-- In every run, each packet number is processed once, at its first arrival,
exactly when numbers that come back are remembered and new ones near the largest
are not taken for old ones. -/
theorem packet_numbers_processed_once_iff (library : TlsLibrary κ ξ) (packets : PacketLibrary κ)
    (tls : Tls13Client κ ξ) (scid dcid : List Byte) (key writeKey : κ)
    (initialMaxData initialMaxStreamData : Nat) (ops : List WireOp) :
    RunMeets (advance library packets) (RunsOnce packets)
        (.ok ⟨.start tls scid dcid key writeKey initialMaxData initialMaxStreamData, []⟩) ops ↔
      RunMeets (advance library packets) (Remembers packets)
        (.ok ⟨.start tls scid dcid key writeKey initialMaxData initialMaxStreamData, []⟩) ops := by
  refine runMeets_iff IsMarked ?_ ?_ ?_
  · intro state op marked
    cases state with
    | error fault => exact Iff.rfl
    | ok receiver => exact runsOnce_iff_remembers marked op
  · intro state op marked _
    cases state with
    | error fault => exact trivial
    | ok receiver =>
        have moved : advance library packets (.ok receiver) op =
          receiver.step library packets op := rfl
        rw [moved]
        cases stepped : receiver.step library packets op with
        | error fault => exact trivial
        | ok receiver' => exact Marked.step marked stepped
  · intro space pn member
    cases space with
    | initial => cases member
    | handshake => cases member
    | application => cases member

/-- An Initial packet for `Plain.connection` with the number zero and a PING
frame. -/
def packetZero : List Byte :=
  [0xc0, 0, 0, 0, 1, 8] ++ List.replicate 8 1 ++ [0, 0, 21, 0] ++ [1, 0, 0, 0] ++
    List.replicate 16 0

/-- The first packet of a server has the number zero, and is taken for one that
is far behind. -/
theorem packet_zero_dropped :
    ¬ RunMeets (advance Plain.tls Plain.packets) (RunsOnce Plain.packets)
      (.ok ⟨Plain.connection, []⟩) [.datagram ⟨0, 0, 0⟩ packetZero] := by
  rintro ⟨once, _⟩
  have arrived : Plain.connection.numbered Plain.packets packetZero = some (.initial, 0) := rfl
  have dropped : Plain.connection.runsFrames Plain.packets packetZero = none := rfl
  have runs := (once .initial 0 arrived).2 (by simp) ⟨Nat.zero_le _, Nat.zero_le _⟩
  dsimp only at runs
  rw [dropped] at runs
  cases runs

end Receiver

end Corduit.Protocol.Quic
