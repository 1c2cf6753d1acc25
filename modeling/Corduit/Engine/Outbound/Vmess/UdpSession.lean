import Corduit.Engine.Outbound.Vmess.Reuse
import Mathlib.Logic.Function.Basic

/-!
# UDP sessions

Packets to one target share a session: a counter that each call takes from, and
a stream behind a lock.  A call takes its counter, waits for the lock and
writes; the receiver counts the chunks as they arrive.
-/

namespace Corduit.Engine.Outbound.Vmess

open Word

/-- The calls with a session: `relay_udp` and `send_udp_packet`. -/
inductive UdpCall where
  | relayUdp (data : List Byte)
  | sendUdpPacket (data : List Byte)
deriving DecidableEq

/-- How far a call has come: it has the session, its counter, its sealed chunk,
the lock; it waits for a response with the lock, has returned, or has returned
because its write failed. -/
inductive UdpPhase where
  | entered
  | counted (count : BitVec 16)
  | sealed (count : BitVec 16) (chunk : List Byte)
  | holding (count : BitVec 16) (chunk : List Byte)
  | awaiting
  | returned
  | unsent (count : BitVec 16)
deriving DecidableEq

/-- The counter of a call whose chunk was not written. -/
def UdpPhase.pending : UdpPhase → Option (BitVec 16)
  | counted count | sealed count _ | holding count _ | unsent count => some count
  | entered | awaiting | returned => Option.none

/-- A chunk and the counter it was sealed with. -/
structure SealedChunk where
  count : BitVec 16
  bytes : List Byte
deriving DecidableEq

/-- `VmessUdpSession`, with the call that holds the lock of its stream, the
chunks that were written to the stream, and how far every call has come. -/
structure UdpSession where
  requestKey : Octets 16
  requestIv : Octets 16
  chunkCount : Nat := 0
  responseChunkCount : Nat := 0
  headerConsumed : Bool := false
  holder : Option Nat := Option.none
  written : List SealedChunk := []
  phases : Nat → UdpPhase := fun _ => .entered

/-- A call goes on; `succeeds` is what the stream answers. -/
structure UdpAction where
  caller : Nat
  succeeds : Bool

namespace UdpSession

/-- The call has come to another phase. -/
def moved (session : UdpSession) (caller : Nat) (phase : UdpPhase) : UdpSession :=
  { session with phases := Function.update session.phases caller phase }

/-- A number for the next chunk, while there are any. -/
def nextChunkCount (session : UdpSession) : Option (BitVec 16) × UdpSession :=
  (if session.chunkCount < 2 ^ 16 then some (BitVec.ofNat 16 session.chunkCount) else Option.none,
    { session with chunkCount := session.chunkCount + 1 })

/-- A number for the next response. -/
def nextResponseChunkCount (session : UdpSession) : Option (BitVec 16) × UdpSession :=
  (if session.responseChunkCount < 2 ^ 16 then
      some (BitVec.ofNat 16 session.responseChunkCount) else Option.none,
    { session with responseChunkCount := session.responseChunkCount + 1 })

/-- `stream.lock()`, when nobody holds it. -/
def lock (session : UdpSession) (caller : Nat) (phase : UdpPhase) : UdpSession :=
  if session.holder = Option.none then { session.moved caller phase with holder := some caller }
  else session

/-- The lock is released. -/
def unlock (session : UdpSession) (caller : Nat) (phase : UdpPhase) : UdpSession :=
  { session.moved caller phase with holder := Option.none }

/-- The chunk is written. -/
def push (session : UdpSession) (count : BitVec 16) (chunk : List Byte) : UdpSession :=
  { session with written := session.written ++ [⟨count, chunk⟩] }

/-- The response: its header once, then a counter of its own. -/
def respond (session : UdpSession) (succeeds : Bool) : UdpSession :=
  if !session.headerConsumed && !succeeds then { session with headerConsumed := true }
  else { session with headerConsumed := true }.nextResponseChunkCount.2

variable (primitives : Primitives) (cipher : VmessCipher) (calls : Nat → UdpCall)

/-- A chunk of the session. -/
def encryptChunk (session : UdpSession) (data : List Byte) (count : BitVec 16) : List Byte :=
  encryptChunkStatic primitives cipher data session.requestKey session.requestIv count

/-- One step of a call.  `relay_udp` seals when it has the lock and keeps it for
the response, `send_udp_packet` seals before. -/
def next (session : UdpSession) (action : UdpAction) : UdpSession :=
  let caller := action.caller
  match session.phases caller, calls caller with
  | .entered, _ =>
      match session.nextChunkCount with
      | (some count, session') => session'.moved caller (.counted count)
      | (Option.none, session') => session'.moved caller .returned
  | .counted count, .relayUdp data =>
      session.lock caller (.holding count (session.encryptChunk primitives cipher data count))
  | .counted count, .sendUdpPacket data =>
      session.moved caller (.sealed count (session.encryptChunk primitives cipher data count))
  | .sealed count chunk, _ => session.lock caller (.holding count chunk)
  | .holding count chunk, .relayUdp _ =>
      if action.succeeds then (session.push count chunk).moved caller .awaiting
      else session.unlock caller (.unsent count)
  | .holding count chunk, .sendUdpPacket _ =>
      if action.succeeds then (session.push count chunk).unlock caller .returned
      else session.unlock caller (.unsent count)
  | .awaiting, _ => (session.respond action.succeeds).unlock caller .returned
  | .returned, _ => session
  | .unsent _, _ => session

/-- The counters of the chunks on the stream, as they were written. -/
def counts (session : UdpSession) : List (BitVec 16) :=
  session.written.map SealedChunk.count

/-- The counter of a call whose chunk was not written. -/
def pending (session : UdpSession) (caller : Nat) : Option (BitVec 16) :=
  (session.phases caller).pending

/-- The step writes the chunk with this counter. -/
def Writes (session : UdpSession) (action : UdpAction) (count : BitVec 16) : Prop :=
  ∃ chunk, session.phases action.caller = .holding count chunk ∧ action.succeeds = true

/-- What a step does to the counters: nothing; a call takes the next one, or
none is left; or a call that holds the lock writes. -/
inductive Counted (session next : UdpSession) (action : UdpAction) : Prop
  | same (counts : next.counts = session.counts) (taken : next.chunkCount = session.chunkCount)
      (pending : next.pending = session.pending) (idle : ∀ count, ¬ session.Writes action count)
  | took (left : session.chunkCount < 2 ^ 16) (counts : next.counts = session.counts)
      (taken : next.chunkCount = session.chunkCount + 1)
      (none : session.pending action.caller = Option.none)
      (pending : next.pending =
        Function.update session.pending action.caller (some (BitVec.ofNat 16 session.chunkCount)))
      (idle : ∀ count, ¬ session.Writes action count)
  | spent (none : 2 ^ 16 ≤ session.chunkCount) (counts : next.counts = session.counts)
      (taken : next.chunkCount = session.chunkCount + 1)
      (pending : next.pending = session.pending) (idle : ∀ count, ¬ session.Writes action count)
  | wrote {count : BitVec 16} (writes : session.Writes action count)
      (counts : next.counts = session.counts ++ [count])
      (taken : next.chunkCount = session.chunkCount)
      (pending : next.pending = Function.update session.pending action.caller Option.none)

variable {primitives cipher calls} {session : UdpSession} {action : UdpAction}

theorem pending_moved (caller : Nat) (phase : UdpPhase) :
    (session.moved caller phase).pending =
      Function.update session.pending caller phase.pending := by
  funext other
  dsimp only [pending, moved]
  by_cases same : other = caller
  · rw [same, Function.update_self, Function.update_self]
  · rw [Function.update_of_ne same, Function.update_of_ne same, pending]

/-- A step into a phase with the same counter changes no counter. -/
theorem pending_moved_of_eq {caller : Nat} {phase : UdpPhase}
    (same : phase.pending = session.pending caller) :
    (session.moved caller phase).pending = session.pending := by
  rw [pending_moved, same, Function.update_eq_self]

theorem not_writes {phase : UdpPhase} (stands : session.phases action.caller = phase)
    (free : ∀ count chunk, phase ≠ .holding count chunk) (count : BitVec 16) :
    ¬ session.Writes action count := by
  rintro ⟨chunk, holding, _⟩
  exact free count chunk (stands.symm.trans holding)

theorem counted_lock {count : BitVec 16} {chunk : List Byte}
    (held : session.pending action.caller = some count)
    (idle : ∀ count, ¬ session.Writes action count) :
    Counted session (session.lock action.caller (.holding count chunk)) action := by
  rw [lock]
  split
  · exact Counted.same rfl rfl (pending_moved_of_eq held.symm) idle
  · exact Counted.same rfl rfl rfl idle

theorem respond_cases (session : UdpSession) (succeeds : Bool) :
    (session.respond succeeds).counts = session.counts ∧
      (session.respond succeeds).chunkCount = session.chunkCount ∧
      (session.respond succeeds).pending = session.pending := by
  rw [respond]
  split
  · exact ⟨rfl, rfl, rfl⟩
  · exact ⟨rfl, rfl, rfl⟩

theorem counts_push (count : BitVec 16) (chunk : List Byte) :
    (session.push count chunk).counts = session.counts ++ [count] :=
  List.map_append

/-- What a step does. -/
theorem counted_next (session : UdpSession) (action : UdpAction) :
    Counted session (session.next primitives cipher calls action) action := by
  rw [next]
  cases stands : session.phases action.caller with
  | entered =>
      have idle := not_writes stands (fun _ _ => nofun)
      have none : session.pending action.caller = Option.none := by rw [pending, stands]; rfl
      dsimp only
      by_cases left : session.chunkCount < 2 ^ 16
      · rw [nextChunkCount, if_pos left]
        exact Counted.took left rfl rfl none (pending_moved _ _) idle
      · rw [nextChunkCount, if_neg left]
        exact Counted.spent (Nat.le_of_not_lt left) rfl rfl (pending_moved_of_eq none.symm) idle
  | counted count =>
      have idle := not_writes stands (fun _ _ => nofun)
      have held : session.pending action.caller = some count := by rw [pending, stands]; rfl
      cases calls action.caller with
      | relayUdp data => exact counted_lock held idle
      | sendUdpPacket data => exact Counted.same rfl rfl (pending_moved_of_eq held.symm) idle
  | sealed count chunk =>
      have idle := not_writes stands (fun _ _ => nofun)
      have held : session.pending action.caller = some count := by rw [pending, stands]; rfl
      exact counted_lock held idle
  | holding count chunk =>
      have held : session.pending action.caller = some count := by rw [pending, stands]; rfl
      by_cases succeeds : action.succeeds = true
      · have writes : session.Writes action count := ⟨chunk, stands, succeeds⟩
        cases calls action.caller with
        | relayUdp data =>
            dsimp only
            rw [if_pos succeeds]
            exact Counted.wrote writes (counts_push count chunk) rfl (pending_moved _ _)
        | sendUdpPacket data =>
            dsimp only
            rw [if_pos succeeds]
            exact Counted.wrote writes (counts_push count chunk) rfl (pending_moved _ _)
      · have idle : ∀ count, ¬ session.Writes action count :=
          fun _ writes => succeeds writes.choose_spec.2
        cases calls action.caller with
        | relayUdp data =>
            dsimp only
            rw [if_neg succeeds]
            exact Counted.same rfl rfl (pending_moved_of_eq held.symm) idle
        | sendUdpPacket data =>
            dsimp only
            rw [if_neg succeeds]
            exact Counted.same rfl rfl (pending_moved_of_eq held.symm) idle
  | awaiting =>
      have idle := not_writes stands (fun _ _ => nofun)
      rcases respond_cases session action.succeeds with ⟨counts, taken, pending_eq⟩
      refine Counted.same counts taken ?_ idle
      refine Eq.trans (pending_moved_of_eq ?_) pending_eq
      rw [pending_eq, pending, stands]
      rfl
  | returned => exact Counted.same rfl rfl rfl (not_writes stands (fun _ _ => nofun))
  | unsent count => exact Counted.same rfl rfl rfl (not_writes stands (fun _ _ => nofun))

end UdpSession

/-!
# The order of UDP chunks

Every counter that was taken is on the stream or held by one call.  The next
chunk carries the next counter exactly if no call holds an earlier one.
-/

open Transition

theorem mem_countersFrom_iff {first count : Nat} {value : BitVec 16} :
    value ∈ countersFrom first count ↔
      ∃ index, first ≤ index ∧ index < first + count ∧ BitVec.ofNat 16 index = value := by
  simp only [countersFrom, List.mem_map, List.mem_range'_1, and_assoc]

theorem countersFrom_concat (count : Nat) :
    countersFrom 0 (count + 1) = countersFrom 0 count ++ [BitVec.ofNat 16 count] := by
  rw [← countersFrom_append, Nat.zero_add]
  rfl

namespace UdpSession

/-- The counters that were taken: each is written or pending, no pending one is
written, and no two calls hold the same one. -/
structure Tickets (session : UdpSession) : Prop where
  covered : ∀ count < 2 ^ 16, count < session.chunkCount →
    BitVec.ofNat 16 count ∈ session.counts ∨
      ∃ caller, session.pending caller = some (BitVec.ofNat 16 count)
  taken : ∀ caller count, session.pending caller = some count → count.toNat < session.chunkCount
  unwritten : ∀ caller count, session.pending caller = some count → count ∉ session.counts
  unique : ∀ caller other count, session.pending caller = some count →
    session.pending other = some count → caller = other
  counted : ∀ count ∈ session.counts, count.toNat < session.chunkCount

variable {primitives : Primitives} {cipher : VmessCipher} {calls : Nat → UdpCall}
  {session later : UdpSession} {action : UdpAction}

theorem Tickets.of_same (tickets : session.Tickets) (counts : later.counts = session.counts)
    (pending : later.pending = session.pending)
    (taken : later.chunkCount = session.chunkCount ∨
      2 ^ 16 ≤ session.chunkCount ∧ later.chunkCount = session.chunkCount + 1) : later.Tickets := by
  have more : session.chunkCount ≤ later.chunkCount := by omega
  refine ⟨?_, ?_, ?_, ?_, ?_⟩
  · intro count small less
    rw [counts, pending]
    exact tickets.covered count small (by omega)
  · intro caller count held
    rw [pending] at held
    exact Nat.lt_of_lt_of_le (tickets.taken caller count held) more
  · rw [counts, pending]
    exact tickets.unwritten
  · rw [pending]
    exact tickets.unique
  · intro count member
    rw [counts] at member
    exact Nat.lt_of_lt_of_le (tickets.counted count member) more

theorem Tickets.of_took (tickets : session.Tickets) (left : session.chunkCount < 2 ^ 16)
    (counts : later.counts = session.counts) (taken : later.chunkCount = session.chunkCount + 1)
    (none : session.pending action.caller = Option.none)
    (pending : later.pending = Function.update session.pending action.caller
      (some (BitVec.ofNat 16 session.chunkCount))) : later.Tickets := by
  have value : (BitVec.ofNat 16 session.chunkCount).toNat = session.chunkCount := by
    rw [BitVec.toNat_ofNat]
    exact Nat.mod_eq_of_lt left
  have held_cases : ∀ {caller count}, later.pending caller = some count →
      caller = action.caller ∧ count = BitVec.ofNat 16 session.chunkCount ∨
        caller ≠ action.caller ∧ session.pending caller = some count := by
    intro caller count held
    rw [pending] at held
    by_cases same : caller = action.caller
    · rw [same, Function.update_self] at held
      exact Or.inl ⟨same, (Option.some.inj held).symm⟩
    · rw [Function.update_of_ne same] at held
      exact Or.inr ⟨same, held⟩
  -- Nobody else has the counter that is taken.
  have new : ∀ caller, session.pending caller ≠ some (BitVec.ofNat 16 session.chunkCount) := by
    intro caller held
    exact absurd (tickets.taken caller _ held) (Nat.not_lt_of_le (Nat.le_of_eq value.symm))
  refine ⟨?_, ?_, ?_, ?_, ?_⟩
  · intro count small less
    rw [counts, pending]
    by_cases last : count = session.chunkCount
    · exact Or.inr ⟨action.caller, by rw [last, Function.update_self]⟩
    · refine (tickets.covered count small (by omega)).imp_right ?_
      rintro ⟨caller, held⟩
      have other : caller ≠ action.caller := by
        rintro rfl
        rw [none] at held
        cases held
      exact ⟨caller, by rw [Function.update_of_ne other, held]⟩
  · intro caller count held
    rcases held_cases held with ⟨_, rfl⟩ | ⟨_, held⟩
    · omega
    · exact taken ▸ Nat.lt_succ_of_lt (tickets.taken caller count held)
  · intro caller count held member
    rw [counts] at member
    rcases held_cases held with ⟨_, rfl⟩ | ⟨_, held⟩
    · exact absurd (tickets.counted _ member) (Nat.not_lt_of_le (Nat.le_of_eq value.symm))
    · exact tickets.unwritten caller count held member
  · intro caller other count held held'
    rcases held_cases held with ⟨rfl, rfl⟩ | ⟨_, held⟩
    · rcases held_cases held' with ⟨rfl, _⟩ | ⟨_, held'⟩
      · rfl
      · exact absurd held' (new other)
    · rcases held_cases held' with ⟨_, rfl⟩ | ⟨_, held'⟩
      · exact absurd held (new caller)
      · exact tickets.unique caller other count held held'
  · intro count member
    rw [counts] at member
    exact taken ▸ Nat.lt_succ_of_lt (tickets.counted count member)

theorem Writes.pending {count : BitVec 16} (writes : session.Writes action count) :
    session.pending action.caller = some count := by
  rcases writes with ⟨chunk, holding, _⟩
  rw [UdpSession.pending, holding]
  rfl

theorem Tickets.of_wrote (tickets : session.Tickets) {count : BitVec 16}
    (writes : session.Writes action count) (counts : later.counts = session.counts ++ [count])
    (taken : later.chunkCount = session.chunkCount)
    (pending : later.pending = Function.update session.pending action.caller Option.none) :
    later.Tickets := by
  have held_cases : ∀ {caller count'}, later.pending caller = some count' →
      caller ≠ action.caller ∧ session.pending caller = some count' := by
    intro caller count' held
    rw [pending] at held
    by_cases same : caller = action.caller
    · rw [same, Function.update_self] at held
      cases held
    · rw [Function.update_of_ne same] at held
      exact ⟨same, held⟩
  refine ⟨?_, ?_, ?_, ?_, ?_⟩
  · intro index small less
    rw [taken] at less
    rw [counts, pending]
    rcases tickets.covered index small less with member | ⟨caller, held⟩
    · exact Or.inl (List.mem_append_left _ member)
    · by_cases same : caller = action.caller
      · rw [same, writes.pending] at held
        rw [Option.some.inj held]
        exact Or.inl (List.mem_append_right _ List.mem_cons_self)
      · exact Or.inr ⟨caller, by rw [Function.update_of_ne same, held]⟩
  · intro caller count' held
    rw [taken]
    exact tickets.taken caller count' (held_cases held).2
  · intro caller count' held member
    rcases held_cases held with ⟨other, held⟩
    rw [counts] at member
    rcases List.mem_append.mp member with earlier | last
    · exact tickets.unwritten caller count' held earlier
    · rw [List.mem_singleton.mp last] at held
      exact other (tickets.unique caller action.caller count held writes.pending)
  · intro caller other count' held held'
    exact tickets.unique caller other count' (held_cases held).2 (held_cases held').2
  · intro count' member
    rw [taken]
    rw [counts] at member
    rcases List.mem_append.mp member with earlier | last
    · exact tickets.counted count' earlier
    · rw [List.mem_singleton.mp last]
      exact tickets.taken action.caller count writes.pending

/-- Every step keeps the tickets. -/
theorem tickets_next (tickets : session.Tickets) (action : UdpAction) :
    (session.next primitives cipher calls action).Tickets := by
  cases @counted_next primitives cipher calls session action with
  | same counts taken pending _ => exact tickets.of_same counts pending (Or.inl taken)
  | took left counts taken none pending _ => exact tickets.of_took left counts taken none pending
  | spent none counts taken pending _ =>
      exact tickets.of_same counts pending (Or.inr ⟨none, taken⟩)
  | wrote writes counts taken pending => exact tickets.of_wrote writes counts taken pending

/-- The chunks on the stream carry the counters from zero on, as the receiver
counts them. -/
def InOrder (session : UdpSession) : Prop :=
  session.counts = countersFrom 0 session.counts.length

instance (session : UdpSession) : Decidable session.InOrder :=
  inferInstanceAs (Decidable (session.counts = countersFrom 0 session.counts.length))

/-- No call writes while another one with an earlier counter has yet to write, or
has failed to. -/
def InTurn (session : UdpSession) (action : UdpAction) : Prop :=
  ∀ count, session.Writes action count → ∀ other earlier, session.pending other = some earlier →
    count.toNat ≤ earlier.toNat

/-- The counter of a write is the next one on the stream exactly if no earlier
one is pending. -/
theorem next_count_iff (tickets : session.Tickets) (order : session.InOrder)
    {count : BitVec 16} (held : session.pending action.caller = some count) :
    count = BitVec.ofNat 16 session.counts.length ↔
      ∀ other earlier, session.pending other = some earlier → count.toNat ≤ earlier.toNat := by
  -- What is on the stream are the counters below its length.
  have written : ∀ index < session.counts.length, BitVec.ofNat 16 index ∈ session.counts := by
    intro index less
    rw [order, mem_countersFrom_iff]
    exact ⟨index, Nat.zero_le _, by rwa [Nat.zero_add], rfl⟩
  constructor
  · rintro rfl other earlier held'
    refine Nat.le_of_not_lt fun less => tickets.unwritten other earlier held' ?_
    have below := Nat.mod_le session.counts.length (2 ^ 16)
    rw [BitVec.toNat_ofNat] at less
    have member := written earlier.toNat (Nat.lt_of_lt_of_le less below)
    rwa [BitVec.ofNat_toNat, BitVec.setWidth_eq] at member
  · intro least
    have absent := tickets.unwritten action.caller count held
    have small := count.isLt
    rcases Nat.lt_trichotomy count.toNat session.counts.length with less | same | more
    · have member := written count.toNat less
      rw [BitVec.ofNat_toNat, BitVec.setWidth_eq] at member
      exact absurd member absent
    · rw [← same, BitVec.ofNat_toNat, BitVec.setWidth_eq]
    · have value : (BitVec.ofNat 16 session.counts.length).toNat = session.counts.length := by
        rw [BitVec.toNat_ofNat]
        omega
      rcases tickets.covered session.counts.length (by omega)
          (Nat.lt_trans more (tickets.taken action.caller count held)) with member | ⟨other, held'⟩
      · rw [order, mem_countersFrom_iff, ← order] at member
        rcases member with ⟨index, _, below, same⟩
        have values := congrArg BitVec.toNat same
        rw [value, BitVec.toNat_ofNat, Nat.mod_eq_of_lt (by omega)] at values
        omega
      · have bound := least other _ held'
        omega

/-- A step keeps the order exactly if a call that writes is in its turn. -/
theorem inOrder_next_iff (tickets : session.Tickets) (order : session.InOrder)
    (action : UdpAction) :
    (session.next primitives cipher calls action).InOrder ↔ session.InTurn action := by
  have idle_iff : ∀ {next : UdpSession}, next.counts = session.counts →
      (∀ count, ¬ session.Writes action count) → (next.InOrder ↔ session.InTurn action) := by
    intro next counts idle
    rw [InOrder, counts]
    exact iff_of_true order fun count writes => absurd writes (idle count)
  cases @counted_next primitives cipher calls session action with
  | same counts _ _ idle => exact idle_iff counts idle
  | took _ counts _ _ _ idle => exact idle_iff counts idle
  | spent _ counts _ _ idle => exact idle_iff counts idle
  | @wrote count writes counts _ _ =>
      have turn_iff : session.InTurn action ↔ ∀ other earlier,
          session.pending other = some earlier → count.toNat ≤ earlier.toNat := by
        refine ⟨fun turn => turn count writes, fun least count' writes' => ?_⟩
        have same := writes'.pending.symm.trans writes.pending
        rw [Option.some.inj same]
        exact least
      rw [turn_iff, ← next_count_iff tickets order writes.pending, InOrder, counts, List.length_append,
        List.length_singleton, countersFrom_concat]
      constructor
      · intro same
        exact (List.cons.inj (List.append_inj same (congrArg List.length order)).2).1
      · rintro rfl
        rw [← order]

/-- The chunks reach the stream in the order of their counters exactly if no call
writes before another one with an earlier counter. -/
theorem runAlways_inOrder_iff (primitives : Primitives) (cipher : VmessCipher)
    (calls : Nat → UdpCall) (requestKey requestIv : Octets 16) (actions : List UdpAction) :
    RunAlways (UdpSession.next primitives cipher calls) InOrder
        { requestKey := requestKey, requestIv := requestIv } actions ↔
      RunMeets (UdpSession.next primitives cipher calls) InTurn
        { requestKey := requestKey, requestIv := requestIv } actions := by
  have tickets : Tickets { requestKey := requestKey, requestIv := requestIv } :=
    ⟨fun _ _ less => absurd less (Nat.not_lt_zero _), fun _ _ => nofun, fun _ _ => nofun,
      fun _ _ _ => nofun, fun _ => nofun⟩
  exact runAlways_iff_runMeets (fun session : UdpSession => session.Tickets ∧ session.InOrder)
    (fun _ holds => holds.2)
    (fun session action holds => inOrder_next_iff holds.1 holds.2 action)
    (fun session action holds turn =>
      ⟨tickets_next holds.1 action, (inOrder_next_iff holds.1 holds.2 action).mpr turn⟩)
    ⟨tickets, rfl⟩

/-- Two calls of `send_udp_packet` take the counters 0 and 1; the second one
writes first. -/
theorem not_inOrder_overtaken :
    ¬ InOrder (run (UdpSession.next .naming .aes128Gcm fun _ => .sendUdpPacket [7])
      { requestKey := .filled 16 1, requestIv := .filled 16 2 }
      [⟨0, true⟩, ⟨1, true⟩, ⟨1, true⟩, ⟨1, true⟩, ⟨1, true⟩]) := by
  decide

end UdpSession

end Corduit.Engine.Outbound.Vmess
