import Corduit.Engine.Outbound.Hysteria2.Udp
import Corduit.Engine.Outbound.Tuic.Udp

/-!
# What the relays return

Hysteria 2 keeps a packet under its session and its number; TUIC keeps it under
its association alone, where the fragments of another packet may be pending.
-/

namespace Corduit.Engine.Outbound

open Transition Word

/-- Whatever is lost, repeated or out of order, each payload that is returned was
sent, with its target: over TUIC when every fragment that is taken in meets fragments
of its own packet, over Hysteria 2 when the text of a target is not read as another. -/
theorem relay_returns_sent (text : Hysteria2.IpText) (peerMaxUdpPayload : Nat) :
    (∀ (sent : List Tuic.UdpPacket) (deliveries : List (Delivered (BitVec 16))),
      Tuic.Delivers peerMaxUdpPayload sent deliveries →
      RunMeets (Receiving.deliver Tuic.receiver) (Receiving.Joins Tuic.receiver) Receiving.new
        deliveries →
      ∀ received ∈ (run (Receiving.deliver Tuic.receiver) Receiving.new deliveries).returned,
        ∃ packet ∈ sent, received = ⟨packet.assocId, packet.target, packet.data⟩) ∧
    ∀ (sent : List Hysteria2.UdpPacket) (deliveries : List (Delivered (BitVec 32 × BitVec 16))),
      Hysteria2.Delivers text peerMaxUdpPayload sent deliveries →
      (∀ first ∈ sent, ∀ second ∈ sent, first.sessionId = second.sessionId →
        first.packetId = second.packetId → first = second) →
      (∀ packet ∈ sent, packet.ReadsBack text) →
      ∀ received ∈ (run (Receiving.deliver (Hysteria2.receiver text)) Receiving.new
          deliveries).returned,
        ∃ packet ∈ sent,
          received = ⟨(packet.sessionId, packet.packetId), packet.target, packet.data⟩ :=
  ⟨fun _ _ delivers joins => Tuic.returned_was_sent delivers joins,
    fun _ _ delivers distinct readsBack =>
      Hysteria2.returned_was_sent delivers distinct readsBack⟩

/-- The address of a resolver. -/
def resolver : TargetAddr :=
  .ip ⟨.v4 0x01020304, 53⟩

/-- A payload of 1100 bytes, which takes two fragments. -/
def longPacket (assocId : BitVec 16) (byte : Byte) : Tuic.UdpPacket :=
  ⟨.native, assocId, resolver, List.replicate 1100 byte⟩

/-- A packet in one fragment. -/
def shortPacket : Tuic.UdpPacket :=
  ⟨.native, 7, resolver, [0x61, 0x62]⟩

/-- A payload of 1200 bytes to a name, which takes two fragments. -/
def namedPacket (packetId : BitVec 16) (byte : Byte) : Hysteria2.UdpPacket :=
  ⟨7, packetId, .domain "example.com" 443, List.replicate 1200 byte⟩

/-- A packet in one fragment. -/
def shortNamedPacket : Hysteria2.UdpPacket :=
  ⟨7, 3, .ip ⟨.v6 1, 53⟩, [0x61, 0x62]⟩

/-- The chosen messages of the packets. -/
def tuicDeliveries (chosen : List (Tuic.UdpPacket × Nat)) : List (Delivered (BitVec 16)) :=
  chosen.map fun (packet, index) => ⟨0, packet.packet, (packet.messages 1200).getD index []⟩

/-- Fragments, with their keys. -/
def hysteria2Deliveries (chosen : List (Hysteria2.UdpPacket × Nat)) :
    List (Delivered (BitVec 32 × BitVec 16)) :=
  chosen.map fun (packet, index) =>
    ⟨0, packet.packet .std, (packet.messages .std 1200).getD index []⟩

theorem getD_mem {messages : List (List Byte)} {index : Nat} (inside : index < messages.length) :
    messages.getD index [] ∈ messages := by
  rw [List.getD_eq_getElem?_getD, List.getElem?_eq_getElem inside]
  exact List.getElem_mem inside

theorem delivers_tuic {sent : List Tuic.UdpPacket} {chosen : List (Tuic.UdpPacket × Nat)}
    (inside : ∀ choice ∈ chosen,
      choice.1 ∈ sent ∧ choice.2 < (choice.1.messages 1200).length) :
    Tuic.Delivers 1200 sent (tuicDeliveries chosen) := by
  intro delivery member
  rcases List.mem_map.mp member with ⟨choice, listed, rfl⟩
  exact ⟨choice.1, (inside choice listed).1, rfl, getD_mem (inside choice listed).2⟩

theorem delivers_hysteria2 {sent : List Hysteria2.UdpPacket}
    {chosen : List (Hysteria2.UdpPacket × Nat)}
    (inside : ∀ choice ∈ chosen,
      choice.1 ∈ sent ∧ choice.2 < (choice.1.messages .std 1200).length) :
    Hysteria2.Delivers .std 1200 sent (hysteria2Deliveries chosen) := by
  intro delivery member
  rcases List.mem_map.mp member with ⟨choice, listed, rfl⟩
  exact ⟨choice.1, (inside choice listed).1, rfl, getD_mem (inside choice listed).2⟩

/-- The fragments of two packets cross, the second one first; one comes twice, and a
packet in one piece comes in between. -/
def crossedTuic : List (Tuic.UdpPacket × Nat) :=
  [(longPacket 7 0x61, 1), (longPacket 8 0x62, 0), (shortPacket, 0), (longPacket 7 0x61, 1),
    (longPacket 7 0x61, 0), (longPacket 8 0x62, 1)]

/-- Fragments of two packets in turn. -/
def crossedHysteria2 : List (Hysteria2.UdpPacket × Nat) :=
  [(namedPacket 1 0x61, 1), (namedPacket 2 0x62, 0), (shortNamedPacket, 0), (namedPacket 1 0x61, 1),
    (namedPacket 1 0x61, 0), (namedPacket 2 0x62, 1)]

/-- What is returned of them: three packets, two of which were put together. -/
theorem relay_returns_sent_crossed :
    ((∀ received ∈ (run (Receiving.deliver Tuic.receiver) Receiving.new
          (tuicDeliveries crossedTuic)).returned,
        ∃ packet ∈ [longPacket 7 0x61, longPacket 8 0x62, shortPacket],
          received = ⟨packet.assocId, packet.target, packet.data⟩) ∧
      (run (Receiving.deliver Tuic.receiver) Receiving.new
          (tuicDeliveries crossedTuic)).returned.map (·.data.length) = [2, 1100, 1100]) ∧
    (∀ received ∈ (run (Receiving.deliver (Hysteria2.receiver .std)) Receiving.new
          (hysteria2Deliveries crossedHysteria2)).returned,
        ∃ packet ∈ [namedPacket 1 0x61, namedPacket 2 0x62, shortNamedPacket],
          received = ⟨(packet.sessionId, packet.packetId), packet.target, packet.data⟩) ∧
      (run (Receiving.deliver (Hysteria2.receiver .std)) Receiving.new
          (hysteria2Deliveries crossedHysteria2)).returned.map (·.data.length) =
        [2, 1200, 1200] := by
  refine ⟨⟨?_, by decide +kernel⟩, ?_, by decide +kernel⟩
  · refine (relay_returns_sent .std 1200).1 _ _ (delivers_tuic (by decide +kernel)) ?_
    decide +kernel
  · refine (relay_returns_sent .std 1200).2 _ _ (delivers_hysteria2 (by decide +kernel)) ?_ ?_
    · decide +kernel
    · intro packet isSent target parsed
      have read : ∀ packet ∈ [namedPacket 1 0x61, namedPacket 2 0x62, shortNamedPacket],
          Hysteria2.parseAddress .std (Hysteria2.encodeAddress .std packet.target) =
            .ok packet.target := by
        decide +kernel
      exact (Except.ok.inj ((read packet isSent).symm.trans parsed)).symm

/-- A packet that lost its second fragment takes the one of the next packet. -/
theorem mixed_not_sent :
    Tuic.Delivers 1200 [longPacket 7 0x61, longPacket 7 0x62]
        (tuicDeliveries [(longPacket 7 0x61, 0), (longPacket 7 0x62, 1)]) ∧
      ¬ ∀ received ∈ (run (Receiving.deliver Tuic.receiver) Receiving.new
          (tuicDeliveries [(longPacket 7 0x61, 0), (longPacket 7 0x62, 1)])).returned,
        ∃ packet ∈ [longPacket 7 0x61, longPacket 7 0x62],
          received = ⟨packet.assocId, packet.target, packet.data⟩ := by
  exact ⟨delivers_tuic (by decide +kernel), by decide +kernel⟩

/-!
# Concurrent relay calls

Every call of `relay_udp` draws an id, sends its payload and takes datagrams
from the one queue of the connection until a packet is complete.  Taking a
datagram and handling it are two steps of a call; between them the other calls
go on.
-/

open Engine

/-- Where a call is: waiting for a datagram, with one in its hands, or done. -/
inductive Phase (κ : Type) where
  | waiting
  | holding (datagram : List Byte)
  | answered (received : Received κ)
  | failed (error : Error)

namespace Phase

variable {κ : Type} (received : Received κ)

theorem waiting_ne : waiting ≠ answered received := by
  intro same
  cases same

theorem holding_ne (datagram : List Byte) : holding datagram ≠ answered received := by
  intro same
  cases same

theorem failed_ne (error : Error) : failed error ≠ answered received := by
  intro same
  cases same

end Phase

/-- A call of `relay_udp`, with its association or session. -/
structure Caller (κ ι : Type) where
  id : ι
  phase : Phase κ

/-- What a call returns: the payload of the packet, whoever's it is. -/
def Caller.result {κ ι : Type} (caller : Caller κ ι) : Option (Except Error (List Byte)) :=
  match caller.phase with
  | .answered received => some (.ok received.data)
  | .failed error => some (.error error)
  | _ => none

/-- What the calls over one connection share, and the calls. -/
structure Relaying (κ ι : Type) where
  queue : List (List Byte)
  assembler : FragAssembler κ
  callers : List (Caller κ ι)

/-- A step of the relay. -/
inductive RelayStep (ι : Type) where
  /-- A call with an id of its own has sent its payload. -/
  | call (id : ι)
  /-- A datagram of the server comes in. -/
  | arrive (datagram : List Byte)
  /-- A call takes the first datagram. -/
  | pop (caller : Nat)
  /-- A call handles the datagram it took. -/
  | handle (caller now : Nat)
  /-- A call gets no datagram. -/
  | fail (caller : Nat) (reason : String)

namespace Relaying

variable {κ ι : Type}

/-- Nothing is pending and nobody calls. -/
def new : Relaying κ ι :=
  ⟨[], FragAssembler.new, []⟩

/-- A call goes on. -/
def advance (state : Relaying κ ι) (caller : Nat) (id : ι) (phase : Phase κ) : Relaying κ ι :=
  { state with callers := state.callers.set caller ⟨id, phase⟩ }

variable [DecidableEq κ]

/-- The call that holds a datagram makes one pass through its loop. -/
def handled (receiver : Receiver κ) (state : Relaying κ ι) (caller now : Nat) (id : ι)
    (datagram : List Byte) : Relaying κ ι :=
  match receiver.take state.assembler now datagram with
  | none => state
  | some (.error error, assembler) =>
      { state with assembler := assembler }.advance caller id (.failed error)
  | some (.ok none, assembler) =>
      { state with assembler := assembler }.advance caller id .waiting
  | some (.ok (some received), assembler) =>
      { state with assembler := assembler }.advance caller id (.answered received)

/-- A step that is not enabled changes nothing. -/
def next (receiver : Receiver κ) (state : Relaying κ ι) : RelayStep ι → Relaying κ ι
  | .call id => { state with callers := state.callers ++ [⟨id, .waiting⟩] }
  | .arrive datagram => { state with queue := state.queue ++ [datagram] }
  | .pop caller =>
      match state.callers[caller]?, state.queue with
      | some ⟨id, .waiting⟩, datagram :: queue =>
          { state with queue := queue }.advance caller id (.holding datagram)
      | _, _ => state
  | .handle caller now =>
      match state.callers[caller]? with
      | some ⟨id, .holding datagram⟩ => state.handled receiver caller now id datagram
      | _ => state
  | .fail caller reason =>
      match state.callers[caller]? with
      | some ⟨id, .waiting⟩ => state.advance caller id
          (.failed (.network ("Failed to receive UDP datagram: " ++ reason)))
      | _ => state

/-- The packet that answered a call has the id of the call. -/
def Own (idOf : κ → ι) (state : Relaying κ ι) : Prop :=
  ∀ (caller : Nat) (id : ι) (received : Received κ),
    state.callers[caller]? = some ⟨id, .answered received⟩ → idOf received.key = id

/-- A fragment that completes a packet when it is handled. -/
def Completes (receiver : Receiver κ) (assembler : FragAssembler κ) (now : Nat)
    (fragment : Fragment κ) : Prop :=
  receiver.whole fragment.fragTotal = true ∨
    (¬ assembler.Refuses fragment.key fragment.payload ∧
      (assembler.storedEntry now fragment.key fragment.fragId fragment.fragTotal fragment.target
        fragment.payload).Complete)

/-- No call handles a datagram of another id that completes a packet. -/
def TakesOwn (receiver : Receiver κ) (idOf : κ → ι) (state : Relaying κ ι) : RelayStep ι → Prop
  | .handle caller now =>
      ∀ (id : ι) (datagram : List Byte) (fragment : Fragment κ),
        state.callers[caller]? = some ⟨id, .holding datagram⟩ →
        receiver.parse datagram = .ok fragment →
        Completes receiver state.assembler now fragment → idOf fragment.key = id
  | _ => True

variable {receiver : Receiver κ} {idOf : κ → ι} {state : Relaying κ ι}

/-- Handling a datagram returns a packet exactly when its fragment completes one,
and then under the key of the fragment. -/
theorem take_of_parsed {assembler : FragAssembler κ} (sound : assembler.Sound) (now : Nat)
    {datagram : List Byte} {fragment : Fragment κ}
    (parsed : receiver.parse datagram = .ok fragment) :
    ∃ answer after, receiver.take assembler now datagram = some (.ok answer, after) ∧
      after.Sound ∧ (answer = none → ¬ Completes receiver assembler now fragment) ∧
      ∀ received, answer = some received →
        Completes receiver assembler now fragment ∧ received.key = fragment.key := by
  rw [Receiver.take, parsed]
  by_cases single : receiver.whole fragment.fragTotal = true
  · refine ⟨some ⟨fragment.key, fragment.target, fragment.payload⟩, assembler, if_pos single,
      sound, ?_, fun received same => ⟨Or.inl single, ?_⟩⟩
    · intro nothing
      cases nothing
    · rw [← Option.some.inj same]
  · rcases FragAssembler.add_spec sound now fragment.key fragment.fragId fragment.fragTotal
      fragment.target fragment.payload with ⟨full, after, added, soundAfter, adds⟩
    refine ⟨full.map fun full => ⟨fragment.key, full.1, full.2⟩, after, ?_, soundAfter, ?_, ?_⟩
    · simp only [single, added]
      rfl
    · rintro none (whole | ⟨admitted, complete⟩)
      · exact single whole
      · cases adds with
        | refused refused => exact admitted refused
        | completed _ _ _ => cases none
        | stored _ incomplete _ => exact incomplete complete
    · intro received same
      cases adds with
      | refused _ => cases same
      | completed admitted complete _ =>
          refine ⟨Or.inr ⟨admitted, complete⟩, ?_⟩
          rw [← Option.some.inj same]
      | stored _ _ _ => cases same

omit [DecidableEq κ] in
theorem own_advance {caller : Nat} {id : ι} {before phase : Phase κ}
    (present : state.callers[caller]? = some ⟨id, before⟩)
    (unanswered : ∀ received, before ≠ .answered received) :
    (state.advance caller id phase).Own idOf ↔
      state.Own idOf ∧ ∀ received, phase = .answered received → idOf received.key = id := by
  have inside : caller < state.callers.length := (List.getElem?_eq_some_iff.mp present).1
  have here : (state.callers.set caller ⟨id, phase⟩)[caller]? = some ⟨id, phase⟩ :=
    List.getElem?_set_self inside
  have there : ∀ other, caller ≠ other →
      (state.callers.set caller ⟨id, phase⟩)[other]? = state.callers[other]? :=
    fun other different => List.getElem?_set_ne different
  constructor
  · intro own
    constructor
    · intro other otherId received answered
      by_cases same : caller = other
      · rw [← same, present] at answered
        exact absurd (congrArg Caller.phase (Option.some.inj answered)) (unanswered received)
      · exact own other otherId received ((there other same).trans answered)
    · intro received answered
      exact own caller id received (here.trans (by rw [answered]))
  · rintro ⟨own, now⟩ other otherId received answered
    by_cases same : caller = other
    · subst same
      have phase_eq := Option.some.inj (here.symm.trans answered)
      rcases Caller.mk.inj phase_eq with ⟨id_eq, answered⟩
      rw [← id_eq]
      exact now received answered
    · exact own other otherId received ((there other same).symm.trans answered)

omit [DecidableEq κ] in
theorem own_advance_of_open {caller : Nat} {id : ι} {before phase : Phase κ}
    (present : state.callers[caller]? = some ⟨id, before⟩)
    (unanswered : ∀ received, before ≠ .answered received)
    (still : ∀ received, phase ≠ .answered received) :
    (state.advance caller id phase).Own idOf ↔ state.Own idOf := by
  rw [own_advance present unanswered]
  exact and_iff_left fun received answered => absurd answered (still received)

omit [DecidableEq κ] in
theorem own_call (id : ι) :
    Own idOf { state with callers := state.callers ++ [⟨id, .waiting⟩] } ↔ state.Own idOf := by
  constructor
  · intro own caller other received answered
    have inside := (List.getElem?_eq_some_iff.mp answered).1
    exact own caller other received ((List.getElem?_append_left inside).trans answered)
  · intro own caller other received answered
    by_cases inside : caller < state.callers.length
    · exact own caller other received ((List.getElem?_append_left inside).symm.trans answered)
    · have last := (List.getElem?_append_right (Nat.le_of_not_lt inside)).symm.trans answered
      have waiting := List.mem_singleton.mp (List.mem_of_getElem? last)
      cases congrArg Caller.phase waiting

section

variable (sound : state.assembler.Sound)

include sound

/-- Handling a datagram answers the call with a packet of the datagram's key, or
goes on. -/
theorem own_handled_iff {caller now : Nat} {id : ι} {datagram : List Byte}
    (present : state.callers[caller]? = some ⟨id, .holding datagram⟩) :
    (state.handled receiver caller now id datagram).Own idOf ↔
      state.Own idOf ∧ ∀ fragment, receiver.parse datagram = .ok fragment →
        Completes receiver state.assembler now fragment → idOf fragment.key = id := by
  unfold handled
  cases parsed : receiver.parse datagram with
  | error error =>
      have taken : receiver.take state.assembler now datagram =
          some (.error error, state.assembler) := by
        rw [Receiver.take, parsed]
      rw [taken]
      simp only
      rw [own_advance_of_open present (Phase.holding_ne · datagram) (Phase.failed_ne · error)]
      exact (and_iff_left fun fragment same => by cases same).symm
  | ok fragment =>
      rcases take_of_parsed sound now parsed with ⟨answer, after, taken, _, silent, answered⟩
      have still : ({ state with assembler := after } : Relaying κ ι).callers[caller]? =
          some ⟨id, .holding datagram⟩ := present
      rw [taken]
      cases answer with
      | none =>
          simp only
          rw [own_advance_of_open still (Phase.holding_ne · datagram) Phase.waiting_ne]
          refine (and_iff_left ?_).symm
          intro other same completes
          rw [← Except.ok.inj same] at completes
          exact absurd completes (silent rfl)
      | some received =>
          rcases answered received rfl with ⟨completes, key_eq⟩
          simp only
          rw [own_advance still (Phase.holding_ne · datagram)]
          refine and_congr_right fun _ => ⟨?_, ?_⟩
          · intro own other same _
            rw [← Except.ok.inj same, ← key_eq]
            exact own received rfl
          · intro own other same
            rw [← Phase.answered.inj same, key_eq]
            exact own fragment rfl completes

/-- What a step does: it leaves the answers alone, or a call handles a datagram. -/
theorem own_next_iff (step : RelayStep ι) :
    (state.next receiver step).Own idOf ↔
      state.Own idOf ∧ TakesOwn receiver idOf state step := by
  cases step with
  | call id => exact (own_call id).trans (and_iff_left trivial).symm
  | arrive datagram => exact (and_iff_left trivial).symm
  | pop caller =>
      refine Iff.trans ?_ (and_iff_left trivial).symm
      rw [next]
      split
      · rename_i id datagram queue present _
        have still : ({ state with queue := queue } : Relaying κ ι).callers[caller]? =
            some ⟨id, .waiting⟩ := present
        exact own_advance_of_open still Phase.waiting_ne (Phase.holding_ne · datagram)
      · exact Iff.rfl
  | fail caller reason =>
      refine Iff.trans ?_ (and_iff_left trivial).symm
      rw [next]
      split
      · rename_i id present
        exact own_advance_of_open present Phase.waiting_ne (Phase.failed_ne · _)
      · exact Iff.rfl
  | handle caller now =>
      rw [next]
      split
      · rename_i id datagram present
        rw [own_handled_iff sound present]
        refine and_congr_right fun _ => ⟨?_, ?_⟩
        · intro own otherId other fragment found
          rcases Caller.mk.inj (Option.some.inj (present.symm.trans found)) with ⟨rfl, phase⟩
          rw [← Phase.holding.inj phase]
          exact own fragment
        · exact fun own fragment => own id datagram fragment present
      · rename_i absent
        refine (and_iff_left ?_).symm
        exact fun id datagram fragment found => absurd found (absent id datagram)

theorem sound_handled (caller now : Nat) (id : ι) (datagram : List Byte) :
    (state.handled receiver caller now id datagram).assembler.Sound := by
  unfold handled
  cases parsed : receiver.parse datagram with
  | error error =>
      have taken : receiver.take state.assembler now datagram =
          some (.error error, state.assembler) := by
        rw [Receiver.take, parsed]
      rw [taken]
      exact sound
  | ok fragment =>
      rcases take_of_parsed sound now parsed with ⟨answer, after, taken, soundAfter, _⟩
      rw [taken]
      cases answer with
      | none => exact soundAfter
      | some received => exact soundAfter

theorem sound_next (step : RelayStep ι) :
    (state.next receiver step).assembler.Sound := by
  cases step with
  | call id => exact sound
  | arrive datagram => exact sound
  | pop caller =>
      rw [next]
      split
      · exact sound
      · exact sound
  | handle caller now =>
      rw [next]
      split
      · exact sound_handled sound _ _ _ _
      · exact sound
  | fail caller reason =>
      rw [next]
      split
      · exact sound
      · exact sound

end

/-- The rule: the calls of a run get answers of their own exactly when none handles a
datagram of another id that completes a packet. -/
theorem own_run_iff (receiver : Receiver κ) (idOf : κ → ι) (steps : List (RelayStep ι)) :
    (run (next receiver) new steps).Own idOf ↔
      RunMeets (next receiver) (TakesOwn receiver idOf) new steps := by
  refine @run_iff_runMeets _ _ _ (fun _ => True) _ _
    (fun state : Relaying κ ι => state.assembler.Sound) ?_ ?_ ?_ _ _ FragAssembler.new_sound ?_ ?_
  · intro state step sound _ own
    rw [own_next_iff sound]
    exact and_iff_right own
  · intro state step sound _ other own
    exact other ((own_next_iff sound step).mp own).1
  · exact fun state step sound _ => sound_next sound step
  · intro caller id received answered
    cases answered
  · exact fun _ _ => trivial

end Relaying

/-- A call over TUIC is answered by packets of its association, and one over
Hysteria 2 by packets of its session, exactly when no call handles a datagram of
another one that completes a packet. -/
theorem relay_udp_own_iff (text : Hysteria2.IpText) (tuic : List (RelayStep (BitVec 16)))
    (hysteria2 : List (RelayStep (BitVec 32))) :
    ((run (Relaying.next Tuic.receiver) Relaying.new tuic).Own id ↔
        RunMeets (Relaying.next Tuic.receiver) (Relaying.TakesOwn Tuic.receiver id)
          Relaying.new tuic) ∧
      ((run (Relaying.next (Hysteria2.receiver text)) Relaying.new hysteria2).Own Prod.fst ↔
        RunMeets (Relaying.next (Hysteria2.receiver text))
          (Relaying.TakesOwn (Hysteria2.receiver text) Prod.fst) Relaying.new hysteria2) :=
  ⟨Relaying.own_run_iff _ _ tuic, Relaying.own_run_iff _ _ hysteria2⟩

/-- The answer to a call over TUIC. -/
def tuicAnswer (assocId : BitVec 16) (payload : List Byte) : List Byte :=
  [0x05, 0x02] ++ toBeBytes 2 assocId ++ [1, 0] ++ toBeBytes 2 (BitVec.ofNat 16 payload.length) ++
    [0x01, 1, 2, 3, 4, 0, 53] ++ payload

/-- Two calls; the answer to the second comes first and the first call takes it. -/
def crossedSteps : List (RelayStep (BitVec 16)) :=
  [.call 1, .call 2, .arrive (tuicAnswer 2 [0x62]), .arrive (tuicAnswer 1 [0x61]),
    .pop 0, .handle 0 0, .pop 1, .handle 1 0]

/-- Two calls get each other's answers. -/
theorem crossed_answers :
    (run (Relaying.next Tuic.receiver) Relaying.new crossedSteps).callers.map
        (fun caller => (caller.id, caller.result)) =
      [(1, some (.ok [0x62])), (2, some (.ok [0x61]))] ∧
      ¬ (run (Relaying.next Tuic.receiver) Relaying.new crossedSteps).Own id := by
  have first : (run (Relaying.next Tuic.receiver) Relaying.new crossedSteps).callers[0]? =
      some ⟨1, .answered ⟨2, .ip ⟨.v4 0x01020304, 53⟩, [0x62]⟩⟩ := by
    rfl
  refine ⟨by decide +kernel, fun own => ?_⟩
  exact absurd (own 0 1 _ first) (by decide)

end Corduit.Engine.Outbound
