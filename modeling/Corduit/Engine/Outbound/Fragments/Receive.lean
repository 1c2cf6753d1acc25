import Corduit.Engine.Outbound.Fragments.Core
import Corduit.Engine.RuleProvider

/-!
# Receiving relay packets

Both protocols parse a datagram, pass on the packets that came in one piece
and collect the fragments of the others.  A packet that is put together is one
that was sent as long as a fragment only ever joins fragments of its own
packet.
-/

namespace Corduit.Engine.Outbound

open Collection Engine Transition Word

variable {κ : Type}

/-- What a datagram carries. -/
structure Fragment (κ : Type) where
  key : κ
  fragTotal : Byte
  fragId : Byte
  target : TargetAddr
  payload : List Byte
deriving DecidableEq, Repr

/-- A packet that is handed to the caller. -/
structure Received (κ : Type) where
  key : κ
  target : TargetAddr
  data : List Byte
deriving DecidableEq, Repr

/-- A protocol as the receiver sees it: its parser, and the fragment counts of
the packets that came in one piece. -/
structure Receiver (κ : Type) where
  parse : List Byte → Except Error (Fragment κ)
  whole : Byte → Bool

/-- One pass through the loop of `recv_udp_packet`: the packet that it returns,
if it does. -/
def Receiver.take [DecidableEq κ] (receiver : Receiver κ) (assembler : FragAssembler κ)
    (now : Nat) (datagram : List Byte) :
    Option (Except Error (Option (Received κ)) × FragAssembler κ) :=
  match receiver.parse datagram with
  | .error error => some (.error error, assembler)
  | .ok fragment =>
      if receiver.whole fragment.fragTotal then
        some (.ok (some ⟨fragment.key, fragment.target, fragment.payload⟩), assembler)
      else do
        let (full, assembler) ← assembler.add now fragment.key fragment.fragId
          fragment.fragTotal fragment.target fragment.payload
        return (.ok (full.map fun full => ⟨fragment.key, full.1, full.2⟩), assembler)

namespace Packet

/-- The packet as it is handed to the caller. -/
def received (packet : Packet κ) : Received κ :=
  ⟨packet.key, packet.target, packet.data⟩

/-- A set of fragments of the packet, with its count and its target. -/
structure Fits (packet : Packet κ) (entry : PendingFragment) : Prop where
  total : entry.total = packet.total
  target : entry.target = packet.target
  fragments : entry.fragments.entries ⊆ numbered packet.fragments

instance (packet : Packet κ) (entry : PendingFragment) : Decidable (packet.Fits entry) :=
  decidable_of_iff (entry.total = packet.total ∧ entry.target = packet.target ∧
      ∀ fragment ∈ entry.fragments.entries, fragment ∈ numbered packet.fragments)
    ⟨fun ⟨total, target, fragments⟩ => ⟨total, target, fragments⟩,
      fun fits => ⟨fits.total, fits.target, fits.fragments⟩⟩

variable {packet : Packet κ} {entry : PendingFragment}

theorem Fits.payload (fits : packet.Fits entry) (complete : entry.Complete) :
    entry.payload = packet.data := by
  have ids := numbered_pairwise (Nat.le_succ_of_le packet.few)
  have distinct : entry.fragments.entries.Nodup :=
    entry.fragments.sorted.imp fun less same => BitVec.ne_of_lt less (congrArg Prod.fst same)
  have inside := distinct.subperm fits.fragments
  have few := inside.length_le
  have small := packet.few
  rw [length_numbered] at few
  rw [PendingFragment.Complete, fits.total, BitVec.le_def, toNat_total, BitVec.toNat_ofNat,
    Nat.mod_eq_of_lt (by omega)] at complete
  have all := inside.perm_of_length_le (by rwa [length_numbered])
  have listed : entry.fragments.entries = numbered packet.fragments :=
    all.eq_of_pairwise
      (fun first second _ _ less greater => absurd (trans_of (· < ·) less greater)
        (irrefl_of (· < ·) first.1))
      entry.fragments.sorted ids
  rw [PendingFragment.payload, listed, flatMap_numbered, data]

variable [DecidableEq κ] {assembler : FragAssembler κ} {now : Nat} {fragId : Byte}
  {fragment : List Byte}

/-- A fragment that joins fragments of its own packet leaves a set of such
fragments. -/
theorem fits_storedEntry
    (joins : ∀ entry, assembler.pending.lookup packet.key = some entry → packet.Fits entry)
    (listed : (fragId, fragment) ∈ numbered packet.fragments) :
    packet.Fits (assembler.storedEntry now packet.key fragId packet.total packet.target
      fragment) := by
  have before : packet.Fits
      (assembler.entryOf now packet.key packet.total packet.target) := by
    cases present : assembler.pending.lookup packet.key with
    | none =>
        rw [FragAssembler.entryOf_of_absent present]
        exact ⟨rfl, rfl, List.nil_subset _⟩
    | some entry =>
        rw [FragAssembler.entryOf_of_lookup present]
        exact joins entry present
  refine ⟨before.total, before.target, fun entry member => ?_⟩
  rcases OrderedMap.mem_insert.mp member with rfl | ⟨old, _⟩
  · exact listed
  · exact before.fragments old

end Packet

/-- A datagram that arrives, and the packet that it is a part of. -/
structure Delivered (κ : Type) where
  now : Nat
  packet : Packet κ
  datagram : List Byte

/-- The datagram is a part of the packet, for as far as it can be read. -/
def Receiver.Carries (receiver : Receiver κ) (packet : Packet κ) (datagram : List Byte) : Prop :=
  ∀ fragment, receiver.parse datagram = .ok fragment →
    fragment.key = packet.key ∧ fragment.target = packet.target ∧
      fragment.fragTotal = packet.total ∧
      (fragment.fragId, fragment.payload) ∈ numbered packet.fragments

/-- The receiving side of a connection: the fragments and what the callers got. -/
structure Receiving (κ : Type) where
  assembler : FragAssembler κ
  returned : List (Received κ)

namespace Receiving

/-- Nothing was received. -/
def new : Receiving κ :=
  ⟨FragAssembler.new, []⟩

variable [DecidableEq κ]

/-- A datagram arrives.  One that would stop the program leaves everything as it
is; there is none. -/
def deliver (receiver : Receiver κ) (state : Receiving κ) (delivery : Delivered κ) :
    Receiving κ :=
  match receiver.take state.assembler delivery.now delivery.datagram with
  | some (.ok (some received), assembler) => ⟨assembler, state.returned ++ [received]⟩
  | some (_, assembler) => ⟨assembler, state.returned⟩
  | none => state

section Equations

variable {receiver : Receiver κ} {state : Receiving κ} {delivery : Delivered κ}
  {fragment : Fragment κ}

theorem deliver_of_error {error : Error} (parsed : receiver.parse delivery.datagram = .error error) :
    state.deliver receiver delivery = state := by
  rw [deliver, Receiver.take, parsed]

theorem deliver_of_whole (parsed : receiver.parse delivery.datagram = .ok fragment)
    (whole : receiver.whole fragment.fragTotal = true) :
    state.deliver receiver delivery = ⟨state.assembler,
      state.returned ++ [⟨fragment.key, fragment.target, fragment.payload⟩]⟩ := by
  rw [deliver, Receiver.take, parsed]
  simp only [whole, if_true]

theorem deliver_of_add (parsed : receiver.parse delivery.datagram = .ok fragment)
    (whole : receiver.whole fragment.fragTotal ≠ true)
    {full : Option (TargetAddr × List Byte)} {after : FragAssembler κ}
    (added : state.assembler.add delivery.now fragment.key fragment.fragId fragment.fragTotal
      fragment.target fragment.payload = some (full, after)) :
    state.deliver receiver delivery = ⟨after, state.returned ++
      (full.map fun full => ⟨fragment.key, full.1, full.2⟩).toList⟩ := by
  rw [deliver, Receiver.take, parsed]
  simp only [whole, added]
  cases full with
  | none => simp
  | some full => simp

end Equations

/-- A fragment that is taken in finds fragments of its own packet, if any.  A packet
in one piece, and a fragment that the bounds keep out, join nothing. -/
def Joins (receiver : Receiver κ) (state : Receiving κ) (delivery : Delivered κ) : Prop :=
  match receiver.parse delivery.datagram with
  | .error _ => True
  | .ok fragment =>
      receiver.whole fragment.fragTotal = true ∨
        state.assembler.Refuses fragment.key fragment.payload ∨
        ∀ entry ∈ state.assembler.pending.lookup delivery.packet.key, delivery.packet.Fits entry

instance (receiver : Receiver κ) (state : Receiving κ) (delivery : Delivered κ) :
    Decidable (state.Joins receiver delivery) :=
  match parsed : receiver.parse delivery.datagram with
  | .error _ => isTrue (by rw [Joins, parsed]; trivial)
  | .ok fragment =>
      decidable_of_iff (receiver.whole fragment.fragTotal = true ∨
        state.assembler.Refuses fragment.key fragment.payload ∨
        ∀ entry ∈ state.assembler.pending.lookup delivery.packet.key, delivery.packet.Fits entry)
        (by rw [Joins, parsed])

/-- The buffer is sound and what was returned is what was sent. -/
structure Faithful (sent : List (Packet κ)) (state : Receiving κ) : Prop where
  sound : state.assembler.Sound
  returned : ∀ received ∈ state.returned, ∃ packet ∈ sent, received = packet.received

variable {receiver : Receiver κ} {sent : List (Packet κ)} {state : Receiving κ}
  {delivery : Delivered κ}

omit [DecidableEq κ] in
theorem faithful_new : Faithful sent (new : Receiving κ) :=
  ⟨FragAssembler.new_sound, fun _ member => absurd member List.not_mem_nil⟩

omit [DecidableEq κ] in
theorem mem_append_toList {α : Type} {items : List α} {last : Option α} {property : α → Prop}
    (before : ∀ item ∈ items, property item) (here : ∀ item, last = some item → property item) :
    ∀ item ∈ items ++ last.toList, property item := by
  intro item member
  rcases List.mem_append.mp member with old | latest
  · exact before item old
  · exact here item (Option.mem_toList.mp latest)

variable (whole : ∀ total, receiver.whole total = true → total.toNat ≤ 1)

include whole

/-- The step: a fragment that joins its own packet returns that packet or
nothing, and what is pending afterwards was pending or is of that packet. -/
theorem deliver_faithful (faithful : Faithful sent state) (isSent : delivery.packet ∈ sent)
    (carries : receiver.Carries delivery.packet delivery.datagram)
    (joins : state.Joins receiver delivery) :
    Faithful sent (state.deliver receiver delivery) ∧
      ∀ key entry, (state.deliver receiver delivery).assembler.pending.lookup key = some entry →
        state.assembler.pending.lookup key = some entry ∨
          key = delivery.packet.key ∧ delivery.packet.Fits entry := by
  cases parsed : receiver.parse delivery.datagram with
  | error error =>
      rw [deliver_of_error parsed]
      exact ⟨faithful, fun key entry found => Or.inl found⟩
  | ok fragment =>
      rcases carries fragment parsed with ⟨key_eq, target_eq, total_eq, listed⟩
      by_cases single : receiver.whole fragment.fragTotal = true
      · rw [deliver_of_whole parsed single]
        have alone : numbered delivery.packet.fragments =
            [(fragment.fragId, fragment.payload)] := by
          have one := whole fragment.fragTotal single
          rw [total_eq, Packet.toNat_total, ← length_numbered] at one
          have exactly := Nat.le_antisymm one (List.length_pos_of_mem listed)
          rcases List.length_eq_one_iff.mp exactly with ⟨only, same⟩
          rw [same, List.mem_singleton] at listed
          rw [same, listed]
        refine ⟨⟨faithful.sound, ?_⟩, fun key entry found => Or.inl found⟩
        refine @mem_append_toList _ _ (some _) _ faithful.returned fun received last => ?_
        refine ⟨delivery.packet, isSent, ?_⟩
        rw [← Option.some.inj last, Packet.received, key_eq, target_eq, Packet.data,
          ← flatMap_numbered, alone]
        simp
      · rcases FragAssembler.add_spec faithful.sound delivery.now fragment.key fragment.fragId
          fragment.fragTotal fragment.target fragment.payload with
          ⟨full, after, added, sound, adds⟩
        rw [deliver_of_add parsed single added]
        rw [Joins, parsed] at joins
        have fits : ¬ state.assembler.Refuses delivery.packet.key fragment.payload →
            delivery.packet.Fits (state.assembler.storedEntry delivery.now delivery.packet.key
              fragment.fragId delivery.packet.total delivery.packet.target fragment.payload) :=
          fun admitted => Packet.fits_storedEntry
            ((joins.resolve_left single).resolve_left (key_eq ▸ admitted)) listed
        rw [key_eq, target_eq, total_eq] at adds
        rw [key_eq]
        cases adds with
        | refused _ =>
            exact ⟨⟨sound, by simpa using faithful.returned⟩, fun key entry found => Or.inl found⟩
        | completed admitted complete pending =>
            have fits := fits admitted
            refine ⟨⟨sound, ?_⟩, ?_⟩
            · refine mem_append_toList faithful.returned fun received last => ?_
              refine ⟨delivery.packet, isSent, ?_⟩
              rw [← Option.some.inj last, Packet.received, fits.target, fits.payload complete]
            · intro key entry found
              rw [pending, Table.lookup_erase_eq] at found
              by_cases same : key = delivery.packet.key
              · rw [if_pos same] at found
                cases found
              · rw [if_neg same] at found
                exact Or.inl found
        | stored admitted _ pending =>
            refine ⟨⟨sound, by simpa using faithful.returned⟩, ?_⟩
            intro key entry found
            rw [pending, Table.lookup_insert_eq] at found
            by_cases same : key = delivery.packet.key
            · rw [if_pos same] at found
              rw [← Option.some.inj found]
              exact Or.inr ⟨same, fits admitted⟩
            · rw [if_neg same] at found
              exact Or.inl found

/-- The rule: when every fragment of a run that is taken in joins its own packet,
every packet that the run returns is one that was sent. -/
theorem returned_of_joins {deliveries : List (Delivered κ)}
    (isSent : ∀ delivery ∈ deliveries, delivery.packet ∈ sent ∧
      receiver.Carries delivery.packet delivery.datagram)
    (joins : RunMeets (deliver receiver) (Joins receiver) new deliveries) :
    ∀ received ∈ (run (deliver receiver) new deliveries).returned,
      ∃ packet ∈ sent, received = packet.received := by
  have meets := runMeets_and joins (runMeets_of_forall isSent new)
  have faithful := run_invariant_of_meets (Faithful sent)
    (fun state delivery faithful each =>
      (deliver_faithful whole faithful each.2.1 each.2.2 each.1).1)
    faithful_new meets
  exact faithful.returned

/-- When the packets have keys of their own, every fragment joins its own
packet. -/
theorem returned_of_distinct
    (distinct : ∀ first ∈ sent, ∀ second ∈ sent, first.key = second.key → first = second)
    {deliveries : List (Delivered κ)}
    (isSent : ∀ delivery ∈ deliveries, delivery.packet ∈ sent ∧
      receiver.Carries delivery.packet delivery.datagram) :
    ∀ received ∈ (run (deliver receiver) new deliveries).returned,
      ∃ packet ∈ sent, received = packet.received := by
  -- A pending set is of the one packet that has its key.
  let invariant (state : Receiving κ) : Prop := Faithful sent state ∧
    ∀ key entry, state.assembler.pending.lookup key = some entry →
      ∃ packet ∈ sent, packet.key = key ∧ packet.Fits entry
  have preserved : ∀ state delivery, invariant state →
      (delivery.packet ∈ sent ∧ receiver.Carries delivery.packet delivery.datagram) →
      invariant (deliver receiver state delivery) := by
    rintro state delivery ⟨faithful, owned⟩ ⟨isSent, carries⟩
    have joins : state.Joins receiver delivery := by
      unfold Joins
      split
      · trivial
      · refine Or.inr (Or.inr fun entry found => ?_)
        rcases owned _ entry found with ⟨packet, packetSent, key_eq, fits⟩
        rwa [← distinct packet packetSent delivery.packet isSent key_eq]
    rcases deliver_faithful whole faithful isSent carries joins with ⟨faithful', pending⟩
    refine ⟨faithful', fun key entry found => ?_⟩
    rcases pending key entry found with old | ⟨same, fits⟩
    · exact owned key entry old
    · exact ⟨delivery.packet, isSent, same.symm, fits⟩
  have initially : invariant new := ⟨faithful_new, fun key entry found => by cases found⟩
  have holds := run_invariant_of_meets invariant preserved initially
    (runMeets_of_forall isSent new)
  exact holds.1.returned

end Receiving

end Corduit.Engine.Outbound
