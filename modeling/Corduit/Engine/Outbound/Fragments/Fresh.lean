import Corduit.Engine.Outbound.Fragments.Core

/-!
# Fresh packets after lost fragments

A set that lost a fragment stays in the buffer, however old it is: the buffer
is only pruned when it holds more sets than it ever does.  A packet under a
key with nothing pending comes through as long as there is room beside the old
sets; no packet of any size does for certain unless nothing is pending.
-/

namespace Corduit.Engine.Outbound

open Collection Word

/-- The arguments of a call of `add`, and its time. -/
structure Call (κ : Type) where
  now : Nat
  key : κ
  fragId : Byte
  fragTotal : Byte
  target : TargetAddr
  payload : List Byte

/-- A packet with the order and the times in which its fragments arrive. -/
structure Arriving (κ : Type) extends Packet κ where
  arrivals : List (Nat × Byte × List Byte)
  arrive : (arrivals.map Prod.snd).Perm (numbered fragments)

namespace Arriving

variable {κ : Type}

/-- The call for a fragment. -/
def call (packet : Arriving κ) (arrival : Nat × Byte × List Byte) : Call κ :=
  ⟨arrival.1, packet.key, arrival.2.1, packet.total, packet.target, arrival.2.2⟩

/-- The calls for a packet's fragments. -/
def calls (packet : Arriving κ) : List (Call κ) :=
  packet.arrivals.map packet.call

end Arriving

namespace FragAssembler

variable {κ : Type} [DecidableEq κ]

/-- One call after the other. -/
def addAll (assembler : FragAssembler κ) :
    List (Call κ) → Option (List (Option (TargetAddr × List Byte)) × FragAssembler κ)
  | [] => some ([], assembler)
  | call :: calls => do
      let (answer, assembler) ← assembler.add call.now call.key call.fragId call.fragTotal
        call.target call.payload
      let (answers, assembler) ← assembler.addAll calls
      return (answer :: answers, assembler)

/-- The last fragment of a packet to arrive returns the packet, and no other
returns anything. -/
def Reassembles (assembler : FragAssembler κ) (packet : Arriving κ) : Prop :=
  (assembler.addAll packet.calls).map Prod.fst =
    some (List.replicate (packet.fragments.length - 1) none ++
      [some (packet.target, packet.data)])

instance (assembler : FragAssembler κ) (packet : Arriving κ) :
    Decidable (assembler.Reassembles packet) :=
  inferInstanceAs (Decidable (_ = _))

variable {assembler : FragAssembler κ}

theorem addAll_cons {call : Call κ} {answer : Option (TargetAddr × List Byte)}
    {after : FragAssembler κ}
    (added : assembler.add call.now call.key call.fragId call.fragTotal call.target
      call.payload = some (answer, after)) (calls : List (Call κ)) :
    (assembler.addAll (call :: calls)).map Prod.fst =
      ((after.addAll calls).map Prod.fst).map (answer :: ·) := by
  rw [addAll, added]
  simp only [Option.bind_eq_bind, Option.bind_some]
  cases after.addAll calls with
  | none => rfl
  | some result => rfl

/-- No calls stop the program, and none break a bound. -/
theorem addAll_sound (sound : assembler.Sound) (calls : List (Call κ)) :
    ∃ answers after, assembler.addAll calls = some (answers, after) ∧ after.Sound := by
  induction calls generalizing assembler with
  | nil => exact ⟨[], assembler, rfl, sound⟩
  | cons call calls ih =>
      rcases add_spec sound call.now call.key call.fragId call.fragTotal call.target
        call.payload with ⟨answer, after, added, soundAfter, _⟩
      rcases ih soundAfter with ⟨answers, last, rest, soundLast⟩
      refine ⟨answer :: answers, last, ?_, soundLast⟩
      rw [addAll, added]
      simp only [Option.bind_eq_bind, Option.bind_some]
      rw [rest]
      rfl

variable {packet : Arriving κ} {kept : List (Byte × List Byte)}

/-- The bytes of some fragments. -/
def weigh (kept : List (Byte × List Byte)) : Nat :=
  (kept.map fun fragment => fragment.2.length).sum

/-- The buffer `initial` and some fragments of the packet. -/
structure Holds (initial : FragAssembler κ) (packet : Arriving κ) (kept : List (Byte × List Byte))
    (assembler : FragAssembler κ) : Prop where
  sound : assembler.Sound
  bytes : assembler.bytes = initial.bytes + weigh kept
  fresh : kept = [] → assembler = initial ∧ assembler.pending.lookup packet.key = none
  present : kept ≠ [] → (assembler.pending.lookup packet.key).isSome
  total : ∀ now, (assembler.entryOf now packet.key packet.total packet.target).total =
    packet.total
  target : ∀ now, (assembler.entryOf now packet.key packet.total packet.target).target =
    packet.target
  entries : ∀ now,
    (assembler.entryOf now packet.key packet.total packet.target).fragments.entries.Perm kept

theorem holds_nil (sound : assembler.Sound)
    (vacant : assembler.pending.lookup packet.key = none) :
    assembler.Holds packet [] assembler where
  sound := sound
  bytes := rfl
  fresh := fun _ => ⟨rfl, vacant⟩
  present := fun some => absurd rfl some
  total := fun now => by rw [entryOf_of_absent vacant]
  target := fun now => by rw [entryOf_of_absent vacant]
  entries := fun now => by
    rw [entryOf_of_absent vacant]
    exact List.Perm.refl _

namespace Holds

variable {initial : FragAssembler κ} {arrival : Nat × Byte × List Byte}

/-- Only the first fragment needs a free entry, and every one needs room. -/
theorem refuses_iff (holds : initial.Holds packet kept assembler) (payload : List Byte) :
    assembler.Refuses packet.key payload ↔
      (kept = [] ∧ MAX_PENDING_FRAGMENTS ≤ initial.pending.size) ∨
        MAX_PENDING_BYTES < initial.bytes + weigh kept + payload.length := by
  rw [Refuses, holds.bytes]
  apply or_congr_left
  by_cases empty : kept = []
  · rcases holds.fresh empty with ⟨rfl, vacant⟩
    rw [vacant]
    exact and_congr_left' (iff_of_true rfl empty)
  · have present := Option.isNone_eq_false_iff.mpr (holds.present empty)
    rw [present]
    exact iff_of_false (fun both => Bool.noConfusion both.1) (fun both => empty both.1)

theorem stored_entries (holds : initial.Holds packet kept assembler)
    (other : ∀ fragment ∈ kept, fragment.1 ≠ arrival.2.1) :
    (assembler.storedEntry arrival.1 packet.key arrival.2.1 packet.total packet.target
      arrival.2.2).fragments.entries.Perm (arrival.2 :: kept) := by
  have entries := holds.entries arrival.1
  have vacant : (assembler.entryOf arrival.1 packet.key packet.total
      packet.target).fragments.get? arrival.2.1 = none :=
    OrderedMap.get?_eq_none_iff.mpr fun fragment member =>
      other fragment (entries.mem_iff.mp member)
  exact (OrderedMap.insert_perm vacant arrival.2.2).trans (entries.cons arrival.2)

theorem held_eq_weigh {entry : PendingFragment} (entries : entry.fragments.entries.Perm kept) :
    entry.held = weigh kept := by
  have same := entries.map fun fragment : Byte × List Byte => fragment.2.length
  exact same.sum_nat

section

variable (holds : initial.Holds packet kept assembler)
  (other : ∀ fragment ∈ kept, fragment.1 ≠ arrival.2.1)

include holds other

theorem stored_bytes {after : FragAssembler κ} (sound : after.Sound)
    (pending : after.pending = assembler.pending.insert packet.key
      (assembler.storedEntry arrival.1 packet.key arrival.2.1 packet.total packet.target
        arrival.2.2)) :
    after.bytes = initial.bytes + weigh (arrival.2 :: kept) := by
  have before := held_eq_weigh (holds.entries arrival.1)
  have stored := held_eq_weigh (holds.stored_entries other)
  have inserted := assembler.held_insert arrival.1 packet.key packet.total packet.target
    (assembler.storedEntry arrival.1 packet.key arrival.2.1 packet.total packet.target arrival.2.2)
  have counted : after.bytes = _ := sound.counted.trans (congrArg (Table.total _) pending)
  rw [before, stored, ← counted, ← holds.sound.counted, holds.bytes] at inserted
  omega

theorem complete_iff (fewer : kept.length < packet.fragments.length) :
    (assembler.storedEntry arrival.1 packet.key arrival.2.1 packet.total packet.target
      arrival.2.2).Complete ↔ kept.length + 1 = packet.fragments.length := by
  have few := packet.few
  have stored := (holds.stored_entries other).length_eq
  have total : (assembler.storedEntry arrival.1 packet.key arrival.2.1 packet.total
      packet.target arrival.2.2).total = packet.total := holds.total arrival.1
  rw [PendingFragment.Complete, total, stored, List.length_cons, Packet.total, BitVec.le_def,
    BitVec.toNat_ofNat, BitVec.toNat_ofNat, Nat.mod_eq_of_lt (by omega), Nat.mod_eq_of_lt (by omega)]
  constructor
  · intro enough
    exact Nat.le_antisymm fewer enough
  · exact fun all => Nat.le_of_eq all.symm

theorem step (fewer : kept.length < packet.fragments.length) :
    ∃ answer after,
      assembler.add arrival.1 packet.key arrival.2.1 packet.total packet.target arrival.2.2 =
        some (answer, after) ∧
      ((assembler.Refuses packet.key arrival.2.2 ∧ answer = none ∧ after = assembler) ∨
        (¬ assembler.Refuses packet.key arrival.2.2 ∧
          kept.length + 1 < packet.fragments.length ∧ answer = none ∧
          initial.Holds packet (arrival.2 :: kept) after) ∨
        (¬ assembler.Refuses packet.key arrival.2.2 ∧
          kept.length + 1 = packet.fragments.length ∧
          ((arrival.2 :: kept).Perm (numbered packet.fragments) →
            answer = some (packet.target, packet.data)))) := by
  rcases add_spec holds.sound arrival.1 packet.key arrival.2.1 packet.total packet.target
    arrival.2.2 with ⟨answer, after, added, sound, adds⟩
  refine ⟨answer, after, added, ?_⟩
  have stored := holds.stored_entries other
  have target : (assembler.storedEntry arrival.1 packet.key arrival.2.1 packet.total
      packet.target arrival.2.2).target = packet.target := holds.target arrival.1
  cases adds with
  | refused refused => exact Or.inl ⟨refused, rfl, rfl⟩
  | completed admitted complete _ =>
      refine Or.inr (Or.inr ⟨admitted, (holds.complete_iff other fewer).mp complete, fun all => ?_⟩)
      have listed : (assembler.storedEntry arrival.1 packet.key arrival.2.1 packet.total
          packet.target arrival.2.2).fragments.entries = numbered packet.fragments :=
        (stored.trans all).eq_of_pairwise
          (fun first second _ _ less greater => absurd (trans_of (· < ·) less greater)
            (irrefl_of (· < ·) first.1))
          (OrderedMap.sorted _) (numbered_pairwise (Nat.le_succ_of_le packet.few))
      rw [target, PendingFragment.payload, listed, flatMap_numbered, Packet.data]
  | stored admitted incomplete pending =>
      have notLast := mt (holds.complete_iff other fewer).mpr incomplete
      refine Or.inr (Or.inl ⟨admitted, Nat.lt_of_le_of_ne fewer notLast, rfl, ?_⟩)
      have found : after.pending.lookup packet.key = some (assembler.storedEntry arrival.1
          packet.key arrival.2.1 packet.total packet.target arrival.2.2) := by
        rw [pending, AList.lookup_insert]
      exact {
        sound := sound
        bytes := holds.stored_bytes other sound pending
        fresh := fun empty => absurd empty (List.cons_ne_nil _ _)
        present := fun _ => by rw [found]; rfl
        total := fun now => by rw [entryOf_of_lookup found]; exact holds.total arrival.1
        target := fun now => by rw [entryOf_of_lookup found]; exact target
        entries := fun now => by rw [entryOf_of_lookup found]; exact stored }

end

omit [DecidableEq κ] in
theorem other_of_nodup {rest : List (Nat × Byte × List Byte)}
    (distinct : ((kept ++ (arrival :: rest).map Prod.snd).map Prod.fst).Nodup) :
    (∀ fragment ∈ kept, fragment.1 ≠ arrival.2.1) ∧
      ((kept ++ rest.map Prod.snd).map Prod.fst).Nodup ∧
      ((arrival.2 :: kept ++ rest.map Prod.snd).map Prod.fst).Nodup := by
  have moved : (kept ++ (arrival :: rest).map Prod.snd).Perm
      (arrival.2 :: kept ++ rest.map Prod.snd) := List.perm_middle
  have distinct' := (moved.map Prod.fst).nodup_iff.mp distinct
  have apart := List.nodup_cons.mp distinct'
  refine ⟨fun fragment member same => apart.1 ?_, apart.2, distinct'⟩
  rw [← same]
  exact List.mem_map_of_mem (List.mem_append_left _ member)

theorem answers_of_lost {rest : List (Nat × Byte × List Byte)}
    (holds : initial.Holds packet kept assembler)
    (distinct : ((kept ++ rest.map Prod.snd).map Prod.fst).Nodup)
    (lost : kept.length + rest.length < packet.fragments.length) :
    (assembler.addAll (rest.map packet.call)).map Prod.fst =
      some (List.replicate rest.length none) := by
  induction rest generalizing kept assembler with
  | nil => rfl
  | cons arrival rest ih =>
      rcases other_of_nodup distinct with ⟨other, without, behind⟩
      rw [List.length_cons] at lost
      rcases holds.step other (by omega) with ⟨answer, after, added, refused | stored | complete⟩
      · rcases refused with ⟨_, rfl, rfl⟩
        rw [List.map_cons, addAll_cons added, ih holds without (by omega)]
        rfl
      · rcases stored with ⟨_, _, rfl, holds'⟩
        rw [List.map_cons, addAll_cons added,
          ih holds' behind (by rw [List.length_cons]; omega)]
        rfl
      · exact absurd complete.2.1 (by omega)

omit [DecidableEq κ] in
theorem replicate_none_ne {count : Nat} {before : List (Option (TargetAddr × List Byte))}
    {result : TargetAddr × List Byte} :
    List.replicate count none ≠ before ++ [some result] := by
  intro same
  have member : some result ∈ List.replicate count (none : Option (TargetAddr × List Byte)) := by
    rw [same]
    exact List.mem_append_right _ List.mem_cons_self
  cases List.eq_of_mem_replicate member

omit [DecidableEq κ] in
theorem map_cons_none_eq_iff {rest : List (Nat × Byte × List Byte)} (more : rest ≠ [])
    {answers : Option (List (Option (TargetAddr × List Byte)))}
    {result : TargetAddr × List Byte} :
    answers.map (none :: ·) = some (List.replicate rest.length none ++ [some result]) ↔
      answers = some (List.replicate (rest.length - 1) none ++ [some result]) := by
  cases rest with
  | nil => exact absurd rfl more
  | cons arrival rest =>
      cases answers with
      | none => simp
      | some answers => simp [List.replicate_succ]

/-- The packet is returned exactly when there is room for every fragment. -/
theorem answers_iff {rest : List (Nat × Byte × List Byte)}
    (holds : initial.Holds packet kept assembler) (more : rest ≠ [])
    (all : (kept ++ rest.map Prod.snd).Perm (numbered packet.fragments)) :
    (assembler.addAll (rest.map packet.call)).map Prod.fst =
        some (List.replicate (rest.length - 1) none ++
          [some (packet.target, packet.data)]) ↔
      (kept = [] → initial.pending.size < MAX_PENDING_FRAGMENTS) ∧
        initial.bytes + weigh kept + weigh (rest.map Prod.snd) ≤ MAX_PENDING_BYTES := by
  induction rest generalizing kept assembler with
  | nil => exact absurd rfl more
  | cons arrival rest ih =>
      have count := all.length_eq
      rw [length_numbered, List.length_append, List.length_map, List.length_cons] at count
      have ids := numbered_pairwise (Nat.le_succ_of_le packet.few)
      have distinct : ((numbered packet.fragments).map Prod.fst).Nodup :=
        List.pairwise_map.mpr (ids.imp fun less => BitVec.ne_of_lt less)
      rcases other_of_nodup ((all.map Prod.fst).nodup_iff.mpr distinct) with
        ⟨other, without, behind⟩
      have weight : weigh ((arrival :: rest).map Prod.snd) =
          arrival.2.2.length + weigh (rest.map Prod.snd) := rfl
      have refuses := holds.refuses_iff arrival.2.2
      rcases holds.step other (by omega) with ⟨answer, after, added, refused | stored | complete⟩
      · rcases refused with ⟨refused, rfl, rfl⟩
        rw [List.map_cons, addAll_cons added, holds.answers_of_lost without (by omega)]
        apply iff_of_false
        · intro returned
          exact @replicate_none_ne (rest.length + 1) _ _ (Option.some.inj returned)
        · rintro ⟨room, within⟩
          rcases refuses.mp refused with ⟨empty, full⟩ | large
          · exact absurd (room empty) (Nat.not_lt.mpr full)
          · omega
      · rcases stored with ⟨admitted, fewer, rfl, holds'⟩
        rw [refuses, not_or, not_and] at admitted
        have moved : (kept ++ (arrival :: rest).map Prod.snd).Perm
            (arrival.2 :: kept ++ rest.map Prod.snd) := List.perm_middle
        have behind : rest ≠ [] := List.ne_nil_of_length_pos (by omega)
        have weight' : weigh (arrival.2 :: kept) = arrival.2.2.length + weigh kept := rfl
        rw [List.map_cons, addAll_cons added, List.length_cons, Nat.add_sub_cancel,
          map_cons_none_eq_iff behind, ih holds' behind (moved.symm.trans all), weight, weight']
        constructor
        · rintro ⟨_, within⟩
          exact ⟨fun empty => Nat.lt_of_not_le (admitted.1 empty), by omega⟩
        · rintro ⟨_, within⟩
          exact ⟨fun empty => absurd empty (List.cons_ne_nil _ _), by omega⟩
      · rcases complete with ⟨admitted, last, returned⟩
        rw [refuses, not_or, not_and] at admitted
        have none : rest = [] := List.length_eq_zero_iff.mp (by omega)
        subst none
        have moved : (kept ++ [arrival].map Prod.snd).Perm (arrival.2 :: kept) :=
          List.perm_append_singleton _ _
        rw [List.map_cons, addAll_cons added, returned (moved.symm.trans all), weight]
        apply iff_of_true rfl
        exact ⟨fun empty => Nat.lt_of_not_le (admitted.1 empty), Nat.le_of_not_lt admitted.2⟩

end Holds

omit [DecidableEq κ] in
theorem weigh_numbered (fragments : List (List Byte)) :
    weigh (numbered fragments) = fragments.flatten.length := by
  have carried : (numbered fragments).map (fun fragment => fragment.2.length) =
      fragments.map List.length := by
    have lengths : (fragments.zipIdx.map Prod.fst).map List.length = fragments.map List.length :=
      congrArg _ (List.zipIdx_map_fst 0 fragments)
    rw [List.map_map] at lengths
    rw [numbered, List.map_map]
    exact lengths
  rw [weigh, carried, List.length_flatten]

omit [DecidableEq κ] in
theorem weigh_arrivals (packet : Arriving κ) :
    weigh (packet.arrivals.map Prod.snd) = packet.data.length := by
  have same := packet.arrive.map fun fragment : Byte × List Byte => fragment.2.length
  exact same.sum_nat.trans (weigh_numbered packet.fragments)

omit [DecidableEq κ] in
theorem length_arrivals (packet : Arriving κ) :
    packet.arrivals.length = packet.fragments.length := by
  have same := packet.arrive.length_eq
  rwa [List.length_map, length_numbered] at same

/-- Under a key with nothing pending a packet comes through exactly when there
is an entry and room for it beside what is pending. -/
theorem reassembles_of_vacant_iff (sound : assembler.Sound)
    (vacant : assembler.pending.lookup packet.key = none) :
    assembler.Reassembles packet ↔
      assembler.pending.size < MAX_PENDING_FRAGMENTS ∧
        assembler.bytes + packet.data.length ≤ MAX_PENDING_BYTES := by
  have some : packet.arrivals ≠ [] := by
    apply List.ne_nil_of_length_pos
    rw [length_arrivals]
    exact List.length_pos_iff.mpr packet.nonempty
  have exact' := (holds_nil sound vacant).answers_iff some packet.arrive
  rw [length_arrivals, weigh_arrivals] at exact'
  exact exact'.trans (and_congr_left' (imp_iff_right rfl))

theorem not_returned_of_pending {arrivals : List (Nat × Byte × List Byte)}
    {entry : PendingFragment} {count : Nat} (sound : assembler.Sound)
    (present : assembler.pending.lookup packet.key = some entry)
    (different : entry.target ≠ packet.target) (data : List Byte) :
    (assembler.addAll (arrivals.map packet.call)).map Prod.fst ≠
      some (List.replicate count none ++ [some (packet.target, data)]) := by
  induction arrivals generalizing assembler entry count with
  | nil =>
      intro returned
      exact absurd (Option.some.inj returned).symm (by simp)
  | cons arrival arrivals ih =>
      rcases add_spec sound arrival.1 packet.key arrival.2.1 packet.total packet.target
        arrival.2.2 with ⟨answer, after, added, soundAfter, adds⟩
      have target : (assembler.storedEntry arrival.1 packet.key arrival.2.1 packet.total
          packet.target arrival.2.2).target = entry.target := by
        rw [← entryOf_of_lookup present arrival.1 packet.total packet.target]
        rfl
      rw [List.map_cons, addAll_cons added]
      intro returned
      rcases Option.map_eq_some_iff.mp returned with ⟨answers, later, same⟩
      cases count with
      | zero =>
          have answered := (List.cons_eq_cons.mp same).1
          cases adds with
          | refused _ => cases answered
          | completed _ _ _ =>
              exact different
                (target.symm.trans (congrArg Prod.fst (Option.some.inj answered)))
          | stored _ _ _ => cases answered
      | succ count =>
          rcases List.cons_eq_cons.mp same with ⟨rfl, rfl⟩
          cases adds with
          | refused _ => exact ih sound present different later
          | stored _ _ pending =>
              refine ih soundAfter (by rw [pending, AList.lookup_insert]) ?_ later
              rwa [target]

/-- A packet of one empty fragment. -/
def singlePacket (key : κ) (target : TargetAddr) : Arriving κ where
  key := key
  target := target
  fragments := [[]]
  arrivals := [(0, 0, [])]
  nonempty := List.cons_ne_nil _ _
  few := by decide
  arrive := List.Perm.refl _

theorem exists_ne_target (target : TargetAddr) : ∃ other : TargetAddr, target ≠ other := by
  by_cases same : target = .domain "" 0
  · exact ⟨.domain "" 1, fun equal => by rw [same] at equal; cases equal⟩
  · exact ⟨.domain "" 0, same⟩

/-- Every packet within the byte bound comes through exactly when nothing is
pending. -/
theorem reassembles_all_iff (sound : assembler.Sound) :
    (∀ packet : Arriving κ, packet.data.length ≤ MAX_PENDING_BYTES → assembler.Reassembles packet) ↔
      assembler.pending.size = 0 := by
  constructor
  · intro all
    apply Nat.eq_zero_of_not_pos
    intro some
    rcases List.exists_mem_of_length_pos some with ⟨⟨key, entry⟩, member⟩
    rcases exists_ne_target entry.target with ⟨other, different⟩
    have present : assembler.pending.lookup (singlePacket key other).key = Option.some entry :=
      AList.mem_lookup_iff.mpr member
    exact not_returned_of_pending sound present different []
      (all (singlePacket key other) (Nat.zero_le _))
  · intro empty packet fits
    have nothing : assembler.pending.entries = [] := List.length_eq_zero_iff.mp empty
    have vacant : assembler.pending.lookup packet.key = none := by
      rw [AList.lookup_eq_none, AList.mem_keys, AList.keys, nothing]
      exact List.not_mem_nil
    have bytes : assembler.bytes = 0 := by
      rw [sound.counted, FragAssembler.held, Table.total, nothing]
      rfl
    rw [reassembles_of_vacant_iff sound vacant, empty, bytes, Nat.zero_add]
    exact ⟨by decide, fits⟩

/-- Whatever was called before, the counter is right and both bounds hold; and
whatever time has passed since, a packet under a key with nothing pending comes
through exactly when an entry and room for it are left, and every packet does
exactly when nothing is pending. -/
theorem reassembles_after_calls_iff (calls : List (Call κ)) :
    ∃ answers assembler,
      (new : FragAssembler κ).addAll calls = some (answers, assembler) ∧
      assembler.bytes = assembler.held ∧
      assembler.bytes ≤ MAX_PENDING_BYTES ∧
      assembler.pending.size ≤ MAX_PENDING_FRAGMENTS ∧
      (∀ packet : Arriving κ, assembler.pending.lookup packet.key = none →
        (assembler.Reassembles packet ↔
          assembler.pending.size < MAX_PENDING_FRAGMENTS ∧
            assembler.bytes + packet.data.length ≤ MAX_PENDING_BYTES)) ∧
      ((∀ packet : Arriving κ, packet.data.length ≤ MAX_PENDING_BYTES → assembler.Reassembles packet) ↔
        assembler.pending.size = 0) := by
  rcases addAll_sound new_sound calls with ⟨answers, assembler, run, sound⟩
  exact ⟨answers, assembler, run, sound.counted, sound.bytes_le, sound.size_le,
    fun packet vacant => reassembles_of_vacant_iff sound vacant, reassembles_all_iff sound⟩

/-- The first of two fragments of 64 packets of one session, at the start. -/
def lostPackets : List (Call (BitVec 32 × BitVec 16)) :=
  (List.range 64).map fun packetId =>
    ⟨0, (1, BitVec.ofNat 16 packetId), 0, 2, .domain "example.com" 53, [0x61]⟩

/-- A packet of two fragments, twenty seconds later. -/
def latePacket : Arriving (BitVec 32 × BitVec 16) where
  key := (1, 64)
  target := .domain "example.com" 53
  fragments := [[0x62], [0x63]]
  arrivals := [(2 * FRAGMENT_TTL, 0, [0x62]), (2 * FRAGMENT_TTL, 1, [0x63])]
  nonempty := List.cons_ne_nil _ _
  few := by decide
  arrive := List.Perm.refl _

/-- When 64 packets have lost a fragment, no packet comes through after them,
however old they are. -/
theorem late_packet_not_reassembled :
    ∃ answers assembler,
      (new : FragAssembler (BitVec 32 × BitVec 16)).addAll lostPackets = some (answers, assembler) ∧
      (∀ entry ∈ assembler.pending.entries,
        ∀ arrival ∈ latePacket.arrivals, entry.2.received + FRAGMENT_TTL < arrival.1) ∧
      assembler.pending.lookup latePacket.key = none ∧
      latePacket.data.length ≤ MAX_PENDING_BYTES ∧ ¬ assembler.Reassembles latePacket := by
  rcases addAll_sound new_sound lostPackets with ⟨answers, assembler, run, _⟩
  have facts : ((new : FragAssembler (BitVec 32 × BitVec 16)).addAll lostPackets).map
      (fun result => decide ((∀ entry ∈ result.2.pending.entries,
        ∀ arrival ∈ latePacket.arrivals, entry.2.received + FRAGMENT_TTL < arrival.1) ∧
      result.2.pending.lookup latePacket.key = none ∧
      latePacket.data.length ≤ MAX_PENDING_BYTES ∧ ¬ result.2.Reassembles latePacket)) = some true := by
    decide +kernel
  rw [run] at facts
  exact ⟨answers, assembler, run, of_decide_eq_true (Option.some.inj facts)⟩

end FragAssembler

end Corduit.Engine.Outbound
