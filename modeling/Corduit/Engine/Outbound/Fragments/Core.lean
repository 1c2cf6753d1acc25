import Corduit.Collection.OrderedMap
import Corduit.Collection.Table
import Corduit.Netstack.Packet.Core

/-!
# Fragmented relay packets

TUIC and Hysteria2 cut a UDP payload that does not fit a datagram into
fragments, and both collect the fragments of a payload under a key: the
association with TUIC, the session and a packet number with Hysteria2.  Apart
from the key the two buffers are the same code.

A subtraction below zero stops the program, and is `none`; the clock counts
nanoseconds.
-/

namespace Corduit.Engine.Outbound

open Collection Netstack Word

/-- Where a packet goes. -/
inductive TargetAddr where
  | domain (domain : String) (port : BitVec 16)
  | ip (addr : SocketAddr)
deriving DecidableEq, Repr

/-- How long fragments wait. -/
def FRAGMENT_TTL : Nat :=
  10 * 1000000000

/-- The most packets that wait. -/
def MAX_PENDING_FRAGMENTS : Nat :=
  64

/-- The most bytes that wait. -/
def MAX_PENDING_BYTES : Nat :=
  4 * 1024 * 1024

/-- The fragments of a payload with their numbers, each cast to a byte. -/
def numbered (fragments : List (List Byte)) : List (Byte × List Byte) :=
  fragments.zipIdx.map fun entry => (BitVec.ofNat 8 entry.2, entry.1)

@[simp]
theorem length_numbered (fragments : List (List Byte)) :
    (numbered fragments).length = fragments.length := by
  simp [numbered]

theorem flatMap_numbered (fragments : List (List Byte)) :
    (numbered fragments).flatMap Prod.snd = fragments.flatten := by
  have carried : fragments.zipIdx.flatMap Prod.fst = fragments.flatten := by
    rw [List.flatMap_def, List.zipIdx_map_fst]
  rw [numbered, List.flatMap_map]
  exact carried

theorem numbered_pairwise {fragments : List (List Byte)} (few : fragments.length ≤ 256) :
    (numbered fragments).Pairwise fun first second => first.1 < second.1 := by
  have increasing : (fragments.zipIdx.map Prod.snd).Pairwise (· < ·) := by
    rw [List.zipIdx_map_snd]
    exact List.pairwise_lt_range'
  rw [List.pairwise_map] at increasing
  rw [numbered, List.pairwise_map]
  apply increasing.imp_of_mem
  intro first second firstMem secondMem less
  have firstLess := List.snd_lt_of_mem_zipIdx firstMem
  have secondLess := List.snd_lt_of_mem_zipIdx secondMem
  rw [BitVec.lt_def, BitVec.toNat_ofNat, BitVec.toNat_ofNat,
    Nat.mod_eq_of_lt (Nat.lt_of_lt_of_le firstLess few),
    Nat.mod_eq_of_lt (Nat.lt_of_lt_of_le secondLess few)]
  exact less

/-- A packet: what it is kept under, its target and its fragments in order. -/
structure Packet (κ : Type) where
  key : κ
  target : TargetAddr
  fragments : List (List Byte)
  nonempty : fragments ≠ []
  few : fragments.length ≤ 255

namespace Packet

variable {κ : Type}

/-- The payload. -/
def data (packet : Packet κ) : List Byte :=
  packet.fragments.flatten

/-- The number of fragments as they carry it. -/
def total (packet : Packet κ) : Byte :=
  BitVec.ofNat 8 packet.fragments.length

theorem toNat_total (packet : Packet κ) : packet.total.toNat = packet.fragments.length := by
  rw [total, BitVec.toNat_ofNat, Nat.mod_eq_of_lt (Nat.lt_succ_of_le packet.few)]

end Packet

/-- `PendingFragment` and `PendingTuicFragment`: the fragment count, the
fragments, the target and when the last of them came. -/
structure PendingFragment where
  total : Byte
  fragments : OrderedMap Byte (List Byte)
  target : TargetAddr
  received : Nat

namespace PendingFragment

/-- The payload bytes of the fragments. -/
def held (entry : PendingFragment) : Nat :=
  entry.fragments.weight List.length

/-- The fragments, one after the other. -/
def payload (entry : PendingFragment) : List Byte :=
  entry.fragments.entries.flatMap Prod.snd

/-- Insert a fragment. -/
def store (entry : PendingFragment) (now : Nat) (fragId : Byte) (payload : List Byte) :
    PendingFragment :=
  { entry with fragments := entry.fragments.insert fragId payload, received := now }

/-- There are as many fragments as the count says; the number of fragments is
cast to a byte. -/
def Complete (entry : PendingFragment) : Prop :=
  entry.total ≤ BitVec.ofNat 8 entry.fragments.entries.length

instance (entry : PendingFragment) : Decidable entry.Complete :=
  inferInstanceAs (Decidable (_ ≤ _))

end PendingFragment

/-- `FragAssembler` and `TuicFragAssembler`. -/
structure FragAssembler (κ : Type) where
  pending : Table κ PendingFragment
  bytes : Nat

namespace FragAssembler

variable {κ : Type}

/-- Nothing is pending. -/
def new : FragAssembler κ :=
  ⟨∅, 0⟩

/-- The sum of the payload bytes that are pending. -/
def held (assembler : FragAssembler κ) : Nat :=
  assembler.pending.total fun _ entry => entry.held

variable [DecidableEq κ]

/-- Drop what has expired, once there are too many entries. -/
def prune (assembler : FragAssembler κ) (now : Nat) : Option (FragAssembler κ) :=
  if 64 < assembler.pending.size then do
    let cutoff ← checkedSub now FRAGMENT_TTL
    let pending := assembler.pending.eraseAll
      (assembler.pending.keysWhere fun _ entry => ¬ cutoff < entry.received)
    return ⟨pending, pending.total fun _ entry => entry.held⟩
  else
    return assembler

/-- The entry that a fragment goes to. -/
def entryOf (assembler : FragAssembler κ) (now : Nat) (key : κ) (fragTotal : Byte)
    (target : TargetAddr) : PendingFragment :=
  (assembler.pending.lookup key).getD ⟨fragTotal, OrderedMap.empty, target, now⟩

/-- The bytes that are pending without the fragment that another replaces. -/
def bytesWithout (assembler : FragAssembler κ) (entry : PendingFragment) (fragId : Byte) :
    Option Nat :=
  match entry.fragments.get? fragId with
  | some previous => checkedSub assembler.bytes previous.length
  | none => some assembler.bytes

/-- A fragment that neither bound keeps out. -/
def insert (assembler : FragAssembler κ) (now : Nat) (key : κ) (fragId fragTotal : Byte)
    (target : TargetAddr) (payload : List Byte) :
    Option (Option (TargetAddr × List Byte) × FragAssembler κ) := do
  let entry := assembler.entryOf now key fragTotal target
  let without ← assembler.bytesWithout entry fragId
  let bytes := without + payload.length
  let entry := entry.store now fragId payload
  if entry.Complete then
    let bytes ← checkedSub bytes entry.held
    return (some (entry.target, entry.payload), ⟨assembler.pending.erase key, bytes⟩)
  else
    return (none, ⟨assembler.pending.insert key entry, bytes⟩)

/-- Take in a fragment. -/
def add (assembler : FragAssembler κ) (now : Nat) (key : κ) (fragId fragTotal : Byte)
    (target : TargetAddr) (payload : List Byte) :
    Option (Option (TargetAddr × List Byte) × FragAssembler κ) := do
  let assembler ← assembler.prune now
  if (assembler.pending.lookup key).isNone ∧ MAX_PENDING_FRAGMENTS ≤ assembler.pending.size then
    return (none, assembler)
  else if MAX_PENDING_BYTES < assembler.bytes + payload.length then
    return (none, assembler)
  else
    assembler.insert now key fragId fragTotal target payload

end FragAssembler

/-!
# The bounds of the fragment buffers

The byte counter is the number of bytes that are pending, and neither the
counter nor the number of pending sets leaves its bound: the buffer is pruned
when it holds more than 64 sets, and it never does.
-/

namespace PendingFragment

/-- The number of bytes that a fragment replaces. -/
def replaced (entry : PendingFragment) (fragId : Byte) : Nat :=
  ((entry.fragments.get? fragId).map List.length).getD 0

theorem held_store (entry : PendingFragment) (now : Nat) (fragId : Byte) (payload : List Byte) :
    (entry.store now fragId payload).held + entry.replaced fragId =
      entry.held + payload.length := by
  unfold replaced
  cases present : entry.fragments.get? fragId with
  | none =>
      have added := OrderedMap.weight_insert List.length present payload
      exact (added.trans (Nat.add_comm _ _))
  | some previous => exact OrderedMap.weight_insert_of_present List.length present payload

theorem replaced_le_held (entry : PendingFragment) (fragId : Byte) :
    entry.replaced fragId ≤ entry.held := by
  unfold replaced
  cases present : entry.fragments.get? fragId with
  | none => exact Nat.zero_le _
  | some previous => exact OrderedMap.le_weight List.length _ (OrderedMap.mem_of_get? present)

end PendingFragment

namespace FragAssembler

variable {κ : Type} [DecidableEq κ]

/-- The counter counts what is pending, and both bounds hold. -/
structure Sound (assembler : FragAssembler κ) : Prop where
  counted : assembler.bytes = assembler.held
  bytes_le : assembler.bytes ≤ MAX_PENDING_BYTES
  size_le : assembler.pending.size ≤ MAX_PENDING_FRAGMENTS

/-- One of the bounds keeps a fragment out. -/
def Refuses (assembler : FragAssembler κ) (key : κ) (payload : List Byte) : Prop :=
  ((assembler.pending.lookup key).isNone ∧ MAX_PENDING_FRAGMENTS ≤ assembler.pending.size) ∨
    MAX_PENDING_BYTES < assembler.bytes + payload.length

instance (assembler : FragAssembler κ) (key : κ) (payload : List Byte) :
    Decidable (assembler.Refuses key payload) :=
  inferInstanceAs (Decidable ((_ ∧ _) ∨ _))

/-- The entry of a fragment after the fragment. -/
def storedEntry (assembler : FragAssembler κ) (now : Nat) (key : κ) (fragId fragTotal : Byte)
    (target : TargetAddr) (payload : List Byte) : PendingFragment :=
  (assembler.entryOf now key fragTotal target).store now fragId payload

/-- What a fragment does to the buffer, the counter apart. -/
inductive Adds (assembler : FragAssembler κ) (now : Nat) (key : κ) (fragId fragTotal : Byte)
    (target : TargetAddr) (payload : List Byte) :
    Option (TargetAddr × List Byte) → FragAssembler κ → Prop
  | refused (refused : assembler.Refuses key payload) :
      Adds assembler now key fragId fragTotal target payload none assembler
  | completed {after : FragAssembler κ} (admitted : ¬ assembler.Refuses key payload)
      (complete : (assembler.storedEntry now key fragId fragTotal target payload).Complete)
      (pending : after.pending = assembler.pending.erase key) :
      Adds assembler now key fragId fragTotal target payload
        (some ((assembler.storedEntry now key fragId fragTotal target payload).target,
          (assembler.storedEntry now key fragId fragTotal target payload).payload)) after
  | stored {after : FragAssembler κ} (admitted : ¬ assembler.Refuses key payload)
      (incomplete : ¬ (assembler.storedEntry now key fragId fragTotal target payload).Complete)
      (pending : after.pending = assembler.pending.insert key
        (assembler.storedEntry now key fragId fragTotal target payload)) :
      Adds assembler now key fragId fragTotal target payload none after

omit [DecidableEq κ] in
theorem new_sound : (new : FragAssembler κ).Sound :=
  ⟨rfl, Nat.zero_le _, Nat.zero_le _⟩

variable {assembler : FragAssembler κ} {now : Nat} {key : κ} {fragId fragTotal : Byte}
  {target : TargetAddr} {payload : List Byte}

theorem prune_of_sound (sound : assembler.Sound) (now : Nat) :
    assembler.prune now = some assembler :=
  if_neg (Nat.not_lt.mpr sound.size_le)

theorem entryOf_of_lookup {entry : PendingFragment} (present : assembler.pending.lookup key = some entry)
    (now : Nat) (fragTotal : Byte) (target : TargetAddr) :
    assembler.entryOf now key fragTotal target = entry := by
  rw [entryOf, present]
  rfl

theorem entryOf_of_absent (absent : assembler.pending.lookup key = none)
    (now : Nat) (fragTotal : Byte) (target : TargetAddr) :
    assembler.entryOf now key fragTotal target = ⟨fragTotal, OrderedMap.empty, target, now⟩ := by
  rw [entryOf, absent]
  rfl

section

variable (assembler : FragAssembler κ) (now : Nat) (key : κ) (fragTotal : Byte)
  (target : TargetAddr)

theorem held_erase :
    Table.total (fun _ entry => entry.held) (assembler.pending.erase key) +
        (assembler.entryOf now key fragTotal target).held = assembler.held := by
  cases present : assembler.pending.lookup key with
  | none =>
      have same : assembler.pending.erase key = assembler.pending :=
        AList.ext (List.kerase_of_notMem_keys (AList.lookup_eq_none.mp present))
      rw [entryOf_of_absent present, same]
      rfl
  | some entry =>
      rw [entryOf_of_lookup present]
      exact Table.total_erase_of_present (fun _ entry => entry.held) present

theorem held_insert (entry : PendingFragment) :
    Table.total (fun _ entry => entry.held) (assembler.pending.insert key entry) +
        (assembler.entryOf now key fragTotal target).held = assembler.held + entry.held := by
  cases present : assembler.pending.lookup key with
  | none =>
      rw [entryOf_of_absent present]
      exact (Table.total_insert_of_absent (fun _ entry => entry.held) present entry).trans
        (Nat.add_comm _ _)
  | some old =>
      rw [entryOf_of_lookup present]
      exact Table.total_insert_of_present (fun _ entry => entry.held) present entry

theorem entryOf_held_le : (assembler.entryOf now key fragTotal target).held ≤ assembler.held :=
  Nat.le.intro ((Nat.add_comm _ _).trans (assembler.held_erase now key fragTotal target))

end

theorem bytesWithout_eq (sound : assembler.Sound) (now : Nat) (key : κ) (fragTotal : Byte)
    (target : TargetAddr) (fragId : Byte) :
    assembler.bytesWithout (assembler.entryOf now key fragTotal target) fragId =
      some (assembler.bytes - (assembler.entryOf now key fragTotal target).replaced fragId) := by
  have enough := Nat.le_trans
    ((assembler.entryOf now key fragTotal target).replaced_le_held fragId)
    (assembler.entryOf_held_le now key fragTotal target)
  rw [← sound.counted] at enough
  unfold bytesWithout
  unfold PendingFragment.replaced at enough ⊢
  cases present : (assembler.entryOf now key fragTotal target).fragments.get? fragId with
  | none => rfl
  | some previous =>
      rw [present] at enough
      exact checkedSub_of_le enough

theorem size_insert_le_of_admitted (sound : assembler.Sound)
    (admitted : ¬ assembler.Refuses key payload) (entry : PendingFragment) :
    Table.size (assembler.pending.insert key entry) ≤ MAX_PENDING_FRAGMENTS := by
  cases present : assembler.pending.lookup key with
  | none =>
      have room : ¬ MAX_PENDING_FRAGMENTS ≤ assembler.pending.size := fun full =>
        admitted (Or.inl ⟨by rw [present]; rfl, full⟩)
      rw [Table.size_insert_of_absent present]
      exact Nat.lt_of_not_le room
  | some old =>
      rw [Table.size_insert_of_present present]
      exact sound.size_le

/-- No fragment stops the program, and none breaks a bound. -/
theorem add_spec (sound : assembler.Sound) (now : Nat) (key : κ) (fragId fragTotal : Byte)
    (target : TargetAddr) (payload : List Byte) :
    ∃ answer after,
      assembler.add now key fragId fragTotal target payload = some (answer, after) ∧
        after.Sound ∧ assembler.Adds now key fragId fragTotal target payload answer after := by
  have pruned : assembler.add now key fragId fragTotal target payload = _ :=
    congrArg (· >>= _) (prune_of_sound sound now)
  by_cases refused : assembler.Refuses key payload
  · refine ⟨none, assembler, ?_, sound, Adds.refused refused⟩
    rw [pruned]
    rcases refused with full | large
    · exact if_pos full
    · by_cases full : (assembler.pending.lookup key).isNone ∧
        MAX_PENDING_FRAGMENTS ≤ assembler.pending.size
      · exact if_pos full
      · exact (if_neg full).trans (if_pos large)
  · have notFull := fun full => refused (Or.inl full)
    have notLarge := fun large => refused (Or.inr large)
    have inserts : assembler.add now key fragId fragTotal target payload =
        assembler.insert now key fragId fragTotal target payload :=
      pruned.trans ((if_neg notFull).trans (if_neg notLarge))
    have stored := (assembler.entryOf now key fragTotal target).held_store now fragId payload
    have replaced := (assembler.entryOf now key fragTotal target).replaced_le_held fragId
    have held := assembler.entryOf_held_le now key fragTotal target
    have counted := sound.counted
    have within : assembler.bytes + payload.length ≤ MAX_PENDING_BYTES := Nat.le_of_not_lt notLarge
    rw [inserts, insert, bytesWithout_eq sound]
    simp only [Option.bind_eq_bind, Option.bind_some]
    by_cases complete :
        ((assembler.entryOf now key fragTotal target).store now fragId payload).Complete
    · have erased := assembler.held_erase now key fragTotal target
      have fits : ((assembler.entryOf now key fragTotal target).store now fragId payload).held ≤
          assembler.bytes - (assembler.entryOf now key fragTotal target).replaced fragId +
            payload.length := by omega
      rw [if_pos complete, checkedSub_of_le fits]
      refine ⟨_, _, rfl, ⟨?_, ?_, ?_⟩, Adds.completed refused complete rfl⟩
      · simp only [FragAssembler.held] at *
        omega
      · simp only
        omega
      · exact Nat.le_trans (assembler.pending.size_erase_le key) sound.size_le
    · have inserted := assembler.held_insert now key fragTotal target
        ((assembler.entryOf now key fragTotal target).store now fragId payload)
      rw [if_neg complete]
      refine ⟨_, _, rfl, ⟨?_, ?_, ?_⟩, Adds.stored refused complete rfl⟩
      · simp only [FragAssembler.held] at *
        omega
      · simp only
        omega
      · exact size_insert_le_of_admitted sound refused _

end FragAssembler

end Corduit.Engine.Outbound
