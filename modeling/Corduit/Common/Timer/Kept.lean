import Corduit.Common.Timer.Core

/-!
# What the wheel keeps

Ids are given out once, so the map never has two entries under one node; the
timers of the entries are told apart by their flags.  A pending deadline leaves
room on its grid for one more firing, and lies after everything that its timer
has finished.
-/

namespace Corduit.Common.Timer

open Collection

@[simp]
theorem Node.id_toLex (deadline id : Nat) : Node.id (toLex (deadline, id)) = id :=
  rfl

/-- Ids count up, nodes have different ones, every entry has a node, and an
entry is under the id of its handle exactly before it has fired. -/
structure Numbered (inner : Inner) (issued : Table Nat Schedule) : Prop where
  below : ∀ node ∈ inner.heap.elements, node.id ≤ inner.nextId
  distinct : (inner.heap.elements.map Node.id).Nodup
  hasNode : ∀ id entry, inner.entries.lookup id = some entry →
    ∃ node ∈ inner.heap.elements, node.id = id
  issuedBelow : ∀ timer ∈ issued, timer ≤ inner.nextId
  named : ∀ id entry, inner.entries.lookup id = some entry → entry.fires = 0 →
    id = entry.cancelled
  renamed : ∀ id entry, inner.entries.lookup id = some entry → 0 < entry.fires → id ∉ issued

namespace Numbered

variable {inner : Inner} {issued : Table Nat Schedule}

section

variable (numbered : Numbered inner issued)

include numbered

theorem id_le {id : Nat} {entry : Entry} (found : inner.entries.lookup id = some entry) :
    id ≤ inner.nextId := by
  rcases numbered.hasNode id entry found with ⟨node, waits, rfl⟩
  exact numbered.below node waits

/-- A node that goes with an id is the only one. -/
theorem countP_eq_one {id : Nat} {entry : Entry} (found : inner.entries.lookup id = some entry) :
    inner.heap.elements.countP (fun node => node.id = id) = 1 := by
  rcases numbered.hasNode id entry found with ⟨node, waits, same⟩
  have member : id ∈ inner.heap.elements.map Node.id := List.mem_map.mpr ⟨node, waits, same⟩
  have once := List.count_eq_one_of_mem numbered.distinct member
  rw [List.count, List.countP_map] at once
  exact once

theorem lookup_book {deadline id : Nat} {entry found : Entry} :
    (inner.book deadline entry).entries.lookup id = some found ↔
      id = inner.nextId + 1 ∧ found = entry ∨ inner.entries.lookup id = some found := by
  have stored : (inner.book deadline entry).entries.lookup id =
      if id = inner.nextId + 1 then some entry else inner.entries.lookup id :=
    Table.lookup_insert_eq inner.entries (inner.nextId + 1) id entry
  rw [stored]
  by_cases same : id = inner.nextId + 1
  · rw [if_pos same]
    constructor
    · intro equal
      exact Or.inl ⟨same, (Option.some.inj equal).symm⟩
    · rintro (⟨_, rfl⟩ | old)
      · rfl
      · have le := numbered.id_le old
        omega
  · rw [if_neg same]
    exact ⟨Or.inr, fun either => either.resolve_left fun new => same new.1⟩

/-- The entry of a node is the new one exactly for the new node. -/
theorem waits_book {deadline : Nat} {node : Node} {entry found : Entry}
    (waits : node ∈ (inner.book deadline entry).heap.elements)
    (booked : (inner.book deadline entry).entries.lookup node.id = some found) :
    node.deadline = deadline ∧ found = entry ∨
      node ∈ inner.heap.elements ∧ inner.entries.lookup node.id = some found := by
  rcases PriorityQueue.mem_push.mp waits with rfl | waits
  · rcases numbered.lookup_book.mp booked with ⟨_, rfl⟩ | old
    · exact Or.inl ⟨rfl, rfl⟩
    · have le := numbered.id_le old
      rw [Node.id_toLex] at le
      omega
  · rcases numbered.lookup_book.mp booked with ⟨new, _⟩ | old
    · have le := numbered.below node waits
      omega
    · exact Or.inr ⟨waits, old⟩

end

theorem book {later : Table Nat Schedule} {entry : Entry} (numbered : Numbered inner issued)
    (deadline : Nat) (issuedBelow : ∀ timer ∈ later, timer ≤ inner.nextId + 1)
    (same : ∀ timer ≤ inner.nextId, timer ∈ later → timer ∈ issued)
    (named : entry.fires = 0 → inner.nextId + 1 = entry.cancelled)
    (renamed : 0 < entry.fires → inner.nextId + 1 ∉ later) :
    Numbered (inner.book deadline entry) later := by
  have perm := inner.heap.perm_push (toLex (deadline, inner.nextId + 1))
  refine ⟨?_, ?_, ?_, issuedBelow, ?_, ?_⟩
  · intro node waits
    rcases PriorityQueue.mem_push.mp waits with rfl | waits
    · exact Nat.le_refl _
    · exact Nat.le_succ_of_le (numbered.below node waits)
  · refine ((perm.map Node.id).nodup_iff).mpr (List.nodup_cons.mpr ⟨?_, numbered.distinct⟩)
    intro member
    rcases List.mem_map.mp member with ⟨node, waits, equal⟩
    have below := numbered.below node waits
    rw [equal, Node.id_toLex] at below
    omega
  · refine Table.forall_lookup_insert ?_ ?_
    · exact ⟨_, PriorityQueue.mem_push.mpr (Or.inl rfl), rfl⟩
    · intro id other found
      rcases numbered.hasNode id other found with ⟨node, waits, equal⟩
      exact ⟨node, PriorityQueue.mem_push.mpr (Or.inr waits), equal⟩
  · exact Table.forall_lookup_insert named numbered.named
  · refine Table.forall_lookup_insert renamed ?_
    intro id other found fired member
    exact numbered.renamed id other found fired (same id (numbered.id_le found) member)

theorem pop {node : Node} {heap : PriorityQueue Node} {entries : Table Nat Entry}
    (numbered : Numbered inner issued) (popped : inner.heap.pop? = some (node, heap))
    (stays : ∀ id entry, entries.lookup id = some entry →
      id ≠ node.id ∧ inner.entries.lookup id = some entry) :
    Numbered { inner with heap := heap, entries := entries } issued := by
  have elements := PriorityQueue.elements_of_pop? popped
  have waits_of : ∀ {other}, other ∈ heap.elements → other ∈ inner.heap.elements := by
    intro other waits
    rw [elements]
    exact List.mem_cons_of_mem node waits
  refine ⟨?_, ?_, ?_, numbered.issuedBelow, ?_, ?_⟩
  · exact fun other waits => numbered.below other (waits_of waits)
  · have distinct := numbered.distinct
    rw [elements] at distinct
    exact (List.nodup_cons.mp distinct).2
  · intro id entry found
    rcases stays id entry found with ⟨other, found⟩
    rcases numbered.hasNode id entry found with ⟨waiting, waits, rfl⟩
    rw [elements] at waits
    rcases List.mem_cons.mp waits with rfl | waits
    · exact absurd rfl other
    · exact ⟨waiting, waits, rfl⟩
  · exact fun id entry found => numbered.named id entry (stays id entry found).2
  · exact fun id entry found => numbered.renamed id entry (stays id entry found).2

theorem erase (numbered : Numbered inner issued) (id : Nat) :
    Numbered { inner with entries := inner.entries.erase id } issued := by
  have stays : ∀ other entry, (inner.entries.erase id).lookup other = some entry →
      inner.entries.lookup other = some entry := by
    intro other entry found
    rw [Table.lookup_erase_eq] at found
    split at found
    · cases found
    · exact found
  exact
    { numbered with
      hasNode := fun other entry found => numbered.hasNode other entry (stays other entry found)
      named := fun other entry found => numbered.named other entry (stays other entry found)
      renamed := fun other entry found => numbered.renamed other entry (stays other entry found) }

end Numbered

namespace Wheel

/-- The entry is one of a timer with this schedule, and its anchor is on the grid. -/
def Known (wheel : Wheel) (entry : Entry) (schedule : Schedule) : Prop :=
  wheel.issued.lookup entry.cancelled = some schedule ∧ schedule.period = entry.period ∧
    schedule.OnGrid entry.anchor

/-- The entry may wait for this deadline: it is on the grid and after every
callback of the timer, and the timer has fired less often than it may by then. -/
def Pending (wheel : Wheel) (entry : Entry) (deadline : Nat) : Prop :=
  (∃ schedule, wheel.Known entry schedule ∧ schedule.OnGrid deadline ∧
    wheel.started.count entry.cancelled < schedule.dueBy deadline) ∧
  ∀ finish ∈ wheel.finished, finish.1 = entry.cancelled → finish.2 < deadline

/-- What the scheduler knows about the entry that it has taken out. -/
def InHands (wheel : Wheel) : Scheduler → Prop
  | .waiting | .stopped | .unwound => True
  | .running entry => (∃ schedule, wheel.Known entry schedule) ∧ entry.cancelled ∈ wheel.started
  | .advancing entry period deadline =>
      0 < entry.fires ∧ entry.period = some period ∧
        ∃ schedule before, wheel.Known entry schedule ∧ schedule.OnGrid before ∧
          deadline = before + period
  | .rescheduling entry deadline => 0 < entry.fires ∧ wheel.Pending entry deadline

/-- The invariant of the wheel. -/
structure Kept (wheel : Wheel) : Prop where
  numbered : Numbered wheel.inner wheel.issued
  pending : ∀ node ∈ wheel.inner.heap.elements, ∀ entry,
    wheel.inner.entries.lookup node.id = some entry → wheel.Pending entry node.deadline
  inHands : wheel.InHands wheel.scheduler
  notOften : ∀ timer schedule, wheel.issued.lookup timer = some schedule →
    wheel.started.count timer ≤ schedule.dueBy wheel.clock
  startedIssued : ∀ timer ∈ wheel.started, timer ∈ wheel.issued
  finishedIssued : ∀ finish ∈ wheel.finished, finish.1 ∈ wheel.issued
  finishedBy : ∀ finish ∈ wheel.finished, finish.2 ≤ wheel.clock
  single : ∀ id other entry entry', wheel.inner.entries.lookup id = some entry →
    wheel.inner.entries.lookup other = some entry' → entry.cancelled = entry'.cancelled →
    id = other
  apart : ∀ timer, wheel.HandsOn timer → ¬ wheel.Holds timer
  noneLost : ∀ timer, wheel.Live timer → wheel.Holds timer ∨ wheel.HandsOn timer
  cancelledIssued : ∀ timer ∈ wheel.cancelled, timer ∈ wheel.issued
  removingCancelled : ∀ timer ∈ wheel.removing, timer ∈ wheel.cancelled
  returnedCancelled : ∀ timer ∈ wheel.returned, timer ∈ wheel.cancelled
  cancelledKnown : ∀ timer ∈ wheel.cancelled, timer ∈ wheel.removing ∨ timer ∈ wheel.returned

variable {wheel later : Wheel} {entry : Entry} {schedule : Schedule} {deadline : Nat}

theorem Pending.mono (pending : wheel.Pending entry deadline)
    (issued : ∀ schedule, wheel.issued.lookup entry.cancelled = some schedule →
      later.issued.lookup entry.cancelled = some schedule)
    (started : later.started.count entry.cancelled = wheel.started.count entry.cancelled)
    (finished : ∀ finish ∈ later.finished, finish.1 = entry.cancelled →
      finish ∈ wheel.finished) : later.Pending entry deadline := by
  rcases pending with ⟨⟨schedule, ⟨found, known⟩, onGrid, less⟩, after⟩
  refine ⟨⟨schedule, ⟨issued schedule found, known⟩, onGrid, ?_⟩, ?_⟩
  · rw [started]
    exact less
  · exact fun finish member same => after finish (finished finish member same) same

theorem holds_book {issued : Table Nat Schedule} (numbered : Numbered wheel.inner issued)
    (booked : later.inner = wheel.inner.book deadline entry) (timer : Nat) :
    later.Holds timer ↔ timer = entry.cancelled ∨ wheel.Holds timer := by
  unfold Holds
  rw [booked]
  constructor
  · rintro ⟨id, found, stored, rfl⟩
    rcases numbered.lookup_book.mp stored with ⟨_, rfl⟩ | old
    · exact Or.inl rfl
    · exact Or.inr ⟨id, found, old, rfl⟩
  · rintro (rfl | ⟨id, found, old, rfl⟩)
    · exact ⟨_, entry, numbered.lookup_book.mpr (Or.inl ⟨rfl, rfl⟩), rfl⟩
    · exact ⟨id, found, numbered.lookup_book.mpr (Or.inr old), rfl⟩

namespace Kept

theorem single_book (kept : wheel.Kept) (absent : ¬ wheel.Holds entry.cancelled)
    {id other : Nat} {first second : Entry}
    (found : (wheel.inner.book deadline entry).entries.lookup id = some first)
    (found' : (wheel.inner.book deadline entry).entries.lookup other = some second)
    (same : first.cancelled = second.cancelled) : id = other := by
  rcases kept.numbered.lookup_book.mp found with ⟨rfl, rfl⟩ | old
  · rcases kept.numbered.lookup_book.mp found' with ⟨rfl, _⟩ | old'
    · rfl
    · exact absurd ⟨other, second, old', same.symm⟩ absent
  · rcases kept.numbered.lookup_book.mp found' with ⟨_, rfl⟩ | old'
    · exact absurd ⟨id, first, old, same⟩ absent
    · exact kept.single id other first second old old' same

theorem issued_of_lookup (kept : wheel.Kept) {id : Nat}
    (found : wheel.inner.entries.lookup id = some entry) :
    ∃ schedule, wheel.issued.lookup entry.cancelled = some schedule := by
  rcases kept.numbered.hasNode id entry found with ⟨node, waits, rfl⟩
  rcases kept.pending node waits entry found with ⟨⟨schedule, ⟨issued, _⟩, _⟩, _⟩
  exact ⟨schedule, issued⟩

theorem issued_of_inHands (kept : wheel.Kept) (taken : wheel.scheduler.entry? = some entry) :
    ∃ schedule, wheel.issued.lookup entry.cancelled = some schedule := by
  have inHands := kept.inHands
  cases phase : wheel.scheduler with
  | waiting | stopped | unwound =>
      rw [phase] at taken
      cases taken
  | running held =>
      rw [phase] at taken inHands
      cases taken
      rcases inHands with ⟨⟨schedule, issued, _⟩, _⟩
      exact ⟨schedule, issued⟩
  | advancing held period deadline =>
      rw [phase] at taken inHands
      cases taken
      rcases inHands with ⟨_, _, schedule, _, ⟨issued, _⟩, _⟩
      exact ⟨schedule, issued⟩
  | rescheduling held deadline =>
      rw [phase] at taken inHands
      cases taken
      rcases inHands with ⟨_, ⟨schedule, ⟨issued, _⟩, _⟩, _⟩
      exact ⟨schedule, issued⟩

theorem new (clock : Nat) : (Wheel.new clock).Kept where
  numbered :=
    { below := fun _ waits => nomatch waits
      distinct := List.nodup_nil
      hasNode := fun _ _ found => nomatch found
      issuedBelow := fun _ member => nomatch member
      named := fun _ _ found => nomatch found
      renamed := fun _ _ found => nomatch found }
  pending := fun _ waits => nomatch waits
  inHands := trivial
  notOften := fun _ _ found => nomatch found
  startedIssued := fun _ member => nomatch member
  finishedIssued := fun _ member => nomatch member
  finishedBy := fun _ member => nomatch member
  single := fun _ _ _ _ found => nomatch found
  apart := by
    rintro timer ⟨entry, taken, _⟩
    cases taken
  noneLost := by
    rintro timer ⟨schedule, found, _⟩
    cases found
  cancelledIssued := fun _ member => nomatch member
  removingCancelled := fun _ member => nomatch member
  returnedCancelled := fun _ member => nomatch member
  cancelledKnown := fun _ member => nomatch member

end Kept

end Wheel

end Corduit.Common.Timer
