import Mathlib.Algebra.Order.Ring.Nat
import Mathlib.Data.Prod.Lex
import Corduit.Collection.PriorityQueue
import Corduit.Collection.Table
import Corduit.Transition.Core

/-!
# Schedules

What a timer is asked for: an instant, and a period when it is to fire again
and again.  The instants of a schedule form a grid; by a given time a timer may
have fired as often as there are points of its grid behind it.
-/

namespace Corduit.Common.Timer

/-- When a timer is to fire for the first time, and with which period. -/
structure Schedule where
  first : Nat
  period : Option Nat
deriving DecidableEq

namespace Schedule

variable {schedule : Schedule} {instant later : Nat}

/-- The points of the grid: only the first one when there is no period. -/
def OnGrid (schedule : Schedule) (instant : Nat) : Prop :=
  ∃ k, instant = schedule.first + k * schedule.period.getD 0

/-- How many points of the grid are not after an instant. -/
def dueBy (schedule : Schedule) (instant : Nat) : Nat :=
  if instant < schedule.first then 0
  else (instant - schedule.first) / schedule.period.getD 0 + 1

theorem onGrid_first (schedule : Schedule) : schedule.OnGrid schedule.first :=
  ⟨0, by omega⟩

theorem OnGrid.next {period : Nat} (onGrid : schedule.OnGrid instant)
    (repeating : schedule.period = some period) : schedule.OnGrid (instant + period) := by
  rcases onGrid with ⟨k, rfl⟩
  refine ⟨k + 1, ?_⟩
  rw [repeating, Option.getD_some, Nat.succ_mul]
  omega

theorem first_le_of_onGrid (onGrid : schedule.OnGrid instant) : schedule.first ≤ instant := by
  rcases onGrid with ⟨k, rfl⟩
  exact Nat.le_add_right _ _

theorem dueBy_mono (schedule : Schedule) (le : instant ≤ later) :
    schedule.dueBy instant ≤ schedule.dueBy later := by
  unfold dueBy
  by_cases early : instant < schedule.first
  · rw [if_pos early]
    exact Nat.zero_le _
  · rw [if_neg early, if_neg (by omega)]
    exact Nat.succ_le_succ (Nat.div_le_div_right (by omega))

theorem dueBy_first (schedule : Schedule) : schedule.dueBy schedule.first = 1 := by
  simp [dueBy]

/-- Every point of the grid allows one more firing than the time before it. -/
theorem dueBy_lt_of_onGrid (onGrid : schedule.OnGrid later) (before : instant < later) :
    schedule.dueBy instant < schedule.dueBy later := by
  have started := first_le_of_onGrid onGrid
  rcases onGrid with ⟨k, rfl⟩
  unfold dueBy
  rw [if_neg (Nat.not_lt.mpr started), Nat.add_sub_cancel_left]
  by_cases early : instant < schedule.first
  · rw [if_pos early]
    exact Nat.succ_pos _
  · rw [if_neg early]
    rcases Nat.eq_zero_or_pos (schedule.period.getD 0) with zero | positive
    · rw [zero] at before
      omega
    · rw [Nat.mul_div_cancel k positive]
      have behind : instant - schedule.first < k * schedule.period.getD 0 := by omega
      exact Nat.succ_lt_succ ((Nat.div_lt_iff_lt_mul positive).mpr behind)

end Schedule

/-!
# The timer wheel

A scheduler thread sleeps until the least deadline of a heap, takes the entry
of the node out of a map and runs its job without the lock.  A repeating entry
then goes back into both under a new id, at the next point of its grid.  A
handle keeps the id of its first entry and a flag that it shares with the entry.

Sections under the lock are single steps; between them the scheduler and any
number of callers interleave freely.
-/

open Collection

/-- A node of the heap: a deadline and an id. -/
abbrev Node := Nat ×ₗ Nat

/-- The deadline of a node. -/
def Node.deadline (node : Node) : Nat :=
  (ofLex node).1

/-- The id of a node. -/
def Node.id (node : Node) : Nat :=
  (ofLex node).2

/-- A live entry.  The flag and the job are named by the id of the handle. -/
structure Entry where
  cancelled : Nat
  period : Option Nat
  anchor : Nat
  fires : Nat
deriving DecidableEq

/-- What the lock guards. -/
structure Inner where
  heap : PriorityQueue Node := .empty
  entries : Table Nat Entry := ∅
  nextId : Nat := 0
  shutdown : Bool := false

/-- Enter an entry under the next id. -/
def Inner.book (inner : Inner) (deadline : Nat) (entry : Entry) : Inner :=
  { inner with
    heap := inner.heap.push (toLex (deadline, inner.nextId + 1))
    entries := inner.entries.insert (inner.nextId + 1) entry
    nextId := inner.nextId + 1 }

/-- Where the scheduler's thread is: it waits or looks for a due entry, runs a
job, looks for the next deadline, has it and asks for the lock; it has returned,
or a job has unwound it. -/
inductive Scheduler where
  | waiting
  | running (entry : Entry)
  | advancing (entry : Entry) (period deadline : Nat)
  | rescheduling (entry : Entry) (deadline : Nat)
  | stopped
  | unwound
deriving DecidableEq

/-- The entry that the scheduler has taken out of the map. -/
def Scheduler.entry? : Scheduler → Option Entry
  | waiting | stopped | unwound => none
  | running entry | advancing entry _ _ | rescheduling entry _ => some entry

/-- A timer with its threads: the flags that are set, the calls of `cancel` that
have set a flag and still wait for the lock, and a record of what was asked for
and what happened. -/
structure Wheel where
  inner : Inner := {}
  scheduler : Scheduler := .waiting
  clock : Nat := 0
  cancelled : List Nat := []
  removing : List Nat := []
  issued : Table Nat Schedule := ∅
  started : List Nat := []
  finished : List (Nat × Nat) := []
  returned : List Nat := []

/-- A step of a thread or of the clock.  `after` and `every` carry the reading
of the clock that they took before they had the lock; `swap` and `remove` are
the two halves of `cancel`, which dropping a handle performs as well. -/
inductive Action where
  | after (now delay : Nat)
  | every (now period : Nat)
  | swap (handle : Nat)
  | remove (handle : Nat)
  | schedule
  | unwind
  | shutDown
  | elapse (time : Nat)
deriving DecidableEq

namespace Wheel

/-- A timer with a new id. -/
def insert (wheel : Wheel) (deadline : Nat) (period : Option Nat) : Wheel :=
  let id := wheel.inner.nextId + 1
  { wheel with
    inner := wheel.inner.book deadline ⟨id, period, deadline, 0⟩
    issued := wheel.issued.insert id ⟨deadline, period⟩ }

/-- `TimerHandle::cancel` as far as the flag: the first call goes on to the
lock, every other call returns. -/
def swap (wheel : Wheel) (handle : Nat) : Wheel :=
  if handle ∉ wheel.issued then wheel
  else if handle ∈ wheel.cancelled then
    { wheel with returned := handle :: wheel.returned }
  else
    { wheel with
      cancelled := handle :: wheel.cancelled
      removing := handle :: wheel.removing }

/-- `TimerHandle::cancel` under the lock. -/
def remove (wheel : Wheel) (handle : Nat) : Wheel :=
  if handle ∈ wheel.removing then
    { wheel with
      inner := { wheel.inner with entries := wheel.inner.entries.erase handle }
      removing := wheel.removing.erase handle
      returned := handle :: wheel.returned }
  else wheel

/-- The scheduler takes the entry of a due node out of the map, unless a
cancellation has, and drops it when its flag is set. -/
def take (wheel : Wheel) (node : Node) (heap : PriorityQueue Node) : Wheel :=
  match wheel.inner.entries.lookup node.id with
  | none => { wheel with inner := { wheel.inner with heap := heap } }
  | some entry =>
      let taken : Wheel :=
        { wheel with
          inner :=
            { wheel.inner with
              heap := heap
              entries := wheel.inner.entries.erase node.id } }
      if entry.cancelled ∈ wheel.cancelled then taken
      else
        { taken with
          scheduler := .running entry
          started := entry.cancelled :: wheel.started }

/-- The scheduler under the lock, until it waits or has a job to run. -/
def look (wheel : Wheel) : Wheel :=
  if wheel.inner.shutdown then { wheel with scheduler := .stopped }
  else
    match wheel.inner.heap.pop? with
    | none => wheel
    | some (node, heap) => if wheel.clock < node.deadline then wheel else wheel.take node heap

/-- The job has returned. -/
def finish (wheel : Wheel) (entry : Entry) : Wheel :=
  let entry := { entry with fires := entry.fires + 1 }
  { wheel with
    finished := (entry.cancelled, wheel.clock) :: wheel.finished
    scheduler :=
      match entry.period with
      | none => .waiting
      | some period => .advancing entry period (entry.anchor + period) }

/-- One test of `while deadline <= Instant::now()`. -/
def advance (wheel : Wheel) (entry : Entry) (period deadline : Nat) : Wheel :=
  { wheel with
    scheduler :=
      if deadline ≤ wheel.clock then .advancing entry period (deadline + period)
      else .rescheduling { entry with anchor := deadline - period } deadline }

/-- The entry goes back under the lock. -/
def reschedule (wheel : Wheel) (entry : Entry) (deadline : Nat) : Wheel :=
  { wheel with inner := wheel.inner.book deadline entry, scheduler := .waiting }

/-- `Timer::run`, one step. -/
def run (wheel : Wheel) : Wheel :=
  match wheel.scheduler with
  | .waiting => wheel.look
  | .running entry => wheel.finish entry
  | .advancing entry period deadline => wheel.advance entry period deadline
  | .rescheduling entry deadline => wheel.reschedule entry deadline
  | .stopped | .unwound => wheel

/-- The job panics, and the scheduler's thread with it. -/
def unwind (wheel : Wheel) : Wheel :=
  match wheel.scheduler with
  | .running _ => { wheel with scheduler := .unwound }
  | _ => wheel

/-- The next state.  A reading of the clock is never ahead of it. -/
def next (wheel : Wheel) : Action → Wheel
  | .after now delay => if now ≤ wheel.clock then wheel.insert (now + delay) none else wheel
  | .every now period =>
      if now ≤ wheel.clock then wheel.insert (now + period) (some period) else wheel
  | .swap handle => wheel.swap handle
  | .remove handle => wheel.remove handle
  | .schedule => wheel.run
  | .unwind => wheel.unwind
  | .shutDown => { wheel with inner := { wheel.inner with shutdown := true } }
  | .elapse time => { wheel with clock := wheel.clock + time }

/-- A new timer. -/
def new (clock : Nat) : Wheel :=
  { clock := clock }

/-- The map holds an entry of the timer. -/
def Holds (wheel : Wheel) (timer : Nat) : Prop :=
  ∃ id entry, wheel.inner.entries.lookup id = some entry ∧ entry.cancelled = timer

/-- The scheduler has the timer's entry in its hands. -/
def HandsOn (wheel : Wheel) (timer : Nat) : Prop :=
  ∃ entry, wheel.scheduler.entry? = some entry ∧ entry.cancelled = timer

/-- A callback of the timer is running. -/
def Running (wheel : Wheel) (timer : Nat) : Prop :=
  ∃ entry, wheel.scheduler = .running entry ∧ entry.cancelled = timer

/-- The timer still has to fire: it is not cancelled and, if it fires only once,
has not started to.  Nothing fires any more once a job has unwound the thread. -/
def Live (wheel : Wheel) (timer : Nat) : Prop :=
  ∃ schedule, wheel.issued.lookup timer = some schedule ∧ timer ∉ wheel.cancelled ∧
    (schedule.period = none → timer ∉ wheel.started) ∧ wheel.scheduler ≠ .unwound

/-- Every entry has one node, no live timer is lost, and no job has run more
often than its schedule says. -/
structure Booked (wheel : Wheel) : Prop where
  oneNode : ∀ id entry, wheel.inner.entries.lookup id = some entry →
    wheel.inner.heap.elements.countP (fun node => node.id = id) = 1
  noneLost : ∀ timer, wheel.Live timer → wheel.Holds timer ∨ wheel.HandsOn timer
  notOften : ∀ timer schedule, wheel.issued.lookup timer = some schedule →
    wheel.started.count timer ≤ schedule.dueBy wheel.clock

/-- The node of every entry lies on the grid of its timer, and after every
callback of the timer that has finished. -/
def OnGrid (wheel : Wheel) : Prop :=
  ∀ node ∈ wheel.inner.heap.elements, ∀ entry,
    wheel.inner.entries.lookup node.id = some entry →
    (∃ schedule, wheel.issued.lookup entry.cancelled = some schedule ∧
      schedule.period = entry.period ∧ schedule.OnGrid node.deadline) ∧
    ∀ finish ∈ wheel.finished, finish.1 = entry.cancelled → finish.2 < node.deadline

/-- Once a cancellation has returned and no callback of the timer is running,
the map holds no entry of the timer. -/
def Cleared (wheel : Wheel) : Prop :=
  ∀ timer ∈ wheel.returned, ¬ wheel.Running timer → ¬ wheel.Holds timer

end Wheel

end Corduit.Common.Timer
