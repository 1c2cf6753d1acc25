import Corduit.Common.Timer.Steps

/-!
# Cancellation

A handle removes the entry under its own id.  That is the timer's entry only
until the first firing, and it is in the map only while its callback does not
run; what a firing puts back afterwards stays until its deadline.
-/

namespace Corduit.Common.Timer

open Collection Transition

namespace Wheel

variable {wheel : Wheel}

/-- The bookkeeping of the wheel as the module describes it. -/
def Sound (wheel : Wheel) : Prop :=
  wheel.Booked ∧ wheel.OnGrid ∧ wheel.Cleared

/-- A cancellation finds the timer as its handle knows it: when it has the lock,
the entry in the map, if there is one, has not fired; a call that finds the flag
set does not overtake the one that set it; and no cancellation has returned
between the start of a callback and the reschedule after it. -/
def Prompt (wheel : Wheel) : Action → Prop
  | .swap handle => handle ∈ wheel.removing → ¬ wheel.Holds handle
  | .remove handle => handle ∈ wheel.removing →
      ∀ id entry, wheel.inner.entries.lookup id = some entry → entry.cancelled = handle →
        entry.fires = 0
  | .schedule => ∀ entry deadline, wheel.scheduler = .rescheduling entry deadline →
      entry.cancelled ∉ wheel.returned
  | _ => True

/-- A timer whose callback is running has no entry in the map, so the callbacks
make no difference. -/
theorem Kept.cleared_iff (kept : wheel.Kept) :
    wheel.Cleared ↔ ∀ timer ∈ wheel.returned, ¬ wheel.Holds timer := by
  constructor
  · intro cleared timer member held
    refine cleared timer member ?_ held
    rintro ⟨entry, running, same⟩
    exact kept.apart timer ⟨entry, by rw [running, Scheduler.entry?], same⟩ held
  · exact fun vacated timer member _ => vacated timer member

theorem Kept.sound_iff (kept : wheel.Kept) :
    wheel.Sound ↔ ∀ timer ∈ wheel.returned, ¬ wheel.Holds timer := by
  rw [← kept.cleared_iff]
  exact ⟨fun sound => sound.2.2, fun cleared => ⟨kept.booked, kept.onGrid, cleared⟩⟩

/-- A step that leaves the returned cancellations as they are and puts nothing
into the map keeps it clear. -/
theorem vacated_of_subset {later : Wheel} (returned : later.returned = wheel.returned)
    (holds : ∀ timer, later.Holds timer → wheel.Holds timer)
    (vacated : ∀ timer ∈ wheel.returned, ¬ wheel.Holds timer) :
    ∀ timer ∈ later.returned, ¬ later.Holds timer := by
  intro timer member held
  rw [returned] at member
  exact vacated timer member (holds timer held)

theorem vacated_insert (kept : wheel.Kept) (deadline : Nat) (period : Option Nat)
    (vacated : ∀ timer ∈ wheel.returned, ¬ wheel.Holds timer) :
    ∀ timer ∈ (wheel.insert deadline period).returned,
      ¬ (wheel.insert deadline period).Holds timer := by
  intro timer member held
  rcases (@holds_book wheel (wheel.insert deadline period) _ _ _ kept.numbered rfl timer).mp held
    with rfl | held
  · exact kept.fresh (kept.cancelledIssued _ (kept.returnedCancelled _ member))
  · exact vacated timer member held

section

variable (kept : wheel.Kept) (handle : Nat)
  (vacated : ∀ timer ∈ wheel.returned, ¬ wheel.Holds timer)

include kept vacated

theorem vacated_swap_iff :
    (∀ timer ∈ (wheel.swap handle).returned, ¬ (wheel.swap handle).Holds timer) ↔
      (handle ∈ wheel.removing → ¬ wheel.Holds handle) := by
  unfold Wheel.swap
  by_cases issued : handle ∉ wheel.issued
  · rw [if_pos issued]
    refine iff_of_true vacated fun removing => absurd ?_ issued
    exact kept.cancelledIssued handle (kept.removingCancelled handle removing)
  rw [if_neg issued]
  by_cases set : handle ∈ wheel.cancelled
  · rw [if_pos set]
    constructor
    · exact fun vacated _ => vacated handle List.mem_cons_self
    · intro clear timer member
      rcases List.mem_cons.mp member with rfl | member
      · exact (kept.cancelledKnown timer set).elim clear (vacated timer)
      · exact vacated timer member
  · rw [if_neg set]
    exact iff_of_true vacated fun removing =>
      absurd (kept.removingCancelled handle removing) set

theorem vacated_remove_iff :
    (∀ timer ∈ (wheel.remove handle).returned, ¬ (wheel.remove handle).Holds timer) ↔
      (handle ∈ wheel.removing → ∀ id entry, wheel.inner.entries.lookup id = some entry →
        entry.cancelled = handle → entry.fires = 0) := by
  unfold Wheel.remove
  by_cases removing : handle ∈ wheel.removing
  · rw [if_pos removing]
    have issued := kept.cancelledIssued handle (kept.removingCancelled handle removing)
    have lookup : ∀ id, (wheel.inner.entries.erase handle).lookup id =
        if id = handle then none else wheel.inner.entries.lookup id := fun id =>
      Table.lookup_erase_eq wheel.inner.entries handle id
    constructor
    · intro cleared _ id entry found same
      by_contra fired
      have other : id ≠ handle := by
        rintro rfl
        exact kept.numbered.renamed id entry found (Nat.pos_of_ne_zero fired) issued
      refine cleared handle List.mem_cons_self ⟨id, entry, (lookup id).trans ?_, same⟩
      rw [if_neg other, found]
    · rintro unfired timer member ⟨id, entry, found, rfl⟩
      replace found := (lookup id).symm.trans found
      by_cases removed : id = handle
      · rw [if_pos removed] at found
        cases found
      rw [if_neg removed] at found
      rcases List.mem_cons.mp member with same | member
      · exact removed ((kept.numbered.named id entry found
          (unfired removing id entry found same)).trans same)
      · exact vacated entry.cancelled member ⟨id, entry, found, rfl⟩
  · rw [if_neg removing]
    exact iff_of_true vacated fun member => absurd member removing

end

theorem holds_of_take {node : Node} {heap : PriorityQueue Node} {timer : Nat}
    (held : (wheel.take node heap).Holds timer) : wheel.Holds timer := by
  unfold Wheel.take at held
  cases stored : wheel.inner.entries.lookup node.id with
  | none =>
      rw [stored] at held
      exact held
  | some entry =>
      simp only [stored] at held
      have left : ∃ id other, (wheel.inner.entries.erase node.id).lookup id = some other ∧
          other.cancelled = timer := by
        split at held
        · exact held
        · exact held
      rcases left with ⟨id, other, found, same⟩
      rw [Table.lookup_erase_eq] at found
      split at found
      · cases found
      · exact ⟨id, other, found, same⟩

theorem returned_take (node : Node) (heap : PriorityQueue Node) :
    (wheel.take node heap).returned = wheel.returned := by
  unfold Wheel.take
  cases stored : wheel.inner.entries.lookup node.id with
  | none => rfl
  | some entry =>
      dsimp only
      split <;> rfl

theorem vacated_look (vacated : ∀ timer ∈ wheel.returned, ¬ wheel.Holds timer) :
    ∀ timer ∈ wheel.look.returned, ¬ wheel.look.Holds timer := by
  unfold Wheel.look
  split
  · exact vacated
  · split
    · exact vacated
    · split
      · exact vacated
      · exact vacated_of_subset (returned_take _ _) (fun timer => holds_of_take) vacated

/-- Only a reschedule puts an entry back. -/
theorem vacated_run_iff (kept : wheel.Kept)
    (vacated : ∀ timer ∈ wheel.returned, ¬ wheel.Holds timer) :
    (∀ timer ∈ wheel.run.returned, ¬ wheel.run.Holds timer) ↔
      (∀ entry deadline, wheel.scheduler = .rescheduling entry deadline →
        entry.cancelled ∉ wheel.returned) := by
  unfold Wheel.run
  cases phase : wheel.scheduler with
  | waiting => exact iff_of_true (vacated_look vacated) (fun _ _ here => nomatch here)
  | running entry => exact iff_of_true vacated (fun _ _ here => nomatch here)
  | advancing entry period deadline => exact iff_of_true vacated (fun _ _ here => nomatch here)
  | rescheduling entry deadline =>
      have holds := @holds_book wheel (wheel.reschedule entry deadline) _ _ _ kept.numbered rfl
      constructor
      · intro clear taken deadline' same member
        cases same
        exact clear entry.cancelled member ((holds _).mpr (Or.inl rfl))
      · intro unreturned timer member held
        rcases (holds timer).mp held with rfl | held
        · exact unreturned entry deadline rfl member
        · exact vacated timer member held
  | stopped | unwound => exact iff_of_true vacated (fun _ _ here => nomatch here)

/-- A step leaves the map clear exactly if it meets the condition. -/
theorem Kept.sound_next_iff (kept : wheel.Kept) (sound : wheel.Sound) (action : Action) :
    (wheel.next action).Sound ↔ wheel.Prompt action := by
  rw [(kept.next action).sound_iff]
  have vacated := kept.sound_iff.mp sound
  cases action with
  | after now delay =>
      refine iff_of_true ?_ trivial
      unfold Wheel.next
      by_cases read : now ≤ wheel.clock
      · simp only [if_pos read]
        exact vacated_insert kept (now + delay) none vacated
      · simp only [if_neg read]
        exact vacated
  | every now period =>
      refine iff_of_true ?_ trivial
      unfold Wheel.next
      by_cases read : now ≤ wheel.clock
      · simp only [if_pos read]
        exact vacated_insert kept (now + period) (some period) vacated
      · simp only [if_neg read]
        exact vacated
  | swap handle => exact vacated_swap_iff kept handle vacated
  | remove handle => exact vacated_remove_iff kept handle vacated
  | schedule => exact vacated_run_iff kept vacated
  | unwind =>
      refine iff_of_true ?_ trivial
      change ∀ timer ∈ wheel.unwind.returned, ¬ wheel.unwind.Holds timer
      unfold Wheel.unwind
      split <;> exact vacated
  | shutDown => exact iff_of_true vacated trivial
  | elapse time => exact iff_of_true vacated trivial

/-- Every timer is booked and on its grid in every run; a run leaves nothing of
a cancelled timer behind exactly if every step finds the timer as its handle
knows it. -/
theorem runAlways_sound_iff (clock : Nat) (actions : List Action) :
    RunAlways next Sound (new clock) actions ↔ RunMeets next Prompt (new clock) actions := by
  have initially : (new clock).Sound :=
    (Kept.new clock).sound_iff.mpr fun _ member => nomatch member
  refine runAlways_iff_runMeets (fun wheel : Wheel => wheel.Kept ∧ wheel.Sound)
    (fun _ both => both.2) ?_ ?_ ⟨Kept.new clock, initially⟩
  · exact fun wheel action both => both.1.sound_next_iff both.2 action
  · exact fun wheel action both prompt =>
      ⟨both.1.next action, (both.1.sound_next_iff both.2 action).mpr prompt⟩

/-- A repeating timer that is cancelled after its first firing stays in the map. -/
theorem not_runAlways_sound_fired :
    ¬ RunAlways next Sound (new 0)
      [.every 0 5, .elapse 5, .schedule, .schedule, .schedule, .schedule, .swap 1,
        .remove 1] := by
  intro always
  have sound := run_of_runAlways always
  refine sound.2.2 1 (by decide) ?_ ⟨2, ⟨1, some 5, 5, 1⟩, by decide, rfl⟩
  rintro ⟨entry, running, _⟩
  cases running

end Wheel

end Corduit.Common.Timer
